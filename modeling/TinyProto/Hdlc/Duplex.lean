import TinyProto.Hdlc.Channel

namespace TinyProto

open Lib Function

namespace Hdlc

variable {h h' : Hdlc} {data wire : Bytes}

theorem onFrameRead_foldl_frameSent (frames : List Bytes) (h : Hdlc) :
    (frames.foldl frameSent h).onFrameRead = h.onFrameRead := by
  induction frames generalizing h with
  | nil => rfl
  | cons frame frames ih => exact ih (h.frameSent frame)

theorem onFrameRead_foldl_frameRead (frames : List Bytes) (h : Hdlc) :
    (frames.foldl frameRead h).onFrameRead = h.onFrameRead.map (· ++ frames) := by
  induction frames generalizing h with
  | nil => simp
  | cons frame frames ih =>
    rw [List.foldl_cons, ih, frameRead, Option.map_map]
    simp [Function.comp_def]

theorem onFrameRead_deliverSent (h : Hdlc) : h.deliverSent.onFrameRead = h.onFrameRead :=
  onFrameRead_foldl_frameSent ..

theorem onFrameRead_sendLoop (timeoutMs : UInt32) (turns : List Turn) {h : Hdlc}
    {result : TinyResult Unit} {wire : Bytes}
    (hrun : h.sendLoop timeoutMs turns = some (h', result, wire)) :
    h'.onFrameRead = h.onFrameRead := by
  induction turns generalizing h result wire with
  | nil => cases hrun
  | cons turn turns ih =>
    rw [sendLoop] at hrun
    split at hrun
    · cases hrun
    split at hrun
    · cases hrun
    split at hrun
    · cases hrun
      rfl
    split at hrun
    · cases hrun
      rfl
    split at hrun
    · cases hrun
      rfl
    · obtain ⟨⟨h₁, result₁, wire₁⟩, hloop, hround⟩ := Option.map_eq_some_iff.mp hrun
      cases hround
      exact (ih hloop).trans rfl

structure Emits (h h' : Hdlc) (new : Option Bytes) (wire : Bytes) : Prop where
  ok : h'.ll.TxOk
  frame_rule : h'.ll.eraseTx = h.ll.eraseTx
  reader : h'.onFrameRead = h.onFrameRead
  rest : wire ++ h'.ll.txRest = h.ll.txRest ++ new.toList.flatMap (wireFrame h.ll.crcType)
  nonempty : ∀ frame ∈ new, frame ≠ []

/-- The call did not give its frame up half way. -/
def Kept : TinyResult Unit → Bool
  | .ok () => true
  | .error e => e = .busy

def takenOn (data : Bytes) (result : TinyResult Unit) : Option Bytes :=
    if result.isOk ∧ data ≠ [] then some data else none

theorem takenOn_ne_nil {result : TinyResult Unit} : ∀ frame ∈ takenOn data result, frame ≠ [] := by
  intro frame hframe
  rw [takenOn] at hframe
  split at hframe
  · rename_i htaken
    rw [← Option.some.inj hframe]
    exact htaken.2
  · cases hframe

theorem queue_rest (hok : h.ll.TxOk) (hroom : ¬ (data ≠ [] ∧ h.ll.txData ≠ none)) :
    (h.queue data).ll.txRest =
      h.ll.txRest ++ (takenOn data (.ok ())).toList.flatMap (wireFrame h.ll.crcType) := by
  by_cases hdata : data = []
  · rw [takenOn, if_neg fun htaken ↦ htaken.2 hdata, hdata, queue_nil]
    exact (List.append_nil _).symm
  · have hidle : h.ll.txData = none := by_contra fun hbusy ↦ hroom ⟨hdata, hbusy⟩
    rw [takenOn, if_pos ⟨rfl, hdata⟩, (queue_spec hok hidle hdata).1,
      HdlcLl.txRest_eq_nil.mpr hidle]
    exact (List.append_nil _).symm

theorem emits_busy (hok : h.ll.TxOk) (events : Events) :
    Emits h { h with events := events } (takenOn data (.error .busy)) [] := by
  refine ⟨hok, rfl, rfl, ?_, takenOn_ne_nil⟩
  rw [takenOn, if_neg fun htaken ↦ Bool.false_ne_true htaken.1]
  exact (List.append_nil _).symm

theorem emits_send (hok : h.ll.TxOk) {timeoutMs : UInt32} {sendFn : Option (List Turn)}
    {result : TinyResult Unit} (hsend : h.send data timeoutMs sendFn = some (h', result, wire))
    (hkept : Kept result = true) : Emits h h' (takenOn data result) wire := by
  have hqueue := queue_txOk hok data
  have herase := queue_eraseTx h data
  cases send_cases hsend with
  | refused haccept => exact emits_busy hok _
  | busy haccept hdata hbusy => exact emits_busy hok _
  | queued haccept hroom hmode => exact ⟨hqueue, herase, rfl, queue_rest hok hroom, takenOn_ne_nil⟩
  | awaited haccept hroom htime hmode hsent =>
      exact ⟨hqueue, herase, rfl, queue_rest hok hroom, takenOn_ne_nil⟩
  | timedOut haccept => cases hkept
  | driven haccept hroom htime hmode hfn hloop =>
    have hend := sendLoop_spec timeoutMs _ hqueue hloop
    have hreader : h'.onFrameRead = h.onFrameRead :=
      (onFrameRead_sendLoop timeoutMs _ hloop).trans rfl
    cases result with
    | ok =>
      obtain ⟨-, -, -, hrest⟩ := hend.notified rfl
      exact ⟨hend.ok, hend.frame_rule.trans herase, hreader,
        hrest.symm.trans (queue_rest hok hroom), takenOn_ne_nil⟩
    | error e =>
      have hbusy : e = .busy := of_decide_eq_true hkept
      exact absurd (congrArg Except.error hbusy) hend.accepted

theorem emits_deliverSent {ll : HdlcLl} (hsends : HdlcLl.Sends h.ll ll wire) :
    Emits h ({ h with ll := ll } : Hdlc).deliverSent none wire := by
  have hdelivers := deliverSent_spec { h with ll := ll }
  refine ⟨hdelivers.ok hsends.ok, hdelivers.frame_rule.trans hsends.frame_rule,
    onFrameRead_deliverSent _, ?_, nofun⟩
  rw [hdelivers.rest, hsends.rest]
  exact (List.append_nil _).symm

theorem emits_getTxData (hok : h.ll.TxOk) {room : ℕ} (hget : h.getTxData room = some (h', wire)) :
    Emits h h' none wire := by
  obtain ⟨ll, hsends, heq⟩ := getTxData_spec hok room
  rw [heq] at hget
  cases hget
  exact emits_deliverSent hsends

theorem emits_runTx (hok : h.ll.TxOk) {turns : List (List ℤ)} {value : ℤ}
    (hrun : h.runTx turns = some (h', value, wire))
    (hkept : refusal h.ll.txRest.length turns = none) : Emits h h' none wire := by
  rcases runTxLoop_ends turns hok hrun with ⟨-, -, -, ll, hsends, rfl⟩ | ⟨sent, -, hsome, -⟩
  · exact emits_deliverSent hsends
  · cases hkept.symm.trans hsome

end Hdlc

/-- One end of a line: a handle, the bytes on their way to it, the frames that its
`send` has taken on and the errors that its `run_rx` has returned. -/
structure End where
  handle : Hdlc
  inbox : Bytes
  accepted : List Bytes
  errors : List TinyError

/-- Two handles and a line that carries bytes both ways at once. -/
abbrev Duplex := Bool → End

namespace Duplex

inductive Op
  | send (s : Bool) (data : Bytes) (timeoutMs : UInt32) (sendFn : Option (List Turn))
  | getTxData (s : Bool) (room : ℕ)
  | runTx (s : Bool) (turns : List (List ℤ))
  | runRx (s : Bool) (count : ℕ)

def emit (line : Duplex) (s : Bool) (h : Hdlc) (new : Option Bytes) (wire : Bytes) : Duplex :=
  update (update line s { line s with handle := h, accepted := (line s).accepted ++ new.toList })
    (!s) { line (!s) with inbox := (line (!s)).inbox ++ wire }

def step (line : Duplex) : Op → Option Duplex
  | .send s data timeoutMs sendFn =>
    ((line s).handle.send data timeoutMs sendFn).map fun (h, result, wire) ↦
      line.emit s h (Hdlc.takenOn data result) wire
  | .getTxData s room => ((line s).handle.getTxData room).map fun (h, wire) ↦
      line.emit s h none wire
  | .runTx s turns => ((line s).handle.runTx turns).map fun (h, _, wire) ↦ line.emit s h none wire
  | .runRx s count =>
    let (h, consumed, error) := (line s).handle.runRx ((line s).inbox.take count)
    some (update line s { line s with
      handle := h
      inbox := (line s).inbox.drop consumed
      errors := (line s).errors ++ error.toList })

/-- The frames fit the other end, no `send` gives one up half way and the channel
refuses no byte. -/
def Proper (line : Duplex) : Op → Prop
  | .send s data timeoutMs sendFn =>
    data.length + getCrcFieldSize (line s).handle.ll.crcType ≤ (line !s).handle.ll.physMtu ∧
      ((line s).handle.send data timeoutMs sendFn).all fun r ↦ Hdlc.Kept r.2.1
  | .runTx s turns => Hdlc.refusal (line s).handle.ll.txRest.length turns = none
  | .getTxData .. | .runRx .. => True

instance (line : Duplex) (op : Op) : Decidable (line.Proper op) :=
  match op with
  | .send .. => inferInstanceAs (Decidable (_ ∧ _))
  | .runTx .. => inferInstanceAs (Decidable (_ = _))
  | .getTxData .. | .runRx .. => .isTrue trivial

def start (h : Bool → Hdlc) : Duplex := fun s ↦ ⟨(h s).setOnFrameRead, [], [], []⟩

def read (line : Duplex) (s : Bool) : List Bytes := (line s).handle.onFrameRead.getD []

def pending (line : Duplex) (s : Bool) : Bytes := (line s).inbox ++ (line !s).handle.ll.txRest

variable {line line' : Duplex} {s : Bool}

/-- The bytes that end `s` has yet to receive are made of the frames that it has not
read of those taken on at the other end. -/
structure Carries (line : Duplex) (s : Bool) : Prop where
  settled : (line s).handle.ll.Settled
  listens : (line s).handle.onFrameRead = some (line.read s)
  drained : (line s).handle.ll.rxFrames = []
  errors : (line s).errors = []
  way : ∃ p frames, p.Aligned ∧ line.read s ++ frames = (line !s).accepted ∧
    hdlcStuffing.receiveAll (line s).handle.ll.physMtu (line s).handle.ll.phase (line.pending s) =
      (p, frames.map (frameBody (line s).handle.ll.crcType))

theorem emit_self (line : Duplex) (s : Bool) (h : Hdlc) (new : Option Bytes) (wire : Bytes) :
    line.emit s h new wire s =
      { line s with handle := h, accepted := (line s).accepted ++ new.toList } := by
  rw [emit, update_of_ne (by cases s <;> decide), update_self]

theorem emit_not (line : Duplex) (s : Bool) (h : Hdlc) (new : Option Bytes) (wire : Bytes) :
    line.emit s h new wire (!s) = { line (!s) with inbox := (line (!s)).inbox ++ wire } :=
      update_self ..

theorem Carries.self (h : Carries line s) {h' : Hdlc} {new : Option Bytes} {wire : Bytes}
    (ht : Hdlc.Emits (line s).handle h' new wire) : Carries (line.emit s h' new wire) s := by
  have hself := line.emit_self s h' new wire
  have hnot := line.emit_not s h' new wire
  have hread : (line.emit s h' new wire).read s = line.read s := by
    rw [read, hself, read, ht.reader]
  obtain ⟨p, frames, hp, haccepted, hway⟩ := h.way
  refine ⟨?_, ?_, ?_, ?_, p, frames, hp, ?_, ?_⟩
  · rw [hself]
    exact Hdlc.settled_of_eraseTx h.settled ht.ok ht.frame_rule
  · rw [hself, hread, ht.reader]
    exact h.listens
  · rw [hself, rxFrames_of_eraseTx ht.frame_rule]
    exact h.drained
  · rw [hself]
    exact h.errors
  · rw [hread, hnot]
    exact haccepted
  · rw [pending, hself, hnot, physMtu_of_eraseTx ht.frame_rule, phase_of_eraseTx ht.frame_rule,
      crcType_of_eraseTx ht.frame_rule]
    exact hway

theorem Carries.other (h : Carries line (!s)) {h' : Hdlc} {new : Option Bytes} {wire : Bytes}
    (hcrc : (line !s).handle.ll.crcType = (line s).handle.ll.crcType)
    (ht : Hdlc.Emits (line s).handle h' new wire)
    (hfit : ∀ data ∈ new, data.length + getCrcFieldSize (line s).handle.ll.crcType ≤
      (line !s).handle.ll.physMtu) :
    Carries (line.emit s h' new wire) (!s) := by
  have hself := line.emit_self s h' new wire
  have hnot := line.emit_not s h' new wire
  have hread : (line.emit s h' new wire).read (!s) = line.read (!s) := by rw [read, hnot, read]
  have hpending : (line.emit s h' new wire).pending (!s) =
      line.pending (!s) ++ new.toList.flatMap (wireFrame (line s).handle.ll.crcType) := by
    rw [pending, Bool.not_not, hself, hnot, pending, Bool.not_not, List.append_assoc,
      List.append_assoc, ht.rest]
  obtain ⟨p, frames, hp, haccepted, hway⟩ := h.way
  rw [Bool.not_not] at haccepted
  have hnew : ∃ p', p'.Aligned ∧ hdlcStuffing.receiveAll (line !s).handle.ll.physMtu p
      (new.toList.flatMap (wireFrame (line s).handle.ll.crcType)) =
        (p', new.toList.map (frameBody (line s).handle.ll.crcType)) := by
    cases new with
    | none => exact ⟨p, hp, rfl⟩
    | some data =>
      refine ⟨.hunt, trivial, ?_⟩
      rw [Option.toList_some, List.flatMap_singleton, wireFrame,
        HdlcLl.receiveAll_body _ hp ⟨ht.nonempty data rfl, hfit data rfl⟩]
      rfl
  obtain ⟨p', hp', hnew⟩ := hnew
  refine ⟨?_, ?_, ?_, ?_, p', frames ++ new.toList, hp', ?_, ?_⟩
  · rw [hnot]
    exact h.settled
  · rw [hnot, hread]
    exact h.listens
  · rw [hnot]
    exact h.drained
  · rw [hnot]
    exact h.errors
  · rw [hread, Bool.not_not, hself, ← List.append_assoc, haccepted]
  · rw [hpending, hnot, Stuffing.receiveAll_append, hway]
    dsimp only
    rw [hnew, List.map_append, hcrc]

theorem runRx_clean {h : Hdlc} (hset : h.ll.Settled) (hdrained : h.ll.rxFrames = []) {w : Bytes}
    {frames : List Bytes}
    (hbodies : (hdlcStuffing.receiveAll h.ll.physMtu h.ll.phase w).2 =
      frames.map (frameBody h.ll.crcType)) : ∃ h', h.runRx w = (h', w.length, none) ∧
      h'.ll = (h.ll.feed w).withRxFrames [] ∧ h'.onFrameRead = h.onFrameRead.map (· ++ frames) := by
  have hrun := HdlcLl.runRxLoop_clean hset.rx 0 w (by rw [hbodies, HdlcLl.firstError_bodies])
  have hframes := (HdlcLl.feed_spec hset.rx w).frames
  rw [hbodies, HdlcLl.goodFrames_bodies, hdrained, List.nil_append] at hframes
  obtain ⟨hll, -⟩ :=
    Hdlc.foldl_frameRead frames { h with ll := { h.ll.feed w with rxFrames := [] } }
  refine ⟨_, ?_, hll, Hdlc.onFrameRead_foldl_frameRead frames _⟩
  rw [Nat.zero_add] at hrun
  rw [Hdlc.runRx, HdlcLl.runRx, hrun]
  dsimp only
  rw [hframes]

/-- `run_rx` takes the bytes that it is given without an error, reports the frames
that they complete and leaves the transmitter as it was. -/
theorem Carries.receive (h : Carries line s) {count : ℕ}
    (hs : line.step (.runRx s count) = some line') :
    Carries line' s ∧ line' (!s) = line (!s) ∧ (line' s).accepted = (line s).accepted ∧
      (line' s).inbox = (line s).inbox.drop count ∧
      (line' s).handle.ll.eraseRx = (line s).handle.ll.eraseRx := by
  obtain ⟨p, frames, hp, haccepted, hway⟩ := h.way
  have hcut : line.pending s =
      (line s).inbox.take count ++ ((line s).inbox.drop count ++ (line !s).handle.ll.txRest) := by
    rw [pending, ← List.append_assoc, List.take_append_drop]
  have hrest : (line s).inbox.drop ((line s).inbox.take count).length =
      (line s).inbox.drop count := by
    rw [List.length_take]
    rcases Nat.le_total count (line s).inbox.length with hle | hge
    · rw [Nat.min_eq_left hle]
    · rw [Nat.min_eq_right hge, List.drop_length, List.drop_eq_nil_of_le hge]
  rw [hcut, Stuffing.receiveAll_append, Prod.mk.injEq] at hway
  obtain ⟨hphase, hbodies⟩ := hway
  obtain ⟨frames₁, frames₂, rfl, h₁, h₂⟩ := List.map_eq_append_iff.mp hbodies.symm
  obtain ⟨h', hrun, hll, hlog⟩ := runRx_clean h.settled h.drained h₁.symm
  have hspec := HdlcLl.feed_spec h.settled.rx ((line s).inbox.take count)
  have herase : h'.ll.eraseRx = (line s).handle.ll.eraseRx := by
    rw [hll]
    exact hspec.frame_rule
  rw [h.listens, Option.map_some] at hlog
  rw [step, hrun] at hs
  dsimp only at hs
  rw [hrest] at hs
  have hself : line' s =
      ⟨h', (line s).inbox.drop count, (line s).accepted, (line s).errors ++ []⟩ := by
    rw [← Option.some.inj hs]
    exact update_self ..
  have hnot : line' (!s) = line (!s) := by
    rw [← Option.some.inj hs]
    exact update_of_ne (by cases s <;> decide) _ _
  have hread : line'.read s = line.read s ++ frames₁ := by
    rw [read, hself, hlog]
    rfl
  refine ⟨?_, hnot, ?_, ?_, ?_⟩
  · refine ⟨?_, ?_, ?_, ?_, p, frames₂, hp, ?_, ?_⟩
    · rw [hself]
      refine ⟨txOk_of_eraseRx herase h.settled.tx, ?_, ?_⟩
      · rw [hll]
        exact hspec.ok.withRxFrames []
      · rw [HdlcLl.eraseRx_physMtu herase]
        exact h.settled.physMtu
    · rw [hread, hself]
      exact hlog
    · rw [hself, hll]
      rfl
    · rw [hself, h.errors]
      rfl
    · rw [hread, hnot, List.append_assoc]
      exact haccepted
    · have hnow : h'.ll.phase =
          (hdlcStuffing.receiveAll (line s).handle.ll.physMtu (line s).handle.ll.phase
            ((line s).inbox.take count)).1 := by
        rw [hll]
        exact hspec.phase
      rw [pending, hself, hnot, HdlcLl.eraseRx_physMtu herase, HdlcLl.eraseRx_crcType herase]
      dsimp only
      rw [hnow, ← hphase, h₂]
  · rw [hself]
  · rw [hself]
  · rw [hself]
    exact herase

structure Sound (line : Duplex) : Prop where
  crcType : ∀ s, (line !s).handle.ll.crcType = (line s).handle.ll.crcType
  carries : ∀ s, Carries line s

theorem at_both {P : Bool → Prop} (s : Bool) (hself : P s) (hnot : P (!s)) (t : Bool) : P t := by
  rcases Bool.eq_or_eq_not t s with rfl | rfl
  · exact hself
  · exact hnot

theorem Sound.emit (h : Sound line) {h' : Hdlc} {new : Option Bytes} {wire : Bytes}
    (ht : Hdlc.Emits (line s).handle h' new wire)
    (hfit : ∀ data ∈ new, data.length + getCrcFieldSize (line s).handle.ll.crcType ≤
      (line !s).handle.ll.physMtu) :
    Sound (line.emit s h' new wire) := by
  have hself := line.emit_self s h' new wire
  have hnot := line.emit_not s h' new wire
  have hcrc := crcType_of_eraseTx ht.frame_rule
  refine ⟨at_both s ?_ ?_, at_both s ?_ ?_⟩
  · rw [hself, hnot]
    exact (h.crcType s).trans hcrc.symm
  · rw [Bool.not_not, hself, hnot]
    exact hcrc.trans (h.crcType s).symm
  · exact (h.carries s).self ht
  · exact (h.carries !s).other (h.crcType s) ht hfit

theorem Sound.receive (h : Sound line) {count : ℕ} (hs : line.step (.runRx s count) = some line') :
    Sound line' := by
  obtain ⟨hcarries, hnot, haccepted, -, herase⟩ := (h.carries s).receive hs
  have hcrc := HdlcLl.eraseRx_crcType herase
  refine ⟨at_both s ?_ ?_, at_both s hcarries ?_⟩
  · rw [hnot, hcrc]
    exact h.crcType s
  · rw [Bool.not_not, hnot, hcrc]
    exact (h.crcType s).symm
  · obtain ⟨hsettled, hlistens, hdrained, herrors, p, frames, hp, hframes, hway⟩ := h.carries !s
    rw [Bool.not_not] at hframes
    refine ⟨?_, ?_, ?_, ?_, p, frames, hp, ?_, ?_⟩
    · rwa [hnot]
    · rwa [read, hnot]
    · rwa [hnot]
    · rwa [hnot]
    · rwa [read, Bool.not_not, hnot, haccepted]
    · rw [pending, Bool.not_not] at hway ⊢
      rwa [hnot, txRest_of_eraseRx herase]

theorem step_sound {op : Op} (h : Sound line) (hproper : line.Proper op)
    (hs : line.step op = some line') :
    Sound line' := by
  cases op with
  | send s data timeoutMs sendFn =>
    obtain ⟨⟨h', result, wire⟩, hsend, rfl⟩ := Option.map_eq_some_iff.mp hs
    obtain ⟨hfit, hkept⟩ := hproper
    rw [hsend] at hkept
    refine h.emit (Hdlc.emits_send (h.carries s).settled.tx hsend hkept) ?_
    intro frame hframe
    rw [Hdlc.takenOn] at hframe
    split at hframe
    · rwa [← Option.some.inj hframe]
    · cases hframe
  | getTxData s room =>
    obtain ⟨⟨h', wire⟩, hget, rfl⟩ := Option.map_eq_some_iff.mp hs
    exact h.emit (Hdlc.emits_getTxData (h.carries s).settled.tx hget) nofun
  | runTx s turns =>
    obtain ⟨⟨h', value, wire⟩, hrun, rfl⟩ := Option.map_eq_some_iff.mp hs
    exact h.emit (Hdlc.emits_runTx (h.carries s).settled.tx hrun hproper) nofun
  | runRx s count => exact h.receive hs

theorem Carries.reads_in_order (h : Carries line s) : line.read s <+: (line !s).accepted := by
  obtain ⟨p, frames, -, haccepted, -⟩ := h.way
  exact ⟨frames, haccepted⟩

theorem Carries.read_all (h : Carries line s) (hpending : line.pending s = []) :
    line.read s = (line !s).accepted := by
  obtain ⟨p, frames, -, haccepted, hway⟩ := h.way
  rw [hpending, Stuffing.receiveAll, Prod.mk.injEq] at hway
  rw [← haccepted, List.map_eq_nil_iff.mp hway.2.symm, List.append_nil]

/-- What one end has read is what the other has taken on, up to what is still on its way,
which one reading of the line brings in. -/
structure Intact (line : Duplex) : Prop where
  in_order : ∀ s, line.read s <+: (line !s).accepted
  errors : ∀ s, (line s).errors = []
  arrives : ∀ s room count, (line.pending s).length ≤ room → (line.pending s).length ≤ count →
    ∃ line', run step line [.getTxData (!s) room, .runRx s count] = some line' ∧
      line'.read s = (line !s).accepted

theorem Sound.intact (h : Sound line) : Intact line := by
  refine ⟨fun s ↦ (h.carries s).reads_in_order, fun s ↦ (h.carries s).errors, ?_⟩
  intro s room count hroom hcount
  have hok := (h.carries !s).settled.tx
  obtain ⟨ll, -, hget⟩ := Hdlc.getTxData_spec hok room
  have ht := Hdlc.emits_getTxData hok hget
  have hrest := ht.rest
  rw [pending, List.length_append] at hroom
  rw [List.take_of_length_le (by omega)] at hget ht hrest
  set h' := ({ (line !s).handle with ll := ll } : Hdlc).deliverSent
  set line₁ := line.emit (!s) h' none (line !s).handle.ll.txRest with hline₁
  have hself := line.emit_self (!s) h' none (line !s).handle.ll.txRest
  have hnot := line.emit_not (!s) h' none (line !s).handle.ll.txRest
  rw [← hline₁] at hself hnot
  rw [Bool.not_not] at hnot
  have hwritten : h'.ll.txRest = [] := by
    rw [Option.toList_none, List.flatMap_nil] at hrest
    exact List.append_cancel_left hrest
  have hsound₁ : Sound line₁ := h.emit ht nofun
  obtain ⟨line₂, hs₂⟩ : ∃ line₂, line₁.step (.runRx s count) = some line₂ := ⟨_, rfl⟩
  obtain ⟨hcarries, hnot₂, -, hinbox, -⟩ := (hsound₁.carries s).receive hs₂
  refine ⟨line₂, ?_, ?_⟩
  · refine run_cons.mpr ⟨line₁, ?_, run_cons.mpr ⟨line₂, hs₂, rfl⟩⟩
    rw [step, hget]
    rfl
  · rw [hcarries.read_all, hnot₂, hself, Option.toList_none, List.append_nil]
    rw [pending, hinbox, hnot₂, hself, hwritten, List.append_nil, hnot]
    exact List.drop_eq_nil_of_le hcount

theorem new_ll {config : HdlcConfig} {h : Hdlc} (hnew : Hdlc.new config = .ok h) :
    HdlcLl.new ⟨config.crcType, config.mtu, config.rxBufSize⟩ = .ok h.ll := by
  rw [Hdlc.new] at hnew
  split at hnew
  · cases hnew
  · rename_i ll hll
    rw [hll, ← Except.ok.inj hnew]

theorem sound_start {config : Bool → HdlcConfig} {h : Bool → Hdlc}
    (hnew : ∀ s, Hdlc.new (config s) = .ok (h s))
    (hcrc : (h true).ll.crcType = (h false).ll.crcType) : Sound (start h) := by
  refine ⟨at_both true hcrc.symm hcrc, fun s ↦ ?_⟩
  obtain ⟨-, -, hphase, -, -, hdrained, -⟩ := HdlcLl.new_ok (new_ll (hnew s))
  obtain ⟨-, -, -, hidle, -⟩ := HdlcLl.new_ok (new_ll (hnew !s))
  have hsettled : (h s).ll.Settled := HdlcLl.settled_new (new_ll (hnew s))
  refine ⟨hsettled, rfl, hdrained, rfl, .hunt, [], trivial, rfl, ?_⟩
  have hpending : (start h).pending s = [] := HdlcLl.txRest_eq_nil.mpr hidle
  rw [hpending, start]
  dsimp only [Hdlc.setOnFrameRead]
  rw [hphase]
  rfl

/-- However the calls at the two ends are interleaved, and however their answers split
the frames, each direction carries its frames whole, in order and once. -/
theorem duplex_intact {config : Bool → HdlcConfig} {h : Bool → Hdlc}
    (hnew : ∀ s, Hdlc.new (config s) = .ok (h s))
    (hcrc : (h true).ll.crcType = (h false).ll.crcType) {ops : List Op}
    (hproper : EachStep step Proper (start h) ops) : EachState step Intact (start h) ops :=
  (eachState_of_eachStep (fun _ _ _ ↦ step_sound) (sound_start hnew hcrc) hproper).mono
    fun _ ↦ Sound.intact

def crossingOps : List Op :=
  [.send true [1, 0x7E] 0 none, .getTxData true 3,
    .send false [2] 5 (some [⟨[0, 1], 0⟩, ⟨[1], 1⟩, ⟨[1], 2⟩]),
    .runRx false 2, .runTx true [[1], [0, 1], [1]], .runRx true 64, .send true [3] 0 none,
    .runRx false 1,
    .getTxData true 8, .runRx false 64]

theorem duplex_intact_crossing :
    ∃ h, Hdlc.new { crcType := .hdlcCrcOff } = .ok h ∧
    EachState step Intact (start fun _ ↦ h) crossingOps ∧
      (run step (start fun _ ↦ h) crossingOps).map (fun line ↦ (line.read true, line.read false)) =
        some ([[2]], [[1, 0x7E], [3]]) := by
  refine ⟨_, rfl, ?_, by decide +kernel⟩
  exact @duplex_intact (fun _ ↦ { crcType := .hdlcCrcOff }) _ (fun _ ↦ rfl) rfl crossingOps
    (by decide +kernel)

end Duplex

end TinyProto
