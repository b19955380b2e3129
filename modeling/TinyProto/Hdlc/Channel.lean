import TinyProto.Hdlc.Blocking

namespace TinyProto

open Lib

namespace Hdlc

def taken (h : Hdlc) : List (List ℤ) → Bytes
  | [] => []
  | answers :: turns =>
    match h.ll.runTx 1 with
    | some (ll, byte :: _) =>
      match offer answers with
      | some sent => if sent < 0 then [] else byte :: taken { h with ll := ll } turns
      | none => []
    | _ => []

def refusal : ℕ → List (List ℤ) → Option ℤ
  | 0, _ => none
  | _ + 1, [] => none
  | left + 1, answers :: turns =>
    match offer answers with
    | some sent => if sent < 0 then some sent else refusal left turns
    | none => none

end Hdlc

/-- A handle, the frames that it was given and the bytes that `send_fn` has accepted. -/
structure Channel where
  handle : Hdlc
  queued : List Bytes
  accepted : Bytes

namespace Channel

inductive Op
  | send (data : Bytes) (sendFn : Option (List Turn))
  | runTx (turns : List (List ℤ))

def step (c : Channel) : Op → Option Channel
  | .send data sendFn =>
    if data = [] then none
    else
      (c.handle.send data 0 sendFn).map fun (h, result, wire) ↦
        ⟨h, if result.isOk then c.queued ++ [data] else c.queued, c.accepted ++ wire⟩
  | .runTx turns =>
    (c.handle.runTx turns).map fun (h, _, wire) ↦
      { c with handle := h, accepted := c.accepted ++ wire }

def start (h : Hdlc) : Channel := ⟨h, [], []⟩

def encodings (c : Channel) : Bytes := c.queued.flatMap (wireFrame c.handle.ll.crcType)

/-- No byte has been dropped or repeated, inside a call or between two, and a call of
`run_tx` returns the number of bytes accepted, or the error when there is none. -/
structure Whole (c : Channel) : Prop where
  complete : c.encodings = c.accepted ++ c.handle.ll.txRest
  moment : ∀ turns, c.accepted ++ c.handle.taken turns <+: c.encodings
  returned : ∀ turns h value wire, c.handle.runTx turns = some (h, value, wire) →
    value = if wire = [] then (Hdlc.refusal c.handle.ll.txRest.length turns).getD 0 else wire.length

/-- `send_fn` gives no negative answer in the call. -/
def Unrefused (c : Channel) : Op → Prop
  | .runTx turns => Hdlc.refusal c.handle.ll.txRest.length turns = none
  | .send .. => True

end Channel

namespace Hdlc

variable {h h' : Hdlc}

theorem taken_prefix (turns : List (List ℤ)) {h : Hdlc} (hok : h.ll.TxOk) :
    h.taken turns <+: h.ll.txRest := by
  induction turns generalizing h with
  | nil => exact List.nil_prefix
  | cons answers turns ih =>
    obtain ⟨ll, htx, hsends⟩ := HdlcLl.runTx_spec hok 1
    rw [taken, htx]
    cases hrest : h.ll.txRest with
    | nil => exact List.nil_prefix
    | cons byte rest =>
      rw [hrest] at hsends
      dsimp only [List.take_succ_cons, List.take_zero]
      split
      · split
        · exact List.nil_prefix
        · have hrest' := hsends.rest
          dsimp only [List.take_succ_cons, List.take_zero] at hrest'
          rw [hrest, List.singleton_append, List.cons.injEq] at hrest'
          rw [hrest'.2]
          exact (List.prefix_cons_inj byte).mpr (@ih { h with ll := ll } hsends.ok)
      · exact List.nil_prefix

/-- A call that returns has written the frame in hand to its end, or has stopped at a
byte that was refused, which the framing layer has counted as written. -/
theorem runTxLoop_ends (turns : List (List ℤ)) {h : Hdlc} (hok : h.ll.TxOk) {total value : ℤ}
    {wire : Bytes} (hrun : h.runTxLoop total turns = some (h', value, wire)) :
    (refusal h.ll.txRest.length turns = none ∧ wire = h.ll.txRest ∧ value = total + wire.length ∧
      ∃ ll, HdlcLl.Sends h.ll ll wire ∧ h' = ({ h with ll := ll } : Hdlc).deliverSent) ∨
    ∃ sent < 0, refusal h.ll.txRest.length turns = some sent ∧
      (value = if total + wire.length > 0 then total + wire.length else sent) ∧
      ∃ byte ll, HdlcLl.Sends h.ll ll (wire ++ [byte]) ∧ h' = { h with ll := ll } := by
  have hrounds := runTxLoop_rounds turns hok hrun
  clear hrun hok
  induction hrounds with
  | @drained h total turns ll hrest hsends =>
    left
    rw [hrest]
    refine ⟨?_, rfl, (add_zero _).symm, ll, hsends, rfl⟩
    cases turns <;> rfl
  | @refused h total sent answers turns ll byte rest hrest hsends hoffer hneg =>
    right
    refine ⟨sent, hneg, ?_, ?_, byte, ll, hsends, rfl⟩
    · rw [hrest, List.length_cons, refusal, hoffer]
      exact if_pos hneg
    · rw [List.length_nil, Int.natCast_zero, add_zero]
  | @taken h h' total value answers turns ll byte rest wire hrest hsends hoffer hnext ih =>
    have hrest' : h.ll.txRest = byte :: ll.txRest := hsends.rest
    have hnow : refusal h.ll.txRest.length (answers :: turns) = refusal ll.txRest.length turns := by
      rw [hrest', List.length_cons, refusal, hoffer]
      exact if_neg (by decide)
    have hcount : total + 1 + (wire.length : ℤ) = total + ((byte :: wire).length : ℤ) := by
      rw [List.length_cons]
      omega
    rw [hcount] at ih
    rw [hnow, hrest']
    rcases ih with ⟨hnone, hwire, hvalue, ll', hall, hend⟩ | ⟨last, hneg, hsome, hvalue, b,
      ll', hall, hend⟩
    · exact .inl ⟨hnone, congrArg (byte :: ·) hwire, hvalue, ll', hsends.trans hall, hend⟩
    · exact .inr ⟨last, hneg, hsome, hvalue, b, ll', hsends.trans hall, hend⟩

theorem send_zero (h : Hdlc) (data : Bytes) (sendFn : Option (List Turn)) :
    h.send data 0 sendFn =
      if h.events.has txAcceptBit ∧ ¬ (data ≠ [] ∧ h.ll.txData ≠ none)
        then some (h.queue data, .ok (), [])
      else some ({ h with events := h.events.clear txAcceptBit }, .error .busy, []) := by
  have hzero : (0 : UInt32) ≠ 0xFFFFFFFF := by decide
  rw [send_eq]
  by_cases haccept : h.events.has txAcceptBit
  · rw [if_neg (not_not.mpr haccept)]
    by_cases hbusy : data ≠ [] ∧ h.ll.txData ≠ none
    · rw [if_pos hbusy, if_neg fun hroom ↦ hroom.2 hbusy]
    · rw [if_neg hbusy, if_pos rfl, if_pos ⟨haccept, hbusy⟩]
  · rw [if_pos haccept, if_neg hzero, if_neg fun hroom ↦ haccept hroom.1]

end Hdlc

namespace Channel

variable {c c' : Channel}

/-- What the calls keep as long as no byte is refused. -/
structure Complete (c : Channel) : Prop where
  settled : c.handle.ll.Settled
  complete : c.encodings = c.accepted ++ c.handle.ll.txRest

theorem Complete.whole (h : Complete c) : Whole c := by
  refine ⟨h.complete, fun turns ↦ ?_, fun turns h' value wire hrun ↦ ?_⟩
  · rw [h.complete]
    exact (List.prefix_append_right_inj _).mpr (Hdlc.taken_prefix turns h.settled.tx)
  · have hends := Hdlc.runTxLoop_ends turns h.settled.tx hrun
    rw [Int.zero_add] at hends
    by_cases hwire : wire = []
    · subst hwire
      rw [if_pos rfl]
      rcases hends with ⟨hnone, -, hvalue, -⟩ | ⟨sent, -, hsome, hvalue, -⟩
      · rw [hnone, hvalue]
        rfl
      · rw [hsome, hvalue]
        rfl
    · have hpos := List.length_pos_iff.mpr hwire
      rw [if_neg hwire]
      rcases hends with ⟨-, -, hvalue, -⟩ | ⟨sent, -, -, hvalue, -⟩
      · exact hvalue
      · rw [hvalue, if_pos (by omega)]

theorem send_complete (h : Complete c) {data : Bytes} {sendFn : Option (List Turn)}
    (hs : c.step (.send data sendFn) = some c') : Complete c' := by
  rw [step] at hs
  split at hs
  · cases hs
  rename_i hne
  rw [Hdlc.send_zero] at hs
  split at hs
  · rename_i hroom
    have hidle : c.handle.ll.txData = none := by_contra fun hbusy ↦ hroom.2 ⟨hne, hbusy⟩
    obtain ⟨hrest, -, -⟩ := Hdlc.queue_spec h.settled.tx hidle hne
    have herase := Hdlc.queue_eraseTx c.handle data
    have hcomplete := h.complete
    rw [HdlcLl.txRest_eq_nil.mpr hidle, List.append_nil] at hcomplete
    rw [← Option.some.inj hs]
    refine ⟨Hdlc.settled_of_eraseTx h.settled (Hdlc.queue_txOk h.settled.tx data) herase, ?_⟩
    calc (c.queued ++ [data]).flatMap (wireFrame (c.handle.queue data).ll.crcType)
        = c.encodings ++ wireFrame c.handle.ll.crcType data := by
          rw [crcType_of_eraseTx herase, List.flatMap_append, List.flatMap_singleton, encodings]
      _ = c.accepted ++ [] ++ (c.handle.queue data).ll.txRest := by
        rw [hcomplete, hrest, List.append_nil]
  · rw [← Option.some.inj hs]
    refine ⟨h.settled, ?_⟩
    change c.encodings = c.accepted ++ [] ++ c.handle.ll.txRest
    rw [List.append_nil]
    exact h.complete

theorem runTx_complete (h : Complete c) {turns : List (List ℤ)} (hC : c.Unrefused (.runTx turns))
    (hs : c.step (.runTx turns) = some c') : Complete c' := by
  obtain ⟨⟨h', value, wire⟩, hrun, rfl⟩ := Option.map_eq_some_iff.mp hs
  rcases Hdlc.runTxLoop_ends turns h.settled.tx hrun with ⟨-, -, -, ll, hsends,
    rfl⟩ | ⟨sent, -, hsome, -⟩
  · have hdelivers := Hdlc.deliverSent_spec { c.handle with ll := ll }
    have herase := hdelivers.frame_rule.trans hsends.frame_rule
    refine ⟨Hdlc.settled_of_eraseTx h.settled (hdelivers.ok hsends.ok) herase, ?_⟩
    calc c.queued.flatMap (wireFrame ({ c.handle with ll := ll } : Hdlc).deliverSent.ll.crcType)
        = c.encodings := by rw [crcType_of_eraseTx herase, encodings]
      _ = c.accepted ++ (wire ++ ll.txRest) := by rw [h.complete, hsends.rest]
      _ = c.accepted ++ wire ++ ({ c.handle with ll := ll } : Hdlc).deliverSent.ll.txRest := by
          rw [hdelivers.rest, List.append_assoc]
  · cases hC.symm.trans hsome

theorem runTx_incomplete (h : Complete c) {turns : List (List ℤ)}
    (hC : ¬ c.Unrefused (.runTx turns)) (hs : c.step (.runTx turns) = some c') : ¬ Whole c' := by
  obtain ⟨⟨h', value, wire⟩, hrun, rfl⟩ := Option.map_eq_some_iff.mp hs
  rcases Hdlc.runTxLoop_ends turns h.settled.tx hrun with ⟨hnone, -⟩ | ⟨sent, -, -, -, byte,
    ll, hsends, rfl⟩
  · exact absurd hnone hC
  · intro hwhole
    have hafter := hwhole.complete
    have hbefore := h.complete
    rw [hsends.rest] at hbefore
    rw [encodings] at hafter hbefore
    dsimp only at hafter
    rw [crcType_of_eraseTx hsends.frame_rule, hbefore] at hafter
    have hlen := congrArg List.length hafter
    simp only [List.length_append, List.length_singleton] at hlen
    omega

/-- In a run of calls that return, the channel gets the frames whole just where it never
gives a negative answer. -/
theorem runTx_whole_iff {config : HdlcConfig} {fresh h : Hdlc} (hnew : Hdlc.new config = .ok fresh)
    {calls : List Hdlc.Call} (hrun : run Hdlc.step fresh calls = some h)
    (hidle : h.ll.txData = none) {ops : List Op} (hops : run step (start h) ops = some c) :
    EachState step Whole (start h) ops ↔ EachStep step Unrefused (start h) ops := by
  have hset := (Hdlc.run_keeps (Hdlc.new_spec hnew).1 hrun).settled
  have hstart : Complete (start h) := by
    refine ⟨hset, ?_⟩
    change [] = [] ++ h.ll.txRest
    rw [HdlcLl.txRest_eq_nil.mpr hidle]
    rfl
  refine eachState_iff_eachStep (fun _ ↦ Complete.whole) ?_ ?_ hstart (eachStep_of_run hops)
  · intro c op c' hcomplete _ hC hs
    cases op with
    | send data sendFn => exact send_complete hcomplete hs
    | runTx turns => exact runTx_complete hcomplete hC hs
  · intro c op hcomplete hreturns hC
    obtain ⟨c', hs⟩ := Option.isSome_iff_exists.mp hreturns
    cases op with
    | send data sendFn => exact absurd trivial hC
    | runTx turns => exact ⟨c', hs, runTx_incomplete hcomplete hC hs⟩

def plainHdlc : Hdlc := (Hdlc.new { crcType := .hdlcCrcOff }).toOption.get (by decide)

def patientOps : List Op :=
  [.send [1] none, .runTx [[1], [0, 1], [1]], .send [2] none, .runTx [[1], [1], [0, 0, 1]]]

theorem runTx_whole_iff_patient :
    ∃ c, run step (start plainHdlc) patientOps = some c ∧
    c.accepted = [0x7E, 0x01, 0x7E, 0x7E, 0x02, 0x7E] ∧
      (EachState step Whole (start plainHdlc) patientOps ↔
        EachStep step Unrefused (start plainHdlc) patientOps) := by
  have hnew : Hdlc.new { crcType := .hdlcCrcOff } = .ok plainHdlc := rfl
  have hops : run step (start plainHdlc) patientOps =
      some ((run step (start plainHdlc) patientOps).get (by decide +kernel)) :=
        (Option.some_get _).symm
  exact ⟨_, hops, by decide +kernel,
    @runTx_whole_iff _ _ _ _ hnew [] rfl (by decide +kernel) patientOps hops⟩

/-- The second byte is refused once; the next call goes on behind it. -/
theorem runTx_drops_byte :
    ∃ c, run step (start plainHdlc) [.send [1] none, .runTx [[1], [-1]], .runTx [[1]]] = some c ∧
      c.accepted = [0x7E, 0x7E] ∧ c.encodings = [0x7E, 0x01, 0x7E] ∧
      ¬ c.accepted <+: c.encodings := by
  refine ⟨(run step (start plainHdlc) [.send [1] none, .runTx [[1], [-1]], .runTx [[1]]]).get
    (by decide +kernel),
    (Option.some_get _).symm, by decide +kernel, by decide +kernel, by decide +kernel⟩

end Channel

end TinyProto
