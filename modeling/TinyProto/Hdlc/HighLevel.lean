import TinyProto.Fd.Defines
import TinyProto.Hdlc.Stream
import TinyProto.Lib.Runs

namespace TinyProto

open Lib

def txAcceptBit : UInt8 := 0x01
def txDataReadyBit : UInt8 := 0x02
def txDataSentBit : UInt8 := 0x04
def rxDataReadyBit : UInt8 := 0x08

structure Events where
  bits : UInt8
  deriving DecidableEq

namespace Events

def new : Events := ⟨0⟩

def set (events : Events) (bits : UInt8) : Events := ⟨events.bits ||| bits⟩

def clear (events : Events) (bits : UInt8) : Events := ⟨events.bits &&& ~~~bits⟩

/-- `none` where the wait never ends. Only calls on the handle itself set a bit, so none
does while one of them waits, and a wait with a deadline runs into it. -/
def wait (events : Events) (bits : UInt8) (timeoutMs : UInt32) : Option (Events × UInt8) :=
  if timeoutMs = 0xFFFFFFFF then
    if events.bits &&& bits = 0 then none else some (events.clear bits, events.bits &&& bits)
  else some (events.clear bits, events.bits &&& bits)

def has (events : Events) (bit : UInt8) : Prop := events.bits &&& bit ≠ 0

instance (events : Events) (bit : UInt8) : Decidable (events.has bit) := by
  unfold has
  infer_instance

theorem has_set (events : Events) (bits bit : UInt8) :
    (events.set bits).has bit ↔ events.has bit ∨ bits &&& bit ≠ 0 := by
  have hdist : (events.bits ||| bits) &&& bit = events.bits &&& bit ||| bits &&& bit := by
    simp only [← UInt8.toBitVec_inj, UInt8.toBitVec_and, UInt8.toBitVec_or]
    exact BitVec.and_or_distrib_right
  rw [has, has, set, hdist, Ne, UInt8.or_eq_zero_iff, not_and_or]

theorem has_clear (events : Events) (bits bit : UInt8) (h : ~~~bits &&& bit = bit) :
    (events.clear bits).has bit ↔ events.has bit := by
  rw [has, has, clear, UInt8.and_assoc, h]

theorem not_has_clear (events : Events) (bits bit : UInt8) (h : ~~~bits &&& bit = 0) :
    ¬ (events.clear bits).has bit := by
  rw [has, clear, UInt8.and_assoc, h, UInt8.and_zero, Ne, not_not]

theorem wait_eq (events : Events) (bit : UInt8) (timeoutMs : UInt32) :
    events.wait bit timeoutMs =
      if events.has bit ∨ timeoutMs ≠ 0xFFFFFFFF then some (events.clear bit, events.bits &&& bit)
      else none := by
  unfold wait has
  split_ifs <;> simp_all

end Events

structure HdlcConfig where
  crcType : HdlcCrcT := .hdlcCrc16
  rxBufSize : ℕ := 256
  mtu : ℕ := 0
  multithreadMode : Bool := false

/-- The handle. A callback stands for the frames that it has been called with. -/
structure Hdlc where
  ll : HdlcLl
  events : Events
  multithreadMode : Bool
  onFrameRead : Option (List Bytes)
  onFrameSend : Option (List Bytes)
  rxLen : ℕ
  deriving DecidableEq

/-- One round of the loop in `send`: what `send_fn` answers while the byte of the round
is offered to it, and the nanoseconds since the loop was entered. -/
structure Turn where
  answers : List ℤ
  elapsed : ℕ
  deriving DecidableEq

namespace Hdlc

def new (config : HdlcConfig) : TinyResult Hdlc :=
  match HdlcLl.new ⟨config.crcType, config.mtu, config.rxBufSize⟩ with
  | .error e => .error e
  | .ok ll => .ok ⟨ll, Events.new.set txAcceptBit, config.multithreadMode, none, none, 0⟩

def setOnFrameRead (h : Hdlc) : Hdlc := { h with onFrameRead := some [] }

def setOnFrameSend (h : Hdlc) : Hdlc := { h with onFrameSend := some [] }

def reset (h : Hdlc) : Hdlc :=
  { h with ll := h.ll.reset .both, events := (h.events.clear 0xFF).set txAcceptBit }

def frameRead (h : Hdlc) (frame : Bytes) : Hdlc :=
  { h with
    rxLen := frame.length, onFrameRead := h.onFrameRead.map (· ++ [frame]),
    events := h.events.set rxDataReadyBit }

def runRx (h : Hdlc) (data : Bytes) : Hdlc × ℕ × Option TinyError :=
  let (ll, consumed, error) := h.ll.runRx data
  (ll.rxFrames.foldl frameRead { h with ll := { ll with rxFrames := [] } }, consumed, error)

def frameSent (h : Hdlc) (frame : Bytes) : Hdlc :=
  { h with
    onFrameSend := h.onFrameSend.map (· ++ [frame])
    events := (h.events.set txDataSentBit).set txAcceptBit }

def deliverSent (h : Hdlc) : Hdlc :=
  h.ll.txSentFrames.foldl frameSent { h with ll := { h.ll with txSentFrames := [] } }

/-- The answer with which `send_fn` takes the byte that is offered to it again and again,
or fails; `none` where `remaining` underflows, or when it never does. -/
def offer : List ℤ → Option ℤ
  | [] => none
  | sent :: answers =>
    if sent < 0 ∨ sent = 1 then some sent
    else if sent = 0 then offer answers
    else none

/-- The loop of `run_tx` from a total on, with the answers of `send_fn` to each byte:
the new total or the error, and the bytes taken. A result is `none` on a panic, or
when the answers run out before the call returns. -/
def runTxLoop (h : Hdlc) (total : ℤ) : List (List ℤ) → Option (Hdlc × ℤ × Bytes)
  | [] =>
    match h.ll.runTx 1 with
    | some (ll, []) => some ({ h with ll := ll }.deliverSent, total, [])
    | _ => none
  | answers :: turns =>
    match h.ll.runTx 1 with
    | none => none
    | some (ll, []) => some ({ h with ll := ll }.deliverSent, total, [])
    | some (ll, byte :: _) =>
      match offer answers with
      | none => none
      | some sent =>
        if sent < 0 then some ({ h with ll := ll }, if total > 0 then total else sent, [])
        -- `total` overflows
        else if total + sent ≥ 2 ^ 31 then none
        else (runTxLoop { h with ll := ll } (total + sent) turns).map fun (h, total, wire) ↦
          (h, total, byte :: wire)

def runTx (h : Hdlc) (turns : List (List ℤ)) : Option (Hdlc × ℤ × Bytes) := h.runTxLoop 0 turns

def getTxData (h : Hdlc) (room : ℕ) : Option (Hdlc × Bytes) :=
  (h.ll.runTx room).map fun (ll, out) ↦ ({ h with ll := ll }.deliverSent, out)

/-- How `send` gives a frame up. -/
def cancel (h : Hdlc) : Hdlc :=
  { h with ll := h.ll.reset .txOnly, events := h.events.set txAcceptBit }

/-- The loop of `send`, with the bytes that `send_fn` has taken; `none` as for `run_tx`. -/
def sendLoop (timeoutMs : UInt32) (h : Hdlc) : List Turn → Option (Hdlc × TinyResult Unit × Bytes)
  | [] => none
  | turn :: turns =>
    match h.ll.runTx 1 with
    | none => none
    | some (ll, out) =>
      match if out = [] then some 0 else offer turn.answers with
      | none => none
      | some sent =>
        if sent < 0 then some ({ h with ll := ll }.cancel, .error .failed, [])
        else
          match ll.getTxSentFrame with
          | (ll, some frame) => some ({ h with ll := ll }.frameSent frame, .ok (), out)
          | (ll, none) =>
            if timeoutMs ≠ 0xFFFFFFFF ∧ turn.elapsed ≥ durationFromMillis timeoutMs.toNat then
              some ({ h with ll := ll }.cancel, .error .timeout, out)
            else (sendLoop timeoutMs { h with ll := ll } turns).map fun (h, result, wire) ↦
              (h, result, out ++ wire)

/-- The call with what it returns and the bytes that its `send_fn` takes; `none` where
it never returns or panics. -/
def send (h : Hdlc) (data : Bytes) (timeoutMs : UInt32) (sendFn : Option (List Turn)) :
    Option (Hdlc × TinyResult Unit × Bytes) :=
  match h.events.wait txAcceptBit timeoutMs with
  | none => none
  | some (events, accepted) =>
    let h := { h with events := events }
    if accepted = 0 then some (h, .error .busy, [])
    else
      match h.ll.putFrame data with
      | (ll, .error e) => some ({ h with ll := ll }, .error e, [])
      | (ll, .ok ()) =>
        let h := { h with ll := ll, events := h.events.set txDataReadyBit }
        if timeoutMs = 0 then some (h, .ok (), [])
        else if h.multithreadMode then
          match h.events.wait txDataSentBit timeoutMs with
          | none => none
          | some (events, sent) =>
            let h := { h with events := events }
            if sent = 0 then some (h.cancel, .error .timeout, []) else some (h, .ok (), [])
        else
          match sendFn with
          | none => some (h, .ok (), [])
          | some turns => h.sendLoop timeoutMs turns

inductive Call
  | setOnFrameRead
  | setOnFrameSend
  | reset
  | runRx (data : Bytes)
  | runTx (turns : List (List ℤ))
  | getTxData (room : ℕ)
  | send (data : Bytes) (timeoutMs : UInt32) (sendFn : Option (List Turn))

def step (h : Hdlc) : Call → Option Hdlc
  | .setOnFrameRead => some h.setOnFrameRead
  | .setOnFrameSend => some h.setOnFrameSend
  | .reset => some h.reset
  | .runRx data => some (h.runRx data).1
  | .runTx turns => (h.runTx turns).map Prod.fst
  | .getTxData room => (h.getTxData room).map Prod.fst
  | .send data timeoutMs sendFn => (h.send data timeoutMs sendFn).map Prod.fst

theorem has_accept_frameSent (h : Hdlc) (frame : Bytes) :
    (h.frameSent frame).events.has txAcceptBit :=
  (Events.has_set _ _ _).mpr (.inr (by decide))

theorem foldl_frameSent (frames : List Bytes) (h : Hdlc) :
    (frames.foldl frameSent h).ll = h.ll ∧ (frames.foldl frameSent h).multithreadMode =
      h.multithreadMode ∧ (frames.foldl frameSent h).onFrameSend = h.onFrameSend.map (· ++ frames) ∧
      ((frames.foldl frameSent h).events.has txAcceptBit ↔ h.events.has txAcceptBit ∨
        frames ≠ []) := by
  induction frames generalizing h with
  | nil => simp
  | cons frame frames ih =>
    obtain ⟨hll, hmode, hlog, haccept⟩ := ih (h.frameSent frame)
    rw [List.foldl_cons]
    refine ⟨hll, hmode, ?_, ?_⟩
    · rw [hlog, frameSent, Option.map_map]
      simp [Function.comp_def]
    · rw [haccept]
      exact iff_of_true (.inl (has_accept_frameSent h frame)) (.inr (List.cons_ne_nil _ _))

theorem foldl_frameRead (frames : List Bytes) (h : Hdlc) :
    (frames.foldl frameRead h).ll = h.ll ∧ (frames.foldl frameRead h).multithreadMode =
      h.multithreadMode ∧ (frames.foldl frameRead h).onFrameSend = h.onFrameSend ∧
      ((frames.foldl frameRead h).events.has txAcceptBit ↔ h.events.has txAcceptBit) := by
  induction frames generalizing h with
  | nil => exact ⟨rfl, rfl, rfl, Iff.rfl⟩
  | cons frame frames ih =>
    obtain ⟨hll, hmode, hlog, haccept⟩ := ih (h.frameRead frame)
    refine ⟨hll, hmode, hlog, haccept.trans ?_⟩
    rw [frameRead, Events.has_set]
    exact or_iff_left (by decide)

section Specs

variable {h h' : Hdlc}

structure Delivers (h h' : Hdlc) : Prop where
  ok : h.ll.TxOk → h'.ll.TxOk
  frame_rule : h'.ll.eraseTx = h.ll.eraseTx
  rest : h'.ll.txRest = h.ll.txRest
  data : h'.ll.txData = h.ll.txData
  mode : h'.multithreadMode = h.multithreadMode
  log : h'.onFrameSend = h.onFrameSend.map (· ++ h.ll.txSentFrames)
  accept : h'.events.has txAcceptBit ↔ h.events.has txAcceptBit ∨ h.ll.txSentFrames ≠ []

theorem deliverSent_spec (h : Hdlc) : Delivers h h.deliverSent := by
  obtain ⟨hll, hmode, hlog, haccept⟩ :=
    foldl_frameSent h.ll.txSentFrames { h with ll := { h.ll with txSentFrames := [] } }
  have herase := congrArg HdlcLl.eraseTx hll
  have hrest := congrArg HdlcLl.txRest hll
  have hdata := congrArg HdlcLl.txData hll
  refine ⟨fun hok ↦ ?_, herase, hrest, hdata, hmode, hlog, haccept⟩
  rw [deliverSent, hll]
  exact hok.withTxSentFrames []

theorem getTxData_spec (hok : h.ll.TxOk) (room : ℕ) :
    ∃ ll, HdlcLl.Sends h.ll ll (h.ll.txRest.take room) ∧
      h.getTxData room =
        some (({ h with ll := ll } : Hdlc).deliverSent, h.ll.txRest.take room) := by
  obtain ⟨ll, hrun, hsends⟩ := HdlcLl.runTx_spec hok room
  exact ⟨ll, hsends, by rw [getTxData, hrun]; rfl⟩

theorem runRx_spec (hset : h.ll.Settled) (data : Bytes) :
    (h.runRx data).1.ll.Settled ∧ (h.runRx data).1.ll.eraseRx = h.ll.eraseRx ∧
      (h.runRx data).1.multithreadMode = h.multithreadMode ∧
      (h.runRx data).1.onFrameSend = h.onFrameSend ∧
      ((h.runRx data).1.events.has txAcceptBit ↔ h.events.has txAcceptBit) := by
  obtain ⟨k, e, hrun, -⟩ := HdlcLl.runRx_feed hset.rx data
  have hfeed := HdlcLl.feed_spec hset.rx (data.take k)
  have hok := txOk_of_eraseRx hfeed.frame_rule hset.tx
  obtain ⟨hll, hmode, hlog, haccept⟩ := foldl_frameRead (h.ll.feed (data.take k)).rxFrames
    { h with ll := { h.ll.feed (data.take k) with rxFrames := [] } }
  rw [runRx, hrun]
  refine ⟨?_, ?_, hmode, hlog, haccept⟩
  · rw [hll]
    refine ⟨@txOk_of_eraseRx (h.ll.feed (data.take k)) _ rfl hok, hfeed.ok.withRxFrames [], ?_⟩
    rw [HdlcLl.eraseRx_physMtu hfeed.frame_rule]
    exact hset.physMtu
  · rw [hll]
    exact hfeed.frame_rule

theorem offer_some {answers : List ℤ} {sent : ℤ} (h : offer answers = some sent) : sent < 0 ∨
    sent = 1 := by
  induction answers with
  | nil => cases h
  | cons answer answers ih =>
    rw [offer] at h
    split_ifs at h with htaken hagain
    · rwa [← Option.some.inj h]
    · exact ih h

structure LoopEnds (h h' : Hdlc) (result : TinyResult Unit) (wire : Bytes) : Prop where
  ok : h'.ll.TxOk
  frame_rule : h'.ll.eraseTx = h.ll.eraseTx
  mode : h'.multithreadMode = h.multithreadMode
  accept : h'.events.has txAcceptBit
  notified : result = .ok () → ∃ frame, h'.onFrameSend = h.onFrameSend.map (· ++ [frame]) ∧
    h.ll.txSentFrames ++ h.ll.txData.toList = frame :: (h'.ll.txSentFrames ++ h'.ll.txData.toList) ∧
    h.ll.txRest = wire ++ h'.ll.txRest
  cancelled : result ≠ .ok () → h'.ll.txData = none
  accepted : result ≠ .error .busy

theorem cancel_ends {ll : HdlcLl} (hok : ll.TxOk) (herase : ll.eraseTx = h.ll.eraseTx)
    {e : TinyError} (he : e ≠ .busy) (wire : Bytes) :
    LoopEnds h ({ h with ll := ll } : Hdlc).cancel (.error e) wire := by
  refine ⟨HdlcLl.txOk_reset hok .txOnly, ?_, rfl,
    (Events.has_set _ _ _).mpr (.inr (by decide)), fun hok ↦ ?_,
    fun _ ↦ rfl, fun hbusy ↦ he (Except.error.inj hbusy)⟩
  · rw [← herase]
    rfl
  · cases hok

theorem sendLoop_cons (hok : h.ll.TxOk) (timeoutMs : UInt32) (turn : Turn) (turns : List Turn) :
    ∃ ll, HdlcLl.Sends h.ll ll (h.ll.txRest.take 1) ∧
      h.sendLoop timeoutMs (turn :: turns) =
        (if h.ll.txRest = [] then some 0 else offer turn.answers).bind fun sent ↦
          if sent < 0 then some (({ h with ll := ll } : Hdlc).cancel, .error .failed, [])
          else
            match ll.getTxSentFrame with
            | (ll, some frame) =>
                some (({ h with ll := ll } : Hdlc).frameSent frame, .ok (), h.ll.txRest.take 1)
            | (ll, none) =>
              if timeoutMs ≠ 0xFFFFFFFF ∧ turn.elapsed ≥ durationFromMillis timeoutMs.toNat then
                some (({ h with ll := ll } : Hdlc).cancel, .error .timeout, h.ll.txRest.take 1)
              else
                (sendLoop timeoutMs { h with ll := ll } turns).map fun (h', result, wire) ↦
                  (h', result, h.ll.txRest.take 1 ++ wire) := by
  obtain ⟨ll, hrun, hsends⟩ := HdlcLl.runTx_spec hok 1
  refine ⟨ll, hsends, ?_⟩
  have hnil : h.ll.txRest.take 1 = [] ↔ h.ll.txRest = [] := by simp
  rw [sendLoop, hrun]
  simp only [hnil]
  cases (if h.ll.txRest = [] then some 0 else offer turn.answers) <;> rfl

theorem sendLoop_spec (timeoutMs : UInt32) (turns : List Turn) {h : Hdlc} (hok : h.ll.TxOk)
    {result : TinyResult Unit} {wire : Bytes}
    (hrun : h.sendLoop timeoutMs turns = some (h', result, wire)) : LoopEnds h h' result wire := by
  induction turns generalizing h result wire with
  | nil => cases hrun
  | cons turn turns ih =>
    obtain ⟨ll, hsends, hloop⟩ := sendLoop_cons hok timeoutMs turn turns
    rw [hrun] at hloop
    obtain ⟨sent, hoffer, hround⟩ := Option.bind_eq_some_iff.mp hloop.symm
    by_cases hfailed : sent < 0
    · rw [if_pos hfailed] at hround
      cases hround
      exact cancel_ends hsends.ok hsends.frame_rule (by decide) []
    · rw [if_neg hfailed, HdlcLl.getTxSentFrame] at hround
      have hframes := hsends.frames
      cases hqueue : ll.txSentFrames with
      | cons frame queue =>
        rw [hqueue] at hround hframes
        cases hround
        refine ⟨hsends.ok.withTxSentFrames queue, hsends.frame_rule, rfl,
          has_accept_frameSent _ frame, fun _ ↦ ?_, fun hno ↦ absurd rfl hno, fun hbusy ↦ ?_⟩
        · exact ⟨frame, rfl, hframes.symm, hsends.rest⟩
        · cases hbusy
      | nil =>
        rw [hqueue] at hround
        dsimp only at hround
        split at hround
        · cases hround
          exact cancel_ends hsends.ok hsends.frame_rule (by decide) _
        · obtain ⟨⟨h₁, result₁, wire₁⟩, hloop₁, hround⟩ := Option.map_eq_some_iff.mp hround
          obtain ⟨rfl, rfl, rfl⟩ := hround
          have hend := @ih { h with ll := ll } hsends.ok _ _ hloop₁
          refine ⟨hend.ok, hend.frame_rule.trans hsends.frame_rule, hend.mode, hend.accept,
            fun hres ↦ ?_, hend.cancelled, hend.accepted⟩
          obtain ⟨frame, hlog, hqueue₁, hrest⟩ := hend.notified hres
          refine ⟨frame, hlog, hframes.symm.trans hqueue₁, ?_⟩
          calc h.ll.txRest = h.ll.txRest.take 1 ++ ll.txRest := hsends.rest
            _ = h.ll.txRest.take 1 ++ (wire₁ ++ h₁.ll.txRest) := congrArg _ hrest
            _ = h.ll.txRest.take 1 ++ wire₁ ++ h₁.ll.txRest := (List.append_assoc _ _ _).symm

/-- Where a notification is pending from before, the loop ends after the first byte. -/
theorem sendLoop_stale (hok : h.ll.TxOk) (hstale : h.ll.txSentFrames ≠ [])
    (timeoutMs : UInt32) (turn : Turn) (turns : List Turn) :
    ∃ stopped done : Hdlc, stopped.ll.txData = none ∧ done.ll.txRest = h.ll.txRest.drop 1 ∧
      done.events.has txAcceptBit ∧
      h.sendLoop timeoutMs (turn :: turns) =
        (if h.ll.txRest = [] then some 0 else offer turn.answers).map fun sent ↦
          if sent < 0 then (stopped, .error .failed, [])
            else (done, .ok (), h.ll.txRest.take 1) := by
  obtain ⟨ll, hsends, hloop⟩ := sendLoop_cons hok timeoutMs turn turns
  obtain ⟨frame, queue, hcons⟩ := List.exists_cons_of_ne_nil (hsends.stale hstale)
  rw [HdlcLl.getTxSentFrame, hcons] at hloop
  refine ⟨({ h with ll := ll } : Hdlc).cancel,
    ({ h with ll := { ll with txSentFrames := queue } } : Hdlc).frameSent frame, rfl, hsends.txRest,
    has_accept_frameSent _ frame, ?_⟩
  rw [hloop, Option.map_eq_bind]
  congr 1
  funext sent
  dsimp only [Function.comp_apply]
  split <;> rfl

/-- The rounds of a call of `run_tx` that returns: each has one byte taken, until the frame
in hand is at its end or a byte is refused. -/
inductive TxRounds : Hdlc → ℤ → List (List ℤ) → Hdlc → ℤ → Bytes → Prop
  | drained {h : Hdlc} {total : ℤ} {turns : List (List ℤ)} {ll : HdlcLl} (hrest : h.ll.txRest = [])
      (hsends : HdlcLl.Sends h.ll ll []) :
      TxRounds h total turns ({ h with ll := ll } : Hdlc).deliverSent total []
  | refused {h : Hdlc} {total sent : ℤ} {answers : List ℤ} {turns : List (List ℤ)} {ll : HdlcLl}
      {byte : UInt8} {rest : Bytes} (hrest : h.ll.txRest = byte :: rest)
      (hsends : HdlcLl.Sends h.ll ll [byte]) (hoffer : offer answers = some sent)
      (hneg : sent < 0) :
      TxRounds h total (answers :: turns) { h with ll := ll } (if total > 0 then total else sent) []
  | taken {h h' : Hdlc} {total value : ℤ} {answers : List ℤ} {turns : List (List ℤ)} {ll : HdlcLl}
      {byte : UInt8} {rest wire : Bytes} (hrest : h.ll.txRest = byte :: rest)
      (hsends : HdlcLl.Sends h.ll ll [byte]) (hoffer : offer answers = some 1)
      (hnext : TxRounds { h with ll := ll } (total + 1) turns h' value wire) :
      TxRounds h total (answers :: turns) h' value (byte :: wire)

theorem runTxLoop_rounds (turns : List (List ℤ)) {h : Hdlc} (hok : h.ll.TxOk) {total value : ℤ}
    {wire : Bytes} (hrun : h.runTxLoop total turns = some (h', value, wire)) :
    TxRounds h total turns h' value wire := by
  induction turns generalizing h total wire with
  | nil =>
    obtain ⟨ll, htx, hsends⟩ := HdlcLl.runTx_spec hok 1
    rw [runTxLoop, htx] at hrun
    cases hrest : h.ll.txRest with
    | nil =>
      rw [hrest] at hrun hsends
      cases hrun
      exact .drained hrest hsends
    | cons byte rest =>
      rw [hrest] at hrun
      cases hrun
  | cons answers turns ih =>
    obtain ⟨ll, htx, hsends⟩ := HdlcLl.runTx_spec hok 1
    rw [runTxLoop, htx] at hrun
    cases hrest : h.ll.txRest with
    | nil =>
      rw [hrest] at hrun hsends
      cases hrun
      exact .drained hrest hsends
    | cons byte rest =>
      rw [hrest] at hrun hsends
      dsimp only [List.take_succ_cons, List.take_zero] at hrun hsends
      cases hoffer : offer answers with
      | none =>
        rw [hoffer] at hrun
        cases hrun
      | some sent =>
        rw [hoffer] at hrun
        dsimp only at hrun
        by_cases hneg : sent < 0
        · rw [if_pos hneg] at hrun
          cases hrun
          exact .refused hrest hsends hoffer hneg
        · obtain rfl := (offer_some hoffer).resolve_left hneg
          rw [if_neg hneg] at hrun
          split_ifs at hrun
          obtain ⟨⟨h₁, value₁, wire₁⟩, hloop, rfl, rfl, rfl⟩ := Option.map_eq_some_iff.mp hrun
          exact .taken hrest hsends hoffer (@ih { h with ll := ll } hsends.ok _ _ hloop)

/-- A call of `run_tx` that returns has written off the frame in hand and delivered its
notification, or has stopped at a byte that the channel refused. -/
theorem runTxLoop_spec (turns : List (List ℤ)) {h : Hdlc} (hok : h.ll.TxOk) {total total' : ℤ}
    {wire : Bytes} (hrun : h.runTxLoop total turns = some (h', total', wire)) :
    ∃ ll, HdlcLl.Sends h.ll ll wire ∧ ll.txData = none ∧
    h' = ({ h with ll := ll } : Hdlc).deliverSent ∨
      ∃ byte, HdlcLl.Sends h.ll ll (wire ++ [byte]) ∧ h' = { h with ll := ll } := by
  have hrounds := runTxLoop_rounds turns hok hrun
  clear hrun hok
  induction hrounds with
  | @drained _ _ _ ll hrest hsends =>
    exact ⟨ll, .inl ⟨hsends, HdlcLl.txRest_eq_nil.mp (hsends.rest.symm.trans hrest), rfl⟩⟩
  | @refused _ _ _ _ _ ll byte _ hrest hsends hoffer hneg => exact ⟨ll, .inr ⟨byte, hsends, rfl⟩⟩
  | taken hrest hsends hoffer hnext ih =>
    obtain ⟨ll, ⟨hall, hidle, hend⟩ | ⟨last, hall, hend⟩⟩ := ih
    · exact ⟨ll, .inl ⟨hsends.trans hall, hidle, hend⟩⟩
    · exact ⟨ll, .inr ⟨last, hsends.trans hall, hend⟩⟩

def queue (h : Hdlc) (data : Bytes) : Hdlc :=
  { h with ll := (h.ll.putFrame data).1, events := (h.events.clear txAcceptBit).set txDataReadyBit }

theorem not_has_accept_queue (h : Hdlc) (data : Bytes) :
    ¬ (h.queue data).events.has txAcceptBit := by
  rw [queue, Events.has_set, not_or]
  exact ⟨Events.not_has_clear _ _ _ (by decide), by decide⟩

theorem has_sent_queue (h : Hdlc) (data : Bytes) :
    (h.queue data).events.has txDataSentBit ↔ h.events.has txDataSentBit := by
  rw [queue, Events.has_set, Events.has_clear _ _ _ (by decide)]
  exact or_iff_left (by decide)

theorem queue_txOk (hok : h.ll.TxOk) (data : Bytes) : (h.queue data).ll.TxOk :=
  HdlcLl.txOk_putFrame hok data

theorem queue_nil (h : Hdlc) : (h.queue []).ll = h.ll := by
  rw [queue, HdlcLl.putFrame, if_pos rfl]

theorem queue_spec (hok : h.ll.TxOk) (hidle : h.ll.txData = none) {data : Bytes} (hne : data ≠ []) :
    (h.queue data).ll.txRest = wireFrame h.ll.crcType data ∧ (h.queue data).ll.txData = some data ∧
      (h.queue data).ll.txSentFrames = h.ll.txSentFrames := by
  obtain ⟨ll, hput, -, hrest, -, hdata, hsent⟩ := HdlcLl.putFrame_idle hok hidle hne
  rw [queue, hput]
  exact ⟨hrest, hdata, hsent⟩

theorem queue_eraseTx (h : Hdlc) (data : Bytes) : (h.queue data).ll.eraseTx = h.ll.eraseTx := by
  rw [queue, HdlcLl.putFrame]
  split_ifs <;> rfl

/-- The ways through `send`. -/
theorem send_eq (h : Hdlc) (data : Bytes) (timeoutMs : UInt32) (sendFn : Option (List Turn)) :
    h.send data timeoutMs sendFn =
      if ¬ h.events.has txAcceptBit then
        if timeoutMs = 0xFFFFFFFF then none
        else some ({ h with events := h.events.clear txAcceptBit }, .error .busy, [])
      else if data ≠ [] ∧ h.ll.txData ≠ none then
        some ({ h with events := h.events.clear txAcceptBit }, .error .busy, [])
      else if timeoutMs = 0 then some (h.queue data, .ok (), [])
      else if h.multithreadMode then
        if h.events.has txDataSentBit then
          some ({ h.queue data with events := (h.queue data).events.clear txDataSentBit }, .ok (),
            [])
        else if timeoutMs = 0xFFFFFFFF then none
        else
          some (({ h.queue data with events := (h.queue data).events.clear txDataSentBit } :
            Hdlc).cancel,
            .error .timeout, [])
      else
        match sendFn with
        | none => some (h.queue data, .ok (), [])
        | some turns => (h.queue data).sendLoop timeoutMs turns := by
  rw [send, Events.wait_eq]
  by_cases haccept : h.events.has txAcceptBit
  · rw [if_pos (.inl haccept), if_neg (not_not.mpr haccept)]
    dsimp only
    rw [if_neg haccept]
    by_cases hbusy : data ≠ [] ∧ h.ll.txData ≠ none
    · have hput := HdlcLl.putFrame_eq h.ll data
      rw [if_pos hbusy] at hput
      rw [hput, if_pos hbusy]
    · have hput := HdlcLl.putFrame_eq h.ll data
      rw [if_neg hbusy] at hput
      rw [hput, if_neg hbusy]
      dsimp only
      by_cases hzero : timeoutMs = 0
      · rw [if_pos hzero, if_pos hzero]
        rfl
      · have hsent : ((h.events.clear txAcceptBit).set txDataReadyBit).has txDataSentBit ↔
            h.events.has txDataSentBit :=
          has_sent_queue h data
        rw [if_neg hzero, if_neg hzero, Events.wait_eq]
        by_cases hmode : h.multithreadMode
        · rw [if_pos hmode, if_pos hmode]
          by_cases hdone : h.events.has txDataSentBit
          · rw [if_pos (.inl (hsent.mpr hdone)), if_pos hdone]
            exact if_neg (hsent.mpr hdone)
          · have hwaits := mt hsent.mp hdone
            rw [if_neg hdone]
            by_cases hforever : timeoutMs = 0xFFFFFFFF
            · rw [if_neg (not_or.mpr ⟨hwaits, not_not.mpr hforever⟩), if_pos hforever]
            · rw [if_pos (.inr hforever), if_neg hforever]
              exact if_pos (not_not.mp hwaits)
        · rw [if_neg hmode, if_neg hmode]
          rfl
  · rw [if_pos haccept]
    by_cases hforever : timeoutMs = 0xFFFFFFFF
    · rw [if_neg (not_or.mpr ⟨haccept, not_not.mpr hforever⟩), if_pos hforever]
    · rw [if_pos (.inr hforever), if_neg hforever]
      dsimp only
      rw [if_pos (not_not.mp haccept)]

inductive SendCase (h : Hdlc) (data : Bytes) (timeoutMs : UInt32) (sendFn : Option (List Turn)) :
    Hdlc → TinyResult Unit → Bytes → Prop
  | refused (haccept : ¬ h.events.has txAcceptBit) :
      SendCase h data timeoutMs sendFn { h with events := h.events.clear txAcceptBit }
        (.error .busy) []
  | busy (haccept : h.events.has txAcceptBit) (hdata : data ≠ []) (hbusy : h.ll.txData ≠ none) :
      SendCase h data timeoutMs sendFn { h with events := h.events.clear txAcceptBit }
        (.error .busy) []
  | queued (haccept : h.events.has txAcceptBit) (hroom : ¬ (data ≠ [] ∧ h.ll.txData ≠ none))
      (hmode : timeoutMs = 0 ∨ ¬ h.multithreadMode ∧ sendFn = none) :
      SendCase h data timeoutMs sendFn (h.queue data) (.ok ()) []
  | awaited (haccept : h.events.has txAcceptBit) (hroom : ¬ (data ≠ [] ∧ h.ll.txData ≠ none))
      (htime : timeoutMs ≠ 0) (hmode : h.multithreadMode) (hsent : h.events.has txDataSentBit) :
      SendCase h data timeoutMs sendFn
        { h.queue data with events := (h.queue data).events.clear txDataSentBit } (.ok ()) []
  | timedOut (haccept : h.events.has txAcceptBit) :
      SendCase h data timeoutMs sendFn
        ({ h.queue data with events := (h.queue data).events.clear txDataSentBit } : Hdlc).cancel
          (.error .timeout) []
  | driven {turns : List Turn} {h' : Hdlc} {result : TinyResult Unit} {wire : Bytes}
      (haccept : h.events.has txAcceptBit) (hroom : ¬ (data ≠ [] ∧ h.ll.txData ≠ none))
      (htime : timeoutMs ≠ 0) (hmode : ¬ h.multithreadMode) (hfn : sendFn = some turns)
      (hloop : (h.queue data).sendLoop timeoutMs turns = some (h', result, wire)) :
      SendCase h data timeoutMs sendFn h' result wire

theorem send_cases {data : Bytes} {timeoutMs : UInt32} {sendFn : Option (List Turn)}
    {result : TinyResult Unit} {wire : Bytes}
    (hsend : h.send data timeoutMs sendFn = some (h', result, wire)) :
    SendCase h data timeoutMs sendFn h' result wire := by
  rw [send_eq] at hsend
  by_cases haccept : h.events.has txAcceptBit
  · rw [if_neg (not_not.mpr haccept)] at hsend
    split_ifs at hsend with hroom hzero hmode hsent
    · cases hsend
      exact .busy haccept hroom.1 hroom.2
    · cases hsend
      exact .queued haccept hroom (.inl hzero)
    · cases hsend
      exact .awaited haccept hroom hzero hmode hsent
    · cases hsend
      exact .timedOut haccept
    · cases sendFn with
      | none =>
        cases hsend
        exact .queued haccept hroom (.inr ⟨hmode, rfl⟩)
      | some turns => exact .driven haccept hroom hzero hmode rfl hsend
  · rw [if_pos haccept] at hsend
    split_ifs at hsend
    cases hsend
    exact .refused haccept

end Specs

end Hdlc

end TinyProto
