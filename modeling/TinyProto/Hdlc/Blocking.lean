import TinyProto.Hdlc.HighLevel

namespace TinyProto

open Lib

namespace Hdlc

variable {h h' : Hdlc}

theorem settled_of_eraseTx {ll ll' : HdlcLl} (hset : ll.Settled) (hok : ll'.TxOk)
    (herase : ll'.eraseTx = ll.eraseTx) : ll'.Settled :=
  ⟨hok, rxOk_of_eraseTx herase hset.rx, by rw [physMtu_of_eraseTx herase]; exact hset.physMtu⟩

/-- What every call leaves as it is. -/
structure Keeps (h h' : Hdlc) : Prop where
  settled : h'.ll.Settled
  mode : h'.multithreadMode = h.multithreadMode
  crcType : h'.ll.crcType = h.ll.crcType

theorem Keeps.trans {a b c : Hdlc} (hab : Keeps a b) (hbc : Keeps b c) : Keeps a c :=
  ⟨hbc.settled, hbc.mode.trans hab.mode, hbc.crcType.trans hab.crcType⟩

theorem keeps_of_eraseTx (hset : h.ll.Settled) (hok : h'.ll.TxOk)
    (herase : h'.ll.eraseTx = h.ll.eraseTx) (hmode : h'.multithreadMode = h.multithreadMode) :
    Keeps h h' :=
  ⟨settled_of_eraseTx hset hok herase, hmode, crcType_of_eraseTx herase⟩

theorem keeps_deliverSent (hset : h.ll.Settled) {ll : HdlcLl} {out : Bytes}
    (hsends : HdlcLl.Sends h.ll ll out) : Keeps h ({ h with ll := ll } : Hdlc).deliverSent := by
  have hdelivers := deliverSent_spec { h with ll := ll }
  exact keeps_of_eraseTx hset (hdelivers.ok hsends.ok)
    (hdelivers.frame_rule.trans hsends.frame_rule) hdelivers.mode

theorem send_keeps (hset : h.ll.Settled) {data : Bytes} {timeoutMs : UInt32}
    {sendFn : Option (List Turn)} {result : TinyResult Unit} {wire : Bytes}
    (hsend : h.send data timeoutMs sendFn = some (h', result, wire)) : Keeps h h' := by
  have hok := queue_txOk hset.tx data
  have herase := queue_eraseTx h data
  cases send_cases hsend with
  | refused haccept => exact ⟨hset, rfl, rfl⟩
  | busy haccept hdata hbusy => exact ⟨hset, rfl, rfl⟩
  | queued haccept hroom hmode => exact keeps_of_eraseTx hset hok herase rfl
  | awaited haccept hroom htime hmode hsent => exact keeps_of_eraseTx hset hok herase rfl
  | timedOut haccept => exact keeps_of_eraseTx hset (HdlcLl.txOk_reset hok .txOnly) herase rfl
  | driven haccept hroom htime hmode hfn hloop =>
    have hend := sendLoop_spec timeoutMs _ hok hloop
    exact keeps_of_eraseTx hset hend.ok (hend.frame_rule.trans herase) hend.mode

theorem step_keeps (hset : h.ll.Settled) {call : Call} (hstep : h.step call = some h') :
    Keeps h h' := by
  cases call with
  | setOnFrameRead =>
    rw [← Option.some.inj hstep]
    exact ⟨hset, rfl, rfl⟩
  | setOnFrameSend =>
    rw [← Option.some.inj hstep]
    exact ⟨hset, rfl, rfl⟩
  | reset =>
    rw [← Option.some.inj hstep]
    have hreset : h.ll.step (.reset .both) = some h.reset.ll := rfl
    exact ⟨hset.step hreset, rfl, rfl⟩
  | runRx data =>
    obtain ⟨hset', herase, hmode, -⟩ := runRx_spec hset data
    rw [← Option.some.inj hstep]
    exact ⟨hset', hmode, HdlcLl.eraseRx_crcType herase⟩
  | runTx turns =>
    obtain ⟨⟨h₁, total, wire⟩, hrun, rfl⟩ := Option.map_eq_some_iff.mp hstep
    obtain ⟨ll, ⟨hsends, -, rfl⟩ | ⟨byte, hsends, rfl⟩⟩ := runTxLoop_spec turns hset.tx hrun
    · exact keeps_deliverSent hset hsends
    · exact keeps_of_eraseTx hset hsends.ok hsends.frame_rule rfl
  | getTxData room =>
    obtain ⟨ll, hsends, hget⟩ := getTxData_spec hset.tx room
    rw [step, hget] at hstep
    rw [← Option.some.inj hstep]
    exact keeps_deliverSent hset hsends
  | send data timeoutMs sendFn =>
    obtain ⟨⟨h₁, result, wire⟩, hsend, rfl⟩ := Option.map_eq_some_iff.mp hstep
    exact send_keeps hset hsend

theorem new_spec {config : HdlcConfig} (hnew : Hdlc.new config = .ok h) :
    h.ll.Settled ∧ h.multithreadMode = config.multithreadMode ∧ h.ll.crcType = config.crcType ∧
      h.events.has txAcceptBit ∧ h.ll.txData = none := by
  rw [Hdlc.new] at hnew
  cases hll : HdlcLl.new ⟨config.crcType, config.mtu, config.rxBufSize⟩ with
  | error e =>
    rw [hll] at hnew
    cases hnew
  | ok ll =>
    obtain ⟨-, -, -, hidle, -, -, hcrc⟩ := HdlcLl.new_ok hll
    rw [hll] at hnew
    rw [← Except.ok.inj hnew]
    exact ⟨HdlcLl.settled_new hll, rfl, hcrc,
      (by decide : (Events.new.set txAcceptBit).has txAcceptBit), hidle⟩

theorem run_keeps {fresh : Hdlc} (hset : fresh.ll.Settled) {calls : List Call}
    (hrun : run step fresh calls = some h) : Keeps fresh h := by
  have hstep : ∀ s call s', Keeps fresh s → True → step s call = some s' → Keeps fresh s' :=
    fun s call s' hs _ hstep ↦ hs.trans (step_keeps hs.settled hstep)
  exact run_invariant hstep ⟨hset, rfl, rfl⟩ (EachStep.trivial fresh calls) hrun

/-- A blocking `send` that returns `Ok` has sent its frame, the whole of it and no other,
just where no notification was pending when it was called. -/
theorem send_ok_iff {config : HdlcConfig} {fresh : Hdlc} (hnew : Hdlc.new config = .ok fresh)
    (hmode : config.multithreadMode = false) {calls : List Call}
    (hrun : run step fresh calls = some h) {data : Bytes} (hne : data ≠ []) {timeoutMs : UInt32}
    (htime : timeoutMs ≠ 0) {turns : List Turn} {wire : Bytes}
    (hsend : h.send data timeoutMs (some turns) = some (h', .ok (), wire)) :
    (wire = wireFrame config.crcType data ∧ h'.onFrameSend = h.onFrameSend.map (· ++ [data]) ∧
      h'.ll.txData = none) ↔ h.ll.txSentFrames = [] := by
  obtain ⟨hset, hmode', hcrc, -⟩ := new_spec hnew
  have hkeeps := run_keeps hset hrun
  have hok := queue_txOk hkeeps.settled.tx data
  cases send_cases hsend with
  | queued haccept hroom hqueues =>
    rcases hqueues with hzero | ⟨-, hnone⟩
    · exact absurd hzero htime
    · cases hnone
  | awaited haccept hroom htime' hmulti hsent =>
    rw [hkeeps.mode, hmode', hmode] at hmulti
    cases hmulti
  | driven haccept hroom htime' hmulti hfn hloop =>
    injection hfn with hfn
    have hidle : h.ll.txData = none := by_contra fun hbusy ↦ hroom ⟨hne, hbusy⟩
    obtain ⟨hrest, hdata, hsent⟩ := queue_spec hkeeps.settled.tx hidle hne
    rw [hkeeps.crcType, hcrc] at hrest
    constructor
    · rintro ⟨hwire, -, -⟩
      by_contra hstale
      rw [← hsent] at hstale
      cases hturns : turns with
      | nil =>
        rw [← hfn, hturns] at hloop
        cases hloop
      | cons turn turns =>
        obtain ⟨stopped, done, -, -, -, hfirst⟩ := sendLoop_stale hok hstale timeoutMs turn turns
        rw [← hfn, hturns, hfirst] at hloop
        obtain ⟨sent, -, hround⟩ := Option.map_eq_some_iff.mp hloop
        split at hround
        · cases hround
        · injection hround with _ hround
          injection hround with _ hround
          have hlen := one_lt_wireFrame_length config.crcType data
          rw [← hwire, ← hround, List.length_take] at hlen
          omega
    · intro hnone
      obtain ⟨frame, hlog, hqueue, hall⟩ := (sendLoop_spec timeoutMs _ hok hloop).notified rfl
      rw [hsent, hnone, hdata] at hqueue
      injection hqueue with hframe hleft
      have hdone := Option.toList_eq_nil_iff.mp (List.append_eq_nil_iff.mp hleft.symm).2
      rw [hrest, HdlcLl.txRest_eq_nil.mpr hdone, List.append_nil] at hall
      exact ⟨hall.symm, by rw [hlog, ← hframe]; rfl, hdone⟩

theorem send_ok_iff_fresh :
    ∃ fresh h h' : Hdlc, Hdlc.new { crcType := .hdlcCrcOff } = .ok fresh ∧
    run step fresh [.setOnFrameSend] = some h ∧
      h.send [1] 0xFFFFFFFF (some [⟨[0, 1], 0⟩, ⟨[1], 0⟩, ⟨[1], 0⟩]) =
        some (h', .ok (), [0x7E, 1, 0x7E]) ∧
      [0x7E, 1, 0x7E] = wireFrame .hdlcCrcOff [1] ∧
        h'.onFrameSend = h.onFrameSend.map (· ++ [[1]]) ∧
      h'.ll.txData = none := by
  refine ⟨_, _, _, rfl, rfl, rfl, ?_⟩
  exact (@send_ok_iff _ _ { crcType := .hdlcCrcOff } _ rfl rfl [.setOnFrameSend] rfl [1]
    (List.cons_ne_nil _ _) 0xFFFFFFFF (by decide) [⟨[0, 1], 0⟩, ⟨[1], 0⟩, ⟨[1], 0⟩]
      [0x7E, 1, 0x7E] rfl).mpr rfl

/-- After an error on the closing flag the next `send` returns `Ok` for its opening flag. -/
theorem send_ok_stale :
    ∃ fresh h h' : Hdlc, Hdlc.new { crcType := .hdlcCrcOff } = .ok fresh ∧
      run step fresh
        [.setOnFrameSend, .send [1] 0xFFFFFFFF (some [⟨[1], 0⟩, ⟨[1], 0⟩, ⟨[-1], 0⟩])] = some h ∧
      h.send [2] 0xFFFFFFFF (some [⟨[1], 0⟩, ⟨[1], 0⟩, ⟨[1], 0⟩]) = some (h', .ok (), [0x7E]) ∧
      h.onFrameSend = some [] ∧ h'.onFrameSend = some [[1]] ∧ h'.ll.txData = some [2] ∧
      ¬ ([0x7E] = wireFrame .hdlcCrcOff [2] ∧ h'.onFrameSend = h.onFrameSend.map (· ++ [[2]]) ∧
        h'.ll.txData = none) := by
  refine ⟨_, _, _, rfl, rfl, rfl, rfl, rfl, rfl, ?_⟩
  rintro ⟨-, -, hidle⟩
  cases hidle

/-- `send` is let in only while nothing is queued, and once the queue is drained. -/
structure Unwedged (h : Hdlc) : Prop where
  accepting : h.events.has txAcceptBit → h.ll.txData = none
  pending : ¬ h.events.has txAcceptBit → h.ll.txData ≠ none ∨ h.ll.txSentFrames ≠ []
  drains : ∀ rooms : List ℕ, rooms ≠ [] → h.ll.txRest.length ≤ rooms.sum →
    ∃ h', run step h (rooms.map .getTxData) = some h' ∧ h'.events.has txAcceptBit ∧
      ∀ data timeoutMs sendFn h'' result wire,
        h'.send data timeoutMs sendFn = some (h'', result, wire) → result ≠ .error .busy

def firstAnswer (sendFn : Option (List Turn)) : Option ℤ :=
  sendFn.bind fun turns ↦ turns.head?.bind fun turn ↦ offer turn.answers

/-- The calls that keep the event bit and the queue in step: `get_tx_data` does not deliver
an old notification in the middle of a frame; a `send` that leaves its frame to other calls
has one, or finds a notification; one that drives the channel itself does not find a
notification after its first byte. -/
def Safe (h : Hdlc) : Call → Prop
  | .getTxData room => h.ll.txSentFrames ≠ [] → h.ll.txData ≠ none → h.ll.txRest.length ≤ room
  | .send data timeoutMs sendFn =>
    h.events.has txAcceptBit →
      (timeoutMs = 0 ∨ h.multithreadMode ∧ h.events.has txDataSentBit ∨ ¬ h.multithreadMode ∧
        sendFn = none →
        data ≠ [] ∨ h.ll.txSentFrames ≠ []) ∧
      (timeoutMs ≠ 0 → ¬ h.multithreadMode → data ≠ [] → h.ll.txSentFrames ≠ [] →
        firstAnswer sendFn ≠ some 1)
  | _ => True

instance (h : Hdlc) : ∀ call, Decidable (h.Safe call)
  | .getTxData _ => by unfold Safe; infer_instance
  | .send .. => by unfold Safe; infer_instance
  | .setOnFrameRead | .setOnFrameSend | .reset | .runRx _ | .runTx _ => .isTrue trivial

/-- The first two parts of `Unwedged`, from which the third follows. -/
structure Accepts (h : Hdlc) : Prop where
  settled : h.ll.Settled
  accepting : h.events.has txAcceptBit → h.ll.txData = none
  pending : ¬ h.events.has txAcceptBit → h.ll.txData ≠ none ∨ h.ll.txSentFrames ≠ []

theorem Accepts.deliverSent (hacc : Accepts h) {ll : HdlcLl} {out : Bytes}
    (hsends : HdlcLl.Sends h.ll ll out) (hdone : ll.txData = none ∨ h.ll.txSentFrames = []) :
    Accepts ({ h with ll := ll } : Hdlc).deliverSent := by
  have hkeeps := keeps_deliverSent hacc.settled hsends
  have hdelivers := deliverSent_spec { h with ll := ll }
  refine ⟨hkeeps.settled, fun hlet ↦ ?_, fun hlet ↦ ?_⟩
  · rw [hdelivers.data]
    rcases hdone with hdone | hnone
    · exact hdone
    · rcases hsends.txSentFrames with ⟨hsame, hsent⟩ | ⟨hdone, -⟩
      · rw [hsame]
        have hold := hdelivers.accept.mp hlet
        rw [hsent, hnone] at hold
        exact hacc.accepting (hold.resolve_right (not_not.mpr rfl))
      · exact hdone
  · left
    rw [hdelivers.data]
    obtain ⟨hold, hempty⟩ := not_or.mp (mt hdelivers.accept.mpr hlet)
    exact (hsends.occupied (hacc.pending hold)).resolve_right hempty

theorem has_accept_cancel (h : Hdlc) : h.cancel.events.has txAcceptBit :=
  (Events.has_set _ _ _).mpr (.inr (by decide))

theorem Accepts.queue (hacc : Accepts h) (haccept : h.events.has txAcceptBit) {data : Bytes}
    (hsome : data ≠ [] ∨ h.ll.txSentFrames ≠ []) : Accepts (h.queue data) := by
  have hok := queue_txOk hacc.settled.tx data
  refine ⟨settled_of_eraseTx hacc.settled hok (queue_eraseTx h data), fun hlet ↦ ?_, fun _ ↦ ?_⟩
  · exact absurd hlet (not_has_accept_queue h data)
  · by_cases hne : data = []
    · rw [hne, queue_nil]
      exact .inr (hsome.resolve_left (not_not.mpr hne))
    · rw [(queue_spec hacc.settled.tx (hacc.accepting haccept) hne).2.1]
      exact .inl (Option.some_ne_none data)

theorem Accepts.send (hacc : Accepts h) {data : Bytes} {timeoutMs : UInt32}
    {sendFn : Option (List Turn)} (hsafe : h.Safe (.send data timeoutMs sendFn))
    {result : TinyResult Unit} {wire : Bytes}
    (hsend : h.send data timeoutMs sendFn = some (h', result, wire)) : Accepts h' := by
  have hkeeps := send_keeps hacc.settled hsend
  cases send_cases hsend with
  | refused haccept =>
    have hclosed := Events.not_has_clear h.events txAcceptBit txAcceptBit (by decide)
    exact ⟨hacc.settled, fun hlet ↦ absurd hlet hclosed, fun _ ↦ hacc.pending haccept⟩
  | busy haccept hdata hbusy => exact absurd (hacc.accepting haccept) hbusy
  | queued haccept hroom hmode =>
    exact hacc.queue haccept ((hsafe haccept).1 (hmode.imp_right .inr))
  | awaited haccept hroom htime hmode hsent =>
    have hqueue := hacc.queue haccept ((hsafe haccept).1 (.inr (.inl ⟨hmode, hsent⟩)))
    have hsame := Events.has_clear (h.queue data).events txDataSentBit txAcceptBit (by decide)
    exact ⟨hqueue.settled, fun hlet ↦ hqueue.accepting (hsame.mp hlet),
      fun hlet ↦ hqueue.pending (mt hsame.mpr hlet)⟩
  | timedOut haccept =>
      exact ⟨hkeeps.settled, fun _ ↦ rfl, fun hlet ↦ absurd (has_accept_cancel _) hlet⟩
  | @driven turns _ _ _ haccept hroom htime hmode hfn hloop =>
    have hend := sendLoop_spec timeoutMs _ (queue_txOk hacc.settled.tx data) hloop
    refine ⟨hkeeps.settled, fun _ ↦ ?_, fun hlet ↦ absurd hend.accept hlet⟩
    have hidle := hacc.accepting haccept
    by_cases hres : result = .ok ()
    · obtain ⟨frame, -, hqueue, hrest⟩ := hend.notified hres
      by_cases hne : data = []
      · rw [hne, queue_nil, HdlcLl.txRest_eq_nil.mpr hidle] at hrest
        exact HdlcLl.txRest_eq_nil.mp (List.append_eq_nil_iff.mp hrest.symm).2
      · obtain ⟨hall, hdata, hsent⟩ := queue_spec hacc.settled.tx hidle hne
        by_cases hnone : h.ll.txSentFrames = []
        · rw [hdata, hsent, hnone] at hqueue
          injection hqueue with _ hleft
          exact Option.toList_eq_nil_iff.mp (List.append_eq_nil_iff.mp hleft.symm).2
        · have hrefused := (hsafe haccept).2 htime hmode hne hnone
          rw [← hsent] at hnone
          rw [hfn] at hrefused
          rw [hres] at hloop
          cases turns with
          | nil => cases hloop
          | cons turn turns =>
            obtain ⟨stopped, done, -, -, -, hfirst⟩ :=
              sendLoop_stale (queue_txOk hacc.settled.tx data) hnone timeoutMs turn turns
            rw [hfirst, hall, if_neg (List.ne_nil_of_length_pos (wireFrame_length_pos _ _))]
              at hloop
            obtain ⟨sent, hoffer, hround⟩ := Option.map_eq_some_iff.mp hloop
            rcases offer_some hoffer with hneg | hone
            · rw [if_pos hneg] at hround
              cases hround
            · exact absurd (hoffer.trans (congrArg some hone)) hrefused
    · exact hend.cancelled hres

theorem Accepts.step (hacc : Accepts h) {call : Call} (hsafe : h.Safe call)
    (hstep : h.step call = some h') :
    Accepts h' := by
  have hkeeps := step_keeps hacc.settled hstep
  cases call with
  | setOnFrameRead =>
    rw [← Option.some.inj hstep]
    exact ⟨hacc.settled, hacc.accepting, hacc.pending⟩
  | setOnFrameSend =>
    rw [← Option.some.inj hstep]
    exact ⟨hacc.settled, hacc.accepting, hacc.pending⟩
  | reset =>
    have hlet : h.reset.events.has txAcceptBit := (Events.has_set _ _ _).mpr (.inr (by decide))
    rw [← Option.some.inj hstep] at hkeeps ⊢
    exact ⟨hkeeps.settled, fun _ ↦ rfl, fun hclosed ↦ absurd hlet hclosed⟩
  | runRx data =>
    obtain ⟨hset, herase, -, -, haccept⟩ := runRx_spec hacc.settled data
    rw [← Option.some.inj hstep]
    refine ⟨hset, fun hlet ↦ ?_, fun hlet ↦ ?_⟩
    · rw [txData_of_eraseRx herase]
      exact hacc.accepting (haccept.mp hlet)
    · rw [txData_of_eraseRx herase, txSentFrames_of_eraseRx herase]
      exact hacc.pending (mt haccept.mpr hlet)
  | runTx turns =>
    obtain ⟨⟨h₁, total, wire⟩, hrun, rfl⟩ := Option.map_eq_some_iff.mp hstep
    obtain ⟨ll, ⟨hsends, hdone, rfl⟩ | ⟨byte, hsends, rfl⟩⟩ :=
      runTxLoop_spec turns hacc.settled.tx hrun
    · exact hacc.deliverSent hsends (.inl hdone)
    · refine ⟨hkeeps.settled, fun hlet ↦ ?_, fun hlet ↦ ?_⟩
      · rcases hsends.txData with hdone | hsame
        · exact hdone
        · exact hsame.trans (hacc.accepting hlet)
      · exact hsends.occupied (hacc.pending hlet)
  | getTxData room =>
    obtain ⟨ll, hsends, hget⟩ := getTxData_spec hacc.settled.tx room
    rw [Hdlc.step, hget] at hstep
    rw [← Option.some.inj hstep]
    refine hacc.deliverSent hsends ?_
    by_contra hold
    obtain ⟨hbusy, hstale⟩ := not_or.mp hold
    rcases hsends.txData with hdone | hsame
    · exact hbusy hdone
    · have hfits := hsafe hstale (hsame ▸ hbusy)
      exact hbusy (HdlcLl.txRest_eq_nil.mp (hsends.txRest.trans (List.drop_eq_nil_of_le hfits)))
  | send data timeoutMs sendFn =>
    obtain ⟨⟨h₁, result, wire⟩, hsend, rfl⟩ := Option.map_eq_some_iff.mp hstep
    exact hacc.send hsafe hsend

theorem run_getTxData (rooms : List ℕ) {h : Hdlc} (hok : h.ll.TxOk) :
    ∃ h', run step h (rooms.map .getTxData) = some h' ∧ h'.ll.TxOk ∧
    h'.ll.txRest = h.ll.txRest.drop rooms.sum ∧
      (h.events.has txAcceptBit → h'.events.has txAcceptBit) ∧
      (rooms ≠ [] → h.ll.txData ≠ none ∨ h.ll.txSentFrames ≠ [] → h'.ll.txData = none →
        h'.events.has txAcceptBit) := by
  induction rooms generalizing h with
  | nil => exact ⟨h, rfl, hok, rfl, id, fun hno ↦ absurd rfl hno⟩
  | cons room rooms ih =>
    obtain ⟨ll, hsends, hget⟩ := getTxData_spec hok room
    have hdelivers := deliverSent_spec { h with ll := ll }
    obtain ⟨h', hrun, hok', hrest, hlet, hdrained⟩ := ih (hdelivers.ok hsends.ok)
    rw [hdelivers.rest] at hrest
    refine ⟨h', ?_, hok', ?_, fun hold ↦ hlet (hdelivers.accept.mpr (.inl hold)),
      fun _ hsome hidle ↦ ?_⟩
    · rw [List.map_cons, run, step, hget]
      exact hrun
    · rw [hrest, hsends.txRest, List.drop_drop, List.sum_cons]
    · by_cases hsent : ll.txSentFrames = []
      · have hbusy := (hsends.occupied hsome).resolve_right (not_not.mpr hsent)
        refine hdrained ?_ (.inl (by rw [hdelivers.data]; exact hbusy)) hidle
        rintro rfl
        rw [List.sum_nil, List.drop_zero, HdlcLl.txRest_eq_nil.mpr hidle] at hrest
        exact hbusy (HdlcLl.txRest_eq_nil.mp hrest.symm)
      · exact hlet (hdelivers.accept.mpr (.inr hsent))

theorem send_not_busy (hok : h.ll.TxOk) (haccept : h.events.has txAcceptBit)
    (hidle : h.ll.txData = none) {data : Bytes} {timeoutMs : UInt32} {sendFn : Option (List Turn)}
    {result : TinyResult Unit} {wire : Bytes}
    (hsend : h.send data timeoutMs sendFn = some (h', result, wire)) : result ≠ .error .busy := by
  intro hbusy
  cases send_cases hsend with
  | refused hclosed => exact hclosed haccept
  | busy _ _ hqueued => exact hqueued hidle
  | queued | awaited | timedOut => cases hbusy
  | driven _ _ _ _ _ hloop =>
      exact (sendLoop_spec timeoutMs _ (queue_txOk hok data) hloop).accepted hbusy

theorem Accepts.unwedged (hacc : Accepts h) : Unwedged h := by
  refine ⟨hacc.accepting, hacc.pending, fun rooms hne hfits ↦ ?_⟩
  obtain ⟨h', hrun, hok, hrest, hlet, hdrained⟩ := run_getTxData rooms hacc.settled.tx
  rw [List.drop_eq_nil_of_le hfits] at hrest
  have hidle := HdlcLl.txRest_eq_nil.mp hrest
  have haccept : h'.events.has txAcceptBit := by
    by_cases hold : h.events.has txAcceptBit
    · exact hlet hold
    · exact hdrained hne (hacc.pending hold) hidle
  exact ⟨h', hrun, haccept, fun _ _ _ _ _ _ hsend ↦ send_not_busy hok haccept hidle hsend⟩

theorem wedges_of_empty (haccept : h.events.has txAcceptBit) (hidle : h.ll.txData = none)
    (hsent : h.ll.txSentFrames = []) {timeoutMs : UInt32} {sendFn : Option (List Turn)}
    (hmode : timeoutMs = 0 ∨ h.multithreadMode ∧ h.events.has txDataSentBit ∨ ¬ h.multithreadMode ∧
      sendFn = none) :
    ∃ h', h.step (.send [] timeoutMs sendFn) = some h' ∧ ¬ Unwedged h' := by
  have hroom : ¬ (([] : Bytes) ≠ [] ∧ h.ll.txData ≠ none) := fun hboth ↦ hboth.1 rfl
  have hll : (h.queue []).ll = h.ll := queue_nil h
  have hstuck : ∀ h' : Hdlc, h'.ll = h.ll → ¬ h'.events.has txAcceptBit → ¬ Unwedged h' := by
    intro h' hsame hclosed hgood
    have hpending := hgood.pending hclosed
    rw [hsame, hidle, hsent] at hpending
    exact hpending.elim (· rfl) (· rfl)
  have hclosed := not_has_accept_queue h []
  rw [step, send_eq, if_neg (not_not.mpr haccept), if_neg hroom]
  by_cases hzero : timeoutMs = 0
  · rw [if_pos hzero]
    exact ⟨_, rfl, hstuck _ hll hclosed⟩
  · rw [if_neg hzero]
    rcases hmode.resolve_left hzero with ⟨hmulti, hdone⟩ | ⟨hsingle, hnone⟩
    · rw [if_pos hmulti, if_pos hdone]
      have hsame := Events.has_clear (h.queue []).events txDataSentBit txAcceptBit (by decide)
      exact ⟨_, rfl, hstuck _ hll (mt hsame.mp hclosed)⟩
    · rw [if_neg hsingle, hnone]
      exact ⟨_, rfl, hstuck _ hll hclosed⟩

theorem wedges_of_stale (hok : h.ll.TxOk) (haccept : h.events.has txAcceptBit)
    (hidle : h.ll.txData = none) (hstale : h.ll.txSentFrames ≠ []) {data : Bytes} (hne : data ≠ [])
    {timeoutMs : UInt32} (htime : timeoutMs ≠ 0) (hmode : ¬ h.multithreadMode)
    {sendFn : Option (List Turn)} (htakes : firstAnswer sendFn = some 1) :
    ∃ h', h.step (.send data timeoutMs sendFn) = some h' ∧ ¬ Unwedged h' := by
  obtain ⟨turns, rfl, hturn⟩ := Option.bind_eq_some_iff.mp htakes
  obtain ⟨turn, hhead, hoffer⟩ := Option.bind_eq_some_iff.mp hturn
  obtain ⟨turns, rfl⟩ := List.head?_eq_some_iff.mp hhead
  obtain ⟨hrest, -, hsent⟩ := queue_spec hok hidle hne
  obtain ⟨stopped, done, -, hdone, hlet, hloop⟩ :=
    sendLoop_stale (queue_txOk hok data) (by rwa [hsent]) timeoutMs turn turns
  have hbusy : done.ll.txData ≠ none := by
    rw [Ne, ← HdlcLl.txRest_eq_nil, hdone, hrest, List.drop_eq_nil_iff, not_le]
    exact one_lt_wireFrame_length h.ll.crcType data
  refine ⟨done, ?_, fun hgood ↦ hbusy (hgood.accepting hlet)⟩
  rw [step, send_eq, if_neg (not_not.mpr haccept), if_neg (fun hboth ↦ hboth.2 hidle),
    if_neg htime, if_neg hmode]
  dsimp only
  rw [hloop, hrest, if_neg (List.ne_nil_of_length_pos (wireFrame_length_pos _ _)), hoffer]
  rfl

theorem Accepts.wedges (hacc : Accepts h) {call : Call} (hbad : ¬ h.Safe call) :
    ∃ h', h.step call = some h' ∧ ¬ Unwedged h' := by
  cases call with
  | setOnFrameRead | setOnFrameSend | reset | runRx | runTx => exact absurd trivial hbad
  | getTxData room =>
    rw [Safe, Classical.not_imp, Classical.not_imp, not_le] at hbad
    obtain ⟨hstale, -, hroom⟩ := hbad
    obtain ⟨ll, hsends, hget⟩ := getTxData_spec hacc.settled.tx room
    have hdelivers := deliverSent_spec { h with ll := ll }
    refine ⟨_, by rw [Hdlc.step, hget]; rfl, fun hgood ↦ ?_⟩
    have hidle :=
      hdelivers.data.symm.trans
        (hgood.accepting (hdelivers.accept.mpr (.inr (hsends.stale hstale))))
    have hrest := hsends.txRest
    rw [HdlcLl.txRest_eq_nil.mpr hidle] at hrest
    exact absurd (List.drop_eq_nil_iff.mp hrest.symm) (not_le.mpr hroom)
  | send data timeoutMs sendFn =>
    rw [Safe, Classical.not_imp, not_and_or, Classical.not_imp] at hbad
    obtain ⟨haccept, ⟨hmode, hempty⟩ | hdriven⟩ := hbad
    · obtain ⟨hnil, hsent⟩ := not_or.mp hempty
      rw [not_not.mp hnil]
      exact wedges_of_empty haccept (hacc.accepting haccept) (not_not.mp hsent) hmode
    · simp only [Classical.not_imp, not_not] at hdriven
      obtain ⟨htime, hmode, hne, hstale, htakes⟩ := hdriven
      exact wedges_of_stale hacc.settled.tx haccept (hacc.accepting haccept) hstale hne
        htime hmode htakes

/-- From a new handle on, the event bit and the queue stay in step, and the handle usable,
just as long as every call is `Safe`. -/
theorem never_wedges_iff {config : HdlcConfig} {fresh : Hdlc} (hnew : Hdlc.new config = .ok fresh)
    (calls : List Call) : EachState step Unwedged fresh calls ↔ EachStep step Safe fresh calls := by
  obtain ⟨hset, -, -, haccept, hidle⟩ := new_spec hnew
  have hfresh : Accepts fresh := ⟨hset, fun _ ↦ hidle, fun hclosed ↦ absurd haccept hclosed⟩
  exact eachState_iff_eachStep (R := fun _ _ ↦ True) (fun _ ↦ Accepts.unwedged)
    (fun _ _ _ hacc _ hsafe ↦ hacc.step hsafe) (fun _ _ hacc _ hbad ↦ hacc.wedges hbad) hfresh
      (EachStep.trivial fresh calls)

theorem never_wedges_iff_drained :
    ∃ fresh, Hdlc.new {} = .ok fresh ∧
    EachState step Unwedged fresh [.send [1] 0 none, .getTxData 64] := by
  refine ⟨_, rfl, ?_⟩
  have hnew : Hdlc.new {} = .ok _ := rfl
  exact (never_wedges_iff hnew [.send [1] 0 none, .getTxData 64]).mpr (by decide +kernel)

/-- A queued `send` of nothing closes the handle for good. -/
theorem wedged_by_empty :
    ∃ fresh h h' h'' : Hdlc, Hdlc.new {} = .ok fresh ∧ fresh.send [] 0 none = some (h, .ok (), []) ∧
    ¬ Unwedged h ∧
      run step h [.getTxData 64, .getTxData 64] = some h' ∧
      h'.send [1] 0 none = some (h'', .error .busy, []) := by
  refine ⟨_, _, _, _, rfl, rfl, fun hgood ↦ ?_, rfl, rfl⟩
  rcases hgood.pending (by decide) with hbusy | hsent
  · exact hbusy rfl
  · exact hsent rfl

end Hdlc

end TinyProto
