import TinyProto.Hdlc.Blocking

namespace TinyProto

open Lib

namespace Hdlc

/-- `get_tx_data` called by the other thread, once for each size, with the bytes that
it takes away; `none` where a call panics. -/
def transmit (h : Hdlc) : List ℕ → Option (Hdlc × Bytes)
  | [] => some (h, [])
  | room :: rooms =>
    match h.getTxData room with
    | none => none
    | some (h, out) => (h.transmit rooms).map fun (h, wire) ↦ (h, out ++ wire)

/-- What the other thread does during a `send`: while that waits to be let in, before it
queues its frame, and while it waits for the end of it. -/
structure Schedule where
  accepting : List ℕ
  queueing : List ℕ
  sending : List ℕ

/-- `send` in multithread mode, with what it returns and the bytes that the other thread
takes away once the frame is queued. A wait ends when its bit is set, or with its deadline. -/
def sendAlong (h : Hdlc) (data : Bytes) (timeoutMs : UInt32) (schedule : Schedule) :
    Option (Hdlc × TinyResult Unit × Bytes) := do
  let (h, _) ← h.transmit schedule.accepting
  let (events, accepted) ← h.events.wait txAcceptBit timeoutMs
  let h := { h with events := events }
  if accepted = 0 then
    return (h, .error .busy, [])
  let (h, _) ← h.transmit schedule.queueing
  match h.ll.putFrame data with
  | (ll, .error e) => return ({ h with ll := ll }, .error e, [])
  | (ll, .ok ()) =>
    let h := { h with ll := ll, events := h.events.set txDataReadyBit }
    if timeoutMs = 0 then
      return (h, .ok (), [])
    let (h, wire) ← h.transmit schedule.sending
    let (events, sent) ← h.events.wait txDataSentBit timeoutMs
    let h := { h with events := events }
    if sent = 0 then
      return (h.cancel, .error .timeout, wire)
    return (h, .ok (), wire)

inductive ThreadCall
  | alone (call : Call)
  | send (data : Bytes) (timeoutMs : UInt32) (schedule : Schedule)

def threadStep (h : Hdlc) : ThreadCall → Option Hdlc
  | .alone call => h.step call
  | .send data timeoutMs schedule => (h.sendAlong data timeoutMs schedule).map Prod.fst

/-- The frame of a `send` has gone out whole since it was queued, nothing of it is left,
and its notification is the last one raised. -/
structure Completed (h h' : Hdlc) (data wire : Bytes) : Prop where
  emitted : wire = wireFrame h.ll.crcType data
  unqueued : h'.ll.txData = none
  notified : h'.ll.txSentFrames = [] ∧ ∃ earlier,
    h'.onFrameSend = h.onFrameSend.map (· ++ (earlier ++ [data]))

/-- Nothing of an earlier frame is left, and a handle that lets `send` in does not show
an earlier notification. -/
structure Quiet (h : Hdlc) : Prop where
  idle : h.ll.txData = none
  delivered : h.ll.txSentFrames = []
  unsent : h.events.has txAcceptBit → ¬ h.events.has txDataSentBit

variable {h h' : Hdlc}

def enqueue (h : Hdlc) (data : Bytes) : Hdlc :=
  { h with ll := (h.ll.putFrame data).1, events := h.events.set txDataReadyBit }

def waited (h : Hdlc) (bit : UInt8) : Hdlc := { h with events := h.events.clear bit }

/-- Without the other thread this is `send` itself. -/
theorem sendAlong_alone (hmode : h.multithreadMode) (data : Bytes) (timeoutMs : UInt32)
    (sendFn : Option (List Turn)) :
    h.sendAlong data timeoutMs ⟨[], [], []⟩ = h.send data timeoutMs sendFn := by
  simp only [sendAlong, transmit, send, Option.bind_eq_bind, Option.bind_some, Option.pure_def]
  cases h.events.wait txAcceptBit timeoutMs with
  | none => rfl
  | some waited =>
    obtain ⟨events, accepted⟩ := waited
    simp only [Option.bind_some]
    split
    · rfl
    · rcases h.ll.putFrame data with ⟨ll, e | -⟩
      · rfl
      · simp only [hmode]
        split
        · rfl
        · cases Events.wait _ txDataSentBit timeoutMs <;> rfl

structure Transmits (h h' : Hdlc) (wire : Bytes) : Prop where
  ok : h'.ll.TxOk
  frame_rule : h'.ll.eraseTx = h.ll.eraseTx
  mode : h'.multithreadMode = h.multithreadMode
  rest : h.ll.txRest = wire ++ h'.ll.txRest
  reports : ∃ done, h'.onFrameSend = h.onFrameSend.map (· ++ done) ∧
    h.ll.txSentFrames ++ h.ll.txData.toList = done ++ (h'.ll.txSentFrames ++ h'.ll.txData.toList) ∧
    (h'.events.has txAcceptBit ↔ h.events.has txAcceptBit ∨ done ≠ []) ∧
    (h'.events.has txDataSentBit ↔ h.events.has txDataSentBit ∨ done ≠ [])

theorem has_sent_deliverSent (h : Hdlc) :
    h.deliverSent.events.has txDataSentBit ↔ h.events.has txDataSentBit ∨
    h.ll.txSentFrames ≠ [] := by
  have hfold : ∀ (frames : List Bytes) (g : Hdlc),
      (frames.foldl frameSent g).events.has txDataSentBit ↔
      g.events.has txDataSentBit ∨ frames ≠ [] := by
    intro frames
    induction frames with
    | nil => exact fun g ↦ (or_iff_left (not_not.mpr rfl)).symm
    | cons frame frames ih =>
      intro g
      have hset : (g.frameSent frame).events.has txDataSentBit := by
        rw [frameSent, Events.has_set, Events.has_set]
        exact .inl (.inr (by decide))
      exact iff_of_true ((ih _).mpr (.inl hset)) (.inr (List.cons_ne_nil _ _))
  exact hfold h.ll.txSentFrames _

theorem delivered_deliverSent (h : Hdlc) : h.deliverSent.ll.txSentFrames = [] := by
  rw [deliverSent, (foldl_frameSent _ _).1]

theorem Transmits.refl (hok : h.ll.TxOk) : Transmits h h [] :=
  ⟨hok, rfl, rfl, rfl, [], by simp, rfl, by simp, by simp⟩

theorem Transmits.trans {a b c : Hdlc} {xs ys : Bytes} (hab : Transmits a b xs)
    (hbc : Transmits b c ys) :
    Transmits a c (xs ++ ys) := by
  obtain ⟨done, hlog, hqueue, haccept, hsent⟩ := hab.reports
  obtain ⟨done', hlog', hqueue', haccept', hsent'⟩ := hbc.reports
  have hnil : done ++ done' ≠ [] ↔ done ≠ [] ∨ done' ≠ [] := by
    rw [Ne, List.append_eq_nil_iff, not_and_or]
  refine ⟨hbc.ok, hbc.frame_rule.trans hab.frame_rule, hbc.mode.trans hab.mode, ?_, done ++ done',
    ?_, ?_, ?_, ?_⟩
  · rw [hab.rest, hbc.rest, List.append_assoc]
  · rw [hlog', hlog, Option.map_map]
    congr 1
    funext frames
    exact List.append_assoc frames done done'
  · rw [hqueue, hqueue', List.append_assoc]
  · rw [haccept', haccept, hnil, or_assoc]
  · rw [hsent', hsent, hnil, or_assoc]

theorem getTxData_transmits (hok : h.ll.TxOk) (room : ℕ) :
    ∃ h', h.getTxData room = some (h', h.ll.txRest.take room) ∧
    Transmits h h' (h.ll.txRest.take room) ∧
      h'.ll.txSentFrames = [] := by
  obtain ⟨ll, hsends, hget⟩ := getTxData_spec hok room
  have hdelivers := deliverSent_spec { h with ll := ll }
  have hnone := delivered_deliverSent { h with ll := ll }
  refine ⟨_, hget,
    ⟨hdelivers.ok hsends.ok, hdelivers.frame_rule.trans hsends.frame_rule, hdelivers.mode, ?_,
      ll.txSentFrames, hdelivers.log, ?_, hdelivers.accept, has_sent_deliverSent _⟩, hnone⟩
  · rw [hdelivers.rest]
    exact hsends.rest
  · rw [hnone, hdelivers.data, List.nil_append]
    exact hsends.frames.symm

theorem transmit_spec (hok : h.ll.TxOk) (rooms : List ℕ) :
    ∃ h' wire, h.transmit rooms = some (h', wire) ∧ Transmits h h' wire := by
  induction rooms generalizing h with
  | nil => exact ⟨h, [], rfl, .refl hok⟩
  | cons room rooms ih =>
    obtain ⟨h₁, hget, hfirst, -⟩ := getTxData_transmits hok room
    obtain ⟨h', wire, hrest, hall⟩ := ih hfirst.ok
    refine ⟨h', _, ?_, hfirst.trans hall⟩
    rw [transmit, hget]
    dsimp only
    rw [hrest]
    rfl

theorem transmit_all (hok : h.ll.TxOk) :
    ∃ h' wire, h.transmit [h.ll.txRest.length] = some (h', wire) ∧ Transmits h h' wire ∧
    h'.ll.txData = none ∧
      (¬ Quiet h → h'.events.has txAcceptBit ∧ h'.events.has txDataSentBit) := by
  obtain ⟨h', hget, hall, hnone⟩ := getTxData_transmits hok h.ll.txRest.length
  have hidle : h'.ll.txData = none := by
    have hrest := hall.rest
    rw [List.take_length, List.self_eq_append_right] at hrest
    exact HdlcLl.txRest_eq_nil.mp hrest
  obtain ⟨done, -, hqueue, haccept, hsent⟩ := hall.reports
  rw [hnone, hidle, Option.toList_none, List.append_nil, List.append_nil] at hqueue
  have hone : h.transmit [h.ll.txRest.length] =
      some (h', h.ll.txRest.take h.ll.txRest.length ++ []) := by
    rw [transmit, hget]
    rfl
  rw [List.append_nil] at hone
  refine ⟨h', _, hone, hall, hidle, fun hbusy ↦ ?_⟩
  rw [haccept, hsent]
  by_cases hdone : done = []
  · rw [hdone, List.append_eq_nil_iff, Option.toList_eq_nil_iff] at hqueue
    have hboth : ¬ (h.events.has txAcceptBit → ¬ h.events.has txDataSentBit) :=
      fun hunsent ↦ hbusy ⟨hqueue.2, hqueue.1, hunsent⟩
    obtain ⟨hacc, hold⟩ := Classical.not_imp.mp hboth
    exact ⟨.inl hacc, .inl (not_not.mp hold)⟩
  · exact ⟨.inr hdone, .inr hdone⟩

theorem Quiet.transmits (hquiet : Quiet h) {wire : Bytes} (hall : Transmits h h' wire) :
    Quiet h' ∧ h'.onFrameSend = h.onFrameSend ∧
      (h'.events.has txAcceptBit ↔ h.events.has txAcceptBit) ∧
      (h'.events.has txDataSentBit ↔ h.events.has txDataSentBit) := by
  obtain ⟨done, hlog, hqueue, haccept, hsent⟩ := hall.reports
  rw [hquiet.delivered, hquiet.idle, Option.toList_none, List.append_nil] at hqueue
  obtain ⟨hdone, hleft⟩ := List.append_eq_nil_iff.mp hqueue.symm
  obtain ⟨hdelivered, hidle⟩ := List.append_eq_nil_iff.mp hleft
  rw [hdone] at hlog
  rw [hdone, Ne, eq_self, not_true, or_false] at haccept hsent
  refine ⟨⟨Option.toList_eq_nil_iff.mp hidle, hdelivered, ?_⟩, ?_, haccept, hsent⟩
  · rw [haccept, hsent]
    exact hquiet.unsent
  · rw [hlog]
    simp

inductive AlongCase (h : Hdlc) (data : Bytes) (timeoutMs : UInt32) :
    Hdlc → TinyResult Unit → Bytes → Prop
  | refused {h₁ : Hdlc} {out : Bytes} (hwait : Transmits h h₁ out) :
      AlongCase h data timeoutMs (h₁.waited txAcceptBit) (.error .busy) []
  | busy {h₁ h₂ : Hdlc} {out out' : Bytes} (hwait : Transmits h h₁ out)
      (hnext : Transmits (h₁.waited txAcceptBit) h₂ out') :
      AlongCase h data timeoutMs h₂ (.error .busy) []
  | queued {h₁ h₂ : Hdlc} {out out' : Bytes} (hwait : Transmits h h₁ out)
      (hnext : Transmits (h₁.waited txAcceptBit) h₂ out') (htime : timeoutMs = 0) :
      AlongCase h data timeoutMs (h₂.enqueue data) (.ok ()) []
  | timedOut {h₁ h₂ h₃ : Hdlc} {out out' wire : Bytes} (hwait : Transmits h h₁ out)
      (hnext : Transmits (h₁.waited txAcceptBit) h₂ out')
      (hsending : Transmits (h₂.enqueue data) h₃ wire) :
      AlongCase h data timeoutMs (h₃.waited txDataSentBit).cancel (.error .timeout) wire
  | awaited {h₁ h₂ h₃ : Hdlc} {out out' wire : Bytes} (hwait : Transmits h h₁ out)
      (haccept : h₁.events.has txAcceptBit) (hnext : Transmits (h₁.waited txAcceptBit) h₂ out')
      (hsending : Transmits (h₂.enqueue data) h₃ wire) (hsent : h₃.events.has txDataSentBit) :
      AlongCase h data timeoutMs (h₃.waited txDataSentBit) (.ok ()) wire

theorem wait_some {events events' : Events} {bit result : UInt8} {timeoutMs : UInt32}
    (hwait : events.wait bit timeoutMs = some (events', result)) : events' = events.clear bit ∧
    (result ≠ 0 ↔ events.has bit) := by
  rw [Events.wait_eq] at hwait
  split_ifs at hwait
  cases hwait
  exact ⟨rfl, Iff.rfl⟩

theorem sendAlong_cases (hok : h.ll.TxOk) {data : Bytes} {timeoutMs : UInt32} {schedule : Schedule}
    {result : TinyResult Unit} {wire : Bytes}
    (hsend : h.sendAlong data timeoutMs schedule = some (h', result, wire)) :
    AlongCase h data timeoutMs h' result wire := by
  obtain ⟨h₁, out, hfirst, hwait⟩ := transmit_spec hok schedule.accepting
  simp only [sendAlong, hfirst, Option.bind_eq_bind, Option.bind_some, Option.pure_def] at hsend
  obtain ⟨⟨events, accepted⟩, haccepting, hsend⟩ := Option.bind_eq_some_iff.mp hsend
  obtain ⟨rfl, haccept⟩ := wait_some haccepting
  by_cases hrefused : accepted = 0
  · rw [if_pos hrefused] at hsend
    cases hsend
    exact .refused hwait
  obtain ⟨h₂, out', hsecond, hnext⟩ :=
    @transmit_spec (h₁.waited txAcceptBit) hwait.ok schedule.queueing
  have hput := HdlcLl.putFrame_eq h₂.ll data
  rw [waited] at hsecond
  rw [if_neg hrefused, hsecond, Option.bind_some] at hsend
  dsimp only at hsend
  by_cases hbusy : data ≠ [] ∧ h₂.ll.txData ≠ none
  · rw [if_pos hbusy] at hput
    rw [hput] at hsend
    cases hsend
    exact .busy hwait hnext
  rw [if_neg hbusy] at hput
  rw [hput] at hsend
  dsimp only at hsend
  by_cases htime : timeoutMs = 0
  · rw [if_pos htime] at hsend
    cases hsend
    exact .queued hwait hnext htime
  have hqueued : (h₂.enqueue data).ll.TxOk := HdlcLl.txOk_putFrame hnext.ok data
  obtain ⟨h₃, wire', hthird, hsending⟩ := transmit_spec hqueued schedule.sending
  rw [enqueue] at hthird
  rw [if_neg htime, hthird, Option.bind_some] at hsend
  obtain ⟨⟨events, sent⟩, hfinished, hsend⟩ := Option.bind_eq_some_iff.mp hsend
  obtain ⟨rfl, hsent⟩ := wait_some hfinished
  by_cases hlate : sent = 0
  · rw [if_pos hlate] at hsend
    cases hsend
    exact .timedOut hwait hnext hsending
  · rw [if_neg hlate] at hsend
    cases hsend
    exact .awaited hwait (haccept.mp hrefused) hnext hsending (hsent.mp hlate)

theorem Transmits.keeps (hset : h.ll.Settled) {wire : Bytes} (hall : Transmits h h' wire) :
    Keeps h h' :=
  keeps_of_eraseTx hset hall.ok hall.frame_rule hall.mode

theorem enqueue_keeps (hset : h.ll.Settled) (data : Bytes) : Keeps h (h.enqueue data) :=
  keeps_of_eraseTx hset (HdlcLl.txOk_putFrame hset.tx data) (queue_eraseTx h data) rfl

theorem waited_keeps (hset : h.ll.Settled) (bit : UInt8) : Keeps h (h.waited bit) :=
  ⟨hset, rfl, rfl⟩

theorem AlongCase.keeps_queueing (hset : h.ll.Settled) {h₁ h₂ : Hdlc} {out out' : Bytes}
    (hwait : Transmits h h₁ out) (hnext : Transmits (h₁.waited txAcceptBit) h₂ out') :
    Keeps h h₂ := by
  have hfirst := hwait.keeps hset
  have hsecond := waited_keeps hfirst.settled txAcceptBit
  exact (hfirst.trans hsecond).trans (hnext.keeps hsecond.settled)

theorem sendAlong_keeps (hset : h.ll.Settled) {data : Bytes} {timeoutMs : UInt32}
    {schedule : Schedule} {result : TinyResult Unit} {wire : Bytes}
    (hsend : h.sendAlong data timeoutMs schedule = some (h', result, wire)) : Keeps h h' := by
  cases sendAlong_cases hset.tx hsend with
  | refused hwait =>
    have hfirst := hwait.keeps hset
    exact hfirst.trans (waited_keeps hfirst.settled txAcceptBit)
  | busy hwait hnext => exact AlongCase.keeps_queueing hset hwait hnext
  | queued hwait hnext htime =>
    have hqueueing := AlongCase.keeps_queueing hset hwait hnext
    exact hqueueing.trans (enqueue_keeps hqueueing.settled data)
  | @timedOut h₁ h₂ h₃ out out' wire hwait hnext hsending =>
    have hqueueing := AlongCase.keeps_queueing hset hwait hnext
    have hqueued := enqueue_keeps hqueueing.settled data
    have hsent := (hqueueing.trans hqueued).trans (hsending.keeps hqueued.settled)
    exact hsent.trans
      (keeps_of_eraseTx hsent.settled (HdlcLl.txOk_reset hsent.settled.tx .txOnly) rfl rfl)
  | awaited hwait haccept hnext hsending hdone =>
    have hqueueing := AlongCase.keeps_queueing hset hwait hnext
    have hqueued := enqueue_keeps hqueueing.settled data
    have hsent := (hqueueing.trans hqueued).trans (hsending.keeps hqueued.settled)
    exact hsent.trans (waited_keeps hsent.settled txDataSentBit)

theorem threadStep_keeps (hset : h.ll.Settled) {call : ThreadCall}
    (hstep : h.threadStep call = some h') : Keeps h h' := by
  cases call with
  | alone call => exact step_keeps hset hstep
  | send data timeoutMs schedule =>
    obtain ⟨⟨h₁, result, wire⟩, hsend, rfl⟩ := Option.map_eq_some_iff.mp hstep
    exact sendAlong_keeps hset hsend

theorem threadRun_keeps {fresh : Hdlc} (hset : fresh.ll.Settled) {calls : List ThreadCall}
    (hrun : run threadStep fresh calls = some h) : Keeps fresh h := by
  have hstep : ∀ s call s', Keeps fresh s → True → threadStep s call = some s' → Keeps fresh s' :=
    fun s call s' hs _ hstep ↦ hs.trans (threadStep_keeps hs.settled hstep)
  exact run_invariant hstep ⟨hset, rfl, rfl⟩ (EachStep.trivial fresh calls) hrun

theorem Quiet.completed (hquiet : Quiet h) (hset : h.ll.Settled) {data : Bytes} (hne : data ≠ [])
    {timeoutMs : UInt32} (htime : timeoutMs ≠ 0) {schedule : Schedule} {wire : Bytes}
    (hsend : h.sendAlong data timeoutMs schedule = some (h', .ok (), wire)) :
    Completed h h' data wire := by
  cases sendAlong_cases hset.tx hsend with
  | queued hwait hnext hzero => exact absurd hzero htime
  | @awaited h₁ h₂ h₃ out out' wire hwait haccept hnext hsending hsent =>
    obtain ⟨hquiet₁, hlog₁, -, -⟩ := hquiet.transmits hwait
    have hunsent₁ : ¬ (h₁.waited txAcceptBit).events.has txDataSentBit := by
      rw [waited, Events.has_clear _ _ _ (by decide)]
      exact hquiet₁.unsent haccept
    have hwaited : Quiet (h₁.waited txAcceptBit) :=
      ⟨hquiet₁.idle, hquiet₁.delivered, fun _ ↦ hunsent₁⟩
    obtain ⟨hquiet₂, hlog₂, -, hsent₂⟩ := hwaited.transmits hnext
    obtain ⟨hrest, hdata, hqueue⟩ := queue_spec hnext.ok hquiet₂.idle hne
    have hunsent : ¬ (h₂.enqueue data).events.has txDataSentBit := by
      rw [enqueue, Events.has_set, hsent₂, not_or]
      exact ⟨hunsent₁, by decide⟩
    obtain ⟨done, hlog, hframes, -, hbit⟩ := hsending.reports
    have hsome : done ≠ [] := (hbit.mp hsent).resolve_left hunsent
    obtain ⟨frame, more, rfl⟩ := List.exists_cons_of_ne_nil hsome
    change (h₂.enqueue data).ll.txSentFrames = _ at hqueue
    change (h₂.enqueue data).ll.txData = _ at hdata
    rw [hqueue, hquiet₂.delivered, hdata, Option.toList_some, List.nil_append,
      List.cons_append] at hframes
    injection hframes with hframe hleft
    obtain ⟨hmore, hleft⟩ := List.append_eq_nil_iff.mp hleft.symm
    obtain ⟨hdelivered, hidle⟩ := List.append_eq_nil_iff.mp hleft
    rw [Option.toList_eq_nil_iff] at hidle
    have hcrc := (AlongCase.keeps_queueing hset hwait hnext).crcType
    have hwire : wireFrame h₂.ll.crcType data = wire ++ h₃.ll.txRest :=
      hrest.symm.trans hsending.rest
    rw [HdlcLl.txRest_eq_nil.mpr hidle, List.append_nil, hcrc] at hwire
    refine ⟨hwire.symm, hidle, hdelivered, [], ?_⟩
    rw [List.nil_append, hframe, ← hlog₁, ← hmore]
    exact hlog.trans (congrArg (Option.map _) hlog₂)

theorem sendAlong_accepting (hmode : h'.multithreadMode) {rooms : List ℕ} {out : Bytes}
    (hwait : h.transmit rooms = some (h', out)) (data : Bytes) (timeoutMs : UInt32) :
    h.sendAlong data timeoutMs ⟨rooms, [], []⟩ = h'.send data timeoutMs none := by
  rw [← sendAlong_alone hmode, sendAlong, hwait]
  rfl

/-- In multithread mode a blocking `send` waits for the end of its own frame just where
nothing of an earlier frame is left when it is called, its event bit included. -/
theorem multithread_send_iff {config : HdlcConfig} {fresh : Hdlc}
    (hnew : Hdlc.new config = .ok fresh) (hmode : config.multithreadMode = true)
    {calls : List ThreadCall} (hrun : run threadStep fresh calls = some h) {data : Bytes}
    (hne : data ≠ []) {timeoutMs : UInt32} (htime : timeoutMs ≠ 0) :
    (∀ schedule h' wire, h.sendAlong data timeoutMs schedule = some (h', .ok (), wire) →
      Completed h h' data wire) ↔ Quiet h := by
  obtain ⟨hfresh, hmode', -⟩ := new_spec hnew
  have hkeeps := threadRun_keeps hfresh hrun
  refine ⟨fun hall ↦ ?_, fun hquiet schedule h' wire ↦ hquiet.completed hkeeps.settled hne htime⟩
  by_contra hbusy
  obtain ⟨h₁, out, hwait, htransmits, hidle, hbits⟩ := transmit_all hkeeps.settled.tx
  obtain ⟨haccept, hsent⟩ := hbits hbusy
  have hmulti : h₁.multithreadMode := htransmits.mode.trans (hkeeps.mode.trans (hmode'.trans hmode))
  have hsend := send_eq h₁ data timeoutMs none
  rw [if_neg (not_not.mpr haccept), if_neg fun hboth ↦ hboth.2 hidle, if_neg htime,
    if_pos hmulti, if_pos hsent,
    ← sendAlong_accepting hmulti hwait] at hsend
  have hwire := (hall _ _ _ hsend).emitted
  exact List.ne_nil_of_length_pos (wireFrame_length_pos _ _) hwire.symm

def sharedHdlc : Hdlc :=
  (Hdlc.new { crcType := .hdlcCrcOff, multithreadMode := true }).toOption.get (by decide)

theorem multithread_send_iff_fresh :
    ∃ h', sharedHdlc.sendAlong [1] 1000 ⟨[8], [], [1, 1, 1]⟩ = some (h', .ok (), [0x7E, 1, 0x7E]) ∧
      Completed sharedHdlc h' [1] [0x7E, 1, 0x7E] := by
  have hnew : Hdlc.new { crcType := .hdlcCrcOff, multithreadMode := true } = .ok sharedHdlc := rfl
  have hiff :=
    @multithread_send_iff _ _ _ hnew rfl [] rfl [1] (List.cons_ne_nil _ _) 1000 (by decide)
  obtain ⟨h', hsend⟩ : ∃ h', sharedHdlc.sendAlong [1] 1000 ⟨[8], [], [1, 1, 1]⟩ =
      some (h', .ok (), [0x7E, 1, 0x7E]) :=
    ⟨_, rfl⟩
  exact ⟨h', hsend, hiff.mpr ⟨rfl, rfl, by decide⟩ _ _ _ hsend⟩

/-- The event bit of a frame that was queued without waiting lets the next `send` return
before a byte of its own has gone out. -/
theorem multithread_send_stale :
    ∃ h h' : Hdlc,
    run threadStep sharedHdlc [.alone (.send [1] 0 none), .alone (.getTxData 64)] = some h ∧
      h.sendAlong [2] 1000 ⟨[], [], []⟩ = some (h', .ok (), []) ∧
      h.send [2] 1000 none = some (h', .ok (), []) ∧ h'.ll.txData = some [2] ∧
      ¬ Completed h h' [2] [] := by
  refine ⟨_, _, rfl, rfl, rfl, rfl, fun hdone ↦ ?_⟩
  cases hdone.unqueued

end Hdlc

end TinyProto
