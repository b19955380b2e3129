import TinyProto.Fd.Session

namespace TinyProto.TinyFd.Session

open Lib

variable {i : ℕ} {s s' : Session} {op : SessionOp}

/-- The N(R) of a received I- or S-frame acknowledges only payloads that are
queued and were handed to the framing layer before. -/
def AckHanded (i : ℕ) (s : Session) : SessionOp → Prop
  | .onFrameReceived _ data => ∀ control ∈ windowControl i s.fd data,
      s.ackCount i control ≤ s.accepted.length ∧ ∀ n < s.ackCount i control,
      s.confirmed ≤ n → n ∈ s.handed
  | _ => True

instance (i : ℕ) (s : Session) : ∀ op, Decidable (AckHanded i s op)
  | .onFrameReceived _ data => Option.decidableForallMem (windowControl i s.fd data)
  | .sendPacket .. | .generateTxFrames _ | .checkTimeouts _ | .runTx _ => .isTrue trivial

/-- What an acknowledgement may do: free what was handed over, change nothing
from outside the window, and leave the counters in agreement with the queue. -/
structure AckHarmless (i : ℕ) (s s' : Session) (control : UInt8) : Prop where
  handed : ∀ n, s.confirmed ≤ n → n < s.accepted.length →
    (seq n, s.accepted.getD n []) ∈ s.queue i →
    (seq n, s.accepted.getD n []) ∉ s'.queue i → n ∈ s.handed
  outside : ¬ seqDist (s.control i).confirmNs (ackNr control) ≤
      seqDist (s.control i).confirmNs (s.control i).lastNs →
    s'.control i = s.control i ∧ (s'.queue i).Perm (s.queue i)
  count : seqDist (s'.control i).confirmNs (s'.control i).lastNs = (s'.queue i).length

theorem AckHanded.inWindow (hw : Window i s) (h : AckHanded i s op) : AckInWindow i s op := by
  cases op with
  | onFrameReceived now data =>
    intro control hc
    have hle := (h control hc).1
    rw [hw.pending]
    rw [ackCount] at hle
    omega
  | sendPacket | generateTxFrames | checkTimeouts | runTx => trivial

theorem window_run {config : TinyFdConfig} {fd : TinyFd} (hr : Handling config fd) (h : Fresh fd i)
    {ops : List SessionOp} {R : Session → SessionOp → Prop}
    (hR : ∀ s op, Window i s → R s op → AckInWindow i s op)
    (hops : EachStep (step i) R (start fd) ops) (hrun : run (step i) (start fd) ops = some s) :
    Window i s :=
  run_invariant (fun _ _ _ hw hin hs ↦ window_step hw (hR _ _ hw hin) hs)
    (window_start hr.wellFormed h) hops hrun

theorem step_ack (hw : Window i s) (now : Instant) {data : Bytes} {control : UInt8}
    (hc : windowControl i s.fd data = some control) :
    let s' : Session := { s with
      fd := s.fd.onFrameReceived now data
      confirmed := s.ackCount i control
      sent := if IsRejection control then s.ackCount i control else s.sent }
    step i s (.onFrameReceived now data) = some s' ∧
      s'.control i =
        { s.control i with
          confirmNs := ackNr control
          nextNs := if IsRejection control then ackNr control else (s.control i).nextNs } := by
  have hack :=
    TinyFd.onFrameReceived_acked hw.peer (hw.peer.trans_le hw.wf.peers_le) now hc
      hw.connected hw.confirm
  refine ⟨?_, hack.txState⟩
  rw [step, advance, hc, Option.filter_eq_some_iff]
  exact ⟨rfl, decide_eq_true (hack.state.trans hw.connected)⟩

/-- In a session whose earlier acknowledgements named only queued payloads that
had been handed over, the next one is harmless exactly if it does so too. -/
theorem ack_harmless_iff {config : TinyFdConfig} {fd : TinyFd} (hr : Handling config fd)
    (h : Fresh fd i) {ops : List SessionOp} (hops : EachStep (step i) (AckHanded i) (start fd) ops)
    (hrun : run (step i) (start fd) ops = some s) (now : Instant) {data : Bytes} {control : UInt8}
    (hc : windowControl i s.fd data = some control) :
    ∃ s', step i s (.onFrameReceived now data) = some s' ∧
      (AckHarmless i s s' control ↔ AckHanded i s (.onFrameReceived now data)) := by
  have hw := window_run hr h (fun _ _ hw hin ↦ hin.inWindow hw) hops hrun
  obtain ⟨hstep, hcontrol⟩ := step_ack hw now hc
  refine ⟨_, hstep, ?_⟩
  have hle := hw.le
  have hlt := hw.lt
  constructor
  · intro hharm control' hc'
    obtain rfl : control = control' := Option.some.inj (hc.symm.trans hc')
    by_cases hin : s.ackCount i control ≤ s.accepted.length
    · refine ⟨hin, ?_⟩
      intro n hn hn'
      have hinw : AckInWindow i s (.onFrameReceived now data) := by
        intro control' hc''
        obtain rfl : control = control' := Option.some.inj (hc.symm.trans hc'')
        rw [hw.pending]
        rw [ackCount] at hin
        omega
      have hw' := window_step hw hinw hstep
      have hlen : n < s.accepted.length := by omega
      apply hharm.handed n hn' hlen
      · rw [hw.queue.mem_iff, List.getD_eq_getElem _ _ hlen]
        exact mem_windowPairs.mpr ⟨n, hn', hlen, rfl⟩
      · rw [hw'.queue.mem_iff]
        intro hmem
        obtain ⟨m, hm, hm', he⟩ := mem_windowPairs.mp hmem
        rw [Prod.mk.injEq] at he
        have hmn := seq_inj he.1 (by dsimp only at hm hm'; omega) (by dsimp only at hm hm'; omega)
        dsimp only at hm
        omega
    · exfalso
      have hout : ¬ seqDist (s.control i).confirmNs (ackNr control) ≤
          seqDist (s.control i).confirmNs (s.control i).lastNs := by
        rw [hw.pending]
        rw [ackCount] at hin
        omega
      have hsame := (hharm.outside hout).1
      rw [hcontrol] at hsame
      have hnr : ackNr control = (s.control i).confirmNs :=
        congrArg IQueueControlSend.confirmNs hsame
      rw [hnr, hw.confirm] at hout
      have hzero : seqDist (seq s.confirmed) (seq s.confirmed) = 0 := by
        rw [seqDist, UInt8.sub_self]
        rfl
      rw [hzero] at hout
      exact hout (Nat.zero_le _)
  · intro hok
    obtain ⟨hin, hall⟩ := hok control hc
    have hw' : Window i _ := window_step hw (hok.inWindow hw) hstep
    refine ⟨?_, ?_, ?_⟩
    · intro n hn hlen _ hgone
      apply hall n ?_ hn
      by_contra hge
      apply hgone
      rw [hw'.queue.mem_iff, List.getD_eq_getElem _ _ hlen]
      exact mem_windowPairs.mpr ⟨n, Nat.not_lt.mp hge, hlen, rfl⟩
    · intro hout
      exact absurd (AckHanded.inWindow hw hok control hc) hout
    · rw [hw'.pending, hw'.queue.length_eq, windowPairs_length]

def handedOps : List SessionOp :=
  [.generateTxFrames 0, .runTx 99, .sendPacket 0 [1] 0, .generateTxFrames 0, .runTx 99]

theorem ack_harmless_iff_handed :
    ∃ s, run (step 0) (start connectedStation) handedOps = some s ∧
      ∃ s', step 0 s (.onFrameReceived 0 [0x05, 0x21]) = some s' ∧
        (AckHarmless 0 s s' 0x21 ↔ AckHanded 0 s (.onFrameReceived 0 [0x05, 0x21])) :=
  have hrun : run (step 0) (start connectedStation) handedOps =
      some ((run (step 0) (start connectedStation) handedOps).get (by decide +kernel)) :=
        (Option.some_get _).symm
  ⟨_, hrun,
    ack_harmless_iff (.call (reachable_replay _)) (by decide +kernel : Fresh connectedStation 0)
      (by decide +kernel) hrun 0 (by decide +kernel)⟩

/-- An RR for a payload that was accepted but never handed over removes it. -/
theorem ack_not_harmless :
    ∃ config fd ops s now data control s', Reachable config fd ∧ Fresh fd 0 ∧
      run (step 0) (start fd) ops = some s ∧ windowControl 0 s.fd data = some control ∧
      step 0 s (.onFrameReceived now data) = some s' ∧ ¬ AckHarmless 0 s s' control := by
  refine ⟨_, connectedStation, [.sendPacket 0 [1] 0],
    (run (step 0) (start connectedStation) [.sendPacket 0 [1] 0]).get (by decide +kernel), 0,
    [0x05, 0x21], 0x21,
    (step 0 ((run (step 0) (start connectedStation) [.sendPacket 0 [1] 0]).get (by decide +kernel))
      (.onFrameReceived 0 [0x05, 0x21])).get (by decide +kernel),
    reachable_replay _, by decide +kernel, (Option.some_get _).symm, by decide +kernel,
    (Option.some_get _).symm, ?_⟩
  intro h
  have hmem := h.handed 0 (by decide +kernel) (by decide +kernel) (by decide +kernel)
    (by decide +kernel)
  exact absurd hmem (by decide +kernel)

/-- The code's three-bit answers are those of the unbounded counts, and what is
to be sent next is there to be sent. -/
structure PositionAgrees (i : ℕ) (s : Session) : Prop where
  next : seqDist (s.control i).confirmNs (s.control i).nextNs ≤
    seqDist (s.control i).confirmNs (s.control i).lastNs
  full : (s.fd.peer i).iQueueControl.txFull = decide (s.accepted.length = s.confirmed + 7)
  unconfirmed : (s.fd.peer i).iQueueControl.hasUnconfirmedFrames =
    decide (s.confirmed < s.accepted.length)
  allSent : (s.fd.peer i).iQueueControl.allFramesAreSent = decide (s.sent = s.accepted.length)
  queued : (s.fd.peer i).iQueueControl.allFramesAreSent = false →
    ∃ payload, ((s.control i).nextNs, payload) ∈ s.queue i

/-- An RR, RNR or I-frame does not acknowledge past next_ns; a REJ or SREJ, which
sets next_ns to its N(R), may. -/
def AckBeforeNext (i : ℕ) (s : Session) : SessionOp → Prop
  | .onFrameReceived _ data => ∀ control ∈ windowControl i s.fd data, ¬ IsRejection control →
      seqDist (s.control i).confirmNs (ackNr control) ≤ seqDist (s.control i).confirmNs
        (s.control i).nextNs
  | _ => True

instance (i : ℕ) (s : Session) : ∀ op, Decidable (AckBeforeNext i s op)
  | .onFrameReceived _ data => Option.decidableForallMem (windowControl i s.fd data)
  | .sendPacket .. | .generateTxFrames _ | .checkTimeouts _ | .runTx _ => .isTrue trivial

structure Position (i : ℕ) (s : Session) : Prop where
  window : Window i s
  next : (s.control i).nextNs = seq s.sent
  confirmed : s.confirmed ≤ s.sent
  accepted : s.sent ≤ s.accepted.length

theorem Position.agrees (h : Position i s) : PositionAgrees i s := by
  have hw := h.window
  have hc := hw.confirm
  have hl := hw.last
  have hn := h.next
  have hle := h.confirmed
  have hle' := h.accepted
  have hlt := hw.lt
  rw [control] at hc hl hn
  have hall : (s.fd.peer i).iQueueControl.allFramesAreSent =
      decide (s.sent = s.accepted.length) := by
    rw [IQueueControl.allFramesAreSent, hn, hl, Bool.beq_eq_decide_eq, decide_eq_decide, seq_eq_iff]
    omega
  refine ⟨?_, ?_, ?_, hall, ?_⟩
  · rw [hw.pending, control, hc, hn, ← Nat.add_sub_cancel' hle, seqDist_seq]
    omega
  · rw [IQueueControl.txFull, hl, hc, seq_succ, Bool.beq_eq_decide_eq, decide_eq_decide, seq_eq_iff]
    omega
  · rw [IQueueControl.hasUnconfirmedFrames, hc, hl, bne, Bool.beq_eq_decide_eq, ← decide_not,
      decide_eq_decide, seq_eq_iff]
    omega
  · intro hnot
    rw [hall, decide_eq_false_iff_not] at hnot
    have hsent : s.sent < s.accepted.length := by omega
    refine ⟨s.accepted[s.sent], hw.queue.mem_iff.mpr ?_⟩
    rw [control, hn]
    exact mem_windowPairs.mpr ⟨s.sent, hle, hsent, rfl⟩

theorem position_start {fd : TinyFd} (hwf : WellFormed fd) (h : Fresh fd i) :
    Position i (start fd) := by
  refine ⟨window_start hwf h, ?_, le_rfl, le_rfl⟩
  rw [control, start, h.counters]
  rfl

theorem Position.ahead (h : Position i s) :
    seqDist (s.control i).confirmNs (s.control i).nextNs = s.sent - s.confirmed := by
  have hle := h.confirmed
  have hle' := h.accepted
  have hlt := h.window.lt
  rw [h.window.confirm, h.next, ← Nat.add_sub_cancel' hle, seqDist_seq]
  omega

theorem position_step (h : Position i s) (hin : AckInWindow i s op) (hbefore : AckBeforeNext i s op)
    (hs : step i s op = some s') : Position i s' := by
  have hw := h.window
  have hw' := window_step hw hin hs
  have hle := h.confirmed
  have hle' := h.accepted
  rw [step, Option.filter_eq_some_iff] at hs
  obtain ⟨hs, hconn⟩ := hs
  rw [decide_eq_true_eq] at hconn
  cases op with
  | sendPacket address data timeoutMs =>
    rw [advance, Option.some.injEq] at hs
    subst hs
    obtain ⟨-, ⟨hno, hk⟩ | ⟨hyes, -, -, htx, -⟩⟩ :=
      sendPacket_keeps hw.wf.peers_ne hw.peer hw.distinct address data timeoutMs
    · refine ⟨hw', ?_, hle, ?_⟩
      · rw [control, hk.tx]
        exact h.next
      · rwa [if_neg hno]
    · refine ⟨hw', ?_, hle, ?_⟩
      · rw [control, htx]
        exact h.next
      · rw [if_pos hyes, List.length_append]
        exact hle'.trans (Nat.le_add_right _ _)
  | generateTxFrames now =>
    obtain ⟨-, ⟨hnone, hk⟩ | ⟨payload, hsome, hne, -, hk⟩⟩ :=
      generateTxFrames_keeps hw.wf hw.peer hw.distinct now
    · rw [advance, hnone, Option.some.injEq] at hs
      subst hs
      refine ⟨hw', ?_, hle, hle'⟩
      rw [control, hk.tx]
      exact h.next
    · rw [advance, hsome, Option.some.injEq] at hs
      subst hs
      refine ⟨hw', ?_, hle.trans (Nat.le_succ _), ?_⟩
      · rw [control, hk.tx]
        exact (congrArg (· + 1 &&& seqBitsMask) h.next).trans (seq_succ _)
      · have hlast : s.sent ≠ s.accepted.length := by
          intro he
          apply hne
          have hl := hw.last
          rw [← he] at hl
          exact h.next.trans hl.symm
        dsimp only
        omega
  | checkTimeouts now =>
    rw [advance, Option.some.injEq] at hs
    subst hs
    have hk := checkTimeouts_keeps hw.peer hw.distinct now hw.connected hconn
    by_cases hdue : s.fd.retryDue i now
    · rw [if_pos hdue] at hk hw' ⊢
      refine ⟨hw', ?_, le_rfl, hw.le⟩
      rw [control, hk.tx]
      exact hw.confirm
    · rw [if_neg hdue] at hk hw' ⊢
      refine ⟨hw', ?_, hle, hle'⟩
      rw [control, hk.tx]
      exact h.next
  | onFrameReceived now data =>
    cases hctl : windowControl i s.fd data with
    | none =>
      rw [advance, hctl, Option.some.injEq] at hs
      subst hs
      have hk := onFrameReceived_keeps hw.wf hw.peer hw.distinct now hctl hw.connected hconn
      refine ⟨hw', ?_, hle, hle'⟩
      rw [control, hk.tx]
      exact h.next
    | some control =>
      have hcontrol := (step_ack hw now hctl).2
      rw [advance, hctl, Option.some.injEq] at hs
      subst hs
      have hwle := hw'.le
      by_cases hrej : IsRejection control
      · rw [if_pos hrej] at hcontrol
        rw [if_pos hrej] at hw' hcontrol ⊢
        refine ⟨hw', ?_, le_rfl, hwle⟩
        rw [hcontrol]
        have hconf := hw'.confirm
        rwa [hcontrol] at hconf
      · have hnr := hbefore control hctl hrej
        rw [h.ahead] at hnr
        rw [if_neg hrej] at hcontrol
        rw [if_neg hrej] at hw' hcontrol ⊢
        refine ⟨hw', ?_, ?_, hle'⟩
        · rw [hcontrol]
          exact h.next
        · rw [ackCount]
          dsimp only
          omega
  | runTx room =>
    obtain ⟨r, hr, rfl⟩ := Option.map_eq_some_iff.mp hs
    obtain ⟨ll, he, -⟩ := runTx_eq hw.wf hr
    refine ⟨hw', ?_, hle, hle'⟩
    rw [control, he]
    exact h.next

theorem position_lost (h : Position i s) (hin : AckInWindow i s op)
    (hafter : ¬ AckBeforeNext i s op) :
    ∃ s', step i s op = some s' ∧ ¬ PositionAgrees i s' := by
  have hw := h.window
  cases op with
  | onFrameReceived now data =>
    simp only [AckBeforeNext, not_forall] at hafter
    obtain ⟨control, hctl, hrej, hnr⟩ := hafter
    obtain ⟨hstep, hcontrol⟩ := step_ack hw now hctl
    refine ⟨_, hstep, fun hgood ↦ ?_⟩
    have hw' := window_step hw hin hstep
    have hnext := hgood.next
    have hle := h.confirmed
    have hle' := hw'.le
    have hlt := hw.lt
    rw [h.ahead] at hnr
    have hd := seqDist_lt (s.control i).confirmNs (ackNr control)
    have hcount : s.ackCount i control = s.confirmed + seqDist (s.control i).confirmNs
        (ackNr control) := rfl
    have hturn : seq s.sent = seq (s.ackCount i control + (s.sent + 8 - s.ackCount i control)) :=
      seq_eq_iff.mpr (by omega)
    rw [hw'.pending, hw'.confirm, hcontrol] at hnext
    dsimp only at hnext hle'
    rw [if_neg hrej, h.next, hturn, seqDist_seq] at hnext
    omega
  | sendPacket | generateTxFrames | checkTimeouts | runTx => exact absurd trivial hafter

/-- A session in which only payloads handed over are acknowledged follows the
unbounded counts exactly as long as no RR, RNR or I-frame acknowledges past
next_ns, as one can after the retry timer has set next_ns back. -/
theorem position_agrees_iff {config : TinyFdConfig} {fd : TinyFd} (hr : Handling config fd)
    (h : Fresh fd i) (ops : List SessionOp)
    (hops : EachStep (step i) (AckHanded i) (start fd) ops) :
    EachState (step i) (PositionAgrees i) (start fd) ops ↔
    EachStep (step i) (AckBeforeNext i) (start fd) ops := by
  apply eachState_iff_eachStep (I := Position i) (R := AckHanded i)
  · intro s hp
    exact hp.agrees
  · intro s op s' hp hok hbefore hs
    exact position_step hp (hok.inWindow hp.window) hbefore hs
  · intro s op hp hok hafter
    exact position_lost hp (hok.inWindow hp.window) hafter
  · exact position_start hr.wellFormed h
  · exact hops

def rewoundOps : List SessionOp :=
  [.generateTxFrames 0, .runTx 99, .sendPacket 0 [1] 0, .sendPacket 0 [2] 0,
    .generateTxFrames 0, .runTx 99, .generateTxFrames 0, .runTx 99, .checkTimeouts 1000000000,
    .onFrameReceived 1000000000 [0x05, 0x41]]

theorem position_agrees_iff_rewound :
    EachState (step 0) (PositionAgrees 0) (start connectedStation) rewoundOps.dropLast ∧
      ¬ EachState (step 0) (PositionAgrees 0) (start connectedStation) rewoundOps := by
  have hfresh : Fresh connectedStation 0 := by decide +kernel
  refine ⟨(position_agrees_iff (.call (reachable_replay _)) hfresh rewoundOps.dropLast
    (by decide +kernel)).mpr (by decide +kernel), fun h ↦ ?_⟩
  exact absurd
    ((position_agrees_iff (.call (reachable_replay _)) hfresh rewoundOps (by decide +kernel)).mp h)
      (by decide +kernel)

theorem position_not_agrees :
    ∃ config fd ops, Reachable config fd ∧ Fresh fd 0 ∧
    EachStep (step 0) (AckHanded 0) (start fd) ops ∧
      ¬ EachState (step 0) (PositionAgrees 0) (start fd) ops := by
  refine ⟨_, connectedStation, rewoundOps, reachable_replay _, by decide +kernel, by decide +kernel,
    ?_⟩
  intro h
  have hrun : run (step 0) (start connectedStation) rewoundOps =
      some ((run (step 0) (start connectedStation) rewoundOps).get (by decide +kernel)) :=
        (Option.some_get _).symm
  exact absurd (h.of_run hrun).next (by decide +kernel)

end TinyProto.TinyFd.Session
