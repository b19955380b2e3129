import TinyProto.Fd.Sender
import TinyProto.Lib.Runs

namespace TinyProto.TinyFd

open Lib

/-- The steps of a station during a session: the calls of `send_packet`, the
parts of `get_tx_data` and the handling of one received frame. -/
inductive SessionOp
  | sendPacket (address : UInt8) (data : Bytes) (timeoutMs : ℕ)
  | generateTxFrames (now : Instant)
  | checkTimeouts (now : Instant)
  | onFrameReceived (now : Instant) (data : Bytes)
  | runTx (room : ℕ)

/-- A station together with the unbounded history of its session with one peer:
the payloads accepted, how many of them were confirmed, the indices of those
handed to `HdlcLl::put_frame`, and how far the transmission has come since it was
last set back. -/
structure Session where
  fd : TinyFd
  accepted : List Bytes
  confirmed : ℕ
  handed : List ℕ
  sent : ℕ

namespace Session

def start (fd : TinyFd) : Session := ⟨fd, [], 0, [], 0⟩

def control (s : Session) (i : ℕ) : IQueueControlSend := (s.fd.peer i).iQueueControl.txState

def queue (s : Session) (i : ℕ) : List (UInt8 × Bytes) :=
  s.fd.frames.iQueue.iPairs (s.fd.addrField i)

/-- The count that the N(R) of an I- or S-frame stands for when it arrives. -/
def ackCount (s : Session) (i : ℕ) (control : UInt8) : ℕ :=
  s.confirmed + seqDist (s.control i).confirmNs (ackNr control)

def advance (i : ℕ) (s : Session) : SessionOp → Option Session
  | .sendPacket address data timeoutMs =>
    let r := s.fd.sendPacket address data timeoutMs
    some { s with
      fd := r.1
      accepted := if s.fd.sendPeer address = i ∧ r.2.isOk then s.accepted ++ [data]
        else s.accepted }
  | .generateTxFrames now =>
    let fd := s.fd.generateTxFrames now
    match handedTo i s.fd fd with
    | some (ns, _) =>
      some { s with
        fd := fd
        handed := s.handed ++ [s.confirmed + seqDist (s.control i).confirmNs ns]
        sent := s.sent + 1 }
    | none => some { s with fd := fd }
  | .checkTimeouts now =>
    some { s with
      fd := s.fd.checkTimeouts now
      sent := if s.fd.retryDue i now then s.confirmed else s.sent }
  | .onFrameReceived now data =>
    match windowControl i s.fd data with
    | some control =>
      some { s with
        fd := s.fd.onFrameReceived now data
        confirmed := s.ackCount i control
        sent := if IsRejection control then s.ackCount i control else s.sent }
    | none => some { s with fd := s.fd.onFrameReceived now data }
  | .runTx room => (s.fd.runTx room).map fun r ↦ { s with fd := r.1 }

def step (i : ℕ) (s : Session) (op : SessionOp) : Option Session :=
  (s.advance i op).filter fun s' ↦ (s'.fd.peer i).state = .connected

/-- A peer that has just become connected: counters at zero and nothing queued. -/
structure Fresh (fd : TinyFd) (i : ℕ) : Prop where
  peer : i < fd.peerMgr.peers.length
  distinct : Distinct fd i
  connected : (fd.peer i).state = .connected
  counters : (fd.peer i).iQueueControl.txState = ⟨0, 0, 0⟩
  queue : fd.frames.iQueue.iPairs (fd.addrField i) = []

/-- The counters of the peer show the history. -/
structure Counted (i : ℕ) (s : Session) : Prop where
  wf : WellFormed s.fd
  peer : i < s.fd.peerMgr.peers.length
  distinct : Distinct s.fd i
  connected : (s.fd.peer i).state = .connected
  confirm : (s.control i).confirmNs = seq s.confirmed
  last : (s.control i).lastNs = seq s.accepted.length
  le : s.confirmed ≤ s.accepted.length
  lt : s.accepted.length ≤ s.confirmed + 7

/-- The counters and the queue of the peer show the history. -/
structure Window (i : ℕ) (s : Session) : Prop extends Counted i s where
  queue : (s.queue i).Perm (windowPairs s.accepted s.confirmed)

inductive Moves (i : ℕ) (s s' : Session) : Prop
  | keep : s'.accepted = s.accepted → s'.confirmed = s.confirmed →
      (s'.queue i).Perm (s.queue i) → Moves i s s'
  | accept (data : Bytes) : s'.accepted = s.accepted ++ [data] → s'.confirmed = s.confirmed →
      (s'.queue i).Perm ((seq s.accepted.length, data) :: s.queue i) → Moves i s s'
  | ack (d : ℕ) : s'.accepted = s.accepted → s'.confirmed = s.confirmed + d →
      s'.queue i = (((List.range d).map fun j ↦ seq (s.confirmed + j)).foldl
        (fun q n ↦ q.freeByNs (s.fd.addrField i) n) s.fd.frames.iQueue).iPairs (s.fd.addrField i) →
        Moves i s s'

instance (fd : TinyFd) (i : ℕ) : Decidable (Distinct fd i) := by unfold Distinct; infer_instance

instance (fd : TinyFd) (i : ℕ) : Decidable (Fresh fd i) :=
  decidable_of_iff (i < fd.peerMgr.peers.length ∧ Distinct fd i ∧ (fd.peer i).state = .connected ∧
      (fd.peer i).iQueueControl.txState = ⟨0, 0, 0⟩ ∧ fd.frames.iQueue.iPairs (fd.addrField i) = [])
    ⟨fun ⟨h₁, h₂, h₃, h₄, h₅⟩ ↦ ⟨h₁, h₂, h₃, h₄, h₅⟩, fun h ↦ ⟨h.1, h.2, h.3, h.4, h.5⟩⟩

variable {i : ℕ} {s s' : Session} {fd' : TinyFd}

theorem counted_start {fd : TinyFd} (hwf : WellFormed fd) (hi : i < fd.peerMgr.peers.length)
    (hd : Distinct fd i) (hconn : (fd.peer i).state = .connected)
    (hc : (fd.peer i).iQueueControl.txState = ⟨0, 0, 0⟩) : Counted i (start fd) := by
  refine ⟨hwf, hi, hd, hconn, ?_, ?_, le_rfl, by simp [start]⟩ <;>
  · rw [control, start, hc]
    rfl

theorem window_start {fd : TinyFd} (hwf : WellFormed fd) (h : Fresh fd i) :
    Window i (start fd) := by
  refine ⟨counted_start hwf h.peer h.distinct h.connected h.counters, ?_⟩
  rw [queue, start, h.queue]
  exact List.Perm.refl _

theorem Counted.keep (h : Counted i s) (hwf : WellFormed fd') {next : UInt8}
    (hk : Keeps i s.fd fd' { s.control i with nextNs := next })
    (hconn : (fd'.peer i).state = .connected) (handed : List ℕ) (sent : ℕ) :
    let s' := { s with fd := fd', handed := handed, sent := sent }
    Counted i s' ∧ Moves i s s' := by
  refine ⟨⟨hwf, ?_, h.distinct.congr hk.setup, hconn, ?_, ?_, h.le, h.lt⟩, .keep rfl rfl ?_⟩
  · rw [peers_length_congr hk.setup]
    exact h.peer
  · rw [control, hk.tx]
    exact h.confirm
  · rw [control, hk.tx]
    exact h.last
  · rw [Session.queue, addrField_congr hk.setup]
    exact hk.queue

theorem Counted.accept (h : Counted i s) (hwf : WellFormed fd') {data : Bytes}
    (hfull : (s.fd.peer i).iQueueControl.txFull = false) (hs : fd'.setup = s.fd.setup)
    (htx : (fd'.peer i).iQueueControl.txState =
      { s.control i with lastNs := ((s.control i).lastNs + 1) &&& seqBitsMask })
    (hconn : (fd'.peer i).state = .connected)
    (hq : (fd'.frames.iQueue.iPairs (s.fd.addrField i)).Perm
      ((seq s.accepted.length, data) :: s.queue i)) :
    let s' := { s with fd := fd', accepted := s.accepted ++ [data] }
    Counted i s' ∧ Moves i s s' := by
  have hroom : s.accepted.length + 1 ≤ s.confirmed + 7 := by
    by_contra hno
    have hlast := h.last
    have hconfirm := h.confirm
    have hle := h.lt
    rw [control] at hlast hconfirm
    rw [IQueueControl.txFull, hlast, hconfirm, seq_succ, beq_eq_false_iff_ne] at hfull
    exact hfull (seq_eq_iff.mpr (by omega))
  refine ⟨⟨hwf, ?_, h.distinct.congr hs, hconn, ?_, ?_, ?_, ?_⟩, .accept data rfl rfl ?_⟩
  · rw [peers_length_congr hs]
    exact h.peer
  · rw [control, htx]
    exact h.confirm
  · rw [control, htx, h.last, List.length_append]
    exact seq_succ _
  · rw [List.length_append]
    exact h.le.trans (Nat.le_add_right _ _)
  · rwa [List.length_append]
  · rw [Session.queue, addrField_congr hs]
    exact hq

theorem Counted.ack (h : Counted i s) (hwf : WellFormed fd') {control : UInt8}
    (hack : Acked s.fd fd' i s.confirmed control)
    (hin : s.ackCount i control ≤ s.accepted.length) (sent : ℕ) :
    let s' := { s with fd := fd', confirmed := s.ackCount i control, sent := sent }
    Counted i s' ∧ Moves i s s' := by
  have hd : seqDist (seq s.confirmed) (ackNr control) = s.ackCount i control - s.confirmed := by
    rw [ackCount, h.confirm, Nat.add_sub_cancel_left]
  have hle : s.confirmed ≤ s.ackCount i control := Nat.le_add_right _ _
  have hlt := h.lt
  refine ⟨⟨hwf, ?_, h.distinct.congr hack.setup, hack.state.trans h.connected, ?_, ?_, hin, ?_⟩,
    .ack (s.ackCount i control - s.confirmed) rfl (Nat.add_sub_cancel' hle).symm ?_⟩
  · rw [peers_length_congr hack.setup]
    exact h.peer
  · rw [Session.control, hack.txState]
    have hs := exists_seq (ackNr_lt control) s.confirmed
    rwa [hd, Nat.add_sub_cancel' hle] at hs
  · rw [Session.control, hack.txState]
    exact h.last
  · dsimp only
    omega
  · rw [Session.queue, addrField_congr hack.setup, hack.iQueue, hd]

/-- The N(R) of a received I- or S-frame of the peer lies between confirm_ns and last_ns. -/
def AckInWindow (i : ℕ) (s : Session) : SessionOp → Prop
  | .onFrameReceived _ data => ∀ control ∈ windowControl i s.fd data,
      seqDist (s.control i).confirmNs (ackNr control) ≤ seqDist (s.control i).confirmNs
        (s.control i).lastNs
  | _ => True

instance (i : ℕ) (s : Session) : ∀ op, Decidable (AckInWindow i s op)
  | .onFrameReceived _ data => Option.decidableForallMem (windowControl i s.fd data)
  | .sendPacket .. | .generateTxFrames _ | .checkTimeouts _ | .runTx _ => .isTrue trivial

theorem Counted.pending (h : Counted i s) :
    seqDist (s.control i).confirmNs (s.control i).lastNs = s.accepted.length - s.confirmed := by
  have hle := h.le
  have hlt := h.lt
  rw [h.confirm, h.last, ← Nat.add_sub_cancel' hle, seqDist_seq]
  omega

theorem runTx_eq {fd : TinyFd} {room : ℕ} {r : TinyFd × Bytes} (hwf : WellFormed fd)
    (h : fd.runTx room = some r) :
    ∃ ll, r.1 = fd.withHdlc ll ∧ WellFormed r.1 := by
  obtain ⟨ll, hrun, hsends⟩ := HdlcLl.runTx_spec hwf.tx room
  rw [runTx, hrun, Option.map_some, Option.some.injEq] at h
  have he := hsends.frame_rule
  rw [← h]
  exact ⟨ll, rfl,
    hwf.withHdlc hsends.ok (rxOk_of_eraseTx he hwf.rx) ((rxFrames_of_eraseTx he).trans hwf.rxFrames)
      (crcType_of_eraseTx he) (physMtu_of_eraseTx he)⟩

theorem counted_step {op : SessionOp} (h : Counted i s) (hin : AckInWindow i s op)
    (hs : step i s op = some s') : Counted i s' ∧ Moves i s s' := by
  rw [step, Option.filter_eq_some_iff] at hs
  obtain ⟨hs, hconn⟩ := hs
  rw [decide_eq_true_eq] at hconn
  cases op with
  | sendPacket address data timeoutMs =>
    have hwf := wellFormed_sendPacket h.wf address data timeoutMs
    rw [advance, Option.some.injEq] at hs
    subst hs
    obtain ⟨-, ⟨hno, hk⟩ | ⟨hyes, hfull, hset, htx, hq⟩⟩ :=
      sendPacket_keeps h.wf.peers_ne h.peer h.distinct address data timeoutMs
    · rw [if_neg hno]
      exact h.keep hwf hk hconn _ _
    · rw [if_pos hyes]
      obtain ⟨n, hn⟩ := exists_seq_of_lt (h.wf.counters i h.peer).recv
      exact h.accept hwf hfull hset htx hconn (hq _ n h.last hn)
  | generateTxFrames now =>
    have hwf := wellFormed_generateTxFrames h.wf now
    obtain ⟨-, ⟨hnone, hk⟩ | ⟨payload, hsome, -, -, hk⟩⟩ :=
      generateTxFrames_keeps h.wf h.peer h.distinct now
    · rw [advance, hnone, Option.some.injEq] at hs
      subst hs
      exact h.keep hwf hk hconn _ _
    · rw [advance, hsome, Option.some.injEq] at hs
      subst hs
      exact h.keep hwf hk hconn _ _
  | checkTimeouts now =>
    have hwf := wellFormed_checkTimeouts h.wf now
    rw [advance, Option.some.injEq] at hs
    subst hs
    have hk := checkTimeouts_keeps h.peer h.distinct now h.connected hconn
    by_cases hdue : s.fd.retryDue i now
    · rw [if_pos hdue] at hk
      exact h.keep hwf hk hconn _ _
    · rw [if_neg hdue] at hk
      exact h.keep hwf hk hconn _ _
  | onFrameReceived now data =>
    have hwf := wellFormed_onFrameReceived h.wf now data
    cases hctl : windowControl i s.fd data with
    | none =>
      rw [advance, hctl, Option.some.injEq] at hs
      subst hs
      exact h.keep hwf (onFrameReceived_keeps h.wf h.peer h.distinct now hctl h.connected hconn)
        hconn _ _
    | some control =>
      rw [advance, hctl, Option.some.injEq] at hs
      subst hs
      have hle := h.le
      have hnr := hin control hctl
      rw [h.pending] at hnr
      refine h.ack hwf
        (onFrameReceived_acked h.peer (h.peer.trans_le h.wf.peers_le) now hctl h.connected
          h.confirm) ?_ _
      rw [ackCount]
      omega
  | runTx room =>
    obtain ⟨r, hr, rfl⟩ := Option.map_eq_some_iff.mp hs
    obtain ⟨ll, he, hwf⟩ := runTx_eq h.wf hr
    have hk : Keeps i s.fd r.1 { s.control i with nextNs := (s.control i).nextNs } := by
      rw [he]
      exact ⟨rfl, rfl, List.Perm.refl _⟩
    exact h.keep hwf hk hconn _ _

theorem Window.moves (h : Window i s) (hc : Counted i s') (hm : Moves i s s') : Window i s' := by
  refine ⟨hc, ?_⟩
  have hlt := h.lt
  cases hm with
  | keep ha hconf hq =>
    rw [ha, hconf]
    exact hq.trans h.queue
  | accept data ha hconf hq =>
    rw [ha, hconf, windowPairs_snoc h.le]
    exact (hq.trans (h.queue.cons _)).trans (List.perm_append_singleton _ _).symm
  | ack d ha hconf hq =>
    rw [ha, hconf, hq]
    exact freeByNs_foldl_window d (by omega) h.queue

theorem window_step {op : SessionOp} (h : Window i s) (hin : AckInWindow i s op)
    (hs : step i s op = some s') : Window i s' := by
  obtain ⟨hc, hm⟩ := counted_step h.toCounted hin hs
  exact h.moves hc hm

theorem setup_step {op : SessionOp} (hwf : WellFormed s.fd) (hs : step i s op = some s') :
    s'.fd.setup = s.fd.setup := by
  rw [step, Option.filter_eq_some_iff] at hs
  cases op with
  | sendPacket address data timeoutMs =>
    rw [← Option.some.inj hs.1]
    exact setup_sendPacket ..
  | generateTxFrames now =>
    have he : s'.fd = s.fd.generateTxFrames now := by
      have hs := hs.1
      rw [advance] at hs
      split at hs <;> rw [← Option.some.inj hs]
    rw [he]
    exact setup_generateTxFrames ..
  | checkTimeouts now =>
    rw [← Option.some.inj hs.1]
    exact setup_checkTimeouts ..
  | onFrameReceived now data =>
    have he : s'.fd = s.fd.onFrameReceived now data := by
      have hs := hs.1
      rw [advance] at hs
      split at hs <;> rw [← Option.some.inj hs]
    rw [he]
    exact setup_onFrameReceived hwf ..
  | runTx room =>
    obtain ⟨r, hr, rfl⟩ := Option.map_eq_some_iff.mp hs.1
    obtain ⟨ll, he, -⟩ := runTx_eq hwf hr
    rw [he]
    rfl

theorem Window.pairs_eq (h : Window i s) :
    windowPairs s.accepted s.confirmed =
      (List.range (seqDist (s.control i).confirmNs (s.control i).lastNs)).map fun j ↦
        (((s.control i).confirmNs + UInt8.ofNat j) &&& seqBitsMask,
          s.accepted.getD (s.confirmed + j) []) := by
  have hp := h.pending
  apply List.ext_getElem
  · rw [windowPairs_length, List.length_map, List.length_range, hp]
  · intro j hj _
    rw [windowPairs_length] at hj
    have hlt : s.confirmed + j < s.accepted.length := by omega
    simp only [windowPairs, List.getElem_map, List.getElem_zipIdx, List.getElem_drop,
      List.getElem_range, h.confirm, seq_add, List.getD_eq_getElem _ _ hlt]

theorem Window.handed (h : Window i s) {now : Instant} {ns : UInt8} {payload : Bytes}
    (hh : handedTo i s.fd (s.fd.generateTxFrames now) = some (ns, payload)) :
    (ns, payload) ∈ windowPairs s.accepted s.confirmed := by
  obtain ⟨-, ⟨hnone, -⟩ | ⟨payload', hsome, -, hmem, -⟩⟩ :=
    generateTxFrames_keeps h.wf h.peer h.distinct now
  · rw [hnone] at hh
    cases hh
  · rw [hsome, Option.some.injEq] at hh
    rw [← hh]
    exact h.queue.mem_iff.mp hmem

/-- Throughout a session in which every N(R) lies between confirm_ns and
last_ns, the queue holds exactly the payloads accepted and not confirmed, each
under its own number, and what is handed to the framing layer is one of them. -/
theorem window_agrees {config : TinyFdConfig} {fd : TinyFd} {i : ℕ} (hr : Handling config fd)
    (h : Fresh fd i) (ops : List SessionOp)
    (hops : EachStep (step i) (AckInWindow i) (start fd) ops) {s : Session}
    (hrun : run (step i) (start fd) ops = some s) : let numbered :=
      (List.range (seqDist (s.control i).confirmNs (s.control i).lastNs)).map fun j ↦
      (((s.control i).confirmNs + UInt8.ofNat j) &&& seqBitsMask,
        s.accepted.getD (s.confirmed + j) [])
    (s.queue i).Perm numbered ∧
      s.accepted.length = s.confirmed + seqDist (s.control i).confirmNs (s.control i).lastNs ∧
      (s.queue i).length ≤ config.windowFrames.toNat ∧
      ∀ now ns payload, handedTo i s.fd (s.fd.generateTxFrames now) = some (ns, payload) →
        (ns, payload) ∈ numbered := by
  intro numbered
  have hboth : Window i s ∧ s.fd.setup = fd.setup := by
    refine run_invariant (P := fun s ↦ Window i s ∧ s.fd.setup = fd.setup) ?_
      ⟨window_start hr.wellFormed h, rfl⟩ hops hrun
    rintro s op s' ⟨hw, hset⟩ hin hs
    exact ⟨window_step hw hin hs, (setup_step hw.wf hs).trans hset⟩
  obtain ⟨hw, hset⟩ := hboth
  have hle := hw.le
  rw [show numbered = windowPairs s.accepted s.confirmed from hw.pairs_eq.symm]
  refine ⟨hw.queue, by rw [hw.pending]; omega, ?_, fun now ns payload hh ↦ hw.handed hh⟩
  have hcap : s.fd.frames.iQueue.capacity = fd.frames.iQueue.capacity :=
    congrArg Setup.iCapacity hset
  rw [← hr.capacity, ← hcap]
  exact FrameQueue.iPairs_length_le ..

def connectedStation : TinyFd :=
  (replay { crcType := .hdlcCrcOff, windowFrames := 2 } 0
    [.onRxData 0 [0x7E, 0x05, 0x3F, 0x7E]]).get (by decide +kernel)

def retransmissionOps : List SessionOp :=
  [.generateTxFrames 0, .runTx 99, .sendPacket 0 [1] 0, .generateTxFrames 0, .runTx 99,
    .sendPacket 0 [2] 0, .onFrameReceived 0 [0x05, 0x21], .generateTxFrames 0, .runTx 99,
    .onFrameReceived 0 [0x05, 0x39], .sendPacket 0 [3] 0]

theorem window_agrees_retransmission :
    ∃ s, run (step 0) (start connectedStation) retransmissionOps = some s ∧
    s.accepted = [[1], [2], [3]] ∧
      s.confirmed = 1 ∧
      (s.queue 0).Perm
        ((List.range (seqDist (s.control 0).confirmNs (s.control 0).lastNs)).map fun j ↦
        (((s.control 0).confirmNs + UInt8.ofNat j) &&& seqBitsMask,
          s.accepted.getD (s.confirmed + j) [])) := by
  refine ⟨(run (step 0) (start connectedStation) retransmissionOps).get (by decide +kernel),
    (Option.some_get _).symm, by decide +kernel, by decide +kernel, ?_⟩
  exact (window_agrees (.call (reachable_replay _)) (by decide +kernel : Fresh connectedStation 0)
    retransmissionOps (by decide +kernel) (Option.some_get _).symm).1

end Session

end TinyProto.TinyFd
