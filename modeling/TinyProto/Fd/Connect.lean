import TinyProto.Fd.Session

namespace TinyProto.TinyFd

variable {fd : TinyFd} {i : ℕ}

def IsSetup (control : UInt8) : Prop :=
  control &&& hdlcUFrameMask = hdlcUFrameBits ∧
    (control &&& hdlcUFrameTypeMask = hdlcUFrameTypeSabm ∨
      control &&& hdlcUFrameTypeMask = hdlcUFrameTypeSnrm)

def IsUa (control : UInt8) : Prop :=
  control &&& hdlcUFrameMask = hdlcUFrameBits ∧ control &&& hdlcUFrameTypeMask = hdlcUFrameTypeUa

instance (control : UInt8) : Decidable (IsSetup control) := by unfold IsSetup; infer_instance

instance (control : UInt8) : Decidable (IsUa control) := by unfold IsUa; infer_instance

theorem onFrameReceived_u (hle : i < hdlcInvalidPeerIndex) (now : Instant) {data : Bytes}
    (haddr : fd.AddressedTo i data) (hU : data.getD 1 0 &&& hdlcUFrameMask = hdlcUFrameBits) :
    fd.onFrameReceived now data = (fd.touch i now).onUFrameReceived i now data := by
  rcases fd.onFrameReceived_cases now data with ⟨hno, -⟩ | ⟨p, haddr', -, hcases⟩
  · exact absurd haddr (hno i hle)
  · obtain rfl : p = i := haddr'.2.symm.trans haddr.2
    rcases hcases with ⟨-, he⟩ | ⟨hU', -⟩ | ⟨hU', -⟩
    · exact he
    · exact absurd hU hU'
    · exact absurd hU hU'

theorem onFrameReceived_setup (hle : i < hdlcInvalidPeerIndex) (now : Instant) {data : Bytes}
    (haddr : fd.AddressedTo i data) (hset : IsSetup (data.getD 1 0)) :
    fd.onFrameReceived now data =
      ((fd.touch i now).putUSFrame .uFrame (uaHeader (fd.addrField i)) []).1.switchToConnected i
        now := by
  rw [onFrameReceived_u hle now haddr hset.1, ← addrField_congr (setup_touch fd i now)]
  have hother : hdlcUFrameTypeSabm ≠ hdlcUFrameTypeUa ∧ hdlcUFrameTypeSabm ≠ hdlcUFrameTypeDisc ∧
      hdlcUFrameTypeSabm ≠ hdlcUFrameTypeDm ∧ hdlcUFrameTypeSnrm ≠ hdlcUFrameTypeUa ∧
      hdlcUFrameTypeSnrm ≠ hdlcUFrameTypeDisc ∧ hdlcUFrameTypeSnrm ≠ hdlcUFrameTypeDm := by decide
  obtain ⟨h₁, h₂, h₃, h₄, h₅, h₆⟩ := hother
  rcases (fd.touch i now).onUFrameReceived_cases i now data with ⟨-, he⟩ | ⟨hua, -⟩ | ⟨hdisc,
    -⟩ | ⟨hdown, -⟩ | ⟨hno, hno', -⟩
  · exact he
  · rcases hset.2 with hs | hs <;> rw [hs] at hua
    · exact absurd hua h₁
    · exact absurd hua h₄
  · rcases hset.2 with hs | hs <;> rw [hs] at hdisc
    · exact absurd hdisc h₂
    · exact absurd hdisc h₅
  · rcases hset.2 with hs | hs <;> rw [hs] at hdown
    · exact absurd hdown (not_or.mpr ⟨fun h ↦ h₁ h.1, h₃⟩)
    · exact absurd hdown (not_or.mpr ⟨fun h ↦ h₄ h.1, h₆⟩)
  · exact absurd hset.2 (not_or.mpr ⟨hno, hno'⟩)

theorem onFrameReceived_ua (hi : i < fd.peerMgr.peers.length) (hle : i < hdlcInvalidPeerIndex)
    (now : Instant) {data : Bytes} (haddr : fd.AddressedTo i data) (hua : IsUa (data.getD 1 0))
    (hs : (fd.peer i).state = .connecting) :
    fd.onFrameReceived now data = (fd.touch i now).switchToConnected i now := by
  have hstate : ((fd.touch i now).peer i).state = .connecting := by
    rw [peer_touch_self fd i now hi, hs]
  have hne : hdlcUFrameTypeUa ≠ hdlcUFrameTypeSabm := by decide
  rw [onFrameReceived_u hle now haddr hua.1, onUFrameReceived, hua.2, if_neg hne,
    if_pos rfl, hstate]

theorem entered_cases (h : WellFormed fd) (hi : i < fd.peerMgr.peers.length) (now : Instant)
    {data : Bytes} (hbefore : (fd.peer i).state ≠ .connected)
    (hafter : ((fd.onFrameReceived now data).peer i).state = .connected) :
    fd.AddressedTo i data ∧
    (IsSetup (data.getD 1 0) ∨ IsUa (data.getD 1 0) ∧ (fd.peer i).state = .connecting) := by
  rcases fd.onFrameReceived_cases now data with ⟨-, he⟩ | ⟨p, haddr, hvalid, hcases⟩
  · rw [he] at hafter
    exact absurd hafter hbefore
  have hp : p < fd.peerMgr.peers.length := by
    rw [← haddr.2]
    exact PeerManager.addressFieldToPeer_lt h.peers_ne (haddr.2 ▸ hvalid)
  have hp₁ : p < (fd.touch p now).peerMgr.peers.length := by rwa [peers_length_touch]
  have htouch : ((fd.touch p now).peer i).state = (fd.peer i).state := by
    by_cases hpi : p = i
    · subst hpi
      rw [peer_touch_self fd p now hi]
    · rw [peer_touch_ne fd p now (Ne.symm hpi)]
  obtain ⟨n, hn⟩ := exists_seq_of_lt ((wellFormed_touch h hp now).counters p hp₁).confirm
  have hacked : ∀ control, Acked (fd.touch p now) (fd.onFrameReceived now data) p n control →
      False := by
    intro control hack
    apply hbefore
    rw [← htouch, ← hafter]
    by_cases hpi : p = i
    · subst hpi
      exact hack.state.symm
    · rw [hack.others i (Ne.symm hpi)]
  rcases hcases with ⟨hU, he⟩ | ⟨-, -, -, he⟩ | ⟨-, -, ⟨hI, he⟩ | ⟨hI, he⟩⟩
  · rw [he] at hafter
    rcases (fd.touch p now).onUFrameReceived_cases p now data with ⟨hset, he'⟩ | ⟨hua, hs,
      he'⟩ | ⟨-, he'⟩ |
      ⟨-, he'⟩ | ⟨-, -, -, -, -, he'⟩ <;> rw [he'] at hafter
    · by_cases hpi : p = i
      · subst hpi
        exact ⟨haddr, .inl ⟨hU, hset⟩⟩
      · rw [peer_switchToConnected_ne _ p now (Ne.symm hpi), peer_putUSFrame, htouch] at hafter
        exact absurd hafter hbefore
    · by_cases hpi : p = i
      · subst hpi
        exact ⟨haddr, .inr ⟨⟨hU, hua⟩, htouch.symm.trans hs⟩⟩
      · rw [peer_switchToConnected_ne _ p now (Ne.symm hpi), htouch] at hafter
        exact absurd hafter hbefore
    · by_cases hpi : p = i
      · subst hpi
        rw [state_switchToDisconnected _ p now (by rwa [peerMgr_putUSFrame])] at hafter
        cases hafter
      · rw [peer_switchToDisconnected_ne _ p now (Ne.symm hpi), peer_putUSFrame, htouch] at hafter
        exact absurd hafter hbefore
    · by_cases hpi : p = i
      · subst hpi
        rw [state_switchToDisconnected _ p now hp₁] at hafter
        cases hafter
      · rw [peer_switchToDisconnected_ne _ p now (Ne.symm hpi), htouch] at hafter
        exact absurd hafter hbefore
    · rw [htouch] at hafter
      exact absurd hafter hbefore
  · rw [he, peer_putUSFrame, htouch] at hafter
    exact absurd hafter hbefore
  · exact absurd (he ▸ onIFrameReceived_acked hp₁ hn data hI) (hacked _)
  · exact absurd (he ▸ onSFrameReceived_acked hp₁ hn data hI) (hacked _)

/-- Entering a session resets the counters, and leaves every queued frame where it is. -/
structure Entered (fd fd' : TinyFd) (i : ℕ) : Prop where
  state : (fd'.peer i).state = .connected
  counters : (fd'.peer i).iQueueControl = .new
  iQueue : fd'.frames.iQueue = fd.frames.iQueue
  sFrames : ∀ frame, frame.frameType = .sFrame →
    (frame ∈ fd'.frames.sQueue.held ↔ frame ∈ fd.frames.sQueue.held)
  setup : fd'.setup = fd.setup

theorem entered_switch (hi : i < fd.peerMgr.peers.length) (now : Instant)
    (hs : (fd.peer i).state ≠ .connected) : Entered fd (fd.switchToConnected i now) i := by
  refine ⟨state_switchToConnected fd i now hi, ?_, ?_, ?_, setup_switchToConnected ..⟩
  · rw [peer_switchToConnected_self fd i now hi hs]
    rfl
  · rw [frames_switchToConnected]
  · intro frame _
    rw [frames_switchToConnected]

theorem entered_onFrameReceived (h : WellFormed fd) (hi : i < fd.peerMgr.peers.length)
    (now : Instant) {data : Bytes} (hbefore : (fd.peer i).state ≠ .connected)
    (hafter : ((fd.onFrameReceived now data).peer i).state = .connected) :
    Entered fd (fd.onFrameReceived now data) i := by
  have hle := hi.trans_le h.peers_le
  have htouch : ((fd.touch i now).peer i).state = (fd.peer i).state := by
    rw [peer_touch_self fd i now hi]
  have hi₁ : i < (fd.touch i now).peerMgr.peers.length := by rwa [peers_length_touch]
  obtain ⟨haddr, hset | ⟨hua, hs⟩⟩ := entered_cases h hi now hbefore hafter
  · rw [onFrameReceived_setup hle now haddr hset]
    have he :=
      @entered_switch ((fd.touch i now).putUSFrame .uFrame (uaHeader (fd.addrField i)) []).1 i
        (by rwa [peerMgr_putUSFrame]) now (by rwa [peer_putUSFrame, htouch])
    refine ⟨he.state, he.counters, ?_, ?_, ?_⟩
    · rw [he.iQueue, iQueue_putUSFrame, frames_touch]
    · intro frame htype
      rw [he.sFrames frame htype]
      rcases (fd.touch i now).putUSFrame_cases .uFrame (uaHeader (fd.addrField i))
        [] with ⟨q, k, ha, hput⟩ | ⟨-, hput⟩ <;> rw [hput]
      · refine (ha.perm.mem_iff.trans List.mem_cons).trans ⟨fun hmem ↦ hmem.resolve_left ?_, .inr⟩
        rintro rfl
        cases htype
      · rfl
    · rw [he.setup, setup_putUSFrame, setup_touch]
  · rw [onFrameReceived_ua hi hle now haddr hua hs]
    have he := @entered_switch (fd.touch i now) i hi₁ now (by rwa [htouch])
    exact ⟨he.state, he.counters, he.iQueue, he.sFrames, he.setup.trans (setup_touch ..)⟩

theorem onFrameReceived_delivers (h : WellFormed fd) (hi : i < fd.peerMgr.peers.length)
    (now : Instant) {data : Bytes} (haddr : fd.AddressedTo i data)
    (hconn : (fd.peer i).state = .connected)
    (hI : data.getD 1 0 &&& hdlcIFrameMask = hdlcIFrameBits)
    (hns : (data.getD 1 0 >>> 5) &&& seqBitsMask = (fd.peer i).iQueueControl.rxState.nextNr) :
    (fd.onFrameReceived now data).callbacks = fd.callbacks ++
      [.read (fd.userAddress i) (data.drop 2)] := by
  have hi₁ : i < (fd.touch i now).peerMgr.peers.length := by rwa [peers_length_touch]
  have hpeer := peer_touch_self fd i now hi
  rcases fd.onFrameReceived_cases now data with ⟨hno, -⟩ | ⟨p, haddr', -, hcases⟩
  · exact absurd haddr (hno i (hi.trans_le h.peers_le))
  obtain rfl : p = i := haddr'.2.symm.trans haddr.2
  rcases hcases with ⟨hU, -⟩ | ⟨-, hs, -, -⟩ | ⟨-, -, ⟨-, he⟩ | ⟨hI', -⟩⟩
  · exact absurd hI (not_isI_of_service (.inl hU))
  · rw [hpeer] at hs
    exact absurd hconn hs
  · rw [he]
    obtain ⟨n, hn⟩ := exists_seq_of_lt ((wellFormed_touch h hi now).counters p hi₁).confirm
    rcases onIFrameReceived_cases hi₁ hn data with ⟨hne, -⟩ | ⟨hne, -⟩ | ⟨-, he'⟩
    · rw [hpeer] at hne
      exact absurd hns hne
    · rw [hpeer] at hne
      exact absurd hns hne
    · rw [he', callbacks_putUSFrame, callbacks_call, callbacks_modifyPeer, callbacks_confirmFrames,
        callbacks_touch, userAddress_congr (setup_touch fd p now)]
  · exact absurd hI hI'

namespace Session

open Lib

/-- The I-frames queued for the peer carry payloads of the session, under their numbers. -/
structure Sourced (i : ℕ) (s : Session) : Prop where
  wf : WellFormed s.fd
  peer : i < s.fd.peerMgr.peers.length
  distinct : Distinct s.fd i
  connected : (s.fd.peer i).state = .connected
  last : (s.control i).lastNs = seq s.accepted.length
  queue : ∀ pair ∈ s.queue i, ∃ n < s.accepted.length, pair = (seq n, s.accepted.getD n [])

variable {s s' : Session} {fd' : TinyFd}

theorem sourced_start (h : WellFormed fd) (hi : i < fd.peerMgr.peers.length) (hd : Distinct fd i)
    (hconn : (fd.peer i).state = .connected) (hc : (fd.peer i).iQueueControl = .new)
    (hq : fd.frames.iQueue.iPairs (fd.addrField i) = []) : Sourced i (start fd) := by
  refine ⟨h, hi, hd, hconn, ?_, fun pair hmem ↦ ?_⟩
  · rw [control, start, hc]
    rfl
  · rw [queue, start, hq] at hmem
    exact absurd hmem List.not_mem_nil

theorem Sourced.shrink (h : Sourced i s) (hwf : WellFormed fd') (hset : fd'.setup = s.fd.setup)
    (hlast : (fd'.peer i).iQueueControl.txState.lastNs = (s.control i).lastNs)
    (hq : ∀ pair ∈ fd'.frames.iQueue.iPairs (s.fd.addrField i), pair ∈ s.queue i)
    (hconn : (fd'.peer i).state = .connected) (confirmed : ℕ) (handed : List ℕ) (sent : ℕ) :
    Sourced i { s with fd := fd', confirmed := confirmed, handed := handed, sent := sent } := by
  refine ⟨hwf, ?_, h.distinct.congr hset, hconn, hlast.trans h.last, fun pair hmem ↦ ?_⟩
  · rw [peers_length_congr hset]
    exact h.peer
  · rw [Session.queue, addrField_congr hset] at hmem
    exact h.queue pair (hq pair hmem)

theorem Sourced.keep (h : Sourced i s) (hwf : WellFormed fd') {next : UInt8}
    (hk : Keeps i s.fd fd' { s.control i with nextNs := next })
    (hconn : (fd'.peer i).state = .connected) (confirmed : ℕ) (handed : List ℕ) (sent : ℕ) :
    Sourced i { s with fd := fd', confirmed := confirmed, handed := handed, sent := sent } :=
  h.shrink hwf hk.setup (by rw [hk.tx]) (fun _ hmem ↦ hk.queue.mem_iff.mp hmem) hconn
    confirmed handed sent

theorem Sourced.ack (h : Sourced i s) (hwf : WellFormed fd') {control : UInt8} {n : ℕ}
    (hack : Acked s.fd fd' i n control) (confirmed sent : ℕ) :
    Sourced i { s with fd := fd', confirmed := confirmed, sent := sent } := by
  refine h.shrink hwf hack.setup (by rw [hack.txState]; rfl) (fun pair hmem ↦ ?_)
    (hack.state.trans h.connected) confirmed s.handed sent
  obtain ⟨frame, hheld, hframe⟩ := FrameQueue.mem_iPairs.mp hmem
  rw [hack.iQueue] at hheld
  exact FrameQueue.mem_iPairs.mpr ⟨frame, held_freeByNs_foldl _ _ _ hheld, hframe⟩

theorem Sourced.accept (h : Sourced i s) (hwf : WellFormed fd') {data : Bytes}
    (hset : fd'.setup = s.fd.setup) (htx : (fd'.peer i).iQueueControl.txState =
      { s.control i with lastNs := ((s.control i).lastNs + 1) &&& seqBitsMask })
    (hconn : (fd'.peer i).state = .connected)
    (hq : (fd'.frames.iQueue.iPairs (s.fd.addrField i)).Perm
      ((seq s.accepted.length, data) :: s.queue i)) :
    Sourced i { s with fd := fd', accepted := s.accepted ++ [data] } := by
  refine ⟨hwf, ?_, h.distinct.congr hset, hconn, ?_, fun pair hmem ↦ ?_⟩
  · rw [peers_length_congr hset]
    exact h.peer
  · rw [control, htx, h.last, List.length_append]
    exact seq_succ _
  · rw [Session.queue, addrField_congr hset] at hmem
    rw [List.length_append, List.length_singleton]
    rcases List.mem_cons.mp (hq.mem_iff.mp hmem) with rfl | hmem
    · refine ⟨s.accepted.length, Nat.lt_succ_self _, ?_⟩
      rw [List.getD_append_right _ _ _ _ le_rfl, Nat.sub_self]
      rfl
    · obtain ⟨n, hn, rfl⟩ := h.queue pair hmem
      exact ⟨n, hn.trans (Nat.lt_succ_self _), by rw [List.getD_append _ _ _ _ hn]⟩

theorem sourced_step {op : SessionOp} (h : Sourced i s) (hs : step i s op = some s') :
    Sourced i s' := by
  rw [step, Option.filter_eq_some_iff] at hs
  obtain ⟨hs, hconn⟩ := hs
  rw [decide_eq_true_eq] at hconn
  cases op with
  | sendPacket address data timeoutMs =>
    have hwf := wellFormed_sendPacket h.wf address data timeoutMs
    rw [advance, Option.some.injEq] at hs
    subst hs
    obtain ⟨-, ⟨hno, hk⟩ | ⟨hyes, -, hset, htx, hq⟩⟩ :=
      sendPacket_keeps h.wf.peers_ne h.peer h.distinct address data timeoutMs
    · rw [if_neg hno]
      exact h.keep hwf hk hconn ..
    · rw [if_pos hyes]
      obtain ⟨n, hn⟩ := exists_seq_of_lt (h.wf.counters i h.peer).recv
      exact h.accept hwf hset htx hconn (hq _ n h.last hn)
  | generateTxFrames now =>
    have hwf := wellFormed_generateTxFrames h.wf now
    obtain ⟨-, ⟨hnone, hk⟩ | ⟨payload, hsome, -, -, hk⟩⟩ :=
      generateTxFrames_keeps h.wf h.peer h.distinct now
    · rw [advance, hnone, Option.some.injEq] at hs
      subst hs
      exact h.keep hwf hk hconn ..
    · rw [advance, hsome, Option.some.injEq] at hs
      subst hs
      exact h.keep hwf hk hconn ..
  | checkTimeouts now =>
    have hwf := wellFormed_checkTimeouts h.wf now
    rw [advance, Option.some.injEq] at hs
    subst hs
    have hk := checkTimeouts_keeps h.peer h.distinct now h.connected hconn
    by_cases hdue : s.fd.retryDue i now
    · rw [if_pos hdue] at hk
      exact h.keep hwf hk hconn ..
    · rw [if_neg hdue] at hk
      exact h.keep hwf hk hconn ..
  | onFrameReceived now data =>
    have hwf := wellFormed_onFrameReceived h.wf now data
    cases hctl : windowControl i s.fd data with
    | none =>
      rw [advance, hctl, Option.some.injEq] at hs
      subst hs
      exact h.keep hwf (onFrameReceived_keeps h.wf h.peer h.distinct now hctl h.connected hconn)
        hconn ..
    | some control =>
      rw [advance, hctl, Option.some.injEq] at hs
      subst hs
      obtain ⟨n, hn⟩ := exists_seq_of_lt (h.wf.counters i h.peer).confirm
      exact h.ack hwf
        (onFrameReceived_acked h.peer (h.peer.trans_le h.wf.peers_le) now hctl h.connected hn) ..
  | runTx room =>
    obtain ⟨r, hr, rfl⟩ := Option.map_eq_some_iff.mp hs
    obtain ⟨ll, he, hwf⟩ := runTx_eq h.wf hr
    have hk : Keeps i s.fd r.1 { s.control i with nextNs := (s.control i).nextNs } := by
      rw [he]
      exact ⟨rfl, rfl, List.Perm.refl _⟩
    exact h.keep hwf hk hconn ..

/-- The link starts afresh: counters at zero, the first I-frame of the peer is accepted,
and what an I- or S-frame of the session confirms was accepted in it. -/
structure Resynchronised (fd : TinyFd) (i : ℕ) : Prop where
  counters : (fd.peer i).iQueueControl = .new
  first : ∀ now data, fd.AddressedTo i data → data.getD 1 0 &&& hdlcIFrameMask = hdlcIFrameBits →
    (data.getD 1 0 >>> 5) &&& seqBitsMask = 0 →
    (fd.onFrameReceived now data).callbacks = fd.callbacks ++
      [.read (fd.userAddress i) (data.drop 2)]
  counts : Distinct fd i → ∀ ops s, EachStep (step i) (AckInWindow i) (start fd) ops →
    run (step i) (start fd) ops = some s →
    (s.control i).confirmNs = seq s.confirmed ∧ s.confirmed ≤ s.accepted.length
  acks : Distinct fd i → ∀ ops s, run (step i) (start fd) ops = some s →
    ∀ now data, (windowControl i s.fd data).isSome → ∀ pair,
      ((s.fd.onFrameReceived now data).frames.iQueue.iPairs (s.fd.addrField i)).count pair <
        (s.queue i).count pair →
      ∃ n < s.accepted.length, pair = (seq n, s.accepted.getD n [])

theorem resynchronised (h : WellFormed fd) (hi : i < fd.peerMgr.peers.length)
    (hconn : (fd.peer i).state = .connected) (hc : (fd.peer i).iQueueControl = .new)
    (hq : Distinct fd i → fd.frames.iQueue.iPairs (fd.addrField i) = []) : Resynchronised fd i := by
  refine ⟨hc, ?_, ?_, ?_⟩
  · intro now data haddr hI hns
    apply onFrameReceived_delivers h hi now haddr hconn hI
    rw [hns, hc]
    rfl
  · intro hd ops s hops hrun
    have hcounted : Counted i s := by
      refine run_invariant (fun s op s' hw hin hs ↦ (counted_step hw hin hs).1) ?_ hops hrun
      apply counted_start h hi hd hconn
      rw [hc]
      rfl
    exact ⟨hcounted.confirm, hcounted.le⟩
  · intro hd ops s hrun now data _ pair hless
    have hsourced : Sourced i s := run_invariant (fun _ _ _ hs _ hstep ↦ sourced_step hs hstep)
      (sourced_start h hi hd hconn hc (hq hd)) (EachStep.trivial _ ops) hrun
    exact hsourced.queue pair (List.count_pos_iff.mp ((Nat.zero_le _).trans_lt hless))

theorem rr_acked (h : WellFormed fd) (hi : i < fd.peerMgr.peers.length)
    (hconn : (fd.peer i).state = .connected) {data : Bytes} (hto : fd.AddressedTo i data) {n : ℕ}
    (hn : (fd.peer i).iQueueControl.txState.confirmNs = seq n) (m : ℕ) :
    ∃ frame control, fd.AddressedTo i frame ∧ windowControl i fd frame = some control ∧
    ackNr control = seq m ∧
      ¬ IsRejection control ∧ Acked fd (fd.onFrameReceived 0 frame) i n control := by
  obtain ⟨hnr, htype, hS⟩ := rrHeader_fields 0 m
  let frame : Bytes := [data.getD 0 0, (rrHeader 0 (seq m)).control]
  have hto' : fd.AddressedTo i frame := ⟨Nat.le_refl _, hto.2⟩
  have hctl : windowControl i fd frame = some (rrHeader 0 (seq m)).control :=
    if_pos ⟨hto', not_isU_of_isS hS⟩
  refine ⟨frame, _, hto', hctl, ?_, ?_,
    onFrameReceived_acked hi (hi.trans_le h.peers_le) 0 hctl hconn hn⟩
  · rw [ackNr, if_neg (not_isI_of_service (.inr hS)), hnr]
  · rintro ⟨-, hrej⟩
    rw [htype] at hrej
    exact absurd hrej (by decide)

theorem mem_iPairs_freeByNs_foldl {address : UInt8} {pair : UInt8 × Bytes} (seqs : List UInt8)
    (hno : pair.1 ∉ seqs) {q : FrameQueue} (hmem : pair ∈ q.iPairs address) :
    pair ∈ (seqs.foldl (fun q s ↦ q.freeByNs address s) q).iPairs address := by
  induction seqs generalizing q with
  | nil => exact hmem
  | cons s seqs ih =>
    rw [List.mem_cons, not_or] at hno
    refine ih hno.2 ?_
    change pair ∈ (q.freeByNs address s).iPairs address
    rcases q.iPairs_freeByNs address s with ⟨he, -⟩ | ⟨payload, hperm⟩
    · rwa [he]
    · rcases List.mem_cons.mp (hperm.mem_iff.mp hmem) with rfl | hrest
      · exact absurd rfl hno.1
      · exact hrest

/-- Two RR frames confirm an I-frame that was left in the queue of a peer whose counters
start anew. -/
theorem old_confirmed (h : WellFormed fd) (hi : i < fd.peerMgr.peers.length)
    (hconn : (fd.peer i).state = .connected) (hc : (fd.peer i).iQueueControl = .new) {data : Bytes}
    (hto : fd.AddressedTo i data) {pair : UInt8 × Bytes}
    (hold : pair ∈ fd.frames.iQueue.iPairs (fd.addrField i)) :
    ∃ ops s frame pair', run (step i) (start fd) ops = some s ∧ s.accepted = [] ∧
      (windowControl i s.fd frame).isSome ∧
      ((s.fd.onFrameReceived 0 frame).frames.iQueue.iPairs (s.fd.addrField i)).count pair' <
        (s.queue i).count pair' := by
  have hns : pair.1 < 8 := by
    obtain ⟨frame, -, -, -, rfl⟩ := FrameQueue.mem_iPairs.mp hold
    exact mask_lt _
  obtain ⟨n, hlt, hn⟩ : ∃ n < 8, pair.1 = seq n :=
    ⟨_, seqDist_lt (seq 0) pair.1, by simpa using exists_seq hns 0⟩
  have hzero : (fd.peer i).iQueueControl.txState.confirmNs = seq 0 := by
    rw [hc]
    rfl
  obtain ⟨first, control, hto₁, hctl, hack, hrej, hacked⟩ := rr_acked h hi hconn hto hzero n
  have hconn₁ : ((fd.onFrameReceived 0 first).peer i).state = .connected := hacked.state.trans hconn
  have hconfirm₁ : ((fd.onFrameReceived 0 first).peer i).iQueueControl.txState.confirmNs =
      seq n := by
    rw [hacked.txState, hack]
  have hi₁ : i < (fd.onFrameReceived 0 first).peerMgr.peers.length := by
    rwa [peers_length_congr hacked.setup]
  obtain ⟨second, control₂, -, hctl₂, hack₂, -, hacked₂⟩ :=
    rr_acked (wellFormed_onFrameReceived h 0 first) hi₁ hconn₁ (AddressedTo.congr hacked.setup hto₁)
      hconfirm₁ (n + 1)
  have hstill : pair ∈ (fd.onFrameReceived 0 first).frames.iQueue.iPairs (fd.addrField i) := by
    rw [hacked.iQueue, hack]
    refine mem_iPairs_freeByNs_foldl _ ?_ hold
    rw [hn, List.mem_map]
    rintro ⟨j, hj, hjn⟩
    have hdist := seqDist_seq 0 n
    rw [Nat.zero_add] at hdist hjn
    rw [hdist, List.mem_range] at hj
    exact absurd (seq_inj hjn (by omega) (by omega)) (by omega)
  obtain ⟨s, hs, hfd, hnone⟩ : ∃ s, step i (start fd) (.onFrameReceived 0 first) = some s ∧
      s.fd = fd.onFrameReceived 0 first ∧ s.accepted = [] := by
    refine ⟨⟨fd.onFrameReceived 0 first, [], (start fd).ackCount i control, [], 0⟩, ?_, rfl, rfl⟩
    have hadvance : advance i (start fd) (.onFrameReceived 0 first) =
        some ⟨fd.onFrameReceived 0 first, [], (start fd).ackCount i control, [], 0⟩ := by
      have hctl' : windowControl i (start fd).fd first = some control := hctl
      rw [advance, hctl']
      simp only [start, if_neg hrej]
    rw [step, hadvance]
    exact Option.filter_eq_some_iff.mpr ⟨rfl, decide_eq_true hconn₁⟩
  refine ⟨[.onFrameReceived 0 first], s, second, ?_⟩
  rw [Session.queue, hfd, addrField_congr hacked.setup]
  have hfree : ((fd.onFrameReceived 0 first).onFrameReceived 0 second).frames.iQueue =
      (fd.onFrameReceived 0 first).frames.iQueue.freeByNs (fd.addrField i) (seq n) := by
    rw [hacked₂.iQueue, hack₂, seqDist_seq, addrField_congr hacked.setup]
    rfl
  rcases FrameQueue.iPairs_freeByNs (fd.onFrameReceived 0 first).frames.iQueue
    (fd.addrField i) (seq n) with
    ⟨-, hno⟩ | ⟨payload, hperm⟩
  · exact absurd hn (hno pair hstill)
  · refine ⟨(seq n, payload), ?_, hnone, by rw [hctl₂]; rfl, ?_⟩
    · exact run_cons.mpr ⟨s, hs, rfl⟩
    · rw [hfree, hperm.count_eq, List.count_cons_self]
      exact Nat.lt_succ_self _

theorem resynchronised_iff (h : WellFormed fd) (hi : i < fd.peerMgr.peers.length)
    (hconn : (fd.peer i).state = .connected) {data : Bytes} (hto : fd.AddressedTo i data) :
    Resynchronised fd i ↔ (fd.peer i).iQueueControl = .new ∧
      (Distinct fd i → fd.frames.iQueue.iPairs (fd.addrField i) = []) := by
  refine ⟨fun hre ↦ ⟨hre.counters, fun hd ↦ ?_⟩, fun hnew ↦ resynchronised h hi hconn hnew.1 hnew.2⟩
  refine List.eq_nil_iff_forall_not_mem.mpr fun pair hold ↦ ?_
  obtain ⟨ops, s, frame, pair', hrun, hnone, hctl, hless⟩ :=
    old_confirmed h hi hconn hre.counters hto hold
  obtain ⟨n, hn, -⟩ := hre.acks hd ops s hrun 0 frame hctl pair' hless
  rw [hnone] at hn
  exact absurd hn (Nat.not_lt_zero n)

/-- A SABM or SNRM makes the link start afresh exactly if the peer was not connected, or
was and had not counted yet, and no I-frame of it was left in the queue; a UA that was
waited for does exactly if none was left. -/
theorem setup_resynchronises_iff {config : TinyFdConfig} (hr : Handling config fd)
    (hi : i < fd.peerMgr.peers.length) (now : Instant) {data : Bytes}
    (haddr : fd.AddressedTo i data) (hset : IsSetup (data.getD 1 0)) :
    (Resynchronised (fd.onFrameReceived now data) i ↔
      ((fd.peer i).state = .connected → (fd.peer i).iQueueControl = .new) ∧
        (Distinct fd i → fd.frames.iQueue.iPairs (fd.addrField i) = [])) ∧
    ∀ (config' : TinyFdConfig) (asking : TinyFd) (j : ℕ) (now' : Instant) (ua : Bytes),
      Handling config' asking →
      j < asking.peerMgr.peers.length → (asking.peer j).state = .connecting →
      asking.AddressedTo j ua →
      IsUa (ua.getD 1 0) →
      (Resynchronised (asking.onFrameReceived now' ua) j ↔
        (Distinct asking j → asking.frames.iQueue.iPairs (asking.addrField j) = [])) := by
  have h := hr.wellFormed
  have hle := hi.trans_le h.peers_le
  have hwf := wellFormed_onFrameReceived h now data
  have hsetup := setup_onFrameReceived h now data
  have hi' : i < (fd.onFrameReceived now data).peerMgr.peers.length := by
    rwa [peers_length_congr hsetup]
  have hi₁ : i <
      ((fd.touch i now).putUSFrame .uFrame (uaHeader (fd.addrField i))
        []).1.peerMgr.peers.length := by
    rwa [peerMgr_putUSFrame, peers_length_touch]
  have hafter : ((fd.onFrameReceived now data).peer i).state = .connected := by
    rw [onFrameReceived_setup hle now haddr hset]
    exact state_switchToConnected _ i now hi₁
  have hqueue : (fd.onFrameReceived now data).frames.iQueue = fd.frames.iQueue := by
    rw [onFrameReceived_setup hle now haddr hset, frames_switchToConnected,
      iQueue_putUSFrame, frames_touch]
  have hdistinct : Distinct (fd.onFrameReceived now data) i ↔ Distinct fd i :=
    ⟨fun hd ↦ hd.congr hsetup.symm, fun hd ↦ hd.congr hsetup⟩
  have hcounters : ((fd.onFrameReceived now data).peer i).iQueueControl = .new ↔
      ((fd.peer i).state = .connected → (fd.peer i).iQueueControl = .new) := by
    by_cases hconn : (fd.peer i).state = .connected
    · rw [onFrameReceived_setup hle now haddr hset, switchToConnected_of_connected, peer_putUSFrame,
        peer_touch_self fd i now hi]
      · exact ⟨fun hc _ ↦ hc, fun hc ↦ hc hconn⟩
      · rwa [peer_putUSFrame, peer_touch_self fd i now hi]
    · exact iff_of_true (entered_onFrameReceived h hi now hconn hafter).counters fun hs ↦
        absurd hs hconn
  refine ⟨?_, ?_⟩
  · rw [resynchronised_iff hwf hi' hafter (AddressedTo.congr hsetup haddr), hcounters, hdistinct,
      hqueue, addrField_congr hsetup]
  · intro config' asking j now' ua hr' hj hs haddr' hua
    have h' := hr'.wellFormed
    have hsetup' := setup_onFrameReceived h' now' ua
    have hafter' : ((asking.onFrameReceived now' ua).peer j).state = .connected := by
      rw [onFrameReceived_ua hj (hj.trans_le h'.peers_le) now' haddr' hua hs]
      exact state_switchToConnected _ j now' (by rwa [peers_length_touch])
    have hentered := entered_onFrameReceived h' hj now' (by rw [hs]; decide) hafter'
    have hdistinct' : Distinct (asking.onFrameReceived now' ua) j ↔ Distinct asking j :=
      ⟨fun hd ↦ hd.congr hsetup'.symm, fun hd ↦ hd.congr hsetup'⟩
    rw [resynchronised_iff (wellFormed_onFrameReceived h' now' ua)
      (by rwa [peers_length_congr hsetup']) hafter' (AddressedTo.congr hsetup' haddr'), hdistinct',
      hentered.iQueue, addrField_congr hsetup']
    exact ⟨fun hnew ↦ hnew.2, fun hq ↦ ⟨hentered.counters, hq⟩⟩

def connectingStation : TinyFd :=
  (replay { crcType := .hdlcCrcOff } 0 [.getTxData 0 16 0]).get (by decide +kernel)

theorem setup_resynchronises_fresh :
    Resynchronised (connectedStation.onFrameReceived 0 [0x05, 0x3F]) 0 ∧
      Resynchronised (connectingStation.onFrameReceived 0 [0x05, 0x73]) 0 := by
  have h := setup_resynchronises_iff (.call (reachable_replay _) : Handling _ connectedStation)
    (by decide +kernel : 0 < connectedStation.peerMgr.peers.length) 0
    (by decide +kernel : connectedStation.AddressedTo 0 [0x05, 0x3F]) (by decide)
  refine ⟨h.1.mpr ⟨by decide +kernel, by decide +kernel⟩, ?_⟩
  exact (h.2 _ connectingStation 0 0 [0x05, 0x73] (.call (reachable_replay _)) (by decide +kernel)
    (by decide +kernel) (by decide +kernel) (by decide)).mpr (by decide +kernel)

def countingStation : TinyFd :=
  (replay { crcType := .hdlcCrcOff } 0
    [.onRxData 0 [0x7E, 0x05, 0x3F, 0x7E, 0x7E, 0x05, 0x00, 0x01, 0x7E]]).get (by decide +kernel)

/-- A SABM leaves next_nr at 1, and the first payload that follows is not delivered. -/
theorem setup_not_resynchronised :
    ∃ config fd now data, Reachable config fd ∧ 0 < fd.peerMgr.peers.length ∧
    fd.AddressedTo 0 data ∧
      IsSetup (data.getD 1 0) ∧ ((fd.onFrameReceived now data).peer 0).iQueueControl ≠ .new ∧
      ¬ Resynchronised (fd.onFrameReceived now data) 0 ∧
      ((fd.onFrameReceived now data).onFrameReceived now [0x05, 0x00, 7]).callbacks =
        (fd.onFrameReceived now data).callbacks := by
  have hcounters : ((countingStation.onFrameReceived 0 [0x05, 0x3F]).peer 0).iQueueControl ≠
      .new := by
    decide +kernel
  exact ⟨_, countingStation, 0, [0x05, 0x3F],
    reachable_replay _, by decide +kernel, by decide +kernel, by decide, hcounters,
    fun h ↦ hcounters h.counters, by decide +kernel⟩

/-- The queues hold nothing for the peer but the I-frames of its window. -/
structure CleanEntry (fd : TinyFd) (i : ℕ) : Prop where
  iFrames : ((fd.frames.iQueue.iPairs (fd.addrField i)).map Prod.fst).Perm
    ((List.range
      (seqDist (fd.peer i).iQueueControl.txState.confirmNs
        (fd.peer i).iQueueControl.txState.lastNs)).map fun j ↦
          ((fd.peer i).iQueueControl.txState.confirmNs + UInt8.ofNat j) &&& seqBitsMask)
  sFrames : ∀ frame ∈ fd.frames.sQueue.held, frame.frameType = .sFrame →
    frame.header.address ≠ fd.addrField i

/-- An event opens a session with clean queues exactly if they held nothing for
the peer before; and then every later frame carries a payload of the session. -/
theorem clean_entry_iff {config : TinyFdConfig} (hr : Handling config fd)
    (hi : i < fd.peerMgr.peers.length) (now : Instant) {data : Bytes}
    (hbefore : (fd.peer i).state ≠ .connected)
    (hafter : ((fd.onFrameReceived now data).peer i).state = .connected) :
    (CleanEntry (fd.onFrameReceived now data) i ↔
      fd.frames.iQueue.iPairs (fd.addrField i) = [] ∧
        ∀ frame ∈ fd.frames.sQueue.held, frame.frameType = .sFrame →
        frame.header.address ≠ fd.addrField i) ∧
    (CleanEntry (fd.onFrameReceived now data) i → Distinct fd i → ∀ ops s,
      EachStep (step i) (AckInWindow i) (start (fd.onFrameReceived now data)) ops →
      run (step i) (start (fd.onFrameReceived now data)) ops = some s →
      (s.queue i).Perm (windowPairs s.accepted s.confirmed) ∧
        ∀ now ns payload, handedTo i s.fd (s.fd.generateTxFrames now) = some (ns, payload) →
          (ns, payload) ∈ windowPairs s.accepted s.confirmed) := by
  have h := hr.wellFormed
  have he := entered_onFrameReceived h hi now hbefore hafter
  have haddr := addrField_congr he.setup i
  have hpairs : (fd.onFrameReceived now data).frames.iQueue.iPairs
      ((fd.onFrameReceived now data).addrField i) = fd.frames.iQueue.iPairs (fd.addrField i) := by
    rw [he.iQueue, haddr]
  have hiff : CleanEntry (fd.onFrameReceived now data) i ↔
      fd.frames.iQueue.iPairs (fd.addrField i) = [] ∧
      ∀ frame ∈ fd.frames.sQueue.held, frame.frameType = .sFrame →
      frame.header.address ≠ fd.addrField i := by
    constructor
    · rintro ⟨hI, hS⟩
      rw [hpairs, he.counters] at hI
      refine ⟨List.map_eq_nil_iff.mp (List.Perm.eq_nil hI), ?_⟩
      intro frame hmem htype
      rw [← haddr]
      exact hS frame ((he.sFrames frame htype).mpr hmem) htype
    · rintro ⟨hI, hS⟩
      refine ⟨?_, ?_⟩
      · rw [hpairs, he.counters, hI]
        exact List.Perm.refl _
      · intro frame hmem htype
        rw [haddr]
        exact hS frame ((he.sFrames frame htype).mp hmem) htype
  refine ⟨hiff, ?_⟩
  intro hclean hd ops s hops hrun
  have hfresh : Fresh (fd.onFrameReceived now data) i := by
    refine ⟨?_, hd.congr he.setup, hafter, ?_, ?_⟩
    · rwa [peers_length_congr he.setup]
    · rw [he.counters]
      rfl
    · rw [hpairs]
      exact (hiff.mp hclean).1
  have hw : Window i s := run_invariant (fun _ _ _ hw hin hs ↦ window_step hw hin hs)
    (window_start (wellFormed_onFrameReceived h now data) hfresh) hops hrun
  exact ⟨hw.queue, fun now ns payload hh ↦ hw.handed hh⟩

theorem clean_entry_iff_connecting :
    CleanEntry (connectingStation.onFrameReceived 0 [0x05, 0x73]) 0 :=
  (clean_entry_iff (.call (reachable_replay _)) (by decide +kernel) 0 (by decide +kernel)
    (by decide +kernel)).1.mpr (by decide +kernel)

/-- A payload accepted before the connection keeps its slot in the session. -/
theorem entry_not_clean :
    ∃ config fd now data, Reachable config fd ∧ 0 < fd.peerMgr.peers.length ∧
    (fd.peer 0).state ≠ .connected ∧
      ((fd.onFrameReceived now data).peer 0).state = .connected ∧
      ¬ CleanEntry (fd.onFrameReceived now data) 0 := by
  refine ⟨_, (replay { crcType := .hdlcCrcOff } 0 [.sendPacket 0 [1] 0]).get (by decide +kernel),
    0, [0x05, 0x3F], reachable_replay _, by decide +kernel, by decide +kernel, by decide +kernel,
    ?_⟩
  intro h
  exact absurd h.iFrames.length_eq (by decide +kernel)

end Session

end TinyProto.TinyFd
