import TinyProto.Fd.Connect

namespace TinyProto

open Lib

namespace TinyFd

variable {fd : TinyFd}

def TimerDue (fd : TinyFd) (p : ℕ) (now : Instant) : Prop :=
  match (fd.peer p).state with
  | .disconnected | .idle => fd.mode = .abm ∧ elapsed now (fd.peer p).lastSentFrameTs ≥ fd.retryDur
  | .connecting => elapsed now (fd.peer p).lastSentFrameTs ≥ fd.retryDur
  | .connected =>
    (fd.peer p).iQueueControl.hasUnconfirmedFrames ∧
      elapsed now (fd.peer p).lastSentITs ≥ fd.retryDur
  | .disconnecting => False

instance (p : ℕ) (now : Instant) : Decidable (fd.TimerDue p now) := by
  unfold TimerDue
  cases (fd.peer p).state <;> infer_instance

def Quiet (fd : TinyFd) (now : Instant) : Prop := ∀ p < fd.peerMgr.peers.length, ¬ fd.TimerDue p now

instance (now : Instant) : Decidable (fd.Quiet now) := by unfold Quiet; infer_instance

theorem checkTimeout_quiet {p : ℕ} {now : Instant} (h : ¬ fd.TimerDue p now) :
    fd.checkTimeout now p = fd := by
  rw [TimerDue] at h
  rw [checkTimeout]
  dsimp only
  cases hs : (fd.peer p).state <;> rw [hs] at h <;> dsimp only at h ⊢
  all_goals exact if_neg h

theorem checkTimeouts_quiet {now : Instant} (h : fd.Quiet now) : fd.checkTimeouts now = fd := by
  apply checkTimeouts_ind (P := fun fd' ↦ fd' = fd) now rfl
  rintro p hp fd' rfl
  exact checkTimeout_quiet (h p hp)

def handed (fd fd' : TinyFd) : Option Bytes := if fd.hdlc.txData = none then fd'.hdlc.txData
    else none

/-- What `generate_tx_frames` hands over, and what it does to a station with one peer. -/
theorem generateTxFrames_handed (hone : fd.peerMgr.peers.length = 1) (now : Instant) :
    (handed fd (fd.generateTxFrames now) = none ∧ fd.generateTxFrames now = fd ∧
      (fd.hdlc.txData = none → (∀ i, fd.frames.sQueue.get i = none) ∧ ∀ frame,
        ¬ fd.Sendable 0 frame)) ∨
    (fd.hdlc.txData = none ∧ ∃ i frame, fd.frames.sQueue.get i = some frame ∧
      (∀ j < i, fd.frames.sQueue.get j = none) ∧
      handed fd (fd.generateTxFrames now) = some frame.toBytes ∧
      fd.generateTxFrames now =
        { fd.handOver frame.toBytes with frames :=
          { fd.frames with sQueue := fd.frames.sQueue.free i } }) ∨
    (fd.hdlc.txData = none ∧ (∀ i, fd.frames.sQueue.get i = none) ∧ ∃ frame, fd.Sendable 0 frame ∧
      handed fd (fd.generateTxFrames now) = some (fd.sendIData 0 frame) ∧
      fd.generateTxFrames now = (fd.handOver (fd.sendIData 0 frame)).modifyPeer 0 fun q ↦
        { q with
          iQueueControl := q.iQueueControl.advanceNextNs
          lastSentITs := now
          lastSentFrameTs := now
          retries := fd.retries }) := by
  rcases fd.generateTxFrames_cases now with ⟨hbusy, he⟩ | ⟨hidle, i, frame, hi, hlow, he⟩ |
    ⟨hidle, hno, p, frame, hp, hs, he⟩ | ⟨hidle, hno, hall, he⟩
  · exact .inl ⟨if_neg hbusy, he, fun hidle ↦ absurd hidle hbusy⟩
  · refine .inr (.inl ⟨hidle, i, frame, hi, hlow, ?_, he⟩)
    rw [handed, if_pos hidle, he]
    rfl
  · obtain rfl : p = 0 := by omega
    refine .inr (.inr ⟨hidle, hno, frame, hs, ?_, he⟩)
    rw [handed, if_pos hidle, he]
    rfl
  · refine .inl ⟨?_, he, fun _ ↦ ⟨hno, hall 0 (by omega)⟩⟩
    rw [handed, if_pos hidle, he, hidle]

theorem generateTxFrames_calm (hone : fd.peerMgr.peers.length = 1) (now : Instant) :
    (fd.generateTxFrames now).callbacks = fd.callbacks ∧
      ((fd.generateTxFrames now).peer 0).state = (fd.peer 0).state ∧
      ((fd.generateTxFrames now).peer 0).iQueueControl.rxState = (fd.peer 0).iQueueControl.rxState ∧
      ((fd.generateTxFrames now).peer 0).sentReject = (fd.peer 0).sentReject := by
  rcases generateTxFrames_handed hone now with ⟨-, he, -⟩ | ⟨-, i, frame, -, -, -, he⟩ | ⟨-, -,
    frame, -, -, he⟩ <;> rw [he]
  · exact ⟨rfl, rfl, rfl, rfl⟩
  · exact ⟨rfl, rfl, rfl, rfl⟩
  · have hzero : 0 < (fd.handOver (fd.sendIData 0 frame)).peerMgr.peers.length := by
      change 0 < fd.peerMgr.peers.length
      omega
    rw [peer_modifyPeer_self hzero]
    exact ⟨rfl, rfl, rfl, rfl⟩

theorem sendIData_eq (fd : TinyFd) (p : ℕ) (frame : FrameInfo) :
    fd.sendIData p frame = frame.header.address ::
      iControl (fd.peer p).iQueueControl.txState.nextNs (fd.peer p).iQueueControl.rxState.nextNr ::
        frame.payload := rfl

theorem handed_fits (h : WellFormed fd) (now : Instant) {data : Bytes}
    (hd : handed fd (fd.generateTxFrames now) = some data) : data ≠ [] ∧
    data.length ≤ fd.mtu + 2 := by
  rcases fd.generateTxFrames_cases now with ⟨hbusy, he⟩ | ⟨hidle, i, frame, hi, -, he⟩ |
    ⟨hidle, -, p, frame, -, hs, he⟩ | ⟨hidle, -, -, he⟩
  · rw [handed, if_neg hbusy] at hd
    cases hd
  · rw [handed, if_pos hidle, he] at hd
    obtain rfl := Option.some.inj hd
    have hmem : frame ∈ fd.frames.sQueue.held :=
      (FrameQueue.free_perm hi).mem_iff.mpr (List.mem_cons_self ..)
    refine ⟨toBytes_ne_nil frame, ?_⟩
    simp only [FrameInfo.toBytes, (h.sFrames frame hmem).1, List.length_cons, List.length_nil]
    omega
  · rw [handed, if_pos hidle, he] at hd
    obtain rfl := Option.some.inj hd
    obtain ⟨-, -, k, hget⟩ := hs
    have hlen := (h.iFrames frame (FrameQueue.getNext_some hget).1).2.2.2
    rw [sendIData_eq]
    refine ⟨List.cons_ne_nil _ _, ?_⟩
    simp only [List.length_cons]
    omega
  · rw [handed, if_pos hidle, he, hidle] at hd
    cases hd

def Puts (q q' : FrameQueue) (frame : FrameInfo) : Prop :=
  (∃ i, q.Allocated q' frame i) ∨ q.held.length = q.capacity ∧ q' = q

theorem putUSFrame_puts {q : FrameQueue} (hq : fd.frames.sQueue = q) (frameType : QueuedFrameType)
    (header : FrameHeader) (data : Bytes) :
    Puts q (fd.putUSFrame frameType header data).1.frames.sQueue ⟨frameType, header, data⟩ := by
  subst hq
  rcases fd.putUSFrame_cases frameType header data with ⟨q, i, ha, he⟩ | ⟨hfull, he⟩ <;> rw [he]
  · exact .inl ⟨i, ha⟩
  · exact .inr ⟨hfull, rfl⟩

theorem Puts.mem {q q' : FrameQueue} {frame frame' : FrameInfo} (h : Puts q q' frame)
    (hmem : frame' ∈ q'.held) : frame' = frame ∨ frame' ∈ q.held := by
  rcases h with ⟨i, ha⟩ | ⟨-, rfl⟩
  · exact List.mem_cons.mp (ha.perm.mem_iff.mp hmem)
  · exact .inr hmem

theorem Puts.kept {q q' : FrameQueue} {frame frame' : FrameInfo} (h : Puts q q' frame)
    (hmem : frame' ∈ q.held) : frame' ∈ q'.held := by
  rcases h with ⟨i, ha⟩ | ⟨-, rfl⟩
  · exact ha.perm.mem_iff.mpr (List.mem_cons_of_mem _ hmem)
  · exact hmem

theorem Puts.queued {q q' : FrameQueue} {frame : FrameInfo} (h : Puts q q' frame)
    (hfree : q.hasFreeSlots) :
    frame ∈ q'.held := by
  rcases h with ⟨i, ha⟩ | ⟨hfull, -⟩
  · exact ha.perm.mem_iff.mpr (List.mem_cons_self ..)
  · exact absurd (q.hasFreeSlots_iff.mp hfree) (by omega)

def IsDisc (control : UInt8) : Prop :=
  control &&& hdlcUFrameMask = hdlcUFrameBits ∧ control &&& hdlcUFrameTypeMask = hdlcUFrameTypeDisc

def IsDm (control : UInt8) : Prop :=
  control &&& hdlcUFrameMask = hdlcUFrameBits ∧ control &&& hdlcUFrameTypeMask = hdlcUFrameTypeDm

instance (control : UInt8) : Decidable (IsDisc control) := by unfold IsDisc; infer_instance

instance (control : UInt8) : Decidable (IsDm control) := by unfold IsDm; infer_instance

theorem kinds_distinct :
    (∀ control, IsDisc control → ¬ IsDm control ∧ ¬ IsUa control) ∧
      ¬ IsSetup (hdlcUFrameTypeUa ||| hdlcUFrameBits ||| hdlcFBit) ∧
      ¬ IsDisc (hdlcUFrameTypeUa ||| hdlcUFrameBits ||| hdlcFBit) ∧
      ¬ IsSetup (hdlcUFrameTypeDm ||| hdlcUFrameBits) ∧
      ¬ IsDisc (hdlcUFrameTypeDm ||| hdlcUFrameBits) := by
  have h₁ : hdlcUFrameTypeDisc ≠ hdlcUFrameTypeDm := by decide
  have h₂ : hdlcUFrameTypeDisc ≠ hdlcUFrameTypeUa := by decide
  refine ⟨?_, by decide, by decide, by decide, by decide⟩
  rintro control ⟨-, hd⟩
  exact ⟨fun h ↦ h₁ (hd.symm.trans h.2), fun h ↦ h₂ (hd.symm.trans h.2)⟩

inductive Reacts (fd : TinyFd) (p : ℕ) (now : Instant) (data : Bytes) : TinyFd → Prop
  | setup : IsSetup (data.getD 1 0) →
      Reacts fd p now data
        (((fd.touch p now).putUSFrame .uFrame (uaHeader (fd.addrField p)) []).1.switchToConnected p
          now)
  | opened : IsUa (data.getD 1 0) → (fd.peer p).state = .connecting →
      Reacts fd p now data ((fd.touch p now).switchToConnected p now)
  | disc : IsDisc (data.getD 1 0) →
      Reacts fd p now data
        (((fd.touch p now).putUSFrame .uFrame (uaHeader (fd.addrField p)) []).1.switchToDisconnected
          p now)
  | closed : (IsUa (data.getD 1 0) ∧ (fd.peer p).state = .disconnecting ∨ IsDm (data.getD 1 0)) →
      Reacts fd p now data ((fd.touch p now).switchToDisconnected p now)
  | otherU : data.getD 1 0 &&& hdlcUFrameMask = hdlcUFrameBits →
      ¬ IsSetup (data.getD 1 0) → ¬ IsDisc (data.getD 1 0) → ¬ IsDm (data.getD 1 0) →
      (IsUa (data.getD 1 0) → (fd.peer p).state ≠ .connecting ∧
        (fd.peer p).state ≠ .disconnecting) →
      Reacts fd p now data (fd.touch p now)
  | refused : data.getD 1 0 &&& hdlcUFrameMask ≠ hdlcUFrameBits →
      (fd.peer p).state ≠ .connected → (fd.peer p).state ≠ .disconnecting →
      Reacts fd p now data ((fd.touch p now).putUSFrame .uFrame (dmHeader (fd.addrField p)) []).1
  | iFrame : data.getD 1 0 &&& hdlcIFrameMask = hdlcIFrameBits →
      ((fd.peer p).state = .connected ∨ (fd.peer p).state = .disconnecting) →
      Reacts fd p now data ((fd.touch p now).onIFrameReceived p data)
  | sFrame : data.getD 1 0 &&& hdlcIFrameMask ≠ hdlcIFrameBits →
      data.getD 1 0 &&& hdlcUFrameMask ≠ hdlcUFrameBits →
      ((fd.peer p).state = .connected ∨ (fd.peer p).state = .disconnecting) →
      Reacts fd p now data ((fd.touch p now).onSFrameReceived p data)

theorem onFrameReceived_reacts (h : WellFormed fd) {p : ℕ} {data : Bytes}
    (hto : fd.AddressedTo p data) (hvalid : p ≠ hdlcInvalidPeerIndex) (now : Instant) :
    Reacts fd p now data (fd.onFrameReceived now data) := by
  have hp := AddressedTo.lt h hto hvalid
  have hset := setup_touch fd p now
  have hstate : ((fd.touch p now).peer p).state = (fd.peer p).state := by
    rw [peer_touch_self fd p now hp]
  rcases fd.onFrameReceived_cases now data with ⟨hno, -⟩ | ⟨p', hto', -, hcases⟩
  · exact absurd hto (hno p (hp.trans_le h.peers_le))
  obtain rfl : p' = p := hto'.2.symm.trans hto.2
  rcases hcases with ⟨hU, he⟩ | ⟨hU, hc, hd, he⟩ | ⟨hU, hs, ⟨hI, he⟩ | ⟨hI, he⟩⟩ <;> rw [he]
  · rcases (fd.touch p' now).onUFrameReceived_cases p' now data with ⟨ht, he'⟩ | ⟨ht, hs,
      he'⟩ | ⟨ht, he'⟩ | ⟨ht, he'⟩ | ⟨h₁, h₂, h₃, h₄, h₅, he'⟩ <;> rw [he']
    · rw [addrField_congr hset]
      exact .setup ⟨hU, ht⟩
    · exact .opened ⟨hU, ht⟩ (hstate.symm.trans hs)
    · rw [addrField_congr hset]
      exact .disc ⟨hU, ht⟩
    · exact .closed (ht.imp (fun ht ↦ ⟨⟨hU, ht.1⟩, hstate.symm.trans ht.2⟩) fun ht ↦ ⟨hU, ht⟩)
    · refine .otherU hU (fun ht ↦ ht.2.elim h₁ h₂) (fun ht ↦ h₃ ht.2) (fun ht ↦ h₄ ht.2) ?_
      intro ht
      rw [← hstate]
      exact h₅ ht.2
  · rw [addrField_congr hset]
    exact .refused hU (by rwa [← hstate]) (by rwa [← hstate])
  · exact .iFrame hI (by rwa [← hstate])
  · exact .sFrame hI hU (by rwa [← hstate])

inductive Reaction (fd : TinyFd) (now : Instant) (data : Bytes) : TinyFd → Prop
  | ignored : ¬ fd.AddressedTo 0 data → Reaction fd now data fd
  | setup : fd.AddressedTo 0 data → IsSetup (data.getD 1 0) →
      Reaction fd now data
        (((fd.touch 0 now).putUSFrame .uFrame (uaHeader (fd.addrField 0)) []).1.switchToConnected 0
          now)
  | opened : fd.AddressedTo 0 data → IsUa (data.getD 1 0) → (fd.peer 0).state = .connecting →
      Reaction fd now data ((fd.touch 0 now).switchToConnected 0 now)
  | disc : fd.AddressedTo 0 data → IsDisc (data.getD 1 0) →
      Reaction fd now data
        (((fd.touch 0 now).putUSFrame .uFrame (uaHeader (fd.addrField 0)) []).1.switchToDisconnected
          0 now)
  | closed : fd.AddressedTo 0 data →
      (IsUa (data.getD 1 0) ∧ (fd.peer 0).state = .disconnecting ∨ IsDm (data.getD 1 0)) →
      Reaction fd now data ((fd.touch 0 now).switchToDisconnected 0 now)
  | otherU : fd.AddressedTo 0 data → data.getD 1 0 &&& hdlcUFrameMask = hdlcUFrameBits →
      ¬ IsSetup (data.getD 1 0) → ¬ IsDisc (data.getD 1 0) → ¬ IsDm (data.getD 1 0) →
      (IsUa (data.getD 1 0) → (fd.peer 0).state ≠ .connecting ∧
        (fd.peer 0).state ≠ .disconnecting) →
      Reaction fd now data (fd.touch 0 now)
  | refused : fd.AddressedTo 0 data → data.getD 1 0 &&& hdlcUFrameMask ≠ hdlcUFrameBits →
      (fd.peer 0).state ≠ .connected → (fd.peer 0).state ≠ .disconnecting →
      Reaction fd now data ((fd.touch 0 now).putUSFrame .uFrame (dmHeader (fd.addrField 0)) []).1
  | iFrame : fd.AddressedTo 0 data → data.getD 1 0 &&& hdlcIFrameMask = hdlcIFrameBits →
      ((fd.peer 0).state = .connected ∨ (fd.peer 0).state = .disconnecting) →
      Reaction fd now data ((fd.touch 0 now).onIFrameReceived 0 data)
  | sFrame : fd.AddressedTo 0 data → data.getD 1 0 &&& hdlcIFrameMask ≠ hdlcIFrameBits →
      data.getD 1 0 &&& hdlcUFrameMask ≠ hdlcUFrameBits →
      ((fd.peer 0).state = .connected ∨ (fd.peer 0).state = .disconnecting) →
      Reaction fd now data ((fd.touch 0 now).onSFrameReceived 0 data)

theorem onFrameReceived_reaction (h : WellFormed fd) (hone : fd.peerMgr.peers.length = 1)
    (now : Instant) (data : Bytes) : Reaction fd now data (fd.onFrameReceived now data) := by
  rcases fd.onFrameReceived_cases now data with ⟨hno, he⟩ | ⟨p, hto, hvalid, -⟩
  · rw [he]
    exact .ignored (hno 0 (by decide))
  have hp := AddressedTo.lt h hto hvalid
  obtain rfl : p = 0 := by omega
  have hr := onFrameReceived_reacts h hto hvalid now
  generalize fd.onFrameReceived now data = fd' at hr ⊢
  cases hr with
  | setup hc => exact .setup hto hc
  | opened hc hs => exact .opened hto hc hs
  | disc hc => exact .disc hto hc
  | closed hc => exact .closed hto hc
  | otherU hU h₁ h₂ h₃ h₄ => exact .otherU hto hU h₁ h₂ h₃ h₄
  | refused hU hc hd => exact .refused hto hU hc hd
  | iFrame hI hs => exact .iFrame hto hI hs
  | sFrame hI hU hs => exact .sFrame hto hI hU hs

theorem onIFrameReceived_rx {p n : ℕ} (hp : p < fd.peerMgr.peers.length)
    (hc : (fd.peer p).iQueueControl.txState.confirmNs = seq n) (data : Bytes) :
    let ns := (data.getD 1 0 >>> 5) &&& seqBitsMask
    let expected := (fd.peer p).iQueueControl.rxState.nextNr
    let fd' := fd.onIFrameReceived p data
    (ns ≠ expected ∧ fd'.callbacks = fd.callbacks ∧
      (fd'.peer p).iQueueControl.rxState = (fd.peer p).iQueueControl.rxState ∧
      (fd'.peer p).sentReject = true ∧
      ((fd.peer p).sentReject = true ∧ fd'.frames.sQueue = fd.frames.sQueue ∨
        (fd.peer p).sentReject = false ∧
          Puts fd.frames.sQueue fd'.frames.sQueue
            ⟨.sFrame, rejHeader (fd.addrField p) expected, []⟩)) ∨
    (ns = expected ∧ fd'.callbacks = fd.callbacks ++ [.read (fd.userAddress p) (data.drop 2)] ∧
      (fd'.peer p).iQueueControl.rxState = ⟨(expected + 1) &&& seqBitsMask⟩ ∧
      (fd'.peer p).sentReject = false ∧
      Puts fd.frames.sQueue fd'.frames.sQueue
        ⟨.sFrame, rrHeader (fd.addrField p) ((expected + 1) &&& seqBitsMask), []⟩) := by
  intro ns expected fd'
  have hpeer := peer_confirmFrames_self hc (mask_lt (data.getD 1 0 >>> 1)) hp
  have hp₁ : p <
      (fd.confirmFrames p ((data.getD 1 0 >>> 1) &&& seqBitsMask)).peerMgr.peers.length := by
    rwa [peers_length_confirmFrames]
  have hsq := sQueue_confirmFrames fd p ((data.getD 1 0 >>> 1) &&& seqBitsMask)
  have hcb := callbacks_confirmFrames fd p ((data.getD 1 0 >>> 1) &&& seqBitsMask)
  have hcases := onIFrameReceived_cases hp hc data
  dsimp only at hcases
  generalize fd.confirmFrames p ((data.getD 1 0 >>> 1) &&& seqBitsMask) =
    fd₁ at hcases hpeer hp₁ hsq hcb
  rcases hcases with ⟨hns, hrej, he⟩ | ⟨hns, hrej, he⟩ | ⟨hns, he⟩
  · left
    have he' : fd' = _ := he
    rw [he', hcb, hpeer, hsq]
    exact ⟨hns, rfl, rfl, hrej, .inl ⟨hrej, rfl⟩⟩
  · left
    have he' : fd' = _ := he
    rw [he', callbacks_putUSFrame, callbacks_modifyPeer, hcb, peer_putUSFrame,
      peer_modifyPeer_self hp₁, hpeer]
    refine ⟨hns, rfl, rfl, rfl, .inr ⟨hrej, ?_⟩⟩
    refine putUSFrame_puts ?_ ..
    exact hsq
  · right
    have he' : fd' = _ := he
    rw [he', callbacks_putUSFrame, callbacks_call, callbacks_modifyPeer, hcb,
      peer_putUSFrame, peer_call, peer_modifyPeer_self hp₁, hpeer]
    refine ⟨hns, rfl, rfl, rfl, ?_⟩
    refine putUSFrame_puts ?_ ..
    exact hsq

theorem onSFrameReceived_rx {p n : ℕ} (hp : p < fd.peerMgr.peers.length)
    (hc : (fd.peer p).iQueueControl.txState.confirmNs = seq n) (data : Bytes) :
    let fd' := fd.onSFrameReceived p data
    fd'.callbacks = fd.callbacks ∧ fd'.frames.sQueue = fd.frames.sQueue ∧
      (fd'.peer p).iQueueControl.rxState = (fd.peer p).iQueueControl.rxState ∧
      (fd'.peer p).sentReject = (fd.peer p).sentReject := by
  intro fd'
  have hpeer := peer_confirmFrames_self hc (mask_lt (data.getD 1 0 >>> 5)) hp
  have hp₁ : p <
      (fd.confirmFrames p ((data.getD 1 0 >>> 5) &&& seqBitsMask)).peerMgr.peers.length := by
    rwa [peers_length_confirmFrames]
  have hsq := sQueue_confirmFrames fd p ((data.getD 1 0 >>> 5) &&& seqBitsMask)
  have hcb := callbacks_confirmFrames fd p ((data.getD 1 0 >>> 5) &&& seqBitsMask)
  rcases onSFrameReceived_cases fd p data with ⟨-, he⟩ | ⟨-, he⟩ | ⟨-, -, -, he⟩
  · rw [show fd' = _ from he, callbacks_modifyPeer, frames_modifyPeer,
      peer_modifyPeer_self hp₁, hpeer]
    exact ⟨hcb, hsq, rfl, rfl⟩
  · rw [show fd' = _ from he, callbacks_setEvents, callbacks_modifyPeer, frames_setEvents,
      frames_modifyPeer, peer_setEvents, peer_modifyPeer_self hp₁, hpeer]
    exact ⟨hcb, hsq, rfl, rfl⟩
  · rw [show fd' = _ from he, hpeer]
    exact ⟨hcb, hsq, rfl, rfl⟩

end TinyFd

end TinyProto
