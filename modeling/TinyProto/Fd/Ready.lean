import TinyProto.Fd.Single

namespace TinyProto

theorem and_ne_zero_or {x b : UInt8} (h : x &&& b ≠ 0) (y : UInt8) : (x ||| y) &&& b ≠ 0 := by
  intro hz
  apply h
  have habsorb : x &&& b = ((x ||| y) &&& b) &&& x := by
    apply UInt8.eq_of_toBitVec_eq
    simp only [UInt8.toBitVec_and, UInt8.toBitVec_or]
    ext i
    simp only [BitVec.getElem_and, BitVec.getElem_or]
    grind
  rw [habsorb, hz, UInt8.zero_and]

namespace TinyFd

variable {fd fd' : TinyFd}

def Ready (fd : TinyFd) : Prop := fd.frames.iQueue.hasFreeSlots →
    fd.events &&& fdEventQueueHasFreeSlots ≠ 0

theorem Ready.setEvents (h : Ready fd) (bits : UInt8) : Ready (fd.setEvents bits) := fun hfree ↦
  and_ne_zero_or (h hfree) bits

theorem Ready.congr (h : Ready fd) (hf : fd'.frames.iQueue = fd.frames.iQueue)
    (he : fd'.events = fd.events) :
    Ready fd' := by
  rw [Ready, hf, he]
  exact h

theorem Ready.modifyPeer (h : Ready fd) (p : ℕ) (f : PeerInfo → PeerInfo) :
    Ready (fd.modifyPeer p f) :=
  h.congr rfl rfl

theorem Ready.call (h : Ready fd) (c : Callback) : Ready (fd.call c) := h.congr rfl rfl

theorem ready_published {fd : TinyFd} :
    Ready (if fd.frames.iQueue.hasFreeSlots then fd.setEvents fdEventQueueHasFreeSlots
      else fd) := by
  split
  · intro _
    rw [TinyFd.setEvents, UInt8.or_comm]
    exact and_ne_zero_or (by decide) _
  · rename_i hno
    exact fun hfree ↦ absurd hfree hno

theorem Ready.putUSFrame (h : Ready fd) (frameType : QueuedFrameType) (header : FrameHeader)
    (data : Bytes) :
    Ready (fd.putUSFrame frameType header data).1 := by
  rcases fd.putUSFrame_cases frameType header data with ⟨q, i, -, he⟩ | ⟨-, he⟩ <;> rw [he]
  · exact Ready.setEvents (Ready.congr h rfl rfl) _
  · exact h

theorem ready_confirmFrames (fd : TinyFd) (p : ℕ) (nr : UInt8) : Ready (fd.confirmFrames p nr) :=
  ready_published

theorem ready_onIFrameReceived (fd : TinyFd) (p : ℕ) (data : Bytes) :
    Ready (fd.onIFrameReceived p data) := by
  have h := ready_confirmFrames fd p ((data.getD 1 0 >>> 1) &&& seqBitsMask)
  rw [onIFrameReceived]
  dsimp only
  generalize fd.confirmFrames p ((data.getD 1 0 >>> 1) &&& seqBitsMask) = fd₁ at h ⊢
  split
  · split
    · exact (h.modifyPeer p _).putUSFrame _ _ _
    · exact h
  · exact ((h.modifyPeer p _).call _).putUSFrame _ _ _

theorem ready_onSFrameReceived (fd : TinyFd) (p : ℕ) (data : Bytes) :
    Ready (fd.onSFrameReceived p data) := by
  have h := ready_confirmFrames fd p ((data.getD 1 0 >>> 5) &&& seqBitsMask)
  rcases onSFrameReceived_cases fd p data with ⟨-, he⟩ | ⟨-, he⟩ | ⟨-, -, -, he⟩ <;> rw [he]
  · exact h.modifyPeer p _
  · exact (h.modifyPeer p _).setEvents _
  · exact h

theorem Ready.switchToConnected {p : ℕ} (h : Ready fd) (now : Instant) :
    Ready (fd.switchToConnected p now) := by
  rw [TinyFd.switchToConnected]
  split
  · exact Ready.congr ready_published rfl rfl
  · exact h

theorem ready_switchToConnected {p : ℕ} (hs : (fd.peer p).state ≠ .connected) (now : Instant) :
    Ready (fd.switchToConnected p now) := by
  rw [TinyFd.switchToConnected, if_pos hs]
  exact Ready.congr ready_published rfl rfl

theorem putIFrame_error {p : ℕ} {address : UInt8} {data : Bytes} {e : TinyError}
    (h : fd.putIFrame p address data = (fd', .error e)) : fd' = fd ∧ e = .busy := by
  rw [putIFrame] at h
  split at h
  · cases h
    exact ⟨rfl, rfl⟩
  · dsimp only at h
    split at h
    · cases h
    · cases h
      exact ⟨rfl, rfl⟩

theorem events_putIFrame (fd : TinyFd) (p : ℕ) (address : UInt8) (data : Bytes) :
    (fd.putIFrame p address data).1.events = fd.events := by
  rw [putIFrame]
  dsimp only
  split
  · rfl
  · split <;> rfl

theorem Ready.sendPacket (h : Ready fd) (address : UInt8) (data : Bytes) (timeoutMs : ℕ) :
    Ready (fd.sendPacket address data timeoutMs).1 := by
  rw [TinyFd.sendPacket]
  split
  · exact h
  dsimp only
  split
  · exact h
  split
  · exact h
  · rename_i hw
    split
    · rename_i he
      rwa [(putIFrame_error he).1]
    · rename_i fd' he
      have hevents :=
        events_putIFrame fd (fd.sendPeer address) (fd.addrField (fd.sendPeer address)) data
      rw [he] at hevents
      split
      · intro _
        rw [TinyFd.setEvents, hevents]
        exact and_ne_zero_or hw _
      · rename_i hno
        exact fun hfree ↦ absurd hfree hno

def ReadyWhenConnected (fd : TinyFd) : Prop := (fd.peer 0).state = .connected → Ready fd

theorem ReadyWhenConnected.congr (h : ReadyWhenConnected fd)
    (hs : (fd'.peer 0).state = (fd.peer 0).state) (hf : fd'.frames.iQueue = fd.frames.iQueue)
    (he : fd'.events = fd.events) : ReadyWhenConnected fd' := fun hconn ↦
  Ready.congr (h (hs.symm.trans hconn)) hf he

theorem readyWhenConnected_of_ne (hs : (fd.peer 0).state ≠ .connected) :
    ReadyWhenConnected fd := fun hconn ↦
  absurd hconn hs

section Keeps

variable (h : ReadyWhenConnected fd) (hone : fd.peerMgr.peers.length = 1)
include h hone

theorem readyWhenConnected_checkTimeouts (now : Instant) :
    ReadyWhenConnected (fd.checkTimeouts now) := by
  have hzero : 0 < fd.peerMgr.peers.length := by omega
  have he : fd.checkTimeouts now = fd.checkTimeout now 0 := by
    rw [TinyFd.checkTimeouts, hone]
    rfl
  rw [he]
  rcases fd.checkTimeout_cases now 0 with ⟨hsame, -⟩ | ⟨-, -, hopen⟩ | ⟨hs, -,
    ⟨-, hopen⟩ | ⟨-, hopen⟩⟩ | ⟨-, -, -, -, hdown⟩ | ⟨-, hretry⟩
  · rw [hsame]
    exact h
  · apply readyWhenConnected_of_ne
    rw [hopen, peer_modifyPeer_self (by rwa [peerMgr_putUSFrame])]
    dsimp only
    decide
  · apply readyWhenConnected_of_ne
    rw [hopen, peer_modifyPeer_self hzero]
    dsimp only
    decide
  · apply readyWhenConnected_of_ne
    rw [hopen, peer_modifyPeer_self (by rwa [peerMgr_putUSFrame, peers_length_modifyPeer]),
      peer_putUSFrame, peer_modifyPeer_self hzero]
    dsimp only
    rw [hs]
    decide
  · apply readyWhenConnected_of_ne
    rw [hdown, state_switchToDisconnected fd 0 now hzero]
    decide
  · rw [hretry]
    intro hconn
    rw [peer_setEvents, peer_modifyPeer_self hzero] at hconn
    exact ((h hconn).modifyPeer 0 _).setEvents _

theorem readyWhenConnected_generateTxFrames (now : Instant) :
    ReadyWhenConnected (fd.generateTxFrames now) := by
  have hstate := (generateTxFrames_calm hone now).2.1
  refine h.congr hstate ?_ ?_ <;>
  rcases fd.generateTxFrames_cases now with ⟨-, he⟩ | ⟨-, i, frame, -, -, he⟩ | ⟨-, -, p,
    frame, -, -, he⟩ | ⟨-, -, -, he⟩ <;>
  rw [he] <;> rfl

variable (hwf : WellFormed fd)
include hwf

theorem readyWhenConnected_onFrameReceived (now : Instant) (data : Bytes) :
    ReadyWhenConnected (fd.onFrameReceived now data) := by
  have hzero : 0 < (fd.touch 0 now).peerMgr.peers.length := by
    rw [peers_length_touch]
    omega
  have htouch : ReadyWhenConnected (fd.touch 0 now) := by
    refine h.congr ?_ rfl rfl
    rw [peer_touch_self fd 0 now (by omega)]
  have hua : ((fd.touch 0 now).putUSFrame .uFrame (uaHeader (fd.addrField 0)) []).1.peer 0 =
      (fd.touch 0 now).peer 0 :=
    peer_putUSFrame ..
  have hdown : ∀ fd₁ : TinyFd, 0 < fd₁.peerMgr.peers.length →
      ReadyWhenConnected (fd₁.switchToDisconnected 0 now) := by
    intro fd₁ hp
    apply readyWhenConnected_of_ne
    rw [state_switchToDisconnected fd₁ 0 now hp]
    decide
  have hr := onFrameReceived_reaction hwf hone now data
  generalize fd.onFrameReceived now data = fd' at hr ⊢
  cases hr with
  | ignored => exact h
  | setup =>
    intro _
    by_cases hs : ((fd.touch 0 now).peer 0).state = .connected
    · exact Ready.switchToConnected (Ready.putUSFrame (htouch hs) _ _ _) now
    · exact ready_switchToConnected (by rwa [hua]) now
  | opened _ _ hs =>
    refine fun _ ↦ ready_switchToConnected ?_ now
    rw [peer_touch_self fd 0 now (by omega), hs]
    decide
  | disc =>
    apply hdown
    rwa [peerMgr_putUSFrame]
  | closed => exact hdown _ hzero
  | otherU => exact htouch
  | refused _ _ hs =>
    apply readyWhenConnected_of_ne
    rw [peer_putUSFrame, peer_touch_self fd 0 now (by omega)]
    exact hs
  | iFrame => exact fun _ ↦ ready_onIFrameReceived _ _ _
  | sFrame => exact fun _ ↦ ready_onSFrameReceived _ _ _

theorem readyWhenConnected_deliver (now : Instant) (frames : List Bytes) :
    ReadyWhenConnected (deliver now fd frames) := by
  induction frames generalizing fd with
  | nil => exact h
  | cons frame frames ih =>
    refine ih (readyWhenConnected_onFrameReceived h hone hwf now frame) ?_
      (wellFormed_onFrameReceived hwf now frame)
    rw [peers_length_congr (setup_onFrameReceived hwf now frame), hone]

theorem readyWhenConnected_step {op : Op} (hs : fd.step op = some fd') :
    ReadyWhenConnected fd' := by
  cases op with
  | sendPacket address data timeoutMs =>
    have hstate : ((fd.sendPacket address data timeoutMs).1.peer 0).state = (fd.peer 0).state := by
      have hzero : 0 < fd.peerMgr.peers.length := by omega
      rcases fd.sendPacket_cases address data timeoutMs with ⟨e, he⟩ | ⟨hvalid, -, -, q, k,
        events, -, he⟩
      · rw [he]
      · have hpeer := sendPeer_lt hwf.peers_ne hvalid
        rw [he]
        change ((fd.modifyPeer (fd.sendPeer address) _).peer 0).state = _
        rw [show fd.sendPeer address = 0 by omega, peer_modifyPeer_self hzero]
    rw [← Option.some.inj hs]
    exact fun hconn ↦ (h (hstate.symm.trans hconn)).sendPacket address data timeoutMs
  | disconnect =>
    rw [← Option.some.inj hs]
    rcases fd.disconnect_cases with ⟨-, he⟩ | ⟨q, i, -, he, -⟩ <;> rw [he]
    · exact h
    · apply readyWhenConnected_of_ne
      rw [peer_modifyPeer_self (by rw [peerMgr_putUSFrame]; omega)]
      dsimp only
      decide
  | onRxData now data =>
    rw [← Option.some.inj hs, onRxData_eq hwf.rx hwf.rxFrames]
    exact (readyWhenConnected_deliver h hone hwf now _).congr rfl rfl rfl
  | getTxData now room timeoutMs =>
    obtain ⟨⟨fd'', out⟩, hget, rfl⟩ := Option.map_eq_some_iff.mp hs
    obtain ⟨ll, heq, -⟩ := getTxData_eq hwf.tx now room timeoutMs
    rw [heq, Option.some.injEq, Prod.mk.injEq] at hget
    have hready := readyWhenConnected_generateTxFrames (readyWhenConnected_checkTimeouts h hone now)
      (by rw [peers_length_congr (setup_checkTimeouts ..), hone]) now
    rw [← hget.1]
    exact hready.congr rfl rfl rfl

end Keeps

/-- A connected station with one peer keeps its user informed of free slots. -/
theorem Reachable.ready {config : TinyFdConfig} (h : Reachable config fd)
    (hone : fd.peerMgr.peers.length = 1) (hconn : (fd.peer 0).state = .connected) : Ready fd := by
  have hall : fd.peerMgr.peers.length = 1 → ReadyWhenConnected fd := by
    clear hone hconn
    induction h with
    | new hnew =>
      intro _ _ _
      rw [(initial_new hnew).events]
      decide
    | step hr hs ih =>
      intro hone
      have hone' := (peers_length_congr (setup_step hr.wellFormed hs)).symm.trans hone
      exact readyWhenConnected_step (ih hone') hone' hr.wellFormed hs
  exact hall hone hconn

end TinyFd

end TinyProto
