import TinyProto.Fd.Acknowledge

namespace TinyProto.TinyFd

variable {fd : TinyFd}

section Switch

variable (fd) (p : ℕ) (now : Instant)

@[simp] theorem hdlc_switchToConnected : (fd.switchToConnected p now).hdlc = fd.hdlc := by
  rw [switchToConnected]
  split
  · dsimp only
    split <;> rfl
  · rfl

@[simp] theorem frames_switchToConnected : (fd.switchToConnected p now).frames = fd.frames := by
  rw [switchToConnected]
  split
  · dsimp only
    split <;> rfl
  · rfl

theorem peer_switchToConnected_ne {j : ℕ} (hj : j ≠ p) :
    (fd.switchToConnected p now).peer j = fd.peer j := by
  rw [switchToConnected]
  split
  · dsimp only
    split <;> exact peer_modifyPeer_ne hj _
  · rfl

@[simp] theorem setup_switchToConnected : (fd.switchToConnected p now).setup = fd.setup := by
  rw [switchToConnected]
  split
  · dsimp only
    split <;>
    · refine setup_modifyPeer p ?_
      intro _
      rfl
  · rfl

theorem peer_switchToConnected_self (hp : p < fd.peerMgr.peers.length)
    (hs : (fd.peer p).state ≠ .connected) : (fd.switchToConnected p now).peer p =
      { ({ fd.peer p with state := .connected }.resetConnection now) with
        retries := fd.retries
        lastSentITs := now
        events := (fd.peer p).events ||| fdEventCanAcceptIFrames } := by
  rw [switchToConnected, if_pos hs]
  dsimp only
  split <;> exact peer_modifyPeer_self hp _

theorem switchToConnected_of_connected (hs : (fd.peer p).state = .connected) :
    fd.switchToConnected p now = fd := by
  rw [switchToConnected, if_neg (not_not.mpr hs)]

@[simp] theorem hdlc_switchToDisconnected : (fd.switchToDisconnected p now).hdlc = fd.hdlc := by
  rw [switchToDisconnected]
  split <;> rfl

@[simp] theorem sQueue_switchToDisconnected :
    (fd.switchToDisconnected p now).frames.sQueue = fd.frames.sQueue := by
  rw [switchToDisconnected]
  split <;> rfl

theorem peer_switchToDisconnected_ne {j : ℕ} (hj : j ≠ p) :
    (fd.switchToDisconnected p now).peer j = fd.peer j := by
  rw [switchToDisconnected]
  split
  · exact peer_modifyPeer_ne hj _
  · rfl

theorem iQueue_switchToDisconnected (hs : (fd.peer p).state ≠ .disconnected) :
    (fd.switchToDisconnected p now).frames.iQueue = fd.frames.iQueue.resetFor (fd.addrField p) := by
  rw [switchToDisconnected, if_pos hs]
  rfl

theorem switchToDisconnected_of_disconnected (hs : (fd.peer p).state = .disconnected) :
    fd.switchToDisconnected p now = fd := by
  rw [switchToDisconnected, if_neg (not_not.mpr hs)]

theorem peer_switchToDisconnected_self (hp : p < fd.peerMgr.peers.length)
    (hs : (fd.peer p).state ≠ .disconnected) :
    (fd.switchToDisconnected p now).peer p =
      { ({ fd.peer p with state := .disconnected }.resetConnection now) with
        events := (fd.peer p).events &&& ~~~fdEventCanAcceptIFrames } := by
  rw [switchToDisconnected, if_pos hs]
  exact peer_modifyPeer_self hp _

@[simp] theorem setup_switchToDisconnected : (fd.switchToDisconnected p now).setup = fd.setup := by
  rw [switchToDisconnected]
  split
  · have hm : ∀ (f : PeerInfo → PeerInfo), (∀ x, (f x).addr = x.addr) →
        { fd.modifyPeer p f with
          frames :=
            { fd.frames with iQueue := fd.frames.iQueue.resetFor (fd.addrField p) } }.setup =
              fd.setup := by
      intro f hf
      have h : (fd.modifyPeer p f).setup = fd.setup := setup_modifyPeer p hf
      simp only [setup, Setup.mk.injEq] at h ⊢
      exact ⟨h.1, h.2.1, FrameQueue.capacity_resetFor .., trivial, h.2.2.2.2⟩
    rw [setup_call]
    apply hm
    intro _
    rfl
  · rfl

theorem state_switchToDisconnected (hp : p < fd.peerMgr.peers.length) :
    ((fd.switchToDisconnected p now).peer p).state = .disconnected := by
  by_cases hs : (fd.peer p).state = .disconnected
  · rw [switchToDisconnected_of_disconnected fd p now hs, hs]
  · rw [peer_switchToDisconnected_self fd p now hp hs]
    rfl

theorem state_switchToConnected (hp : p < fd.peerMgr.peers.length) :
    ((fd.switchToConnected p now).peer p).state = .connected := by
  by_cases hs : (fd.peer p).state = .connected
  · rw [switchToConnected_of_connected fd p now hs, hs]
  · rw [peer_switchToConnected_self fd p now hp hs]
    rfl

theorem callbacks_switchToDisconnected (hs : (fd.peer p).state ≠ .disconnected) :
    (fd.switchToDisconnected p now).callbacks = fd.callbacks ++
      [.connect (fd.userAddress p) false] := by
  rw [switchToDisconnected, if_pos hs]
  rfl

theorem callbacks_switchToConnected (hs : (fd.peer p).state ≠ .connected) :
    (fd.switchToConnected p now).callbacks = fd.callbacks ++
      [.connect (fd.userAddress p) true] := by
  rw [switchToConnected, if_pos hs]
  dsimp only
  split <;> rfl

theorem iPairs_switchToDisconnected_ne {address : UInt8} (hne : fd.addrField p ≠ address) :
    (fd.switchToDisconnected p now).frames.iQueue.iPairs address =
      fd.frames.iQueue.iPairs address := by
  by_cases hs : (fd.peer p).state = .disconnected
  · rw [switchToDisconnected_of_disconnected fd p now hs]
  · rw [iQueue_switchToDisconnected fd p now hs]
    exact FrameQueue.iPairs_resetFor_ne _ hne

end Switch

def uaHeader (address : UInt8) : FrameHeader :=
  ⟨address, hdlcUFrameTypeUa ||| hdlcUFrameBits ||| hdlcFBit⟩

def dmHeader (address : UInt8) : FrameHeader := ⟨address, hdlcUFrameTypeDm ||| hdlcUFrameBits⟩

theorem onUFrameReceived_cases (fd : TinyFd) (p : ℕ) (now : Instant) (data : Bytes) :
    let uType := data.getD 1 0 &&& hdlcUFrameTypeMask
    let answered := (fd.putUSFrame .uFrame (uaHeader (fd.addrField p)) []).1
    ((uType = hdlcUFrameTypeSabm ∨ uType = hdlcUFrameTypeSnrm) ∧
      fd.onUFrameReceived p now data = answered.switchToConnected p now) ∨
    (uType = hdlcUFrameTypeUa ∧ (fd.peer p).state = .connecting ∧
      fd.onUFrameReceived p now data = fd.switchToConnected p now) ∨
    (uType = hdlcUFrameTypeDisc ∧
      fd.onUFrameReceived p now data = answered.switchToDisconnected p now) ∨
    ((uType = hdlcUFrameTypeUa ∧ (fd.peer p).state = .disconnecting ∨ uType = hdlcUFrameTypeDm) ∧
      fd.onUFrameReceived p now data = fd.switchToDisconnected p now) ∨
    (uType ≠ hdlcUFrameTypeSabm ∧ uType ≠ hdlcUFrameTypeSnrm ∧ uType ≠ hdlcUFrameTypeDisc ∧
      uType ≠ hdlcUFrameTypeDm ∧
      (uType = hdlcUFrameTypeUa → (fd.peer p).state ≠ .connecting ∧
        (fd.peer p).state ≠ .disconnecting) ∧
      fd.onUFrameReceived p now data = fd) := by
  intro uType answered
  rw [onUFrameReceived]
  by_cases hsabm : uType = hdlcUFrameTypeSabm
  · exact .inl ⟨.inl hsabm, if_pos hsabm⟩
  by_cases hua : uType = hdlcUFrameTypeUa
  · have hother : uType ≠ hdlcUFrameTypeSnrm ∧ uType ≠ hdlcUFrameTypeDisc ∧
        uType ≠ hdlcUFrameTypeDm := by
      rw [hua]
      decide
    rw [if_neg hsabm, if_pos hua]
    cases hs : (fd.peer p).state with
    | connecting => exact .inr (.inl ⟨hua, rfl, rfl⟩)
    | disconnecting => exact .inr (.inr (.inr (.inl ⟨.inl ⟨hua, rfl⟩, rfl⟩)))
    | idle =>
        exact .inr (.inr (.inr (.inr ⟨hsabm, hother.1, hother.2.1, hother.2.2, by simp, rfl⟩)))
    | disconnected =>
        exact .inr (.inr (.inr (.inr ⟨hsabm, hother.1, hother.2.1, hother.2.2, by simp, rfl⟩)))
    | connected =>
        exact .inr (.inr (.inr (.inr ⟨hsabm, hother.1, hother.2.1, hother.2.2, by simp, rfl⟩)))
  rw [if_neg hsabm, if_neg hua]
  by_cases hdisc : uType = hdlcUFrameTypeDisc
  · exact .inr (.inr (.inl ⟨hdisc, if_pos hdisc⟩))
  rw [if_neg hdisc]
  by_cases hdm : uType = hdlcUFrameTypeDm
  · exact .inr (.inr (.inr (.inl ⟨.inr hdm, if_pos hdm⟩)))
  rw [if_neg hdm]
  by_cases hsnrm : uType = hdlcUFrameTypeSnrm
  · exact .inl ⟨.inr hsnrm, if_pos hsnrm⟩
  · exact .inr (.inr (.inr (.inr ⟨hsabm, hsnrm, hdisc, hdm, fun h ↦ absurd h hua, if_neg hsnrm⟩)))

def touch (fd : TinyFd) (p : ℕ) (now : Instant) : TinyFd :=
  fd.modifyPeer p fun q ↦ { q with lastReceivedFrameTs := now, kaConfirmed := true }

section Touch

variable (fd) (p : ℕ) (now : Instant)

theorem peer_touch_self (hp : p < fd.peerMgr.peers.length) :
    (fd.touch p now).peer p = { fd.peer p with lastReceivedFrameTs := now, kaConfirmed := true } :=
  peer_modifyPeer_self hp _

theorem peer_touch_ne {j : ℕ} (hj : j ≠ p) : (fd.touch p now).peer j = fd.peer j :=
  peer_modifyPeer_ne hj _

@[simp] theorem frames_touch : (fd.touch p now).frames = fd.frames := rfl
@[simp] theorem hdlc_touch : (fd.touch p now).hdlc = fd.hdlc := rfl
@[simp] theorem callbacks_touch : (fd.touch p now).callbacks = fd.callbacks := rfl

@[simp] theorem peers_length_touch :
    (fd.touch p now).peerMgr.peers.length = fd.peerMgr.peers.length :=
  peers_length_modifyPeer ..

@[simp] theorem setup_touch : (fd.touch p now).setup = fd.setup := by
  refine setup_modifyPeer p ?_
  intro _
  rfl

end Touch

def AddressedTo (fd : TinyFd) (p : ℕ) (data : Bytes) : Prop :=
  2 ≤ data.length ∧ fd.peerMgr.addressFieldToPeer (data.getD 0 0) = p

instance (p : ℕ) (data : Bytes) : Decidable (fd.AddressedTo p data) := by
  unfold AddressedTo; infer_instance

/-- The dispatch of a received frame. -/
theorem onFrameReceived_cases (fd : TinyFd) (now : Instant) (data : Bytes) :
    ((∀ p < hdlcInvalidPeerIndex, ¬ fd.AddressedTo p data) ∧ fd.onFrameReceived now data = fd) ∨
    ∃ p, fd.AddressedTo p data ∧ p ≠ hdlcInvalidPeerIndex ∧
      ((data.getD 1 0 &&& hdlcUFrameMask = hdlcUFrameBits ∧
          fd.onFrameReceived now data = (fd.touch p now).onUFrameReceived p now data) ∨
        (data.getD 1 0 &&& hdlcUFrameMask ≠ hdlcUFrameBits ∧
          ((fd.touch p now).peer p).state ≠ .connected ∧
          ((fd.touch p now).peer p).state ≠ .disconnecting ∧ fd.onFrameReceived now data =
            ((fd.touch p now).putUSFrame .uFrame (dmHeader ((fd.touch p now).addrField p)) []).1) ∨
        (data.getD 1 0 &&& hdlcUFrameMask ≠ hdlcUFrameBits ∧
          (((fd.touch p now).peer p).state = .connected ∨
            ((fd.touch p now).peer p).state = .disconnecting) ∧
          ((data.getD 1 0 &&& hdlcIFrameMask = hdlcIFrameBits ∧
              fd.onFrameReceived now data = (fd.touch p now).onIFrameReceived p data) ∨
            (data.getD 1 0 &&& hdlcIFrameMask ≠ hdlcIFrameBits ∧
              fd.onFrameReceived now data = (fd.touch p now).onSFrameReceived p data)))) := by
  match data with
  | [] => exact .inl ⟨fun p _ h ↦ by simp [AddressedTo] at h, rfl⟩
  | [_] => exact .inl ⟨fun p _ h ↦ by simp [AddressedTo] at h, rfl⟩
  | address :: control :: payload =>
    rw [onFrameReceived]
    by_cases hp : fd.peerMgr.addressFieldToPeer address = hdlcInvalidPeerIndex
    · left
      refine ⟨?_, if_pos hp⟩
      rintro p hlt ⟨-, rfl⟩
      exact absurd hp hlt.ne
    · right
      refine ⟨_, ⟨by simp, rfl⟩, hp, ?_⟩
      rw [if_neg hp]
      by_cases hU : control &&& hdlcUFrameMask = hdlcUFrameBits
      · exact .inl ⟨hU, if_pos hU⟩
      right
      by_cases hs : ((fd.touch (fd.peerMgr.addressFieldToPeer address) now).peer
          (fd.peerMgr.addressFieldToPeer address)).state ≠ .connected ∧
        ((fd.touch (fd.peerMgr.addressFieldToPeer address) now).peer
          (fd.peerMgr.addressFieldToPeer address)).state ≠ .disconnecting
      · exact .inl ⟨hU, hs.1, hs.2, (if_neg hU).trans (if_pos hs)⟩
      right
      refine ⟨hU, by rwa [not_and_or, not_not, not_not] at hs, ?_⟩
      by_cases hI : control &&& hdlcIFrameMask = hdlcIFrameBits
      · exact .inl ⟨hI, (if_neg hU).trans ((if_neg hs).trans (if_pos hI))⟩
      · have hS := ((control_kinds control).resolve_left hU).resolve_left hI
        exact .inr ⟨hI, (if_neg hU).trans ((if_neg hs).trans ((if_neg hI).trans (if_pos hS)))⟩

end TinyProto.TinyFd
