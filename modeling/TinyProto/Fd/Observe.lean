import TinyProto.Fd.Held
import TinyProto.Fd.Protocol

namespace TinyProto

namespace PeerManager

variable {m : PeerManager}

@[simp] theorem peers_length_modify (i : ℕ) (f : PeerInfo → PeerInfo) :
    (m.modify i f).peers.length = m.peers.length := by
  simp [modify]

theorem peer_modify_self {i : ℕ} (hi : i < m.peers.length) (f : PeerInfo → PeerInfo) :
    (m.modify i f).peer i = f (m.peer i) := by
  simp [peer, modify, List.getD_eq_getElem?_getD, hi]

theorem peer_modify_ne {i j : ℕ} (hij : j ≠ i) (f : PeerInfo → PeerInfo) :
    (m.modify i f).peer j = m.peer j := by
  simp [peer, modify, List.getD_eq_getElem?_getD, hij.symm]

theorem addressFieldToPeer_lt (hne : m.peers ≠ []) {address : UInt8}
    (h : m.addressFieldToPeer address ≠ hdlcInvalidPeerIndex) :
    m.addressFieldToPeer address < m.peers.length := by
  simp only [addressFieldToPeer] at h ⊢
  have hpos := List.length_pos_iff.mpr hne
  split at h <;> rename_i hprimary
  · rw [if_pos hprimary]
    cases hf : m.peers.findIdx? fun p ↦ (p.addr &&& ~~~hdlcCrBit) == address &&& ~~~hdlcCrBit with
    | none => simp [hf] at h
    | some i => exact (List.findIdx?_eq_some_iff_findIdx_eq.mp hf).1
  · rw [if_neg hprimary]
    split at h <;> rename_i haddr
    · simpa [haddr] using hpos
    · simp at h

end PeerManager

/-- What no operation of a station changes. -/
structure Setup where
  localAddr : UInt8
  addrs : List UInt8
  iCapacity : ℕ
  sCapacity : ℕ
  mode : FdMode
  retryTimeout : UInt16
  retries : UInt8
  mtu : ℕ

namespace TinyFd

variable {fd : TinyFd}

def setup (fd : TinyFd) : Setup :=
  { localAddr := fd.peerMgr.localAddr
    addrs := fd.peerMgr.peers.map PeerInfo.addr
    iCapacity := fd.frames.iQueue.capacity
    sCapacity := fd.frames.sQueue.capacity
    mode := fd.mode
    retryTimeout := fd.retryTimeout
    retries := fd.retries
    mtu := fd.mtu }

section Setup

variable {fd' : TinyFd} (h : fd'.setup = fd.setup)
include h

theorem isPrimaryStation_congr : fd'.peerMgr.isPrimaryStation = fd.peerMgr.isPrimaryStation := by
  rw [PeerManager.isPrimaryStation, PeerManager.isPrimaryStation,
    show fd'.peerMgr.localAddr = _ from
    congrArg Setup.localAddr h]
  rfl

theorem peers_length_congr : fd'.peerMgr.peers.length = fd.peerMgr.peers.length := by
  simpa [setup] using congrArg (List.length ∘ Setup.addrs) h

theorem addr_peer_congr (i : ℕ) : (fd'.peer i).addr = (fd.peer i).addr := by
  have he : ∀ fd : TinyFd, (fd.peer i).addr = fd.setup.addrs.getD i 0 := by
    intro fd
    simp only [peer, PeerManager.peer, setup, List.getD_eq_getElem?_getD, List.getElem?_map]
    cases fd.peerMgr.peers[i]? <;> rfl
  rw [he, he, h]

theorem addrField_congr (i : ℕ) : fd'.addrField i = fd.addrField i := by
  have ha := addr_peer_congr h i
  have hl : fd'.peerMgr.localAddr = fd.peerMgr.localAddr := congrArg Setup.localAddr h
  rw [peer, peer] at ha
  simp only [addrField, PeerManager.peerToAddressField, isPrimaryStation_congr h, ha, hl]

theorem userAddress_congr (i : ℕ) : fd'.userAddress i = fd.userAddress i := by
  simp only [userAddress, isPrimaryStation_congr h, addrField_congr h]

theorem addressFieldToPeer_congr (address : UInt8) :
    fd'.peerMgr.addressFieldToPeer address = fd.peerMgr.addressFieldToPeer address := by
  have hp : ∀ fd : TinyFd,
      fd.peerMgr.peers.findIdx? (fun p ↦ (p.addr &&& ~~~hdlcCrBit) == address &&& ~~~hdlcCrBit) =
        fd.setup.addrs.findIdx? fun a ↦ (a &&& ~~~hdlcCrBit) == address &&& ~~~hdlcCrBit := by
    intro fd
    simp only [setup, List.findIdx?_map, Function.comp_def]
  have hl : fd'.peerMgr.localAddr = fd.peerMgr.localAddr := congrArg Setup.localAddr h
  simp only [PeerManager.addressFieldToPeer, isPrimaryStation_congr h, hp, h, hl]

theorem sendPeer_congr (address : UInt8) : fd'.sendPeer address = fd.sendPeer address := by
  have hnil : fd'.peerMgr.peers = [] ↔ fd.peerMgr.peers = [] := by
    rw [← List.length_eq_zero_iff, ← List.length_eq_zero_iff, peers_length_congr h]
  rw [sendPeer, sendPeer, addressFieldToPeer_congr h]
  simp only [hnil]

end Setup

/-! How each builder of the next state shows in its parts. -/

@[simp] theorem peers_length_modifyPeer (i : ℕ) (f : PeerInfo → PeerInfo) :
    (fd.modifyPeer i f).peerMgr.peers.length = fd.peerMgr.peers.length := by
  simp [modifyPeer]

theorem peer_modifyPeer_self {i : ℕ} (hi : i < fd.peerMgr.peers.length) (f : PeerInfo → PeerInfo) :
    (fd.modifyPeer i f).peer i = f (fd.peer i) :=
  PeerManager.peer_modify_self hi f

theorem peer_modifyPeer_ne {i j : ℕ} (hij : j ≠ i) (f : PeerInfo → PeerInfo) :
    (fd.modifyPeer i f).peer j = fd.peer j :=
  PeerManager.peer_modify_ne hij f

@[simp] theorem hdlc_modifyPeer (i : ℕ) (f : PeerInfo → PeerInfo) :
    (fd.modifyPeer i f).hdlc = fd.hdlc := rfl
@[simp] theorem frames_modifyPeer (i : ℕ) (f : PeerInfo → PeerInfo) :
    (fd.modifyPeer i f).frames = fd.frames := rfl
@[simp] theorem events_modifyPeer (i : ℕ) (f : PeerInfo → PeerInfo) :
    (fd.modifyPeer i f).events = fd.events := rfl
@[simp] theorem retries_modifyPeer (i : ℕ) (f : PeerInfo → PeerInfo) :
    (fd.modifyPeer i f).retries = fd.retries := rfl
@[simp] theorem callbacks_modifyPeer (i : ℕ) (f : PeerInfo → PeerInfo) :
    (fd.modifyPeer i f).callbacks = fd.callbacks := rfl

theorem setup_modifyPeer (i : ℕ) {f : PeerInfo → PeerInfo} (hf : ∀ p, (f p).addr = p.addr) :
    (fd.modifyPeer i f).setup = fd.setup := by
  have he : (fd.peerMgr.peers.modify i f).map PeerInfo.addr =
      fd.peerMgr.peers.map PeerInfo.addr := by
    apply List.ext_getElem?
    intro j
    rw [List.getElem?_map, List.getElem?_map, List.getElem?_modify]
    cases fd.peerMgr.peers[j]? with
    | none => rfl
    | some p => by_cases hij : i = j <;> simp [hij, hf]
  simp only [setup, modifyPeer, PeerManager.modify, he]

@[simp] theorem hdlc_setEvents (bits : UInt8) : (fd.setEvents bits).hdlc = fd.hdlc := rfl
@[simp] theorem peerMgr_setEvents (bits : UInt8) : (fd.setEvents bits).peerMgr = fd.peerMgr := rfl
@[simp] theorem peer_setEvents (bits : UInt8) (i : ℕ) :
    (fd.setEvents bits).peer i = fd.peer i := rfl
@[simp] theorem frames_setEvents (bits : UInt8) : (fd.setEvents bits).frames = fd.frames := rfl
@[simp] theorem callbacks_setEvents (bits : UInt8) :
    (fd.setEvents bits).callbacks = fd.callbacks := rfl
@[simp] theorem setup_setEvents (bits : UInt8) : (fd.setEvents bits).setup = fd.setup := rfl
@[simp] theorem retries_setEvents (bits : UInt8) : (fd.setEvents bits).retries = fd.retries := rfl

@[simp] theorem hdlc_clearEvents (bits : UInt8) : (fd.clearEvents bits).hdlc = fd.hdlc := rfl
@[simp] theorem peerMgr_clearEvents (bits : UInt8) :
    (fd.clearEvents bits).peerMgr = fd.peerMgr := rfl
@[simp] theorem peer_clearEvents (bits : UInt8) (i : ℕ) :
    (fd.clearEvents bits).peer i = fd.peer i := rfl
@[simp] theorem frames_clearEvents (bits : UInt8) : (fd.clearEvents bits).frames = fd.frames := rfl
@[simp] theorem callbacks_clearEvents (bits : UInt8) :
    (fd.clearEvents bits).callbacks = fd.callbacks := rfl
@[simp] theorem setup_clearEvents (bits : UInt8) : (fd.clearEvents bits).setup = fd.setup := rfl

@[simp] theorem hdlc_call (c : Callback) : (fd.call c).hdlc = fd.hdlc := rfl
@[simp] theorem peerMgr_call (c : Callback) : (fd.call c).peerMgr = fd.peerMgr := rfl
@[simp] theorem peer_call (c : Callback) (i : ℕ) : (fd.call c).peer i = fd.peer i := rfl
@[simp] theorem frames_call (c : Callback) : (fd.call c).frames = fd.frames := rfl
@[simp] theorem events_call (c : Callback) : (fd.call c).events = fd.events := rfl
@[simp] theorem callbacks_call (c : Callback) : (fd.call c).callbacks = fd.callbacks ++ [c] := rfl
@[simp] theorem setup_call (c : Callback) : (fd.call c).setup = fd.setup := rfl

section PutUSFrame

variable (frameType : QueuedFrameType) (header : FrameHeader) (data : Bytes)

theorem putUSFrame_cases :
    (∃ sQueue i, FrameQueue.Allocated fd.frames.sQueue sQueue ⟨frameType, header, data⟩ i ∧
      fd.putUSFrame frameType header data =
        ({ fd with frames := { fd.frames with sQueue := sQueue } }.setEvents fdEventTxDataAvailable,
          .ok ())) ∨
    (fd.frames.sQueue.held.length = fd.frames.sQueue.capacity ∧
      fd.putUSFrame frameType header data = (fd, .error .busy)) := by
  rcases fd.frames.sQueue.allocate_spec frameType header data with ⟨q, i, hq, ha, -⟩ | ⟨hq, hfull⟩
  · left
    exact ⟨q, i, ha, by rw [putUSFrame, hq]⟩
  · right
    exact ⟨hfull, by rw [putUSFrame, hq]⟩

theorem putUSFrame_blind {α : Type} (f : TinyFd → α)
    (hf : ∀ fd sQueue,
      f (({ fd with frames := { fd.frames with sQueue := sQueue } } : TinyFd).setEvents
        fdEventTxDataAvailable) = f fd) : f (fd.putUSFrame frameType header data).1 = f fd := by
  rcases fd.putUSFrame_cases frameType header data with ⟨q, i, -, h⟩ | ⟨-, h⟩
  · rw [h]
    exact hf fd q
  · rw [h]

@[simp] theorem hdlc_putUSFrame : (fd.putUSFrame frameType header data).1.hdlc = fd.hdlc :=
  fd.putUSFrame_blind frameType header data TinyFd.hdlc fun _ _ ↦ rfl

@[simp] theorem peerMgr_putUSFrame : (fd.putUSFrame frameType header data).1.peerMgr = fd.peerMgr :=
  fd.putUSFrame_blind frameType header data TinyFd.peerMgr fun _ _ ↦ rfl

@[simp] theorem peer_putUSFrame (i : ℕ) : (fd.putUSFrame frameType header data).1.peer i =
    fd.peer i := by
  rw [peer, peerMgr_putUSFrame, peer]

@[simp] theorem iQueue_putUSFrame :
    (fd.putUSFrame frameType header data).1.frames.iQueue = fd.frames.iQueue :=
  fd.putUSFrame_blind frameType header data (fun fd ↦ fd.frames.iQueue) fun _ _ ↦ rfl

@[simp] theorem callbacks_putUSFrame : (fd.putUSFrame frameType header data).1.callbacks =
    fd.callbacks :=
  fd.putUSFrame_blind frameType header data TinyFd.callbacks fun _ _ ↦ rfl

@[simp] theorem retries_putUSFrame : (fd.putUSFrame frameType header data).1.retries = fd.retries :=
  fd.putUSFrame_blind frameType header data TinyFd.retries fun _ _ ↦ rfl

@[simp] theorem setup_putUSFrame : (fd.putUSFrame frameType header data).1.setup = fd.setup := by
  rcases fd.putUSFrame_cases frameType header data with ⟨q, i, ha, h⟩ | ⟨-, h⟩
  · rw [h]
    simp only [setup, setEvents, ha.capacity]
  · rw [h]

end PutUSFrame

end TinyFd

end TinyProto
