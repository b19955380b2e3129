import TinyProto.Fd.Reachable
import TinyProto.Hdlc.Stream

namespace TinyProto

open Lib

namespace PeerInfo

def timeless (p : PeerInfo) : PeerInfo :=
  { p with lastSentITs := 0, lastSentFrameTs := 0, lastReceivedFrameTs := 0 }

theorem timeless_eq {p p' : PeerInfo} (h : p.timeless = p'.timeless) :
    ∃ a b c, p' = { p with lastSentITs := a, lastSentFrameTs := b, lastReceivedFrameTs := c } := by
  cases p
  cases p'
  simp only [timeless, mk.injEq, true_and] at h
  obtain ⟨rfl, rfl, rfl, rfl, rfl, rfl, rfl, rfl, rfl⟩ := h
  exact ⟨_, _, _, rfl⟩

end PeerInfo

namespace TinyFd

def timeless (fd : TinyFd) : TinyFd :=
  { fd with peerMgr := { fd.peerMgr with peers := fd.peerMgr.peers.map PeerInfo.timeless } }

/-- Two stations that agree but for the time stamps. -/
def Twins (fd fd' : TinyFd) : Prop := fd.timeless = fd'.timeless

namespace Twins

variable {fd fd' : TinyFd}

theorem refl (fd : TinyFd) : Twins fd fd := rfl

variable (h : Twins fd fd')
include h

theorem congr {α : Type} (f : TinyFd → α) : f fd.timeless = f fd'.timeless := congrArg f h

theorem frames : fd.frames = fd'.frames := h.congr TinyFd.frames

theorem retries : fd.retries = fd'.retries := h.congr TinyFd.retries

theorem setup : fd.setup = fd'.setup := by
  have hself : ∀ fd : TinyFd, fd.timeless.setup = fd.setup := by
    intro fd
    simp only [TinyFd.setup, timeless, List.map_map]
    rfl
  rw [← hself, ← hself fd', h]

theorem peer (i : ℕ) : (fd.peer i).timeless = (fd'.peer i).timeless := by
  have hself : ∀ fd : TinyFd, (fd.timeless.peer i).timeless = (fd.peer i).timeless := by
    intro fd
    simp only [TinyFd.peer, PeerManager.peer, timeless, List.getD_eq_getElem?_getD,
      List.getElem?_map]
    cases fd.peerMgr.peers[i]? <;> rfl
  rw [← hself, ← hself fd', h]

theorem state (i : ℕ) : (fd.peer i).state = (fd'.peer i).state := by
  have hp := congrArg PeerInfo.state (h.peer i)
  exact hp

theorem iQueueControl (i : ℕ) : (fd.peer i).iQueueControl = (fd'.peer i).iQueueControl := by
  have hp := congrArg PeerInfo.iQueueControl (h.peer i)
  exact hp

theorem sentReject (i : ℕ) : (fd.peer i).sentReject = (fd'.peer i).sentReject := by
  have hp := congrArg PeerInfo.sentReject (h.peer i)
  exact hp

theorem addrField (i : ℕ) : fd.addrField i = fd'.addrField i := addrField_congr h.setup i

theorem userAddress (i : ℕ) : fd.userAddress i = fd'.userAddress i := userAddress_congr h.setup i

theorem withFrames (q : FramesQueue) : Twins { fd with frames := q } { fd' with frames := q } := by
  have hq := h.congr fun fd : TinyFd ↦ ({ fd with frames := q } : TinyFd)
  exact hq

theorem withHdlc (ll : HdlcLl) : Twins (fd.withHdlc ll) (fd'.withHdlc ll) :=
  h.congr fun fd ↦ fd.withHdlc ll

theorem setEvents (bits : UInt8) : Twins (fd.setEvents bits) (fd'.setEvents bits) :=
  h.congr fun fd ↦ fd.setEvents bits

theorem call (c : Callback) : Twins (fd.call c) (fd'.call c) := h.congr fun fd ↦ fd.call c

theorem modifyPeer (i : ℕ) {f f' : PeerInfo → PeerInfo}
    (hf : ∀ p a b c, (f p).timeless =
      (f' { p with lastSentITs := a, lastSentFrameTs := b, lastReceivedFrameTs := c }).timeless) :
    Twins (fd.modifyPeer i f) (fd'.modifyPeer i f') := by
  have hpeers : fd.peerMgr.peers.map PeerInfo.timeless = fd'.peerMgr.peers.map PeerInfo.timeless :=
    h.congr fun fd ↦ fd.peerMgr.peers
  have hmod : (fd.peerMgr.peers.modify i f).map PeerInfo.timeless =
      (fd'.peerMgr.peers.modify i f').map PeerInfo.timeless := by
    apply List.ext_getElem?
    intro j
    have hj := congrArg (fun peers : List PeerInfo ↦ peers[j]?) hpeers
    simp only [List.getElem?_map, List.getElem?_modify] at hj ⊢
    cases hp : fd.peerMgr.peers[j]? with
    | none =>
      rw [hp] at hj
      rw [Option.map_eq_none_iff.mp hj.symm]
      rfl
    | some p =>
      rw [hp] at hj
      obtain ⟨p', hp', heq⟩ := Option.map_eq_some_iff.mp hj.symm
      obtain ⟨a, b, c, rfl⟩ := PeerInfo.timeless_eq heq.symm
      rw [hp']
      by_cases hij : i = j
      · simp [hij, hf p a b c]
      · simp [hij, heq]
  have hrest := h.congr fun fd ↦ { fd with peerMgr := { fd.peerMgr with
    peers := (fd'.peerMgr.peers.modify i f').map PeerInfo.timeless } }
  rw [Twins, TinyFd.modifyPeer, TinyFd.modifyPeer, timeless, timeless, PeerManager.modify,
    PeerManager.modify]
  dsimp only
  rw [hmod]
  exact hrest

theorem putUSFrame (frameType : QueuedFrameType) (header : FrameHeader) (data : Bytes) :
    Twins (fd.putUSFrame frameType header data).1 (fd'.putUSFrame frameType header data).1 := by
  rw [TinyFd.putUSFrame, TinyFd.putUSFrame, h.frames]
  split
  · exact (h.withFrames _).setEvents _
  · exact h

theorem publish :
    Twins (if fd.frames.iQueue.hasFreeSlots then fd.setEvents fdEventQueueHasFreeSlots else fd)
      (if fd'.frames.iQueue.hasFreeSlots then fd'.setEvents fdEventQueueHasFreeSlots else fd') := by
  rw [h.frames]
  split
  · exact h.setEvents _
  · exact h

theorem switchToConnected (p : ℕ) (now now' : Instant) :
    Twins (fd.switchToConnected p now) (fd'.switchToConnected p now') := by
  rw [TinyFd.switchToConnected, TinyFd.switchToConnected, h.state p]
  split
  · dsimp only
    rw [h.userAddress p, h.retries]
    apply call
    apply publish
    apply setEvents
    exact h.modifyPeer _ fun _ _ _ _ ↦ rfl
  · exact h

theorem switchToDisconnected (p : ℕ) (now now' : Instant) :
    Twins (fd.switchToDisconnected p now) (fd'.switchToDisconnected p now') := by
  rw [TinyFd.switchToDisconnected, TinyFd.switchToDisconnected, h.state p]
  split
  · dsimp only
    rw [h.userAddress p, h.addrField p]
    apply call
    rw [frames_modifyPeer, frames_modifyPeer, h.frames]
    apply withFrames
    exact h.modifyPeer _ fun _ _ _ _ ↦ rfl
  · exact h

theorem onUFrameReceived (p : ℕ) (now now' : Instant) (data : Bytes) :
    Twins (fd.onUFrameReceived p now data) (fd'.onUFrameReceived p now' data) := by
  rw [TinyFd.onUFrameReceived, TinyFd.onUFrameReceived, h.addrField p, h.state p]
  split
  · exact (h.putUSFrame ..).switchToConnected ..
  split
  · cases (fd'.peer p).state with
    | connecting => exact h.switchToConnected ..
    | disconnecting => exact h.switchToDisconnected ..
    | _ => exact h
  split
  · exact (h.putUSFrame ..).switchToDisconnected ..
  split
  · exact h.switchToDisconnected ..
  split
  · exact (h.putUSFrame ..).switchToConnected ..
  · exact h

theorem confirmFrames (p : ℕ) (nr : UInt8) :
    Twins (fd.confirmFrames p nr) (fd'.confirmFrames p nr) := by
  have hm : ∀ control, Twins (fd.modifyPeer p fun q ↦ { q with iQueueControl := control })
      (fd'.modifyPeer p fun q ↦ { q with iQueueControl := control }) := by
    intro control
    exact h.modifyPeer _ fun _ _ _ _ ↦ rfl
  rw [TinyFd.confirmFrames, TinyFd.confirmFrames, h.addrField p, h.iQueueControl p]
  dsimp only
  rw [frames_modifyPeer, frames_modifyPeer, h.frames]
  split
  · exact ((hm _).withFrames _).setEvents _
  · exact (hm _).withFrames _

theorem onIFrameReceived (p : ℕ) (data : Bytes) :
    Twins (fd.onIFrameReceived p data) (fd'.onIFrameReceived p data) := by
  have hc := h.confirmFrames p ((data.getD 1 0 >>> 1) &&& seqBitsMask)
  rw [TinyFd.onIFrameReceived, TinyFd.onIFrameReceived]
  dsimp only
  rw [h.addrField p, h.userAddress p, hc.iQueueControl p, hc.sentReject p]
  split
  · split
    · apply putUSFrame
      exact hc.modifyPeer _ fun _ _ _ _ ↦ rfl
    · exact hc
  · apply putUSFrame
    apply call
    exact hc.modifyPeer _ fun _ _ _ _ ↦ rfl

theorem onSFrameReceived (p : ℕ) (data : Bytes) :
    Twins (fd.onSFrameReceived p data) (fd'.onSFrameReceived p data) := by
  have hc := h.confirmFrames p ((data.getD 1 0 >>> 5) &&& seqBitsMask)
  rw [TinyFd.onSFrameReceived, TinyFd.onSFrameReceived, hc.retries]
  split
  · exact hc.modifyPeer _ fun _ _ _ _ ↦ rfl
  split
  · apply setEvents
    exact hc.modifyPeer _ fun _ _ _ _ ↦ rfl
  · exact hc

theorem onFrameReceived (now now' : Instant) (data : Bytes) :
    Twins (fd.onFrameReceived now data) (fd'.onFrameReceived now' data) := by
  match data with
  | [] => exact h
  | [_] => exact h
  | address :: control :: payload =>
    rw [TinyFd.onFrameReceived, TinyFd.onFrameReceived]
    dsimp only
    rw [addressFieldToPeer_congr h.setup]
    split
    · exact h
    · generalize fd'.peerMgr.addressFieldToPeer address = p
      have ht :
          Twins (fd.modifyPeer p fun q ↦ { q with lastReceivedFrameTs := now, kaConfirmed := true })
            (fd'.modifyPeer p fun q ↦
              { q with lastReceivedFrameTs := now', kaConfirmed := true }) := by
        exact h.modifyPeer _ fun _ _ _ _ ↦ rfl
      rw [ht.state p, ht.addrField p]
      split
      · exact ht.onUFrameReceived ..
      split
      · exact ht.putUSFrame ..
      split
      · exact ht.onIFrameReceived ..
      split
      · exact ht.onSFrameReceived ..
      · exact ht

theorem deliver (now now' : Instant) (frames : List Bytes) :
    Twins (TinyFd.deliver now fd frames) (TinyFd.deliver now' fd' frames) := by
  induction frames generalizing fd fd' with
  | nil => exact h
  | cons frame frames ih => exact ih (h.onFrameReceived now now' frame)

end Twins

/-- However the bytes are cut, `on_rx_data` comes to the same state. -/
theorem onRxData_append {fd : TinyFd} (h : WellFormed fd) (xs ys : Bytes)
    (now now₁ now₂ : Instant) :
    Twins (fd.onRxData now (xs ++ ys)) ((fd.onRxData now₁ xs).onRxData now₂ ys) := by
  have h₁ := wellFormed_onRxData h now₁ xs
  have hspec := HdlcLl.feed_spec h.rx xs
  rw [onRxData_eq h₁.rx h₁.rxFrames, onRxData_eq h.rx h.rxFrames, onRxData_eq h.rx h.rxFrames,
    hdlc_withHdlc]
  rw [show ((fd.hdlc.feed xs).withRxFrames []).crcType = fd.hdlc.crcType from HdlcLl.eraseRx_crcType
    hspec.frame_rule, show ((fd.hdlc.feed xs).withRxFrames []).physMtu =
      fd.hdlc.physMtu from HdlcLl.eraseRx_physMtu hspec.frame_rule,
    show ((fd.hdlc.feed xs).withRxFrames []).phase = _ from hspec.phase, HdlcLl.feed_withRxFrames,
      ← HdlcLl.feed_append,
    deliver_withHdlc, withHdlc_withHdlc, Stuffing.receiveAll_append, HdlcLl.goodFrames_append,
      deliver_append]
  apply Twins.withHdlc
  apply Twins.deliver
  exact (Twins.refl fd).deliver ..

/-- Reception does not depend on how the bytes are cut. -/
theorem reception_chunking {ll : HdlcLl} (hll : ll.Reachable) (pieces : List Bytes)
    {config : TinyFdConfig} {fd : TinyFd} (hfd : Reachable config fd) (xs ys : Bytes)
    (now now₁ now₂ : Instant) : (∃ ll' errors, ll.refeeds pieces = some (ll', errors) ∧
      ll.refeeds (pieces.flatten.map fun byte ↦ [byte]) = some (ll', errors)) ∧
    ll.rxState ≠ .end_ ∧ (∀ data, data ≠ [] → 1 ≤ (ll.runRx data).2.1) ∧
    (∀ fuel, (xs ++ ys).length < fuel →
      onRxLoop now fuel fd (xs ++ ys) = fd.onRxData now (xs ++ ys)) ∧
    Twins (fd.onRxData now (xs ++ ys)) ((fd.onRxData now₁ xs).onRxData now₂ ys) := by
  have hrx := hll.settled.rx
  have hwf := hfd.wellFormed
  refine ⟨⟨_, _, HdlcLl.refeeds_spec hrx pieces, ?_⟩, hrx.settled, ?_, ?_,
    onRxData_append hwf xs ys now now₁ now₂⟩
  · have hflat : (pieces.flatten.map fun byte ↦ [byte]).flatten = pieces.flatten := by
      rw [← List.flatMap_def, List.flatMap_singleton']
    rw [HdlcLl.refeeds_spec hrx, hflat]
  · intro data hne
    obtain ⟨k, e, hrun, -, hpos, -⟩ := HdlcLl.runRx_feed hrx data
    rw [hrun]
    exact hpos hne
  · intro fuel hfuel
    rw [onRxLoop_eq now fuel hwf.rx hwf.rxFrames _ hfuel, onRxData_eq hwf.rx hwf.rxFrames]

theorem reception_chunking_sabm :
    ∃ ll fd, HdlcLl.new ⟨.hdlcCrc8, 0, 8⟩ = .ok ll ∧
    TinyFd.new { crcType := .hdlcCrcOff } 0 = .ok fd ∧
      (∃ ll' errors, ll.refeeds [[0x7E, 1], [2, 0x7E, 0x7E], [3, 0xFC, 0x7E]] = some (ll', errors) ∧
        ll.refeeds [[0x7E], [1], [2], [0x7E], [0x7E], [3], [0xFC], [0x7E]] = some (ll', errors)) ∧
      Twins (fd.onRxData 1 [0x7E, 9, 0x7E, 0x7E, 0x05, 0x3F, 0x7E])
        ((fd.onRxData 2 [0x7E, 9, 0x7E, 0x7E, 0x05]).onRxData 3 [0x3F, 0x7E]) := by
  have hll : HdlcLl.new ⟨.hdlcCrc8, 0, 8⟩ = .ok _ := rfl
  have hfd : TinyFd.new { crcType := .hdlcCrcOff } 0 = .ok _ := rfl
  obtain ⟨hcut, -, -, -, htwins⟩ :=
    reception_chunking (.new hll) [[0x7E, 1], [2, 0x7E, 0x7E], [3, 0xFC, 0x7E]] (.new hfd)
      [0x7E, 9, 0x7E, 0x7E, 0x05] [0x3F, 0x7E] 1 2 3
  exact ⟨_, _, hll, hfd, hcut, htwins⟩

end TinyFd

end TinyProto
