import TinyProto.Fd.IQueueControl

namespace TinyProto

structure PeerInfo where
  state : FdState
  addr : UInt8
  sentNr : UInt8
  sentReject : Bool
  srejReqMask : UInt8
  iQueueControl : IQueueControl
  lastSentITs : Instant
  lastSentFrameTs : Instant
  lastReceivedFrameTs : Instant
  kaConfirmed : Bool
  retries : UInt8
  events : UInt8
  deriving DecidableEq, Repr

namespace PeerInfo

/-- The time stamps start one minute back, so the first timeout fires at once. -/
def new (addr : UInt8) (now : Instant) : PeerInfo :=
  let past := now - 60 * 1000000000
  { state := .disconnected
    addr := addr
    sentNr := 0
    sentReject := false
    srejReqMask := 0
    iQueueControl := .new
    lastSentITs := past
    lastSentFrameTs := past
    lastReceivedFrameTs := past
    kaConfirmed := false
    retries := 0
    events := 0 }

instance : Inhabited PeerInfo := ⟨.new 0 0⟩

def resetConnection (p : PeerInfo) (now : Instant) : PeerInfo :=
  { p with
    iQueueControl := p.iQueueControl.reset
    sentNr := 0
    sentReject := false
    srejReqMask := 0
    lastReceivedFrameTs := now
    lastSentFrameTs := now }

end PeerInfo

def isPrimaryAddress (address : UInt8) : Bool :=
  (address &&& ~~~hdlcCrBit) == (hdlcPrimaryAddr ||| hdlcEBit)

structure PeerManager where
  peers : List PeerInfo
  localAddr : UInt8
  nextPeer : ℕ
  deriving DecidableEq, Repr

namespace PeerManager

def new (localAddr peersCount : UInt8) (now : Instant) : PeerManager :=
  { peers :=
      if isPrimaryAddress localAddr then
        (List.range (max peersCount 1).toNat).map fun i ↦
          .new ((UInt8.ofNat i + 1) <<< 2 ||| hdlcEBit) now
      else [.new (hdlcPrimaryAddr ||| hdlcEBit) now]
    localAddr := localAddr
    nextPeer := 0 }

def isPrimaryStation (m : PeerManager) : Bool := isPrimaryAddress m.localAddr

/-- `peers[i]`; every caller passes an index in range. -/
def peer (m : PeerManager) (i : ℕ) : PeerInfo := m.peers.getD i default

def modify (m : PeerManager) (i : ℕ) (f : PeerInfo → PeerInfo) : PeerManager :=
  { m with peers := m.peers.modify i f }

def peerToAddressField (m : PeerManager) (i : ℕ) : UInt8 :=
  if m.isPrimaryStation then (m.peer i).addr &&& ~~~hdlcCrBit else m.localAddr &&& ~~~hdlcCrBit

def addressFieldToPeer (m : PeerManager) (address : UInt8) : ℕ :=
  let addrNoCr := address &&& ~~~hdlcCrBit
  if m.isPrimaryStation then
    (m.peers.findIdx? fun p ↦ (p.addr &&& ~~~hdlcCrBit) == addrNoCr).getD hdlcInvalidPeerIndex
  else
    let ourAddr := m.localAddr &&& ~~~hdlcCrBit
    if addrNoCr = ourAddr ∨ isPrimaryAddress addrNoCr then 0 else hdlcInvalidPeerIndex

end PeerManager

end TinyProto
