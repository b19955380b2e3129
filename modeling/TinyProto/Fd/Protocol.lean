import TinyProto.Hdlc.LowLevel
import TinyProto.Fd.FrameQueue
import TinyProto.Fd.Peers

namespace TinyProto

structure TinyFdConfig where
  crcType : HdlcCrcT := .hdlcCrc16
  windowFrames : UInt8 := 7
  mtu : ℕ := 64
  sendTimeout : UInt16 := 1000
  retryTimeout : UInt16 := 200
  retries : UInt8 := 2
  addr : UInt8 := 0
  peersCount : UInt8 := 1
  mode : FdMode := .abm
  rxBufSize : ℕ := 512

/-- A call of `on_read_cb` or `on_connect_event_cb`; both are taken as set. -/
inductive Callback
  | read (address : UInt8) (payload : Bytes)
  | connect (address : UInt8) (connected : Bool)
  deriving DecidableEq, Repr

/-- `events` holds the bits of the event group, and `callbacks` the calls made
so far, oldest first. -/
structure TinyFd where
  hdlc : HdlcLl
  peerMgr : PeerManager
  frames : FramesQueue
  events : UInt8
  mode : FdMode
  sendTimeout : UInt16
  retryTimeout : UInt16
  retries : UInt8
  mtu : ℕ
  callbacks : List Callback
  deriving DecidableEq, Repr

namespace TinyFd

def new (config : TinyFdConfig) (now : Instant) : TinyResult TinyFd :=
  if config.windowFrames = 0 ∨ config.windowFrames > 7 then .error .invalidData
  else
    let localAddr :=
      if config.addr = 0 then hdlcPrimaryAddr ||| hdlcEBit else config.addr <<< 2 ||| hdlcEBit
    let mtu := if config.mtu > 0 then config.mtu else 64
    match HdlcLl.new ⟨config.crcType, mtu + 2, config.rxBufSize⟩ with
    | .error e => .error e
    | .ok hdlc => .ok {
        hdlc := hdlc
        peerMgr := .new localAddr config.peersCount now
        frames := .new config.windowFrames.toNat uQueueMaxSize mtu
        events := fdEventQueueHasFreeSlots
        mode := config.mode
        sendTimeout := if config.sendTimeout = 0 then 1000 else config.sendTimeout
        retryTimeout := if config.retryTimeout = 0 then 200 else config.retryTimeout
        retries := config.retries
        mtu := mtu
        callbacks := [] }

def peer (fd : TinyFd) (i : ℕ) : PeerInfo := fd.peerMgr.peer i

def addrField (fd : TinyFd) (i : ℕ) : UInt8 := fd.peerMgr.peerToAddressField i

def modifyPeer (fd : TinyFd) (i : ℕ) (f : PeerInfo → PeerInfo) : TinyFd :=
  { fd with peerMgr := fd.peerMgr.modify i f }

def setEvents (fd : TinyFd) (bits : UInt8) : TinyFd := { fd with events := fd.events ||| bits }

def clearEvents (fd : TinyFd) (bits : UInt8) : TinyFd := { fd with events := fd.events &&& ~~~bits }

/-- `Events::wait`. The caller holds the handle exclusively, so no bit appears
while it waits and the time out only delays the answer. -/
def waitEvents (fd : TinyFd) (bits : UInt8) : UInt8 := fd.events &&& bits

def call (fd : TinyFd) (c : Callback) : TinyFd := { fd with callbacks := fd.callbacks ++ [c] }

def getStatus (fd : TinyFd) : TinyResult Unit :=
  if fd.peerMgr.peers = [] then .error .invalidData
  else if (fd.peer 0).state = .connected then .ok () else .error .failed

def putUSFrame (fd : TinyFd) (frameType : QueuedFrameType) (header : FrameHeader) (data : Bytes) :
    TinyFd × TinyResult Unit :=
  match fd.frames.sQueue.allocate frameType header data with
  | (sQueue, some _) =>
    ({ fd with frames := { fd.frames with sQueue := sQueue } }.setEvents fdEventTxDataAvailable,
      .ok ())
  | (_, none) => (fd, .error .busy)

def disconnect (fd : TinyFd) : TinyFd × TinyResult Unit :=
  let header := ⟨fd.addrField 0, hdlcUFrameTypeDisc ||| hdlcUFrameBits ||| hdlcPBit⟩
  match fd.putUSFrame .uFrame header [] with
  | (fd, .error e) => (fd, .error e)
  | (fd, .ok ()) => (fd.modifyPeer 0 fun p ↦ { p with state := .disconnecting }, .ok ())

def iControl (ns nr : UInt8) : UInt8 := ns <<< 5 ||| nr <<< 1 ||| hdlcIFrameBits

def putIFrame (fd : TinyFd) (peer : ℕ) (addrField : UInt8) (data : Bytes) :
    TinyFd × TinyResult Unit :=
  let control := (fd.peer peer).iQueueControl
  if control.txFull then (fd, .error .busy)
  else
    let header := ⟨addrField, iControl control.getLastNs control.getNextFrameToReceive⟩
    match fd.frames.iQueue.allocate .iFrame header data with
    | (iQueue, some _) =>
      ({ fd with frames := { fd.frames with iQueue := iQueue } }.modifyPeer peer
        fun p ↦ { p with iQueueControl := p.iQueueControl.moveToNextNs }, .ok ())
    | (_, none) => (fd, .error .busy)

/-- The peer that `send_packet` addresses. -/
def sendPeer (fd : TinyFd) (address : UInt8) : ℕ :=
  if address = fdPrimaryAddr then (if fd.peerMgr.peers = [] then hdlcInvalidPeerIndex else 0)
  else fd.peerMgr.addressFieldToPeer (address <<< 2 ||| hdlcEBit)

def sendPacket (fd : TinyFd) (address : UInt8) (data : Bytes) (_timeoutMs : ℕ) :
    TinyFd × TinyResult Unit :=
  if data.length > fd.mtu then (fd, .error .dataTooLarge)
  else
    let peer := fd.sendPeer address
    if peer = hdlcInvalidPeerIndex then (fd, .error .unknownPeer)
    else if fd.waitEvents fdEventQueueHasFreeSlots = 0 then (fd, .error .timeout)
    else
      match fd.putIFrame peer (fd.addrField peer) data with
      | (fd, .error e) => (fd, .error e)
      | (fd, .ok ()) =>
        let fd := fd.setEvents fdEventTxDataAvailable
        if fd.frames.iQueue.hasFreeSlots then (fd, .ok ())
        else (fd.clearEvents fdEventQueueHasFreeSlots, .ok ())

def userAddress (fd : TinyFd) (peer : ℕ) : UInt8 :=
  if fd.peerMgr.isPrimaryStation then fd.addrField peer >>> 2 else fdPrimaryAddr

def switchToConnected (fd : TinyFd) (peer : ℕ) (now : Instant) : TinyFd :=
  if (fd.peer peer).state ≠ .connected then
    let address := fd.userAddress peer
    let fd := fd.modifyPeer peer fun p ↦
      { ({ p with state := .connected }.resetConnection now) with
        retries := fd.retries
        lastSentITs := now
        events := p.events ||| fdEventCanAcceptIFrames }
    let fd := fd.setEvents fdEventTxDataAvailable
    let fd := if fd.frames.iQueue.hasFreeSlots then fd.setEvents fdEventQueueHasFreeSlots else fd
    fd.call (.connect address true)
  else fd

def switchToDisconnected (fd : TinyFd) (peer : ℕ) (now : Instant) : TinyFd :=
  if (fd.peer peer).state ≠ .disconnected then
    let addrField := fd.addrField peer
    let address := fd.userAddress peer
    let fd := fd.modifyPeer peer fun p ↦
      { ({ p with state := .disconnected }.resetConnection now) with
        events := p.events &&& ~~~fdEventCanAcceptIFrames }
    let fd := { fd with frames := { fd.frames with iQueue := fd.frames.iQueue.resetFor addrField } }
    fd.call (.connect address false)
  else fd

def onUFrameReceived (fd : TinyFd) (peer : ℕ) (now : Instant) (data : Bytes) : TinyFd :=
  let uType := data.getD 1 0 &&& hdlcUFrameTypeMask
  let ua : FrameHeader := ⟨fd.addrField peer, hdlcUFrameTypeUa ||| hdlcUFrameBits ||| hdlcFBit⟩
  if uType = hdlcUFrameTypeSabm then
    (fd.putUSFrame .uFrame ua []).1.switchToConnected peer now
  else if uType = hdlcUFrameTypeUa then
    match (fd.peer peer).state with
    | .connecting => fd.switchToConnected peer now
    | .disconnecting => fd.switchToDisconnected peer now
    | _ => fd
  else if uType = hdlcUFrameTypeDisc then
    (fd.putUSFrame .uFrame ua []).1.switchToDisconnected peer now
  else if uType = hdlcUFrameTypeDm then fd.switchToDisconnected peer now
  else if uType = hdlcUFrameTypeSnrm then
    (fd.putUSFrame .uFrame ua []).1.switchToConnected peer now
  else fd

/-- The part that I- and S-frames share: confirm up to N(R), free the confirmed
frames and publish the free slots. The source's closure pushes each number and
answers true. -/
def confirmFrames (fd : TinyFd) (peer : ℕ) (nr : UInt8) : TinyFd :=
  let addr := fd.addrField peer
  let (control, confirmedSeqs, _) :=
    (fd.peer peer).iQueueControl.confirmSentFrames nr (fun seqs seq ↦ (seqs ++ [seq], true)) []
  let fd := fd.modifyPeer peer fun p ↦ { p with iQueueControl := control }
  let iQueue := confirmedSeqs.foldl (fun q seq ↦ q.freeByNs addr seq) fd.frames.iQueue
  let fd := { fd with frames := { fd.frames with iQueue := iQueue } }
  if fd.frames.iQueue.hasFreeSlots then fd.setEvents fdEventQueueHasFreeSlots else fd

def onIFrameReceived (fd : TinyFd) (peer : ℕ) (data : Bytes) : TinyFd :=
  let control := data.getD 1 0
  let ns := (control >>> 5) &&& seqBitsMask
  let nr := (control >>> 1) &&& seqBitsMask
  let payload := data.drop 2
  let addr := fd.addrField peer
  let address := fd.userAddress peer
  let fd := fd.confirmFrames peer nr
  let expectedNr := (fd.peer peer).iQueueControl.getNextFrameToReceive
  if ns ≠ expectedNr then
    if !(fd.peer peer).sentReject then
      let header := ⟨addr, hdlcSFrameBits ||| hdlcSFrameTypeRej ||| expectedNr <<< 5 ||| hdlcPBit⟩
      ((fd.modifyPeer peer fun p ↦ { p with sentReject := true }).putUSFrame .sFrame header []).1
    else fd
  else
    let control := (fd.peer peer).iQueueControl.moveToNextFrameToReceive
    let newNr := control.getNextFrameToReceive
    let fd := fd.modifyPeer peer fun p ↦
      { p with iQueueControl := control, sentReject := false, sentNr := newNr }
    let fd := fd.call (.read address payload)
    let header := ⟨addr, hdlcSFrameBits ||| hdlcSFrameTypeRr ||| newNr <<< 5⟩
    (fd.putUSFrame .sFrame header []).1

def onSFrameReceived (fd : TinyFd) (peer : ℕ) (data : Bytes) : TinyFd :=
  let control := data.getD 1 0
  let nr := (control >>> 5) &&& seqBitsMask
  let sType := control &&& hdlcSFrameTypeMask
  let fd := fd.confirmFrames peer nr
  if sType = hdlcSFrameTypeRr then fd.modifyPeer peer fun p ↦ { p with retries := fd.retries }
  else if sType = hdlcSFrameTypeRej ∨ sType = hdlcSFrameTypeSrej then
    (fd.modifyPeer peer fun p ↦
      { p with iQueueControl := (p.iQueueControl.retransmitFrame nr fun _ ↦ true).1 }).setEvents
        fdEventTxDataAvailable
  else fd

def onFrameReceived (fd : TinyFd) (now : Instant) (data : Bytes) : TinyFd :=
  match data with
  | address :: control :: _ =>
    let peer := fd.peerMgr.addressFieldToPeer address
    if peer = hdlcInvalidPeerIndex then fd
    else
      let fd :=
        fd.modifyPeer peer fun p ↦ { p with lastReceivedFrameTs := now, kaConfirmed := true }
      if control &&& hdlcUFrameMask = hdlcUFrameBits then fd.onUFrameReceived peer now data
      else
        let state := (fd.peer peer).state
        if state ≠ .connected ∧ state ≠ .disconnecting then
          (fd.putUSFrame .uFrame ⟨fd.addrField peer, hdlcUFrameTypeDm ||| hdlcUFrameBits⟩ []).1
        else if control &&& hdlcIFrameMask = hdlcIFrameBits then fd.onIFrameReceived peer data
        else if control &&& hdlcSFrameMask = hdlcSFrameBits then fd.onSFrameReceived peer data
        else fd
  | _ => fd

/-- The `while let Some(frame) = get_rx_frame()` loop, which drains the queue. -/
def processRxFrames (fd : TinyFd) (now : Instant) : TinyFd :=
  fd.hdlc.rxFrames.foldl (fun fd frame ↦ fd.onFrameReceived now frame)
    { fd with hdlc := { fd.hdlc with rxFrames := [] } }

/-- The loop of `on_rx_data`. A pass consumes a byte unless it starts in `End`,
which the next one does not, so one pass more than bytes suffices. -/
def onRxLoop (now : Instant) : ℕ → TinyFd → Bytes → TinyFd
  | 0, fd, _ => fd
  | fuel + 1, fd, remaining =>
    if remaining = [] then fd
    else
      match fd.hdlc.runRx remaining with
      | (hdlc, 0, none) => { fd with hdlc := hdlc }
      | (hdlc, consumed, _) =>
        onRxLoop now fuel ({ fd with hdlc := hdlc }.processRxFrames now) (remaining.drop consumed)

def onRxData (fd : TinyFd) (now : Instant) (data : Bytes) : TinyFd :=
  onRxLoop now (data.length + 1) fd data

def sabmHeader (fd : TinyFd) (peer : ℕ) : FrameHeader :=
  ⟨fd.addrField peer, hdlcUFrameTypeSabm ||| hdlcUFrameBits ||| hdlcPBit⟩

def retryDur (fd : TinyFd) : ℕ := durationFromMillis fd.retryTimeout.toNat

/-- One round of the loop of `check_timeouts`. -/
def checkTimeout (fd : TinyFd) (now : Instant) (peer : ℕ) : TinyFd :=
  let p := fd.peer peer
  match p.state with
  | .disconnected | .idle =>
    if fd.mode = .abm ∧ elapsed now p.lastSentFrameTs ≥ fd.retryDur then
      (fd.putUSFrame .uFrame (fd.sabmHeader peer) []).1.modifyPeer peer fun p ↦
        { p with state := .connecting, lastSentFrameTs := now }
    else fd
  | .connecting =>
    if elapsed now p.lastSentFrameTs ≥ fd.retryDur then
      if p.retries = 0 then fd.modifyPeer peer fun p ↦ { p with state := .disconnected }
      else
        let fd := fd.modifyPeer peer fun p ↦ { p with retries := p.retries - 1 }
        (fd.putUSFrame .uFrame (fd.sabmHeader peer) []).1.modifyPeer peer fun p ↦
          { p with lastSentFrameTs := now }
    else fd
  | .connected =>
    if p.iQueueControl.hasUnconfirmedFrames ∧ elapsed now p.lastSentITs ≥ fd.retryDur then
      if p.retries = 0 then fd.switchToDisconnected peer now
      else
        (fd.modifyPeer peer fun p ↦
          { p with
            retries := p.retries - 1
            iQueueControl :=
              (p.iQueueControl.retransmitFrame p.iQueueControl.getNextFrameToConfirm fun _ ↦ true).1
            lastSentITs := now }).setEvents fdEventTxDataAvailable
    else fd
  | .disconnecting => fd

def checkTimeouts (fd : TinyFd) (now : Instant) : TinyFd :=
  (List.range fd.peerMgr.peers.length).foldl (fun fd peer ↦ fd.checkTimeout now peer) fd

def sendServiceFrame (fd : TinyFd) (i : ℕ) : Option TinyFd :=
  match fd.frames.sQueue.get i with
  | none => none
  | some frame =>
    match fd.hdlc.putFrame frame.toBytes with
    | (hdlc, .ok ()) =>
      some { fd with hdlc := hdlc, frames := { fd.frames with sQueue := fd.frames.sQueue.free i } }
    | (_, .error _) => none

def sendIFrame (fd : TinyFd) (now : Instant) (peer : ℕ) : Option TinyFd :=
  let p := fd.peer peer
  if p.state ≠ .connected then none
  else if p.iQueueControl.allFramesAreSent then none
  else
    let ns := p.iQueueControl.getNextFrameToSend
    let nr := p.iQueueControl.getNextFrameToReceive
    match fd.frames.iQueue.getNext .iFrame (fd.addrField peer) ns with
    | none => none
    | some (_, frame) =>
      match fd.hdlc.putFrame (frame.toBytes.set 1 (iControl ns nr)) with
      | (hdlc, .ok ()) =>
        some ({ fd with hdlc := hdlc }.modifyPeer peer fun p ↦
          { p with
            iQueueControl := p.iQueueControl.advanceNextNs
            lastSentITs := now
            lastSentFrameTs := now
            retries := fd.retries })
      | (_, .error _) => none

/-- The two loops return at the first frame handed over. -/
def generateTxFrames (fd : TinyFd) (now : Instant) : TinyFd :=
  if fd.hdlc.isTxBusy then fd
  else
    match (List.range fd.frames.sQueue.capacity).findSome? fd.sendServiceFrame with
    | some fd => fd
    | none => ((List.range fd.peerMgr.peers.length).findSome? (fd.sendIFrame now)).getD fd

/-- `run_tx` followed by the loop that drops the sent-frame notifications;
`none` where `run_tx` panics. -/
def runTx (fd : TinyFd) (room : ℕ) : Option (TinyFd × Bytes) :=
  (fd.hdlc.runTx room).map fun (hdlc, out) ↦ ({ fd with hdlc := hdlc }, out)

def dropSentFrames (fd : TinyFd) : TinyFd := { fd with hdlc := { fd.hdlc with txSentFrames := [] } }

/-- `get_tx_data` with an output buffer of `room` bytes. -/
def getTxData (fd : TinyFd) (now : Instant) (room timeoutMs : ℕ) : Option (TinyFd × Bytes) :=
  match ((fd.checkTimeouts now).generateTxFrames now).runTx room with
  | none => none
  | some (fd, out) =>
    let fd := fd.dropSentFrames
    if out = [] ∧ timeoutMs > 0 ∧ fd.waitEvents fdEventTxDataAvailable ≠ 0 then
      (fd.generateTxFrames now).runTx room
    else some (fd, out)

end TinyFd

end TinyProto
