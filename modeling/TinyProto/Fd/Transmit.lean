import TinyProto.Fd.Receive

namespace TinyProto.TinyFd

variable {fd : TinyFd}

theorem sendPeer_lt (hne : fd.peerMgr.peers ≠ []) {address : UInt8}
    (h : fd.sendPeer address ≠ hdlcInvalidPeerIndex) :
    fd.sendPeer address < fd.peerMgr.peers.length := by
  rw [sendPeer] at h ⊢
  by_cases haddr : address = fdPrimaryAddr
  · simpa only [if_pos haddr, if_neg hne] using List.length_pos_iff.mpr hne
  · rw [if_neg haddr] at h ⊢
    exact PeerManager.addressFieldToPeer_lt hne h

/-- A packet is refused and nothing changes, or it takes a slot and a number. -/
theorem sendPacket_cases (fd : TinyFd) (address : UInt8) (data : Bytes) (timeoutMs : ℕ) :
    (∃ e, fd.sendPacket address data timeoutMs = (fd, .error e)) ∨
    (fd.sendPeer address ≠ hdlcInvalidPeerIndex ∧ data.length ≤ fd.mtu ∧
      (fd.peer (fd.sendPeer address)).iQueueControl.txFull = false ∧
      ∃ iQueue i events,
        fd.frames.iQueue.Allocated iQueue
          ⟨.iFrame, ⟨fd.addrField (fd.sendPeer address),
            iControl (fd.peer (fd.sendPeer address)).iQueueControl.txState.lastNs
              (fd.peer (fd.sendPeer address)).iQueueControl.rxState.nextNr⟩, data⟩ i ∧
        fd.sendPacket address data timeoutMs =
          ({ fd.modifyPeer (fd.sendPeer address)
              (fun q ↦ { q with iQueueControl := q.iQueueControl.moveToNextNs }) with
              frames := { fd.frames with iQueue := iQueue }
              events := events }, .ok ())) := by
  rw [sendPacket]
  by_cases hlen : data.length > fd.mtu
  · exact .inl ⟨_, if_pos hlen⟩
  rw [if_neg hlen]
  dsimp only
  by_cases hp : fd.sendPeer address = hdlcInvalidPeerIndex
  · exact .inl ⟨_, if_pos hp⟩
  rw [if_neg hp]
  by_cases hw : fd.waitEvents fdEventQueueHasFreeSlots = 0
  · exact .inl ⟨_, if_pos hw⟩
  rw [if_neg hw, putIFrame]
  cases hfull : (fd.peer (fd.sendPeer address)).iQueueControl.txFull with
  | true => exact .inl ⟨_, rfl⟩
  | false =>
    rcases fd.frames.iQueue.allocate_spec .iFrame
        ⟨fd.addrField (fd.sendPeer address),
          iControl (fd.peer (fd.sendPeer address)).iQueueControl.txState.lastNs
            (fd.peer (fd.sendPeer address)).iQueueControl.rxState.nextNr⟩ data with
      ⟨q, i, hq, ha, -⟩ | ⟨hq, -⟩
    · right
      simp only [IQueueControl.getLastNs, IQueueControl.getNextFrameToReceive, hq]
      by_cases hslots : q.hasFreeSlots
      · exact ⟨hp, by omega, trivial, q, i, _, ha, if_pos hslots⟩
      · exact ⟨hp, by omega, trivial, q, i, _, ha, if_neg hslots⟩
    · left
      simp only [IQueueControl.getLastNs, IQueueControl.getNextFrameToReceive, hq]
      exact ⟨_, rfl⟩

def discHeader (address : UInt8) : FrameHeader :=
  ⟨address, hdlcUFrameTypeDisc ||| hdlcUFrameBits ||| hdlcPBit⟩

theorem disconnect_cases (fd : TinyFd) :
    (fd.frames.sQueue.held.length = fd.frames.sQueue.capacity ∧
      fd.disconnect = (fd, .error .busy)) ∨
    ∃ sQueue i, fd.frames.sQueue.Allocated sQueue ⟨.uFrame, discHeader (fd.addrField 0), []⟩ i ∧
      fd.disconnect =
        ((fd.putUSFrame .uFrame (discHeader (fd.addrField 0)) []).1.modifyPeer 0 fun p ↦
          { p with state := .disconnecting }, .ok ()) ∧
      (fd.putUSFrame .uFrame (discHeader (fd.addrField 0)) []).1.frames.sQueue = sQueue := by
  rcases fd.putUSFrame_cases .uFrame (discHeader (fd.addrField 0))
    [] with ⟨q, i, ha, h⟩ | ⟨hfull, h⟩
  · right
    refine ⟨q, i, ha, ?_, by rw [h]; rfl⟩
    rw [disconnect]
    simp only [discHeader] at h ⊢
    rw [h]
  · left
    refine ⟨hfull, ?_⟩
    rw [disconnect]
    simp only [discHeader] at h
    rw [h]

/-- The connected peer's timer has run out with a retry left. -/
def retryDue (fd : TinyFd) (p : ℕ) (now : Instant) : Prop :=
  (fd.peer p).state = .connected ∧ (fd.peer p).iQueueControl.hasUnconfirmedFrames = true ∧
    elapsed now (fd.peer p).lastSentITs ≥ fd.retryDur ∧ (fd.peer p).retries ≠ 0

instance (p : ℕ) (now : Instant) : Decidable (fd.retryDue p now) := by
  unfold retryDue; infer_instance

/-- What the timer of one peer can do. -/
theorem checkTimeout_cases (fd : TinyFd) (now : Instant) (p : ℕ) :
    (fd.checkTimeout now p = fd ∧ ¬ fd.retryDue p now) ∨
    (((fd.peer p).state = .disconnected ∨ (fd.peer p).state = .idle) ∧
      elapsed now (fd.peer p).lastSentFrameTs ≥ fd.retryDur ∧
      fd.checkTimeout now p =
        (fd.putUSFrame .uFrame (fd.sabmHeader p) []).1.modifyPeer p fun q ↦
          { q with state := .connecting, lastSentFrameTs := now }) ∨
    ((fd.peer p).state = .connecting ∧ elapsed now (fd.peer p).lastSentFrameTs ≥ fd.retryDur ∧
      ((fd.peer p).retries = 0 ∧
        fd.checkTimeout now p = fd.modifyPeer p (fun q ↦ { q with state := .disconnected }) ∨
      (fd.peer p).retries ≠ 0 ∧
        fd.checkTimeout now p =
          ((fd.modifyPeer p fun q ↦ { q with retries := q.retries - 1 }).putUSFrame .uFrame
            ((fd.modifyPeer p fun q ↦ { q with retries := q.retries - 1 }).sabmHeader p)
              []).1.modifyPeer p fun q ↦
              { q with lastSentFrameTs := now })) ∨
    ((fd.peer p).state = .connected ∧ (fd.peer p).iQueueControl.hasUnconfirmedFrames = true ∧
      elapsed now (fd.peer p).lastSentITs ≥ fd.retryDur ∧ (fd.peer p).retries = 0 ∧
      fd.checkTimeout now p = fd.switchToDisconnected p now) ∨
    (fd.retryDue p now ∧
      fd.checkTimeout now p =
        (fd.modifyPeer p fun q ↦
          { q with
            retries := q.retries - 1
            iQueueControl := { q.iQueueControl with
              txState :=
                { q.iQueueControl.txState with nextNs := q.iQueueControl.txState.confirmNs } }
            lastSentITs := now }).setEvents fdEventTxDataAvailable) := by
  have hnot : ∀ s, (fd.peer p).state = s → s ≠ .connected → ¬ fd.retryDue p now :=
    fun s hs hne h ↦ hne (hs.symm.trans h.1)
  rw [checkTimeout]
  dsimp only
  cases hs : (fd.peer p).state with
  | disconnecting => exact .inl ⟨rfl, hnot _ hs (by decide)⟩
  | idle =>
    by_cases h : fd.mode = .abm ∧ elapsed now (fd.peer p).lastSentFrameTs ≥ fd.retryDur
    · exact .inr (.inl ⟨.inr rfl, h.2, if_pos h⟩)
    · exact .inl ⟨if_neg h, hnot _ hs (by decide)⟩
  | disconnected =>
    by_cases h : fd.mode = .abm ∧ elapsed now (fd.peer p).lastSentFrameTs ≥ fd.retryDur
    · exact .inr (.inl ⟨.inl rfl, h.2, if_pos h⟩)
    · exact .inl ⟨if_neg h, hnot _ hs (by decide)⟩
  | connecting =>
    by_cases h : elapsed now (fd.peer p).lastSentFrameTs ≥ fd.retryDur
    · refine .inr (.inr (.inl ⟨rfl, h, ?_⟩))
      by_cases hr : (fd.peer p).retries = 0
      · exact .inl ⟨hr, (if_pos h).trans (if_pos hr)⟩
      · exact .inr ⟨hr, (if_pos h).trans (if_neg hr)⟩
    · exact .inl ⟨if_neg h, hnot _ hs (by decide)⟩
  | connected =>
    by_cases h : (fd.peer p).iQueueControl.hasUnconfirmedFrames = true ∧
        elapsed now (fd.peer p).lastSentITs ≥ fd.retryDur
    · by_cases hr : (fd.peer p).retries = 0
      · exact .inr (.inr (.inr (.inl ⟨rfl, h.1, h.2, hr, (if_pos h).trans (if_pos hr)⟩)))
      · refine .inr
          (.inr (.inr (.inr ⟨⟨hs, h.1, h.2, hr⟩, ((if_pos h).trans (if_neg hr)).trans ?_⟩)))
        simp only [retransmitFrame_fst]
        rfl
    · refine .inl ⟨if_neg h, ?_⟩
      rintro ⟨-, hu, he, -⟩
      exact h ⟨hu, he⟩

theorem toBytes_ne_nil (frame : FrameInfo) : frame.toBytes ≠ [] := List.cons_ne_nil _ _

theorem putFrame_free {ll : HdlcLl} (hidle : ll.txData = none) {data : Bytes} (hne : data ≠ []) :
    ll.putFrame data = ({ ll with txData := some data, txPos := 0 }, .ok ()) := by
  rw [HdlcLl.putFrame, if_neg hne, if_neg (by rw [hidle]; decide)]

def handOver (fd : TinyFd) (data : Bytes) : TinyFd :=
  { fd with hdlc := { fd.hdlc with txData := some data, txPos := 0 } }

theorem sendServiceFrame_some (hidle : fd.hdlc.txData = none) {i : ℕ} {frame : FrameInfo}
    (h : fd.frames.sQueue.get i = some frame) :
    fd.sendServiceFrame i =
      some { fd.handOver frame.toBytes with frames :=
        { fd.frames with sQueue := fd.frames.sQueue.free i } } := by
  rw [sendServiceFrame, h]
  dsimp only
  rw [putFrame_free hidle (toBytes_ne_nil frame)]
  rfl

theorem sendServiceFrame_none {i : ℕ} (h : fd.frames.sQueue.get i = none) :
    fd.sendServiceFrame i = none := by
  rw [sendServiceFrame, h]

def Sendable (fd : TinyFd) (p : ℕ) (frame : FrameInfo) : Prop :=
  (fd.peer p).state = .connected ∧
    (fd.peer p).iQueueControl.txState.nextNs ≠ (fd.peer p).iQueueControl.txState.lastNs ∧
    ∃ i,
    fd.frames.iQueue.getNext .iFrame (fd.addrField p) (fd.peer p).iQueueControl.txState.nextNs =
      some (i, frame)

def sendIData (fd : TinyFd) (p : ℕ) (frame : FrameInfo) : Bytes :=
  frame.toBytes.set 1
    (iControl (fd.peer p).iQueueControl.txState.nextNs (fd.peer p).iQueueControl.rxState.nextNr)

theorem sendIFrame_cases (hidle : fd.hdlc.txData = none) (now : Instant) (p : ℕ) :
    (fd.sendIFrame now p = none ∧ ∀ frame, ¬ fd.Sendable p frame) ∨
    ∃ frame, fd.Sendable p frame ∧
      fd.sendIFrame now p = some ((fd.handOver (fd.sendIData p frame)).modifyPeer p fun q ↦
        { q with
          iQueueControl := q.iQueueControl.advanceNextNs
          lastSentITs := now
          lastSentFrameTs := now
          retries := fd.retries }) := by
  rw [sendIFrame]
  dsimp only
  by_cases hs : (fd.peer p).state ≠ .connected
  · exact .inl ⟨if_pos hs, fun frame h ↦ hs h.1⟩
  rw [if_neg hs]
  by_cases hall : (fd.peer p).iQueueControl.allFramesAreSent = true
  · refine .inl ⟨if_pos hall, ?_⟩
    rintro frame ⟨-, hne, -⟩
    exact hne (by simpa [IQueueControl.allFramesAreSent] using hall)
  rw [if_neg hall]
  have hne : (fd.peer p).iQueueControl.txState.nextNs ≠
      (fd.peer p).iQueueControl.txState.lastNs := by
    simpa [IQueueControl.allFramesAreSent] using hall
  cases hget : fd.frames.iQueue.getNext .iFrame (fd.addrField p)
    (fd.peer p).iQueueControl.txState.nextNs with
  | none =>
    left
    constructor
    · simp only [IQueueControl.getNextFrameToSend, hget]
    · rintro frame ⟨-, -, i, hi⟩
      rw [hget] at hi
      cases hi
  | some found =>
    right
    obtain ⟨i, frame⟩ := found
    refine ⟨frame, ⟨not_not.mp hs, hne, i, hget⟩, ?_⟩
    simp only [IQueueControl.getNextFrameToSend, IQueueControl.getNextFrameToReceive, hget]
    rw [putFrame_free hidle (by simp [FrameInfo.toBytes])]
    rfl

/-- Without service frames the first peer that has an I-frame to send is served. -/
theorem generateTxFrames_first (hidle : fd.hdlc.txData = none)
    (hno : ∀ i, fd.frames.sQueue.get i = none) (now : Instant) :
    (∃ p frame, p < fd.peerMgr.peers.length ∧ fd.Sendable p frame ∧
      (∀ j < p, ∀ frame, ¬ fd.Sendable j frame) ∧
      fd.generateTxFrames now = (fd.handOver (fd.sendIData p frame)).modifyPeer p fun q ↦
        { q with
          iQueueControl := q.iQueueControl.advanceNextNs
          lastSentITs := now
          lastSentFrameTs := now
          retries := fd.retries }) ∨
    ((∀ p < fd.peerMgr.peers.length, ∀ frame, ¬ fd.Sendable p frame) ∧
      fd.generateTxFrames now = fd) := by
  have hserv : (List.range fd.frames.sQueue.capacity).findSome? fd.sendServiceFrame = none :=
    List.findSome?_eq_none_iff.mpr fun i _ ↦ sendServiceFrame_none (hno i)
  have hnone : ∀ p, fd.sendIFrame now p = none → ∀ frame, ¬ fd.Sendable p frame := by
    intro p hp
    rcases sendIFrame_cases hidle now p with ⟨-, hall⟩ | ⟨frame, -, hsome⟩
    · exact hall
    · rw [hsome] at hp
      cases hp
  rw [generateTxFrames, if_neg (by rw [HdlcLl.isTxBusy, hidle]; exact Bool.false_ne_true), hserv]
  cases hi : (List.range fd.peerMgr.peers.length).findSome? (fd.sendIFrame now) with
  | some fd' =>
    left
    obtain ⟨p, hp, hsend, hbefore⟩ := Lib.findSome?_range_eq_some hi
    rcases sendIFrame_cases hidle now p with ⟨hp', -⟩ | ⟨frame, hframe, hsome⟩
    · rw [hp'] at hsend
      cases hsend
    · rw [hsome, Option.some.injEq] at hsend
      exact ⟨p, frame, hp, hframe, fun j hj ↦ hnone j (hbefore j hj), hsend.symm⟩
  | none =>
    right
    exact ⟨fun p hp ↦ hnone p (List.findSome?_eq_none_iff.mp hi p (List.mem_range.mpr hp)), rfl⟩

/-- What `generate_tx_frames` can do: service frames go first, the lowest slot
before the others, then the I-frames of the first peer that has one. -/
theorem generateTxFrames_cases (fd : TinyFd) (now : Instant) :
    (fd.hdlc.txData ≠ none ∧ fd.generateTxFrames now = fd) ∨
    (fd.hdlc.txData = none ∧ ∃ i frame, fd.frames.sQueue.get i = some frame ∧
      (∀ j < i, fd.frames.sQueue.get j = none) ∧
      fd.generateTxFrames now =
        { fd.handOver frame.toBytes with frames :=
          { fd.frames with sQueue := fd.frames.sQueue.free i } }) ∨
    (fd.hdlc.txData = none ∧ (∀ i, fd.frames.sQueue.get i = none) ∧ ∃ p frame,
      p < fd.peerMgr.peers.length ∧ fd.Sendable p frame ∧
      fd.generateTxFrames now = (fd.handOver (fd.sendIData p frame)).modifyPeer p fun q ↦
        { q with
          iQueueControl := q.iQueueControl.advanceNextNs
          lastSentITs := now
          lastSentFrameTs := now
          retries := fd.retries }) ∨
    (fd.hdlc.txData = none ∧ (∀ i, fd.frames.sQueue.get i = none) ∧
      (∀ p < fd.peerMgr.peers.length, ∀ frame, ¬ fd.Sendable p frame) ∧
      fd.generateTxFrames now = fd) := by
  rw [generateTxFrames]
  by_cases hbusy : fd.hdlc.isTxBusy
  · left
    exact ⟨Option.isSome_iff_ne_none.mp hbusy, if_pos hbusy⟩
  right
  have hidle : fd.hdlc.txData = none := by simpa [HdlcLl.isTxBusy] using hbusy
  rw [if_neg hbusy]
  cases hserv : (List.range fd.frames.sQueue.capacity).findSome? fd.sendServiceFrame with
  | some fd' =>
    left
    refine ⟨hidle, ?_⟩
    obtain ⟨i, -, hi, hbefore⟩ := Lib.findSome?_range_eq_some hserv
    cases hget : fd.frames.sQueue.get i with
    | none =>
      rw [sendServiceFrame_none hget] at hi
      cases hi
    | some frame =>
      rw [sendServiceFrame_some hidle hget, Option.some.injEq] at hi
      refine ⟨i, frame, hget, ?_, hi.symm⟩
      intro j hj
      cases hj' : fd.frames.sQueue.get j with
      | none => rfl
      | some frame' =>
        have hnone := hbefore j hj
        rw [sendServiceFrame_some hidle hj'] at hnone
        cases hnone
  | none =>
    right
    have hempty : ∀ i, fd.frames.sQueue.get i = none := by
      apply FrameQueue.get_eq_none
      intro i hi
      cases hget : fd.frames.sQueue.get i with
      | none => rfl
      | some frame =>
        have hnone := List.findSome?_eq_none_iff.mp hserv i (List.mem_range.mpr hi)
        rw [sendServiceFrame_some hidle hget] at hnone
        cases hnone
    have hfirst := generateTxFrames_first hidle hempty now
    rw [generateTxFrames, if_neg hbusy, hserv] at hfirst
    rcases hfirst with ⟨p, frame, hp, hframe, -, he⟩ | ⟨hall, he⟩
    · exact .inl ⟨hidle, hempty, p, frame, hp, hframe, he⟩
    · exact .inr ⟨hidle, hempty, hall, he⟩

end TinyProto.TinyFd
