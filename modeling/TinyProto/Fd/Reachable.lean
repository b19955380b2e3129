import TinyProto.Fd.Api
import TinyProto.Lib.Runs

namespace TinyProto.TinyFd

open Lib

variable {fd fd' : TinyFd}

inductive Op
  | sendPacket (address : UInt8) (data : Bytes) (timeoutMs : ℕ)
  | disconnect
  | onRxData (now : Instant) (data : Bytes)
  | getTxData (now : Instant) (room timeoutMs : ℕ)

def step (fd : TinyFd) : Op → Option TinyFd
  | .sendPacket address data timeoutMs => some (fd.sendPacket address data timeoutMs).1
  | .disconnect => some fd.disconnect.1
  | .onRxData now data => some (fd.onRxData now data)
  | .getTxData now room timeoutMs => (fd.getTxData now room timeoutMs).map Prod.fst

/-- The states of a station between two calls; nothing is assumed about the
clock readings or the bytes received. -/
inductive Reachable (config : TinyFdConfig) : TinyFd → Prop
  | new {now : Instant} {fd : TinyFd} : TinyFd.new config now = .ok fd → Reachable config fd
  | step {fd fd' : TinyFd} {op : Op} : Reachable config fd → fd.step op = some fd' →
      Reachable config fd'

/-- The station that a list of calls leaves behind. -/
def replay (config : TinyFdConfig) (now : Instant) (ops : List Op) : Option TinyFd :=
  match TinyFd.new config now with
  | .error _ => none
  | .ok fd => run step fd ops

theorem reachable_run {config : TinyFdConfig} {ops : List Op} (h : Reachable config fd)
    (hrun : run step fd ops = some fd') : Reachable config fd' := by
  induction ops generalizing fd with
  | nil => exact Option.some.inj hrun ▸ h
  | cons op ops ih =>
    obtain ⟨fd₁, hs, hrest⟩ := run_cons.mp hrun
    exact ih (h.step hs) hrest

theorem reachable_replay {config : TinyFdConfig} {now : Instant} {ops : List Op}
    (h : (replay config now ops).isSome) : Reachable config ((replay config now ops).get h) := by
  have hget := (Option.some_get h).symm
  generalize (replay config now ops).get h = fd at hget
  rw [replay] at hget
  split at hget
  · cases hget
  · rename_i hnew
    exact reachable_run (.new hnew) hget

structure Counters (c : IQueueControl) : Prop where
  last : c.txState.lastNs < 8
  confirm : c.txState.confirmNs < 8
  next : c.txState.nextNs < 8
  recv : c.rxState.nextNr < 8

def ServiceFrame (fd : TinyFd) (frame : FrameInfo) : Prop :=
  frame.payload = [] ∧ (∃ p < fd.peerMgr.peers.length, frame.header.address = fd.addrField p) ∧
    (frame.frameType = .uFrame ∧ frame.header.control &&& hdlcUFrameMask = hdlcUFrameBits ∨
      frame.frameType = .sFrame ∧ frame.header.control &&& hdlcSFrameMask = hdlcSFrameBits)

def DataFrame (fd : TinyFd) (frame : FrameInfo) : Prop :=
  frame.frameType = .iFrame ∧
    (∃ p < fd.peerMgr.peers.length, frame.header.address = fd.addrField p) ∧
    (∃ m n, frame.header.control = iControl (seq m) (seq n)) ∧ frame.payload.length ≤ fd.mtu

/-- What holds between any two calls, whatever was received. -/
structure WellFormed (fd : TinyFd) : Prop where
  peers_pos : 0 < fd.peerMgr.peers.length
  peers_le : fd.peerMgr.peers.length ≤ hdlcInvalidPeerIndex
  counters : ∀ p < fd.peerMgr.peers.length, Counters (fd.peer p).iQueueControl
  iFrames : ∀ frame ∈ fd.frames.iQueue.held, DataFrame fd frame
  sFrames : ∀ frame ∈ fd.frames.sQueue.held, ServiceFrame fd frame
  iCapacity : 0 < fd.frames.iQueue.capacity ∧ fd.frames.iQueue.capacity ≤ 7
  sCapacity : fd.frames.sQueue.capacity = uQueueMaxSize
  tx : fd.hdlc.TxOk
  rx : fd.hdlc.RxOk
  rxFrames : fd.hdlc.rxFrames = []
  physMtu : fd.hdlc.physMtu = fd.mtu + 2 + getCrcFieldSize fd.hdlc.crcType

theorem WellFormed.peers_ne (h : WellFormed fd) : fd.peerMgr.peers ≠ [] :=
  List.length_pos_iff.mp h.peers_pos

theorem DataFrame.congr (hs : fd'.setup = fd.setup) {frame : FrameInfo} (h : DataFrame fd frame) :
    DataFrame fd' frame := by
  obtain ⟨htype, ⟨p, hp, haddr⟩, hcontrol, hlen⟩ := h
  refine ⟨htype, ⟨p, by rwa [peers_length_congr hs], by rwa [addrField_congr hs]⟩, hcontrol, ?_⟩
  rwa [show fd'.mtu = fd.mtu from congrArg Setup.mtu hs]

theorem ServiceFrame.congr (hs : fd'.setup = fd.setup) {frame : FrameInfo}
    (h : ServiceFrame fd frame) :
    ServiceFrame fd' frame := by
  obtain ⟨hpayload, ⟨p, hp, haddr⟩, hkind⟩ := h
  exact ⟨hpayload, ⟨p, by rwa [peers_length_congr hs], by rwa [addrField_congr hs]⟩, hkind⟩

theorem WellFormed.update (h : WellFormed fd) (hs : fd'.setup = fd.setup) (hh : fd'.hdlc = fd.hdlc)
    (hc : ∀ p < fd.peerMgr.peers.length, Counters (fd'.peer p).iQueueControl)
    (hi : ∀ frame ∈ fd'.frames.iQueue.held, frame ∈ fd.frames.iQueue.held ∨ DataFrame fd frame)
    (hq : ∀ frame ∈ fd'.frames.sQueue.held, frame ∈ fd.frames.sQueue.held ∨ ServiceFrame fd frame) :
    WellFormed fd' := by
  have hlen := peers_length_congr hs
  have hi' : fd'.frames.iQueue.capacity = fd.frames.iQueue.capacity := congrArg Setup.iCapacity hs
  have hq' : fd'.frames.sQueue.capacity = fd.frames.sQueue.capacity := congrArg Setup.sCapacity hs
  have hm : fd'.mtu = fd.mtu := congrArg Setup.mtu hs
  constructor
  · rw [hlen]
    exact h.peers_pos
  · rw [hlen]
    exact h.peers_le
  · rwa [hlen]
  · intro frame hmem
    exact ((hi frame hmem).elim (h.iFrames frame) id).congr hs
  · intro frame hmem
    exact ((hq frame hmem).elim (h.sFrames frame) id).congr hs
  · rw [hi']
    exact h.iCapacity
  · rw [hq']
    exact h.sCapacity
  · rw [hh]
    exact h.tx
  · rw [hh]
    exact h.rx
  · rw [hh]
    exact h.rxFrames
  · rw [hh, hm]
    exact h.physMtu

theorem WellFormed.withHdlc (h : WellFormed fd) {ll : HdlcLl} (htx : ll.TxOk) (hrx : ll.RxOk)
    (hframes : ll.rxFrames = []) (hcrc : ll.crcType = fd.hdlc.crcType)
    (hmtu : ll.physMtu = fd.hdlc.physMtu) : WellFormed (fd.withHdlc ll) := by
  refine ⟨h.peers_pos, h.peers_le, h.counters, h.iFrames, h.sFrames, h.iCapacity,
    h.sCapacity, htx, hrx,
    hframes, ?_⟩
  rw [hdlc_withHdlc, hcrc, hmtu]
  exact h.physMtu

theorem mem_held_putUSFrame {frameType : QueuedFrameType} {header : FrameHeader} {data : Bytes}
    {frame : FrameInfo} (h : frame ∈ (fd.putUSFrame frameType header data).1.frames.sQueue.held) :
    frame ∈ fd.frames.sQueue.held ∨ frame = ⟨frameType, header, data⟩ := by
  rcases fd.putUSFrame_cases frameType header data with ⟨q, i, ha, he⟩ | ⟨-, he⟩
  · rw [he] at h
    exact (List.mem_cons.mp (ha.perm.mem_iff.mp h)).symm
  · rw [he] at h
    exact .inl h

theorem counters_new : Counters IQueueControl.new := by
  constructor <;> decide

theorem Counters.moveToNextNs {c : IQueueControl} (h : Counters c) : Counters c.moveToNextNs :=
  ⟨mask_lt _, h.confirm, h.next, h.recv⟩

theorem Counters.advanceNextNs {c : IQueueControl} (h : Counters c) : Counters c.advanceNextNs :=
  ⟨h.last, h.confirm, mask_lt _, h.recv⟩

theorem Counters.moveToNextFrameToReceive {c : IQueueControl} (h : Counters c) :
    Counters c.moveToNextFrameToReceive :=
  ⟨h.last, h.confirm, h.next, mask_lt _⟩

theorem counters_modifyPeer (h : ∀ p < fd.peerMgr.peers.length, Counters (fd.peer p).iQueueControl)
    {p : ℕ} (hp : p < fd.peerMgr.peers.length) {f : PeerInfo → PeerInfo}
    (hf : Counters (f (fd.peer p)).iQueueControl) :
    ∀ j < fd.peerMgr.peers.length, Counters ((fd.modifyPeer p f).peer j).iQueueControl := by
  intro j hj
  by_cases hjp : j = p
  · subst hjp
    rwa [peer_modifyPeer_self hp]
  · rw [peer_modifyPeer_ne hjp]
    exact h j hj

theorem wellFormed_sendPacket (h : WellFormed fd) (address : UInt8) (data : Bytes) (timeoutMs : ℕ) :
    WellFormed (fd.sendPacket address data timeoutMs).1 := by
  rcases fd.sendPacket_cases address data timeoutMs with ⟨e, he⟩ | ⟨hvalid, hlen, -, q, i,
    events, ha, he⟩
  · rwa [he]
  · have hp := sendPeer_lt h.peers_ne hvalid
    have hc := h.counters _ hp
    rw [he]
    apply h.update
    · have hm := @setup_modifyPeer fd (fd.sendPeer address)
        (fun q ↦ { q with iQueueControl := q.iQueueControl.moveToNextNs }) fun _ ↦ rfl
      simp only [setup, Setup.mk.injEq] at hm ⊢
      exact ⟨hm.1, hm.2.1, ha.capacity, trivial, hm.2.2.2.2⟩
    · rfl
    · exact counters_modifyPeer h.counters hp hc.moveToNextNs
    · intro frame hmem
      rcases List.mem_cons.mp (ha.perm.mem_iff.mp hmem) with rfl | hold
      · obtain ⟨m, hm⟩ := exists_seq_of_lt hc.last
        obtain ⟨n, hn⟩ := exists_seq_of_lt hc.recv
        exact .inr ⟨rfl, ⟨_, hp, rfl⟩, ⟨m, n, by rw [← hm, ← hn]⟩, hlen⟩
      · exact .inl hold
    · exact fun frame hmem ↦ .inl hmem

theorem serviceFrame_u {p : ℕ} (hp : p < fd.peerMgr.peers.length) {control : UInt8}
    (hu : control &&& hdlcUFrameMask = hdlcUFrameBits) :
    ServiceFrame fd ⟨.uFrame, ⟨fd.addrField p, control⟩, []⟩ :=
  ⟨rfl, ⟨p, hp, rfl⟩, .inl ⟨rfl, hu⟩⟩

theorem serviceFrame_s {p : ℕ} (hp : p < fd.peerMgr.peers.length) {control : UInt8}
    (hs : control &&& hdlcSFrameMask = hdlcSFrameBits) :
    ServiceFrame fd ⟨.sFrame, ⟨fd.addrField p, control⟩, []⟩ :=
  ⟨rfl, ⟨p, hp, rfl⟩, .inr ⟨rfl, hs⟩⟩

theorem held_freeByNs_foldl (q : FrameQueue) (address : UInt8) (seqs : List UInt8) :
    (seqs.foldl (fun q s ↦ q.freeByNs address s) q).held ⊆ q.held := by
  induction seqs generalizing q with
  | nil => exact List.Subset.refl _
  | cons s seqs ih => exact List.Subset.trans (ih _) (FrameQueue.held_freeFirst_subset q _)

theorem AddressedTo.congr {fd' : TinyFd} (hs : fd'.setup = fd.setup) {p : ℕ} {data : Bytes}
    (h : fd.AddressedTo p data) : fd'.AddressedTo p data := by
  refine ⟨h.1, ?_⟩
  rw [addressFieldToPeer_congr hs]
  exact h.2

theorem AddressedTo.lt (h : WellFormed fd) {p : ℕ} {data : Bytes} (hto : fd.AddressedTo p data)
    (hvalid : p ≠ hdlcInvalidPeerIndex) : p < fd.peerMgr.peers.length := by
  rw [← hto.2] at hvalid ⊢
  exact PeerManager.addressFieldToPeer_lt h.peers_ne hvalid

section Keeps

variable (h : WellFormed fd)
include h

theorem wellFormed_modifyPeer {p : ℕ} (hp : p < fd.peerMgr.peers.length) {f : PeerInfo → PeerInfo}
    (hf : ∀ q, (f q).addr = q.addr) (hc : Counters (f (fd.peer p)).iQueueControl) :
    WellFormed (fd.modifyPeer p f) :=
  h.update (setup_modifyPeer p hf) rfl (counters_modifyPeer h.counters hp hc) (fun _ hm ↦ .inl hm)
    fun _ hm ↦ .inl hm

theorem wellFormed_setEvents (bits : UInt8) : WellFormed (fd.setEvents bits) :=
  h.update rfl rfl h.counters (fun _ hm ↦ .inl hm) fun _ hm ↦ .inl hm

theorem wellFormed_call (c : Callback) : WellFormed (fd.call c) :=
  h.update rfl rfl h.counters (fun _ hm ↦ .inl hm) fun _ hm ↦ .inl hm

theorem wellFormed_putUSFrame {frameType : QueuedFrameType} {header : FrameHeader}
    (hs : ServiceFrame fd ⟨frameType, header, []⟩) :
    WellFormed (fd.putUSFrame frameType header []).1 := by
  apply h.update (setup_putUSFrame ..) (hdlc_putUSFrame ..)
  · intro p hp
    rw [peer_putUSFrame]
    exact h.counters p hp
  · intro frame hmem
    rw [iQueue_putUSFrame] at hmem
    exact .inl hmem
  · intro frame hmem
    rcases mem_held_putUSFrame hmem with hold | rfl
    · exact .inl hold
    · exact .inr hs

variable {p : ℕ} (hp : p < fd.peerMgr.peers.length)
include hp

theorem wellFormed_confirmFrames {nr : UInt8} (hnr : nr < 8) :
    WellFormed (fd.confirmFrames p nr) := by
  obtain ⟨n, hn⟩ := exists_seq_of_lt (h.counters p hp).confirm
  apply h.update (setup_confirmFrames ..) (hdlc_confirmFrames ..)
  · intro j hj
    by_cases hjp : j = p
    · subst hjp
      rw [peer_confirmFrames_self hn hnr hj]
      have hc := h.counters j hj
      exact ⟨hc.last, hnr, hc.next, hc.recv⟩
    · rw [peer_confirmFrames_ne fd p nr hjp]
      exact h.counters j hj
  · intro frame hmem
    rw [iQueue_confirmFrames hn hnr] at hmem
    exact .inl (held_freeByNs_foldl _ _ _ hmem)
  · intro frame hmem
    rw [sQueue_confirmFrames] at hmem
    exact .inl hmem

theorem wellFormed_switchToConnected (now : Instant) : WellFormed (fd.switchToConnected p now) := by
  apply h.update (setup_switchToConnected ..) (hdlc_switchToConnected ..)
  · intro j hj
    by_cases hjp : j = p
    · subst hjp
      by_cases hs : (fd.peer j).state = .connected
      · rw [switchToConnected_of_connected fd j now hs]
        exact h.counters j hj
      · rw [peer_switchToConnected_self fd j now hj hs]
        exact counters_new
    · rw [peer_switchToConnected_ne fd p now hjp]
      exact h.counters j hj
  · intro frame hmem
    rw [frames_switchToConnected] at hmem
    exact .inl hmem
  · intro frame hmem
    rw [frames_switchToConnected] at hmem
    exact .inl hmem

theorem wellFormed_switchToDisconnected (now : Instant) :
    WellFormed (fd.switchToDisconnected p now) := by
  by_cases hs : (fd.peer p).state = .disconnected
  · rwa [switchToDisconnected_of_disconnected fd p now hs]
  apply h.update (setup_switchToDisconnected ..) (hdlc_switchToDisconnected ..)
  · intro j hj
    by_cases hjp : j = p
    · subst hjp
      rw [peer_switchToDisconnected_self fd j now hj hs]
      exact counters_new
    · rw [peer_switchToDisconnected_ne fd p now hjp]
      exact h.counters j hj
  · intro frame hmem
    rw [iQueue_switchToDisconnected fd p now hs, FrameQueue.held_resetFor] at hmem
    exact .inl (List.mem_of_mem_filter hmem)
  · intro frame hmem
    rw [sQueue_switchToDisconnected] at hmem
    exact .inl hmem

theorem wellFormed_onUFrameReceived (now : Instant) (data : Bytes) :
    WellFormed (fd.onUFrameReceived p now data) := by
  have hu : (hdlcUFrameTypeUa ||| hdlcUFrameBits ||| hdlcFBit) &&& hdlcUFrameMask =
      hdlcUFrameBits := by decide
  have hua : WellFormed (fd.putUSFrame .uFrame (uaHeader (fd.addrField p)) []).1 :=
    wellFormed_putUSFrame h (serviceFrame_u hp hu)
  have hlen : p <
      (fd.putUSFrame .uFrame (uaHeader (fd.addrField p)) []).1.peerMgr.peers.length := by
    rwa [peerMgr_putUSFrame]
  rcases fd.onUFrameReceived_cases p now data with ⟨-, he⟩ | ⟨-, -, he⟩ | ⟨-, he⟩ | ⟨-, he⟩ | ⟨-, -,
    -, -, -, he⟩ <;> rw [he]
  · exact wellFormed_switchToConnected hua hlen now
  · exact wellFormed_switchToConnected h hp now
  · exact wellFormed_switchToDisconnected hua hlen now
  · exact wellFormed_switchToDisconnected h hp now
  · exact h

theorem wellFormed_onIFrameReceived (data : Bytes) : WellFormed (fd.onIFrameReceived p data) := by
  obtain ⟨n, hn⟩ := exists_seq_of_lt (h.counters p hp).confirm
  obtain ⟨r, hr⟩ := exists_seq_of_lt (h.counters p hp).recv
  have h₁ := wellFormed_confirmFrames h hp (mask_lt (data.getD 1 0 >>> 1))
  have hlen : p <
      (fd.confirmFrames p ((data.getD 1 0 >>> 1) &&& seqBitsMask)).peerMgr.peers.length := by
    rwa [peers_length_confirmFrames]
  have hc := h₁.counters p hlen
  rcases onIFrameReceived_cases hp hn data with ⟨-, -, he⟩ | ⟨-, -, he⟩ | ⟨-, he⟩ <;> rw [he]
  · exact h₁
  · apply wellFormed_putUSFrame
    · apply wellFormed_modifyPeer h₁ hlen
      · intro _
        rfl
      · exact hc
    · rw [hr]
      refine (serviceFrame_s hp (rejHeader_fields (fd.addrField p) r).2.2).congr ?_
      refine (setup_modifyPeer p ?_).trans (setup_confirmFrames ..)
      intro _
      rfl
  · apply wellFormed_putUSFrame
    · apply wellFormed_call
      apply wellFormed_modifyPeer h₁ hlen
      · intro _
        rfl
      · exact hc.moveToNextFrameToReceive
    · rw [hr, seq_succ]
      refine (serviceFrame_s hp (rrHeader_fields (fd.addrField p) (r + 1)).2.2).congr ?_
      rw [setup_call]
      refine (setup_modifyPeer p ?_).trans (setup_confirmFrames ..)
      intro _
      rfl

theorem wellFormed_onSFrameReceived (data : Bytes) : WellFormed (fd.onSFrameReceived p data) := by
  have h₁ := wellFormed_confirmFrames h hp (mask_lt (data.getD 1 0 >>> 5))
  have hlen : p <
      (fd.confirmFrames p ((data.getD 1 0 >>> 5) &&& seqBitsMask)).peerMgr.peers.length := by
    rwa [peers_length_confirmFrames]
  have hc := h₁.counters p hlen
  rcases onSFrameReceived_cases fd p data with ⟨-, he⟩ | ⟨-, he⟩ | ⟨-, -, -, he⟩ <;> rw [he]
  · apply wellFormed_modifyPeer h₁ hlen
    · intro _
      rfl
    · exact hc
  · apply wellFormed_setEvents
    apply wellFormed_modifyPeer h₁ hlen
    · intro _
      rfl
    · exact ⟨hc.last, hc.confirm, mask_lt _, hc.recv⟩
  · exact h₁

theorem wellFormed_touch (now : Instant) : WellFormed (fd.touch p now) := by
  apply wellFormed_modifyPeer h hp
  · intro _
    rfl
  · exact h.counters p hp

theorem wellFormed_checkTimeout (now : Instant) : WellFormed (fd.checkTimeout now p) := by
  have hu : (hdlcUFrameTypeSabm ||| hdlcUFrameBits ||| hdlcPBit) &&& hdlcUFrameMask =
      hdlcUFrameBits := by decide
  have hc := h.counters p hp
  rcases fd.checkTimeout_cases now p with ⟨he, -⟩ | ⟨-, -, he⟩ | ⟨-, -, ⟨-, he⟩ | ⟨-, he⟩⟩ | ⟨-,
    -, -, -, he⟩ | ⟨-, he⟩ <;> rw [he]
  · exact h
  · apply wellFormed_modifyPeer (wellFormed_putUSFrame h (serviceFrame_u hp hu))
      (by rwa [peerMgr_putUSFrame])
    · intro _
      rfl
    · rwa [peer_putUSFrame]
  · apply wellFormed_modifyPeer h hp
    · intro _
      rfl
    · exact hc
  · have h₁ : WellFormed (fd.modifyPeer p fun q ↦ { q with retries := q.retries - 1 }) :=
      wellFormed_modifyPeer h hp (fun _ ↦ rfl) hc
    have hp₁ : p <
        (fd.modifyPeer p fun q ↦ { q with retries := q.retries - 1 }).peerMgr.peers.length := by
      rwa [peers_length_modifyPeer]
    apply wellFormed_modifyPeer (wellFormed_putUSFrame h₁ (serviceFrame_u hp₁ hu))
      (by rwa [peerMgr_putUSFrame])
    · intro _
      rfl
    · rw [peer_putUSFrame]
      exact h₁.counters p hp₁
  · exact wellFormed_switchToDisconnected h hp now
  · apply wellFormed_setEvents
    apply wellFormed_modifyPeer h hp
    · intro _
      rfl
    · exact ⟨hc.last, hc.confirm, hc.confirm, hc.recv⟩

omit hp

theorem wellFormed_checkTimeouts (now : Instant) : WellFormed (fd.checkTimeouts now) := by
  have hboth : WellFormed (fd.checkTimeouts now) ∧ (fd.checkTimeouts now).setup = fd.setup := by
    apply checkTimeouts_ind (P := fun fd' ↦ WellFormed fd' ∧ fd'.setup = fd.setup) now ⟨h, rfl⟩
    rintro p hp fd' ⟨h', hs⟩
    rw [← peers_length_congr hs] at hp
    exact ⟨wellFormed_checkTimeout h' hp now, (setup_checkTimeout fd' now p).trans hs⟩
  exact hboth.1

theorem wellFormed_onFrameReceived (now : Instant) (data : Bytes) :
    WellFormed (fd.onFrameReceived now data) := by
  rcases fd.onFrameReceived_cases now data with ⟨-, he⟩ | ⟨p, hto, hvalid, hcases⟩
  · rwa [he]
  have hp := AddressedTo.lt h hto hvalid
  have ht := wellFormed_touch h hp now
  have hp₁ : p < (fd.touch p now).peerMgr.peers.length := by rwa [peers_length_touch]
  have hdm : (hdlcUFrameTypeDm ||| hdlcUFrameBits) &&& hdlcUFrameMask = hdlcUFrameBits := by decide
  rcases hcases with ⟨-, he⟩ | ⟨-, -, -, he⟩ | ⟨-, -, ⟨-, he⟩ | ⟨-, he⟩⟩ <;> rw [he]
  · exact wellFormed_onUFrameReceived ht hp₁ now data
  · exact wellFormed_putUSFrame ht (serviceFrame_u hp₁ hdm)
  · exact wellFormed_onIFrameReceived ht hp₁ data
  · exact wellFormed_onSFrameReceived ht hp₁ data

theorem wellFormed_handOver (hidle : fd.hdlc.txData = none) {data : Bytes} (hne : data ≠ []) :
    WellFormed (fd.handOver data) :=
  h.withHdlc (txOk_handOver h.tx hidle hne).1 (@rxOk_of_eraseTx fd.hdlc _ rfl h.rx)
    h.rxFrames rfl rfl

theorem wellFormed_generateTxFrames (now : Instant) : WellFormed (fd.generateTxFrames now) := by
  rcases fd.generateTxFrames_cases now with ⟨-, he⟩ | ⟨hidle, i, frame, hi, -, he⟩ |
    ⟨hidle, -, p, frame, hp, hs, he⟩ | ⟨-, -, -, he⟩ <;> rw [he]
  · exact h
  · apply (wellFormed_handOver h hidle (toBytes_ne_nil frame)).update
    · simp only [setup, handOver, FrameQueue.capacity_free]
    · rfl
    · exact h.counters
    · exact fun _ hmem ↦ .inl hmem
    · intro f hmem
      exact .inl ((FrameQueue.free_perm hi).mem_iff.mpr (List.mem_cons_of_mem _ hmem))
  · have hne : fd.sendIData p frame ≠ [] := by simp [sendIData, FrameInfo.toBytes]
    apply wellFormed_modifyPeer (wellFormed_handOver h hidle hne) hp
    · intro _
      rfl
    · exact (h.counters p hp).advanceNextNs
  · exact h

theorem wellFormed_disconnect : WellFormed fd.disconnect.1 := by
  have hu : (hdlcUFrameTypeDisc ||| hdlcUFrameBits ||| hdlcPBit) &&& hdlcUFrameMask =
      hdlcUFrameBits := by decide
  rcases fd.disconnect_cases with ⟨-, he⟩ | ⟨q, i, -, he, -⟩ <;> rw [he]
  · exact h
  · have h₁ : WellFormed (fd.putUSFrame .uFrame (discHeader (fd.addrField 0)) []).1 :=
      wellFormed_putUSFrame h (serviceFrame_u h.peers_pos hu)
    apply wellFormed_modifyPeer h₁ h₁.peers_pos
    · intro _
      rfl
    · exact h₁.counters 0 h₁.peers_pos

theorem wellFormed_deliver (now : Instant) (frames : List Bytes) :
    WellFormed (deliver now fd frames) := by
  induction frames generalizing fd with
  | nil => exact h
  | cons frame frames ih => exact ih (wellFormed_onFrameReceived h now frame)

theorem wellFormed_fed (now : Instant) (frames : List Bytes) (data : Bytes) :
    WellFormed ((deliver now fd frames).withHdlc ((fd.hdlc.feed data).withRxFrames [])) := by
  have hspec := HdlcLl.feed_spec h.rx data
  have he : ((fd.hdlc.feed data).withRxFrames []).eraseRx = fd.hdlc.eraseRx := hspec.frame_rule
  apply (wellFormed_deliver h now frames).withHdlc
  · exact txOk_of_eraseRx he h.tx
  · exact hspec.ok.withRxFrames []
  · rfl
  · rw [deliver_hdlc]
    exact HdlcLl.eraseRx_crcType he
  · rw [deliver_hdlc]
    exact HdlcLl.eraseRx_physMtu he

theorem wellFormed_onRxData (now : Instant) (data : Bytes) : WellFormed (fd.onRxData now data) := by
  rw [onRxData_eq h.rx h.rxFrames]
  exact wellFormed_fed h now _ data

theorem wellFormed_getTxData {now : Instant} {room timeoutMs : ℕ} {out : Bytes}
    (hg : fd.getTxData now room timeoutMs = some (fd', out)) : WellFormed fd' := by
  obtain ⟨ll, heq, hok, -, he, -⟩ := getTxData_eq h.tx now room timeoutMs
  have h₁ := wellFormed_generateTxFrames (wellFormed_checkTimeouts h now) now
  rw [heq, Option.some.injEq, Prod.mk.injEq] at hg
  rw [← hg.1]
  apply h₁.withHdlc hok (rxOk_of_eraseTx he h₁.rx)
  · exact (rxFrames_of_eraseTx he).trans h₁.rxFrames
  · exact crcType_of_eraseTx he
  · exact physMtu_of_eraseTx he

theorem wellFormed_step {op : Op} (hs : fd.step op = some fd') : WellFormed fd' := by
  cases op with
  | sendPacket address data timeoutMs =>
    rw [← Option.some.inj hs]
    exact wellFormed_sendPacket h address data timeoutMs
  | disconnect =>
    rw [← Option.some.inj hs]
    exact wellFormed_disconnect h
  | onRxData now data =>
    rw [← Option.some.inj hs]
    exact wellFormed_onRxData h now data
  | getTxData now room timeoutMs =>
    obtain ⟨⟨fd'', out⟩, hg, rfl⟩ := Option.map_eq_some_iff.mp hs
    exact wellFormed_getTxData h hg

end Keeps

theorem peers_new (localAddr peersCount : UInt8) (now : Instant) :
    0 < (PeerManager.new localAddr peersCount now).peers.length ∧
      (PeerManager.new localAddr peersCount now).peers.length ≤ hdlcInvalidPeerIndex ∧
      ∀ q ∈ (PeerManager.new localAddr peersCount now).peers, q.iQueueControl = .new := by
  rw [PeerManager.new]
  dsimp only
  split
  · have hlt := (max peersCount 1).toNat_lt
    have hpos : 0 < (max peersCount 1).toNat := by
      rw [show max peersCount 1 = if peersCount ≤ 1 then 1 else peersCount from rfl]
      split
      · decide
      · rename_i hgt
        rw [UInt8.le_iff_toNat_le, UInt8.toNat_one] at hgt
        omega
    refine ⟨?_, ?_, ?_⟩
    · rwa [List.length_map, List.length_range]
    · rw [List.length_map, List.length_range, hdlcInvalidPeerIndex]
      omega
    · intro q hq
      obtain ⟨i, -, rfl⟩ := List.mem_map.mp hq
      rfl
  · refine ⟨by simp, by simp [hdlcInvalidPeerIndex], ?_⟩
    intro q hq
    rw [List.mem_singleton.mp hq]
    rfl

theorem held_new (maxFrames mtu : ℕ) : (FrameQueue.new maxFrames mtu).held = [] :=
  List.reduceOption_replicate_none

theorem window_bounds {w : UInt8} (h0 : w ≠ 0) (h7 : ¬ w > 7) : 0 < w.toNat ∧ w.toNat ≤ 7 := by
  rw [gt_iff_lt, UInt8.lt_iff_toNat_lt] at h7
  have hne : w.toNat ≠ 0 := fun h ↦ h0 (UInt8.toNat_inj.mp h)
  exact ⟨Nat.pos_of_ne_zero hne, Nat.not_lt.mp h7⟩

structure Initial (config : TinyFdConfig) (now : Instant) (fd : TinyFd) : Prop where
  peerMgr : ∃ localAddr, fd.peerMgr = .new localAddr config.peersCount now
  frames : ∃ mtu, fd.frames = .new config.windowFrames.toNat uQueueMaxSize mtu
  events : fd.events = fdEventQueueHasFreeSlots
  retries : fd.retries = config.retries
  callbacks : fd.callbacks = []
  txData : fd.hdlc.txData = none

theorem initial_new {config : TinyFdConfig} {now : Instant} (h : TinyFd.new config now = .ok fd) :
    Initial config now fd := by
  rw [TinyFd.new] at h
  split at h
  · cases h
  dsimp only at h
  split at h
  · cases h
  rename_i hll
  injection h with h
  subst h
  exact ⟨⟨_, rfl⟩, ⟨_, rfl⟩, rfl, rfl, rfl, (HdlcLl.new_ok hll).2.2.2.1⟩

theorem Initial.peer {config : TinyFdConfig} {now : Instant} (h : Initial config now fd) {p : ℕ}
    (hp : p < fd.peerMgr.peers.length) : ∃ addr, fd.peer p = .new addr now := by
  obtain ⟨localAddr, hm⟩ := h.peerMgr
  have hmem : fd.peer p ∈ (PeerManager.new localAddr config.peersCount now).peers := by
    rw [TinyFd.peer, PeerManager.peer, List.getD_eq_getElem _ _ hp, ← hm]
    exact List.getElem_mem hp
  rw [PeerManager.new] at hmem
  dsimp only at hmem
  split at hmem
  · obtain ⟨k, -, hk⟩ := List.mem_map.mp hmem
    exact ⟨_, hk.symm⟩
  · exact ⟨_, List.mem_singleton.mp hmem⟩

theorem wellFormed_new {config : TinyFdConfig} {now : Instant}
    (h : TinyFd.new config now = .ok fd) :
    WellFormed fd := by
  rw [TinyFd.new] at h
  split at h
  · cases h
  rename_i hwindow
  dsimp only at h
  split at h
  · cases h
  rename_i hdlc hnew
  injection h with h
  obtain ⟨htx, hrx, -, -, -, hframes, hcrc⟩ := HdlcLl.new_ok hnew
  have hmtu := HdlcLl.new_physMtu hnew (Nat.succ_pos _)
  rw [not_or] at hwindow
  obtain ⟨hpos, hle, hall⟩ := peers_new (if config.addr = 0 then hdlcPrimaryAddr ||| hdlcEBit
    else config.addr <<< 2 ||| hdlcEBit) config.peersCount now
  subst h
  constructor
  · exact hpos
  · exact hle
  · intro p hp
    have hpeer := hall _ (List.getElem_mem hp)
    rw [peer, PeerManager.peer, List.getD_eq_getElem _ _ hp, hpeer]
    exact counters_new
  · intro frame hmem
    dsimp only [FramesQueue.new] at hmem
    rw [held_new] at hmem
    cases hmem
  · intro frame hmem
    dsimp only [FramesQueue.new] at hmem
    rw [held_new] at hmem
    cases hmem
  · dsimp only [FramesQueue.new]
    rw [FrameQueue.capacity, FrameQueue.new, List.length_replicate]
    exact window_bounds hwindow.1 hwindow.2
  · rfl
  · exact htx
  · exact hrx
  · exact hframes
  · rw [hcrc]
    exact hmtu

/-! No call changes the set-up. -/

theorem setup_sendPacket (fd : TinyFd) (address : UInt8) (data : Bytes) (timeoutMs : ℕ) :
    (fd.sendPacket address data timeoutMs).1.setup = fd.setup := by
  rcases fd.sendPacket_cases address data timeoutMs with ⟨e, he⟩ | ⟨-, -, -, q, k, events, ha,
    he⟩ <;> rw [he]
  have hm := @setup_modifyPeer fd (fd.sendPeer address)
    (fun q ↦ { q with iQueueControl := q.iQueueControl.moveToNextNs }) fun _ ↦ rfl
  simp only [setup, Setup.mk.injEq] at hm ⊢
  exact ⟨hm.1, hm.2.1, ha.capacity, trivial, hm.2.2.2.2⟩

theorem sendPacket_hdlc (fd : TinyFd) (address : UInt8) (data : Bytes) (timeoutMs : ℕ) :
    (fd.sendPacket address data timeoutMs).1.hdlc = fd.hdlc := by
  rcases fd.sendPacket_cases address data timeoutMs with ⟨e, he⟩ | ⟨-, -, -, q, k, events, -,
    he⟩ <;> rw [he]
  rfl

theorem disconnect_hdlc (fd : TinyFd) : fd.disconnect.1.hdlc = fd.hdlc := by
  rcases fd.disconnect_cases with ⟨-, he⟩ | ⟨q, i, -, he, -⟩ <;> rw [he]
  rw [hdlc_modifyPeer, hdlc_putUSFrame]

theorem setup_disconnect (fd : TinyFd) : fd.disconnect.1.setup = fd.setup := by
  rcases fd.disconnect_cases with ⟨-, he⟩ | ⟨q, i, -, he, -⟩ <;> rw [he]
  refine (setup_modifyPeer 0 ?_).trans (setup_putUSFrame ..)
  intro _
  rfl

theorem setup_generateTxFrames (fd : TinyFd) (now : Instant) :
    (fd.generateTxFrames now).setup = fd.setup := by
  rcases fd.generateTxFrames_cases now with ⟨-, he⟩ | ⟨-, i, frame, -, -, he⟩ | ⟨-, -, p,
    frame, -, -, he⟩ | ⟨-, -, -, he⟩ <;> rw [he]
  · simp only [setup, handOver, FrameQueue.capacity_free]
  · refine (setup_modifyPeer p ?_).trans rfl
    intro _
    rfl

theorem setup_checkTimeouts (fd : TinyFd) (now : Instant) :
    (fd.checkTimeouts now).setup = fd.setup := by
  apply checkTimeouts_ind (P := fun fd' ↦ fd'.setup = fd.setup) now rfl
  intro p _ fd' h
  rw [setup_checkTimeout, h]

theorem setup_onUFrameReceived (fd : TinyFd) (p : ℕ) (now : Instant) (data : Bytes) :
    (fd.onUFrameReceived p now data).setup = fd.setup := by
  rcases fd.onUFrameReceived_cases p now data with ⟨-, he⟩ | ⟨-, -, he⟩ | ⟨-, he⟩ | ⟨-, he⟩ | ⟨-, -,
    -, -, -, he⟩ <;> rw [he] <;> simp

theorem setup_onFrameReceived (h : WellFormed fd) (now : Instant) (data : Bytes) :
    (fd.onFrameReceived now data).setup = fd.setup := by
  rcases fd.onFrameReceived_cases now data with ⟨-, he⟩ | ⟨p, hto, hvalid, hcases⟩
  · rw [he]
  have hp := AddressedTo.lt h hto hvalid
  have hp₁ : p < (fd.touch p now).peerMgr.peers.length := by rwa [peers_length_touch]
  obtain ⟨n, hn⟩ := exists_seq_of_lt ((wellFormed_touch h hp now).counters p hp₁).confirm
  rcases hcases with ⟨-, he⟩ | ⟨-, -, -, he⟩ | ⟨-, -, ⟨hI, he⟩ | ⟨hI, he⟩⟩ <;> rw [he]
  · rw [setup_onUFrameReceived, setup_touch]
  · rw [setup_putUSFrame, setup_touch]
  · rw [(onIFrameReceived_acked hp₁ hn data hI).setup, setup_touch]
  · rw [(onSFrameReceived_acked hp₁ hn data hI).setup, setup_touch]

theorem setup_deliver (h : WellFormed fd) (now : Instant) (frames : List Bytes) :
    (deliver now fd frames).setup = fd.setup := by
  induction frames generalizing fd with
  | nil => rfl
  | cons frame frames ih =>
    exact (ih (wellFormed_onFrameReceived h now frame)).trans (setup_onFrameReceived h now frame)

theorem setup_step (h : WellFormed fd) {op : Op} (hs : fd.step op = some fd') :
    fd'.setup = fd.setup := by
  cases op with
  | sendPacket address data timeoutMs =>
    rw [← Option.some.inj hs]
    exact setup_sendPacket ..
  | disconnect =>
    rw [← Option.some.inj hs]
    exact setup_disconnect fd
  | onRxData now data =>
    rw [← Option.some.inj hs, onRxData_eq h.rx h.rxFrames, setup_withHdlc]
    exact setup_deliver h now _
  | getTxData now room timeoutMs =>
    obtain ⟨⟨fd'', out⟩, hg, rfl⟩ := Option.map_eq_some_iff.mp hs
    obtain ⟨ll, heq, -⟩ := getTxData_eq h.tx now room timeoutMs
    rw [heq, Option.some.injEq, Prod.mk.injEq] at hg
    rw [← hg.1, setup_withHdlc, setup_generateTxFrames, setup_checkTimeouts]

theorem Reachable.wellFormed {config : TinyFdConfig} (h : Reachable config fd) : WellFormed fd := by
  induction h with
  | new h => exact wellFormed_new h
  | step _ hs ih => exact wellFormed_step ih hs

theorem step_eraseRx (h : WellFormed fd) {op : Op} (hs : fd.step op = some fd')
    (hop : ∀ now room timeoutMs, op ≠ .getTxData now room timeoutMs) :
    fd'.hdlc.eraseRx = fd.hdlc.eraseRx := by
  cases op with
  | sendPacket address data timeoutMs => rw [← Option.some.inj hs, sendPacket_hdlc]
  | disconnect => rw [← Option.some.inj hs, disconnect_hdlc]
  | onRxData now data =>
    rw [← Option.some.inj hs, onRxData_eq h.rx h.rxFrames, hdlc_withHdlc]
    exact (HdlcLl.feed_spec h.rx data).frame_rule
  | getTxData now room timeoutMs => exact absurd rfl (hop now room timeoutMs)

theorem crcType_step (h : WellFormed fd) {op : Op} (hs : fd.step op = some fd') :
    fd'.hdlc.crcType = fd.hdlc.crcType := by
  cases op with
  | sendPacket | disconnect | onRxData =>
    refine HdlcLl.eraseRx_crcType (step_eraseRx h hs ?_)
    intro _ _ _ he
    cases he
  | getTxData now room timeoutMs =>
    obtain ⟨⟨fd'', out⟩, hg, rfl⟩ := Option.map_eq_some_iff.mp hs
    obtain ⟨ll, heq, -, -, he, -⟩ := getTxData_eq h.tx now room timeoutMs
    rw [heq, Option.some.injEq, Prod.mk.injEq] at hg
    rw [← hg.1, hdlc_withHdlc, crcType_of_eraseTx he]
    rcases (fd.checkTimeouts now).generateTxFrames_hdlc now with he' | ⟨data, -, -, he'⟩ <;>
      rw [he', ← checkTimeouts_hdlc fd now]
    rfl

/-- A reachable state has the set-up of the new station. -/
theorem Reachable.origin {config : TinyFdConfig} (h : Reachable config fd) :
    ∃ now fd₀, TinyFd.new config now = .ok fd₀ ∧ fd.setup = fd₀.setup ∧
    fd.hdlc.crcType = fd₀.hdlc.crcType := by
  induction h with
  | @new now fd hnew => exact ⟨now, fd, hnew, rfl, rfl⟩
  | step hr hs ih =>
    obtain ⟨now, fd₀, hnew, hset, hcrc⟩ := ih
    exact ⟨now, fd₀, hnew, (setup_step hr.wellFormed hs).trans hset,
      (crcType_step hr.wellFormed hs).trans hcrc⟩

theorem Reachable.capacity {config : TinyFdConfig} (h : Reachable config fd) :
    fd.frames.iQueue.capacity = config.windowFrames.toNat := by
  induction h with
  | new h =>
    obtain ⟨mtu, hframes⟩ := (initial_new h).frames
    rw [hframes]
    exact List.length_replicate
  | step hr hs ih =>
    have hc := congrArg Setup.iCapacity (setup_step hr.wellFormed hs)
    exact hc.trans ih

/-- The states in which a frame is handled: a reachable one, or one that a call
of `on_rx_data` has come to after consuming `data` and handling `frames`. -/
inductive Handling (config : TinyFdConfig) : TinyFd → Prop
  | call {fd : TinyFd} : Reachable config fd → Handling config fd
  | within {fd : TinyFd} (now : Instant) (frames : List Bytes) (data : Bytes) :
      Reachable config fd →
      Handling config ((deliver now fd frames).withHdlc ((fd.hdlc.feed data).withRxFrames []))

theorem Handling.wellFormed {config : TinyFdConfig} (h : Handling config fd) : WellFormed fd := by
  cases h with
  | call hr => exact hr.wellFormed
  | within now frames data hr => exact wellFormed_fed hr.wellFormed now frames data

theorem Handling.capacity {config : TinyFdConfig} (h : Handling config fd) :
    fd.frames.iQueue.capacity = config.windowFrames.toNat := by
  cases h with
  | call hr => exact hr.capacity
  | within now frames data hr =>
    have hc := congrArg Setup.iCapacity (setup_deliver hr.wellFormed now frames)
    exact hc.trans hr.capacity

end TinyProto.TinyFd
