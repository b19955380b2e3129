import Mathlib.Algebra.Order.BigOperators.Group.Finset
import TinyProto.Fd.Answers

namespace TinyProto

theorem seqDist_last {a b : UInt8} (ha : a < 8) (hb : b < 8) :
    seqDist a ((b + 1) &&& seqBitsMask) ≤ seqDist a b + 1 := by
  obtain ⟨n, rfl⟩ := exists_seq_of_lt ha
  obtain ⟨d, hd⟩ : ∃ d, b = seq (n + d) := ⟨_, exists_seq hb n⟩
  rw [hd, seq_succ, Nat.add_assoc, seqDist_seq, seqDist_seq]
  omega

theorem seqDist_next {a b : UInt8} (ha : a < 8) (hb : b < 8) (hne : a ≠ b) :
    seqDist ((a + 1) &&& seqBitsMask) b + 1 = seqDist a b := by
  obtain ⟨n, rfl⟩ := exists_seq_of_lt ha
  obtain ⟨d, hlt, hd⟩ : ∃ d < 8, b = seq (n + d) := ⟨_, seqDist_lt _ _, exists_seq hb n⟩
  subst hd
  obtain ⟨d, rfl⟩ : ∃ e, d = e + 1 := by
    refine Nat.exists_eq_succ_of_ne_zero ?_
    rintro rfl
    exact hne rfl
  rw [seq_succ, seqDist_seq, show n + (d + 1) = n + 1 + d by omega, seqDist_seq]
  omega

theorem seqDist_self {a : UInt8} : seqDist a a = 0 := by
  rw [seqDist, toNat_mask, UInt8.sub_self]
  rfl

def PeerInfo.unsent (q : PeerInfo) : ℕ :=
  seqDist q.iQueueControl.txState.nextNs q.iQueueControl.txState.lastNs

namespace TinyFd

open Lib

variable {fd : TinyFd} {m : Move}

def Move.time : Move → Option Instant
  | .onFrameReceived now _ => some now
  | .checkTimeout now _ => some now
  | .generateTxFrames now => some now
  | .sendPacket .. => none
  | .disconnect => none
  | .framing _ => none

def accepts (fd : TinyFd) : Move → ℕ
  | .sendPacket address data timeoutMs => if (fd.sendPacket address data timeoutMs).2 =
      .ok () then 1 else 0
  | _ => 0

def rejections (fd : TinyFd) (m : Move) : ℕ :=
  (fd.taken m).toList.countP fun data ↦
    data.getD 1 0 &&& hdlcUFrameMask ≠ hdlcUFrameBits ∧ IsRejection (data.getD 1 0)

def expiries (fd : TinyFd) : Move → ℕ
  | .checkTimeout now p => if fd.retryDue p now then 1 else 0
  | _ => 0

def dataFrames (fd : TinyFd) (m : Move) : ℕ :=
  (fd.emits m).toList.countP fun data ↦ data.getD 1 0 &&& hdlcIFrameMask = hdlcIFrameBits

/-- What a move does to the one peer that it touches. -/
structure Beat (fd : TinyFd) (m : Move) (p : ℕ) : Prop where
  lt : p < fd.peerMgr.peers.length
  others : ∀ q, q ≠ p → (fd.move m).peer q = fd.peer q
  unsent : ((fd.move m).peer p).unsent + fd.dataFrames m ≤
    (fd.peer p).unsent + fd.accepts m + 7 * (fd.rejections m + fd.expiries m)
  iStamp : ((fd.move m).peer p).lastSentITs = (fd.peer p).lastSentITs ∨
    m.time = some ((fd.move m).peer p).lastSentITs
  frameStamp : ((fd.move m).peer p).lastSentFrameTs = (fd.peer p).lastSentFrameTs ∨
    m.time = some ((fd.move m).peer p).lastSentFrameTs
  expiry : fd.expiries m = 0 ∨ fd.expiries m = 1 ∧
    elapsed ((fd.move m).peer p).lastSentITs (fd.peer p).lastSentITs ≥ fd.retryDur ∧
    m.time = some ((fd.move m).peer p).lastSentITs

theorem Beat.of_kept {p : ℕ} (hp : p < fd.peerMgr.peers.length)
    (hothers : ∀ q, q ≠ p → (fd.move m).peer q = fd.peer q) {q : PeerInfo}
    (hself : (fd.move m).peer p = q) (hctl : q.iQueueControl = (fd.peer p).iQueueControl)
    (hi : q.lastSentITs = (fd.peer p).lastSentITs)
    (hf : q.lastSentFrameTs = (fd.peer p).lastSentFrameTs ∨ m.time = some q.lastSentFrameTs)
    (hdata : fd.dataFrames m = 0) (hexp : fd.expiries m = 0) : Beat fd m p := by
  subst hself
  refine ⟨hp, hothers, ?_, .inl hi, hf, .inl hexp⟩
  rw [PeerInfo.unsent, hctl, hdata]
  exact (Nat.le_add_right _ _).trans (Nat.le_add_right _ _)

theorem Beat.of_same (h : WellFormed fd) (hpeers : ∀ q, (fd.move m).peer q = fd.peer q)
    (hdata : fd.dataFrames m = 0) (hexp : fd.expiries m = 0) : Beat fd m 0 :=
  .of_kept h.peers_pos (fun q _ ↦ hpeers q) (hpeers 0) rfl rfl (.inl rfl) hdata hexp

theorem beat_sendPacket (h : WellFormed fd) (address : UInt8) (data : Bytes) (timeoutMs : ℕ) :
    ∃ p, Beat fd (.sendPacket address data timeoutMs) p := by
  rcases fd.sendPacket_cases address data timeoutMs with ⟨e, he⟩ | ⟨hvalid, -, -, q, k,
    events, -, he⟩
  · exact ⟨0, .of_same h (fun q ↦ by rw [move, he]) rfl rfl⟩
  · have hp := sendPeer_lt h.peers_ne hvalid
    have hself : (fd.move (.sendPacket address data timeoutMs)).peer (fd.sendPeer address) =
        { fd.peer (fd.sendPeer address) with
          iQueueControl := (fd.peer (fd.sendPeer address)).iQueueControl.moveToNextNs } := by
      rw [move, he]
      exact peer_modifyPeer_self hp _
    have haccepts : fd.accepts (.sendPacket address data timeoutMs) = 1 := if_pos (by rw [he])
    have hcounters := h.counters _ hp
    refine ⟨_, hp, fun q hne ↦ ?_, ?_, .inl (by rw [hself]), .inl (by rw [hself]), .inl rfl⟩
    · rw [move, he]
      exact peer_modifyPeer_ne hne _
    · rw [hself, haccepts]
      exact (seqDist_last hcounters.next hcounters.last).trans (Nat.le_add_right _ _)

theorem beat_disconnect (h : WellFormed fd) : ∃ p, Beat fd .disconnect p := by
  rcases fd.disconnect_cases with ⟨-, he⟩ | ⟨q, k, -, he, -⟩
  · exact ⟨0, .of_same h (fun q ↦ by rw [move, he]) rfl rfl⟩
  · have hself : (fd.move .disconnect).peer 0 = { fd.peer 0 with state := .disconnecting } := by
      rw [move, he, peer_modifyPeer_self (by rw [peerMgr_putUSFrame]; exact h.peers_pos),
        peer_putUSFrame]
    refine ⟨0, .of_kept h.peers_pos (fun q hne ↦ ?_) hself rfl rfl (.inl rfl) rfl rfl⟩
    rw [move, he, peer_modifyPeer_ne hne, peer_putUSFrame]

theorem beat_generateTxFrames (h : WellFormed fd) (now : Instant) :
    ∃ p, Beat fd (.generateTxFrames now) p := by
  rcases fd.generateTxFrames_cases now with ⟨-, he⟩ | ⟨hidle, k, frame, hk, -, he⟩ |
    ⟨hidle, -, p, frame, hp, ⟨-, hne, j, hget⟩, he⟩ | ⟨-, -, -, he⟩
  · refine ⟨0, .of_same h (fun q ↦ by rw [move, he]) ?_ rfl⟩
    rw [dataFrames, emits, move, he, handed_self]
    rfl
  · refine ⟨0, .of_same h (fun q ↦ by rw [move, he]; rfl) ?_ rfl⟩
    obtain ⟨-, -, hkind⟩ :=
      h.sFrames frame ((FrameQueue.free_perm hk).mem_iff.mpr (List.mem_cons_self ..))
    have hnot : ¬ frame.header.control &&& hdlcIFrameMask = hdlcIFrameBits :=
      not_isI_of_service (hkind.imp And.right And.right)
    have hemits : fd.emits (.generateTxFrames now) = some frame.toBytes := by
      rw [emits, handed, if_pos hidle, move, he]
      rfl
    rw [dataFrames, hemits, Option.toList_some, List.countP_singleton, if_neg]
    rw [decide_eq_true_iff]
    exact hnot
  · have hself : (fd.move (.generateTxFrames now)).peer p =
        { fd.peer p with
          iQueueControl := (fd.peer p).iQueueControl.advanceNextNs
          lastSentITs := now
          lastSentFrameTs := now
          retries := fd.retries } := by
      rw [move, he]
      exact peer_modifyPeer_self hp _
    have hcounters := h.counters p hp
    refine ⟨p, hp, fun q hq ↦ ?_, ?_, .inr (by rw [hself, Move.time]),
      .inr (by rw [hself, Move.time]), .inl rfl⟩
    · rw [move, he, peer_modifyPeer_ne hq]
      rfl
    · have hone : fd.dataFrames (.generateTxFrames now) ≤ 1 := by
        rw [dataFrames]
        refine List.countP_le_length.trans ?_
        cases fd.emits (.generateTxFrames now) with
        | none => exact Nat.zero_le _
        | some data => exact Nat.le_refl _
      have hnext : ((fd.move (.generateTxFrames now)).peer p).unsent + 1 = (fd.peer p).unsent := by
        rw [hself]
        exact seqDist_next hcounters.next hcounters.last hne
      omega
  · refine ⟨0, .of_same h (fun q ↦ by rw [move, he]) ?_ rfl⟩
    rw [dataFrames, emits, move, he, handed_self]
    rfl

theorem beat_checkTimeout {p : ℕ} (hp : p < fd.peerMgr.peers.length) (now : Instant) :
    Beat fd (.checkTimeout now p) p := by
  have hothers : ∀ q, q ≠ p → (fd.move (.checkTimeout now p)).peer q = fd.peer q :=
    fun q hq ↦ peer_checkTimeout_ne fd hq now
  have hquiet : ∀ {s : FdState}, (fd.peer p).state = s → s ≠ .connected →
      fd.expiries (.checkTimeout now p) = 0 :=
    fun hs hne ↦ if_neg fun hdue ↦ hne (hs.symm.trans hdue.1)
  rcases fd.checkTimeout_cases now p with ⟨he, hdue⟩ | ⟨hs, -, he⟩ | ⟨hs, -,
    ⟨-, he⟩ | ⟨-, he⟩⟩ | ⟨hs, -, -, hr, he⟩ | ⟨hdue, he⟩
  · have hself : (fd.move (.checkTimeout now p)).peer p = fd.peer p := by
      rw [move, he]
    exact .of_kept hp hothers hself rfl rfl (.inl rfl) rfl (if_neg hdue)
  · have hself : (fd.move (.checkTimeout now p)).peer p =
        { fd.peer p with state := .connecting, lastSentFrameTs := now } := by
      rw [move, he, peer_modifyPeer_self (by rwa [peerMgr_putUSFrame]), peer_putUSFrame]
    refine .of_kept hp hothers hself rfl rfl (.inr rfl) rfl ?_
    rcases hs with hs | hs
    · exact hquiet hs (by decide)
    · exact hquiet hs (by decide)
  · have hself : (fd.move (.checkTimeout now p)).peer p =
        { fd.peer p with state := .disconnected } := by
      rw [move, he, peer_modifyPeer_self hp]
    exact .of_kept hp hothers hself rfl rfl (.inl rfl) rfl (hquiet hs (by decide))
  · have hself : (fd.move (.checkTimeout now p)).peer p =
        { fd.peer p with retries := (fd.peer p).retries - 1, lastSentFrameTs := now } := by
      rw [move, he, peer_modifyPeer_self (by rwa [peerMgr_putUSFrame, peers_length_modifyPeer]),
        peer_putUSFrame, peer_modifyPeer_self hp]
    exact .of_kept hp hothers hself rfl rfl (.inr rfl) rfl (hquiet hs (by decide))
  · have hself : (fd.move (.checkTimeout now p)).peer p =
        { ({ fd.peer p with state := .disconnected }.resetConnection now) with
          events := (fd.peer p).events &&& ~~~fdEventCanAcceptIFrames } := by
      rw [move, he]
      exact peer_switchToDisconnected_self fd p now hp (by rw [hs]; decide)
    refine ⟨hp, hothers, ?_, .inl (by rw [hself]; rfl), .inr (by rw [hself]; rfl),
      .inl (if_neg fun hdue ↦ hdue.2.2.2 hr)⟩
    have hzero : ((fd.move (.checkTimeout now p)).peer p).unsent = 0 := by
      rw [hself]
      exact seqDist_self
    rw [hzero]
    exact (Nat.zero_add _).trans_le (Nat.zero_le _)
  · have hself : (fd.move (.checkTimeout now p)).peer p =
        { fd.peer p with
          retries := (fd.peer p).retries - 1
          iQueueControl := { (fd.peer p).iQueueControl with
            txState := { (fd.peer p).iQueueControl.txState with
              nextNs := (fd.peer p).iQueueControl.txState.confirmNs } }
          lastSentITs := now } := by
      rw [move, he, peer_setEvents, peer_modifyPeer_self hp]
    have hexp : fd.expiries (.checkTimeout now p) = 1 := if_pos hdue
    refine ⟨hp, hothers, ?_, .inr (by rw [hself, Move.time]), .inl (by rw [hself]),
      .inr ⟨hexp, ?_, by rw [hself, Move.time]⟩⟩
    · have hlt : ((fd.move (.checkTimeout now p)).peer p).unsent < 8 := seqDist_lt _ _
      have hnone : fd.dataFrames (.checkTimeout now p) = 0 := rfl
      rw [hexp, hnone]
      omega
    · rw [hself]
      exact hdue.2.2.1

def stamps (q : PeerInfo) : Instant × Instant := (q.lastSentITs, q.lastSentFrameTs)

theorem stamps_onIFrameReceived {p n : ℕ} (hp : p < fd.peerMgr.peers.length)
    (hc : (fd.peer p).iQueueControl.txState.confirmNs = seq n) (data : Bytes) :
    stamps ((fd.onIFrameReceived p data).peer p) = stamps (fd.peer p) := by
  have hpeer := peer_confirmFrames_self hc (mask_lt (data.getD 1 0 >>> 1)) hp
  have hp₁ : p <
      (fd.confirmFrames p ((data.getD 1 0 >>> 1) &&& seqBitsMask)).peerMgr.peers.length := by
    rwa [peers_length_confirmFrames]
  rcases onIFrameReceived_cases hp hc data with ⟨-, -, he⟩ | ⟨-, -, he⟩ | ⟨-, he⟩ <;> rw [he]
  · rw [hpeer]
    rfl
  · rw [peer_putUSFrame, peer_modifyPeer_self hp₁, hpeer]
    rfl
  · rw [peer_putUSFrame, peer_call, peer_modifyPeer_self hp₁, hpeer]
    rfl

theorem stamps_onSFrameReceived {p n : ℕ} (hp : p < fd.peerMgr.peers.length)
    (hc : (fd.peer p).iQueueControl.txState.confirmNs = seq n) (data : Bytes) :
    stamps ((fd.onSFrameReceived p data).peer p) = stamps (fd.peer p) := by
  have hpeer := peer_confirmFrames_self hc (mask_lt (data.getD 1 0 >>> 5)) hp
  have hp₁ : p <
      (fd.confirmFrames p ((data.getD 1 0 >>> 5) &&& seqBitsMask)).peerMgr.peers.length := by
    rwa [peers_length_confirmFrames]
  rcases onSFrameReceived_cases fd p data with ⟨-, he⟩ | ⟨-, he⟩ | ⟨-, -, -, he⟩ <;> rw [he]
  · rw [peer_modifyPeer_self hp₁, hpeer]
    rfl
  · rw [peer_setEvents, peer_modifyPeer_self hp₁, hpeer]
    rfl
  · rw [hpeer]
    rfl

/-- The peer's connection is set up anew, or its timers and its window stay as they are. -/
def Renewed (now : Instant) (q q' : PeerInfo) : Prop :=
  (q'.unsent = q.unsent ∧ stamps q' = stamps q) ∨
    (q'.unsent = 0 ∧ (q'.lastSentITs = q.lastSentITs ∨ q'.lastSentITs = now) ∧
      q'.lastSentFrameTs = now)

theorem renewed_switchToConnected {p : ℕ} (hp : p < fd.peerMgr.peers.length) (now : Instant) :
    Renewed now (fd.peer p) ((fd.switchToConnected p now).peer p) := by
  by_cases hs : (fd.peer p).state = .connected
  · rw [switchToConnected_of_connected _ p now hs]
    exact .inl ⟨rfl, rfl⟩
  · rw [peer_switchToConnected_self fd p now hp hs]
    exact .inr ⟨seqDist_self, .inr rfl, rfl⟩

theorem renewed_switchToDisconnected {p : ℕ} (hp : p < fd.peerMgr.peers.length) (now : Instant) :
    Renewed now (fd.peer p) ((fd.switchToDisconnected p now).peer p) := by
  by_cases hs : (fd.peer p).state = .disconnected
  · rw [switchToDisconnected_of_disconnected _ p now hs]
    exact .inl ⟨rfl, rfl⟩
  · rw [peer_switchToDisconnected_self fd p now hp hs]
    exact .inr ⟨seqDist_self, .inl rfl, rfl⟩

theorem sent_onFrameReceived (h : WellFormed fd) {p : ℕ} {data : Bytes}
    (hto : fd.AddressedTo p data) (hvalid : p ≠ hdlcInvalidPeerIndex) (now : Instant) :
    Renewed now (fd.peer p) ((fd.onFrameReceived now data).peer p) ∨
      (data.getD 1 0 &&& hdlcUFrameMask ≠ hdlcUFrameBits ∧ IsRejection (data.getD 1 0) ∧
        stamps ((fd.onFrameReceived now data).peer p) = stamps (fd.peer p)) := by
  have hp := AddressedTo.lt h hto hvalid
  have hp₁ : p < (fd.touch p now).peerMgr.peers.length := by rwa [peers_length_touch]
  have htouch : ∀ q, Renewed now ((fd.touch p now).peer p) q → Renewed now (fd.peer p) q := by
    rw [peer_touch_self fd p now hp]
    exact fun q hq ↦ hq
  have hua (frameType : QueuedFrameType) (header : FrameHeader) :
      ((fd.touch p now).putUSFrame frameType header []).1.peer p = (fd.touch p now).peer p :=
    peer_putUSFrame ..
  have hlen (frameType : QueuedFrameType) (header : FrameHeader) :
      p < ((fd.touch p now).putUSFrame frameType header []).1.peerMgr.peers.length := by
    rwa [peerMgr_putUSFrame]
  obtain ⟨n, hn⟩ := exists_seq_of_lt ((wellFormed_touch h hp now).counters p hp₁).confirm
  have hreacts := onFrameReceived_reacts h hto hvalid now
  generalize fd.onFrameReceived now data = fd' at hreacts
  cases hreacts with
  | setup => exact .inl (htouch _ (hua .. ▸ renewed_switchToConnected (hlen ..) now))
  | opened => exact .inl (htouch _ (renewed_switchToConnected hp₁ now))
  | disc => exact .inl (htouch _ (hua .. ▸ renewed_switchToDisconnected (hlen ..) now))
  | closed => exact .inl (htouch _ (renewed_switchToDisconnected hp₁ now))
  | otherU => exact .inl (htouch _ (.inl ⟨rfl, rfl⟩))
  | refused => exact .inl (htouch _ (.inl (by rw [hua]; exact ⟨rfl, rfl⟩)))
  | iFrame hI hs =>
    have htx := (onIFrameReceived_acked hp₁ hn data hI).txState
    rw [if_neg fun hr : IsRejection _ ↦ hr.1 hI] at htx
    refine .inl (htouch _ (.inl ⟨?_, stamps_onIFrameReceived hp₁ hn data⟩))
    rw [PeerInfo.unsent, htx, PeerInfo.unsent]
  | sFrame hS hU hs =>
    have hstamps := stamps_onSFrameReceived hp₁ hn data
    have htx := (onSFrameReceived_acked hp₁ hn data hS).txState
    by_cases hr : IsRejection (data.getD 1 0)
    · refine .inr ⟨hU, hr, hstamps.trans ?_⟩
      rw [peer_touch_self fd p now hp]
      rfl
    · rw [if_neg hr] at htx
      refine .inl (htouch _ (.inl ⟨?_, hstamps⟩))
      rw [PeerInfo.unsent, htx, PeerInfo.unsent]

theorem beat_onFrameReceived (h : WellFormed fd) (now : Instant) (data : Bytes) :
    ∃ p, Beat fd (.onFrameReceived now data) p := by
  rcases fd.onFrameReceived_cases now data with ⟨-, he⟩ | ⟨p, hto, hvalid, -⟩
  · exact ⟨0, .of_same h (fun q ↦ by rw [move, he]) rfl rfl⟩
  have hconcerns : concerns fd (.onFrameReceived now data) = some p :=
    concerns_frame.mpr ⟨hto, hvalid⟩
  have hothers : ∀ q, q ≠ p → (fd.move (.onFrameReceived now data)).peer q = fd.peer q := by
    intro q hq
    refine peer_onFrameReceived_ne h ?_
    rw [hconcerns]
    exact fun he ↦ hq (Option.some.inj he).symm
  have hstamps {q : PeerInfo} (hs : stamps q = stamps (fd.peer p)) :
      q.lastSentITs = (fd.peer p).lastSentITs ∧ q.lastSentFrameTs = (fd.peer p).lastSentFrameTs :=
        Prod.mk.inj hs
  have hp := AddressedTo.lt h hto hvalid
  rcases sent_onFrameReceived h hto hvalid now with
    (⟨hsame, hs⟩ | ⟨hzero, hi, hf⟩) | ⟨hU, hr, hs⟩
  · exact ⟨p, hp, hothers, (Nat.le_of_eq hsame).trans (Nat.le_add_right _ _), .inl (hstamps hs).1,
      .inl (hstamps hs).2, .inl rfl⟩
  · refine ⟨p, hp, hothers, (Nat.le_of_eq hzero).trans (Nat.zero_le _), ?_,
      .inr (congrArg some hf.symm), .inl rfl⟩
    exact hi.imp_right fun hi ↦ congrArg some hi.symm
  · refine ⟨p, hp, hothers, ?_, .inl (hstamps hs).1, .inl (hstamps hs).2, .inl rfl⟩
    have hone : fd.rejections (.onFrameReceived now data) = 1 := by
      rw [rejections, taken, hconcerns, Option.map_some, Option.toList_some, List.countP_singleton,
        if_pos (decide_eq_true ⟨hU, hr⟩)]
    have hlt : ((fd.move (.onFrameReceived now data)).peer p).unsent < 8 := seqDist_lt _ _
    have hnone : fd.dataFrames (.onFrameReceived now data) = 0 := rfl
    rw [hone, hnone]
    omega

theorem beat_move (h : WellFormed fd) (hm : Legal fd m) : ∃ p, Beat fd m p := by
  cases m with
  | sendPacket address data timeoutMs => exact beat_sendPacket h address data timeoutMs
  | disconnect => exact beat_disconnect h
  | onFrameReceived now data => exact beat_onFrameReceived h now data
  | checkTimeout now p => exact ⟨p, beat_checkTimeout hm now⟩
  | generateTxFrames now => exact beat_generateTxFrames h now
  | framing => exact ⟨0, .of_same h (fun _ ↦ rfl) rfl rfl⟩

theorem retryDur_move (h : WellFormed fd) (m : Move) : (fd.move m).retryDur = fd.retryDur := by
  have htimeout : (fd.move m).retryTimeout = fd.retryTimeout :=
    congrArg Setup.retryTimeout (setup_move h m)
  rw [retryDur, retryDur, htimeout]

theorem Cause.of_setup {header : FrameHeader} (hc : Cause fd m header)
    (hset : IsSetup header.control) :
    ∃ now p, m = .checkTimeout now p ∧ p < fd.peerMgr.peers.length ∧
      elapsed ((fd.move m).peer p).lastSentFrameTs (fd.peer p).lastSentFrameTs ≥ fd.retryDur := by
  have hnot : ∀ answer : Answer, ¬ answer.Is header.control := fun answer ↦ Answer.not_isSetup hset
  cases hc with
  | ua =>
      exact absurd (show IsUa (hdlcUFrameTypeUa ||| hdlcUFrameBits ||| hdlcFBit) by decide)
        (hnot .ua)
  | dm => exact absurd (show IsDm (hdlcUFrameTypeDm ||| hdlcUFrameBits) by decide) (hnot .dm)
  | @rr now data p n =>
      exact absurd ⟨(rrHeader_fields _ n).2.2, (rrHeader_fields _ n).2.1⟩ (hnot .rr)
  | @rej now data p n =>
      exact absurd ⟨(rejHeader_fields _ n).2.2, (rejHeader_fields _ n).2.1⟩ (hnot .rej)
  | disc =>
      exact absurd (show IsDisc (hdlcUFrameTypeDisc ||| hdlcUFrameBits ||| hdlcPBit) by decide)
        (hnot .disc)
  | @sabm now p hp hdue hstamp =>
    refine ⟨now, p, rfl, hp, ?_⟩
    rwa [move, hstamp]

def Op.time : Op → Option Instant
  | .onRxData now _ => some now
  | .getTxData now _ _ => some now
  | .sendPacket .. => none
  | .disconnect => none

theorem time_moves {op : Op} (hm : m ∈ fd.moves op) : m.time = none ∨ m.time = op.time := by
  cases op with
  | sendPacket address data timeoutMs =>
    rw [moves, List.mem_singleton] at hm
    exact .inl (hm ▸ rfl)
  | disconnect =>
    rw [moves, List.mem_singleton] at hm
    exact .inl (hm ▸ rfl)
  | onRxData now data =>
    rw [moves, List.mem_append, List.mem_singleton, List.mem_map] at hm
    rcases hm with ⟨frame, -, rfl⟩ | rfl
    · exact .inr rfl
    · exact .inl rfl
  | getTxData now room timeoutMs =>
    rw [moves, List.mem_append, List.mem_append, List.mem_singleton, List.mem_map,
      Option.mem_toList, Option.map_eq_some_iff] at hm
    rcases hm with (⟨p, -, rfl⟩ | rfl) | ⟨r, -, rfl⟩
    · exact .inr rfl
    · exact .inr rfl
    · exact .inl rfl

theorem clock_runMoves {ops : List Op} {clock : Instant}
    (h : (clock :: ops.filterMap Op.time).Pairwise (· ≤ ·)) :
    (clock :: (fd.runMoves ops).filterMap Move.time).Pairwise (· ≤ ·) := by
  induction ops generalizing fd clock with
  | nil => exact h
  | cons op ops ih =>
    rw [runMoves, List.filterMap_append]
    cases hop : op.time with
    | none =>
      have hnone : (fd.moves op).filterMap Move.time = [] := by
        refine List.filterMap_eq_nil_iff.mpr fun m hm ↦ ?_
        rcases time_moves hm with ht | ht
        · exact ht
        · rw [ht, hop]
      rw [List.filterMap_cons_none hop] at h
      rw [hnone]
      exact ih h
    | some now =>
      have hall : ∀ x ∈ (fd.moves op).filterMap Move.time, x = now := by
        intro x hx
        obtain ⟨m, hm, hx⟩ := List.mem_filterMap.mp hx
        rcases time_moves hm with ht | ht
        · rw [ht] at hx
          cases hx
        · rw [ht, hop] at hx
          exact (Option.some.inj hx).symm
      rw [List.filterMap_cons_some hop] at h
      obtain ⟨hle, hrest⟩ := List.pairwise_cons.mp h
      have hnow : clock ≤ now := hle now (List.mem_cons_self ..)
      obtain ⟨hlater, hmoves⟩ := List.pairwise_cons.mp (@ih ((fd.moves op).foldl move fd) now hrest)
      rw [List.pairwise_cons, List.pairwise_append]
      refine ⟨fun x hx ↦ ?_, ?_, hmoves, fun x hx y hy ↦ (hall x hx).trans_le (hlater y hy)⟩
      · rcases List.mem_append.mp hx with hx | hx
        · exact hnow.trans_eq (hall x hx).symm
        · exact hnow.trans (hlater x hx)
      · exact List.pairwise_of_forall_mem_list fun x hx y hy ↦
          ((hall x hx).trans (hall y hy).symm).le

/-- A tally with the time of the last move, the packets accepted, the rejections heard
and the timers that have set N(S) back. -/
structure Journal extends Tally where
  clock : Instant
  accepted : ℕ
  rejections : ℕ
  expiries : ℕ

namespace Journal

def start (fd : TinyFd) (created : Instant) : Journal := ⟨.start fd, created, 0, 0, 0⟩

def next (j : Journal) (m : Move) : Journal :=
  { j.toTally.next m with
    clock := m.time.getD j.clock
    accepted := j.accepted + j.fd.accepts m
    rejections := j.rejections + j.fd.rejections m
    expiries := j.expiries + j.fd.expiries m }

def step (j : Journal) (m : Move) : Option Journal := some (j.next m)

def OnTime (j : Journal) (m : Move) : Prop := ∀ now, m.time = some now → j.clock ≤ now

theorem onTime_of_pairwise {j : Journal} {ms : List Move}
    (h : (j.clock :: ms.filterMap Move.time).Pairwise (· ≤ ·)) : EachStep step OnTime j ms := by
  induction ms generalizing j with
  | nil => trivial
  | cons m ms ih =>
    constructor
    · intro now hnow
      rw [List.filterMap_cons_some hnow] at h
      exact (List.pairwise_cons.mp h).1 now (List.mem_cons_self ..)
    · intro j' hj'
      obtain rfl := Option.some.inj hj'
      refine ih ?_
      rw [next]
      cases hm : m.time with
      | none => rwa [List.filterMap_cons_none hm] at h
      | some now =>
        rw [List.filterMap_cons_some hm] at h
        exact (List.pairwise_cons.mp h).2

/-- The work that the peers still have, and the time that their timers have used up. -/
def backlog (fd : TinyFd) : ℕ := ∑ p ∈ Finset.range fd.peerMgr.peers.length, (fd.peer p).unsent

def iTime (past : Instant) (fd : TinyFd) : ℤ := ∑ p ∈ Finset.range fd.peerMgr.peers.length,
    ((fd.peer p).lastSentITs - past)

def frameTime (past : Instant) (fd : TinyFd) : ℤ :=
  ∑ p ∈ Finset.range fd.peerMgr.peers.length, ((fd.peer p).lastSentFrameTs - past)

/-- Data frames are paid for by packets and by what sets N(S) back, and timers by time. -/
structure Paced (past : Instant) (j : Journal) : Prop where
  wf : WellFormed j.fd
  iStamps : ∀ p < j.fd.peerMgr.peers.length, (j.fd.peer p).lastSentITs ≤ j.clock
  frameStamps : ∀ p < j.fd.peerMgr.peers.length, (j.fd.peer p).lastSentFrameTs ≤ j.clock
  data : j.handed.countP (fun data ↦ data.getD 1 0 &&& hdlcIFrameMask = hdlcIFrameBits) +
    backlog j.fd ≤
    j.accepted + 7 * (j.rejections + j.expiries)
  expiries : (j.expiries * j.fd.retryDur : ℤ) ≤ iTime past j.fd
  setups : (j.controls.countP (fun control ↦ IsSetup control) * j.fd.retryDur : ℤ) ≤
    frameTime past j.fd

variable {past : Instant} {j : Journal}

theorem backlog_move (h : WellFormed fd) (hm : Legal fd m) :
    backlog (fd.move m) + fd.dataFrames m ≤ backlog fd + fd.accepts m + 7 *
      (fd.rejections m + fd.expiries m) := by
  obtain ⟨p, hb⟩ := beat_move h hm
  have hone :=
    sum_range_one (f := fun q ↦ ((fd.move m).peer q).unsent) (g := fun q ↦ (fd.peer q).unsent) hb.lt
    fun q _ hne ↦ by rw [hb.others q hne]
  have hunsent := hb.unsent
  rw [backlog, backlog, peers_length_congr (setup_move h m)]
  omega

theorem stamp_le {ts ts' : ℤ} {j : Journal} (hle : ts ≤ j.clock) (htime : OnTime j m)
    (h : ts' = ts ∨ m.time = some ts') : ts ≤ ts' ∧ ts' ≤ (j.next m).clock := by
  have hclock : j.clock ≤ (j.next m).clock := by
    rw [next]
    cases hm : m.time with
    | none => exact le_refl _
    | some now => exact htime now hm
  rcases h with rfl | h
  · exact ⟨le_refl _, hle.trans hclock⟩
  · refine ⟨hle.trans (htime _ h), ?_⟩
    rw [next, h]
    exact le_refl _

theorem iTime_move (h : Paced past j) (hm : Legal j.fd m) (htime : OnTime j m) :
    iTime past j.fd + j.fd.expiries m * j.fd.retryDur ≤ iTime past (j.fd.move m) := by
  obtain ⟨p, hb⟩ := beat_move h.wf hm
  have hone := sum_range_one (M := ℤ) (f := fun q ↦ ((j.fd.move m).peer q).lastSentITs - past)
    (g := fun q ↦ (j.fd.peer q).lastSentITs - past) hb.lt fun q _ hne ↦ by rw [hb.others q hne]
  obtain ⟨hle, -⟩ := stamp_le (h.iStamps p hb.lt) htime hb.iStamp
  rw [iTime, iTime, peers_length_congr (setup_move h.wf m)]
  rcases hb.expiry with hzero | ⟨hexp, hdue, -⟩
  · rw [hzero]
    omega
  · rw [elapsed] at hdue
    rw [hexp]
    omega

theorem frameTime_move (h : Paced past j) {p : ℕ} (hb : Beat j.fd m p) (htime : OnTime j m) :
    frameTime past j.fd +
      (elapsed ((j.fd.move m).peer p).lastSentFrameTs (j.fd.peer p).lastSentFrameTs : ℤ) =
        frameTime past (j.fd.move m) := by
  have hone := sum_range_one (M := ℤ) (f := fun q ↦ ((j.fd.move m).peer q).lastSentFrameTs - past)
    (g := fun q ↦ (j.fd.peer q).lastSentFrameTs - past) hb.lt fun q _ hne ↦ by rw [hb.others q hne]
  obtain ⟨hle, -⟩ := stamp_le (h.frameStamps p hb.lt) htime hb.frameStamp
  rw [frameTime, frameTime, peers_length_congr (setup_move h.wf m), elapsed]
  omega

theorem Paced.next (h : Paced past j) (hm : Legal j.fd m) (htime : OnTime j m) :
    Paced past (j.next m) := by
  obtain ⟨p, hb⟩ := beat_move h.wf hm
  have hlen := peers_length_congr (setup_move h.wf m)
  have hdur := retryDur_move h.wf m
  refine ⟨wellFormed_move h.wf hm, fun q hq ↦ ?_, fun q hq ↦ ?_, ?_, ?_, ?_⟩
  · have hq' : q < j.fd.peerMgr.peers.length := hlen ▸ hq
    refine (stamp_le (h.iStamps q hq') htime ?_).2
    by_cases hqp : q = p
    · exact hqp ▸ hb.iStamp
    · exact .inl (congrArg PeerInfo.lastSentITs (hb.others q hqp))
  · have hq' : q < j.fd.peerMgr.peers.length := hlen ▸ hq
    refine (stamp_le (h.frameStamps q hq') htime ?_).2
    by_cases hqp : q = p
    · exact hqp ▸ hb.frameStamp
    · exact .inl (congrArg PeerInfo.lastSentFrameTs (hb.others q hqp))
  · have hold := h.data
    have hmove := backlog_move h.wf hm
    rw [dataFrames] at hmove
    change (j.handed ++ (j.fd.emits m).toList).countP _ + backlog (j.fd.move m) ≤ j.accepted +
      j.fd.accepts m +
      7 * (j.rejections + j.fd.rejections m + (j.expiries + j.fd.expiries m))
    rw [List.countP_append]
    omega
  · have hmove := iTime_move h hm htime
    have hold := h.expiries
    change ((j.expiries + j.fd.expiries m : ℕ) * (j.fd.move m).retryDur : ℤ) ≤
      iTime past (j.fd.move m)
    rw [hdur, Nat.cast_add, add_mul]
    omega
  · have hold := h.setups
    have hP : ∀ control, decide (IsSetup control) = true →
        control &&& hdlcIFrameMask ≠ hdlcIFrameBits :=
      fun control hc ↦ not_isI_of_service (.inl (of_decide_eq_true hc).1)
    change ((j.toTally.next m).controls.countP _ * (j.fd.move m).retryDur : ℤ) ≤
      frameTime past (j.fd.move m)
    rw [hdur]
    rcases Tally.countP_next h.wf hm hP with hsame | ⟨header, hcause, hset, hone⟩
    · have hmove := frameTime_move h hb htime
      rw [hsame]
      omega
    · obtain ⟨now, q, rfl, hq, hdue⟩ := hcause.of_setup (of_decide_eq_true hset)
      have hmove := frameTime_move h (beat_checkTimeout hq now) htime
      rw [hone, Nat.cast_add, add_mul]
      omega

theorem paced_new {config : TinyFdConfig} {created : Instant} {fd : TinyFd}
    (hnew : TinyFd.new config created = .ok fd) :
    Paced (created - 60 * 1000000000) (start fd created) := by
  have hinit := initial_new hnew
  have hpeer : ∀ p < fd.peerMgr.peers.length, (fd.peer p).unsent = 0 ∧
      (fd.peer p).lastSentITs = created - 60 * 1000000000 ∧ (fd.peer p).lastSentFrameTs = created -
        60 * 1000000000 := by
    intro p hp
    obtain ⟨addr, hpeer⟩ := hinit.peer hp
    rw [hpeer]
    exact ⟨seqDist_self, rfl, rfl⟩
  have hi : iTime (created - 60 * 1000000000) fd = 0 := by
    refine Finset.sum_eq_zero fun p hp ↦ ?_
    rw [(hpeer p (Finset.mem_range.mp hp)).2.1, sub_self]
  have hf : frameTime (created - 60 * 1000000000) fd = 0 := by
    refine Finset.sum_eq_zero fun p hp ↦ ?_
    rw [(hpeer p (Finset.mem_range.mp hp)).2.2, sub_self]
  have hb : backlog fd = 0 := Finset.sum_eq_zero fun p hp ↦ (hpeer p (Finset.mem_range.mp hp)).1
  have hcontrols : (start fd created).controls = [] := Tally.controls_new hnew
  refine ⟨wellFormed_new hnew, fun p hp ↦ ?_, fun p hp ↦ ?_, ?_, ?_, ?_⟩
  · rw [start, Tally.start, (hpeer p hp).2.1]
    exact sub_le_self created (by decide)
  · rw [start, Tally.start, (hpeer p hp).2.2]
    exact sub_le_self created (by decide)
  · rw [start, Tally.start, hb]
    exact Nat.le_refl _
  · rw [start, Tally.start, hi]
    simp
  · rw [hcontrols, start, Tally.start, hf]
    simp

theorem time_le {f : ℕ → Instant} {n : ℕ} {clock : Instant} (h : ∀ p < n, f p ≤ clock) :
    ∑ p ∈ Finset.range n, (f p - past) ≤ n * (clock - past) := by
  have hle :=
    Finset.sum_le_card_nsmul (Finset.range n) (fun p ↦ f p - past) (clock - past) fun p hp ↦
    sub_le_sub_right (h p (Finset.mem_range.mp hp)) past
  rwa [Finset.card_range, nsmul_eq_mul] at hle

end Journal

/-- However its peers behave, a station hands over no more data frames than packets accepted,
and seven for each REJ or SREJ heard and each timer that expires; and a peer's timers expire,
and ask for a connection, at most once in a retry timeout. -/
theorem traffic_bounded {config : TinyFdConfig} {created : Instant} {fd : TinyFd}
    (hnew : TinyFd.new config created = .ok fd) (ops : List Op)
    (hclock : (created :: ops.filterMap Op.time).Pairwise (· ≤ ·)) : EachState Journal.step (fun j ↦
        j.handed.countP (fun data ↦ data.getD 1 0 &&& hdlcIFrameMask = hdlcIFrameBits) ≤
          j.accepted + 7 * (j.rejections + j.expiries) ∧
        (j.expiries * fd.retryDur : ℤ) ≤ fd.peerMgr.peers.length *
          (j.clock - created + 60 * 1000000000) ∧
        (j.handed.countP (fun data ↦ IsSetup (data.getD 1 0)) * fd.retryDur : ℤ) ≤
          fd.peerMgr.peers.length * (j.clock - created + 60 * 1000000000))
      (Journal.start fd created) (fd.runMoves ops) := by
  have hlegal : EachStep Journal.step (fun j m ↦ Legal j.fd m) (Journal.start fd created)
      (fd.runMoves ops) :=
    @legal_watched _ Journal.step (fun j ↦ j.fd) (fun j m j' hs ↦ by rw [← Option.some.inj hs]; rfl)
      (Journal.start fd created) (wellFormed_new hnew) ops
  have htime : EachStep Journal.step Journal.OnTime (Journal.start fd created) (fd.runMoves ops) :=
    Journal.onTime_of_pairwise (clock_runMoves hclock)
  have hall : EachState Journal.step (fun j ↦ Journal.Paced (created - 60 * 1000000000) j ∧
      j.fd.setup = fd.setup) (Journal.start fd created) (fd.runMoves ops) := by
    refine eachState_of_eachStep ?_ ⟨Journal.paced_new hnew, rfl⟩ (hlegal.and htime)
    rintro j m j' ⟨hj, hset⟩ ⟨hm, ht⟩ hs
    obtain rfl := Option.some.inj hs
    exact ⟨hj.next hm ht, (setup_move hj.wf m).trans hset⟩
  refine hall.mono ?_
  rintro j ⟨hj, hset⟩
  have hlen : j.fd.peerMgr.peers.length = fd.peerMgr.peers.length := peers_length_congr hset
  have hdur : j.fd.retryDur = fd.retryDur := by
    have htimeout : j.fd.retryTimeout = fd.retryTimeout := congrArg Setup.retryTimeout hset
    rw [retryDur, retryDur, htimeout]
  rw [sub_add, ← hlen, ← hdur]
  refine ⟨(Nat.le_add_right _ _).trans hj.data, hj.expiries.trans (Journal.time_le hj.iStamps), ?_⟩
  refine le_trans ?_ (hj.setups.trans (Journal.time_le hj.frameStamps))
  rw [Tally.controls, List.countP_append, List.countP_map]
  refine mul_le_mul_of_nonneg_right ?_ (Int.natCast_nonneg _)
  exact Int.ofNat_le.mpr (Nat.le_add_right _ _)

def paceOps : List Op :=
  [.getTxData 500000000 9 0, .onRxData 500000001 [0x7E, 0x05, 0x73, 0x7E], .sendPacket 1 [0x41] 0,
    .sendPacket 1 [0x42] 0, .getTxData 500000002 9 0, .getTxData 500000002 9 0,
    .onRxData 500000003 [0x7E, 0x05, 0x09, 0x7E], .getTxData 500000004 9 0,
    .getTxData 900000000 9 0, .getTxData 900000000 9 0]

theorem traffic_bounded_resent :
    EachState Journal.step (fun j ↦
        j.handed.countP (fun data ↦ data.getD 1 0 &&& hdlcIFrameMask = hdlcIFrameBits) ≤
          j.accepted + 7 * (j.rejections + j.expiries) ∧
        (j.expiries * freshStation.retryDur : ℤ) ≤
          freshStation.peerMgr.peers.length * (j.clock - 0 + 60 * 1000000000) ∧
        (j.handed.countP (fun data ↦ IsSetup (data.getD 1 0)) * freshStation.retryDur : ℤ) ≤
          freshStation.peerMgr.peers.length * (j.clock - 0 + 60 * 1000000000))
      (Journal.start freshStation 0) (freshStation.runMoves paceOps) ∧
    (run Journal.step (Journal.start freshStation 0) (freshStation.runMoves paceOps)).map (fun j ↦
        (j.handed, j.accepted, j.rejections, j.expiries)) =
      some ([[5, 0x3F], [5, 0, 0x41], [5, 0x20, 0x42], [5, 0, 0x41], [5, 0, 0x41], [5, 0x20, 0x42]],
        2, 1, 1) :=
  ⟨traffic_bounded new_freshStation paceOps (by decide), by decide +kernel⟩

end TinyFd

end TinyProto
