import TinyProto.Fd.Single
import Mathlib.Order.Lattice.Nat

namespace TinyProto

def FdState.rank : FdState → ℕ
  | .disconnected => 0
  | .idle | .connected => 1
  | .connecting | .disconnecting => 2

namespace TinyFd

def IsRequest (data : Bytes) : Prop := IsSetup (data.getD 1 0) ∨ IsDisc (data.getD 1 0)

def Rejects (data : Bytes) : Prop :=
  data.getD 1 0 &&& hdlcUFrameMask ≠ hdlcUFrameBits ∧ IsRejection (data.getD 1 0)

def IsData (data : Bytes) : Prop := 2 ≤ data.length ∧
    data.getD 1 0 &&& hdlcIFrameMask = hdlcIFrameBits

def dataNs (data : Bytes) : UInt8 := (data.getD 1 0 >>> 5) &&& seqBitsMask

instance (data : Bytes) : Decidable (IsRequest data) := by unfold IsRequest; infer_instance

instance (data : Bytes) : Decidable (Rejects data) := by unfold Rejects; infer_instance

instance (data : Bytes) : Decidable (IsData data) := by unfold IsData; infer_instance

/-- What a frame on its way weighs: more than any frame that it makes its
receiver queue outside a session. -/
def frameWeight (data : Bytes) : ℕ :=
  if data.length < 2 ∨ data.getD 1 0 &&& hdlcUFrameMask = hdlcUFrameBits then 1
  else if data.getD 1 0 &&& hdlcIFrameMask = hdlcIFrameBits then 5
  else 3

theorem frameWeight_pos (data : Bytes) : 0 < frameWeight data := by
  rw [frameWeight]
  split
  · decide
  · split <;> decide

variable {fd fd' : TinyFd}

/-- What a station with one peer shows of the connection. -/
structure Gauge where
  state : FdState
  iQueue : FrameQueue
  nextNr : UInt8
  sentReject : Bool
  nextNs : UInt8
  lastNs : UInt8

def gauge (fd : TinyFd) : Gauge where
  state := (fd.peer 0).state
  iQueue := fd.frames.iQueue
  nextNr := (fd.peer 0).iQueueControl.rxState.nextNr
  sentReject := (fd.peer 0).sentReject
  nextNs := (fd.peer 0).iQueueControl.txState.nextNs
  lastNs := (fd.peer 0).iQueueControl.txState.lastNs

theorem gauge_touch (hp : 0 < fd.peerMgr.peers.length) (now : Instant) :
    (fd.touch 0 now).gauge = fd.gauge := by
  rw [gauge, peer_touch_self fd 0 now hp]
  rfl

theorem gauge_putUSFrame (frameType : QueuedFrameType) (header : FrameHeader) (data : Bytes) :
    (fd.putUSFrame frameType header data).1.gauge = fd.gauge := by
  rw [gauge, peer_putUSFrame, iQueue_putUSFrame]
  rfl

structure Queued (fd fd' : TinyFd) (extra : List FrameInfo) : Prop where
  perm : fd'.frames.sQueue.held.Perm (extra ++ fd.frames.sQueue.held)
  plain : ∀ frame ∈ extra, ¬ IsRequest frame.toBytes

/-- The effect of a received frame on a station with one peer, by what it costs. -/
inductive Effect (fd : TinyFd) (data : Bytes) (fd' : TinyFd) (extra : List FrameInfo) : Prop
  | answered : IsRequest data → Effect fd data fd' extra
  | moved : fd'.gauge.state.rank < fd.gauge.state.rank → Effect fd data fd' extra
  | freed : fd'.gauge.state = fd.gauge.state →
      fd'.gauge.iQueue.held.length < fd.gauge.iQueue.held.length →
      Effect fd data fd' extra
  | accepted : IsData data → dataNs data = fd.gauge.nextNr →
      fd'.gauge =
        { fd.gauge with nextNr := (fd.gauge.nextNr + 1) &&& seqBitsMask, sentReject := false } →
      Effect fd data fd' extra
  | rejected : fd.gauge.sentReject = false → fd'.gauge = { fd.gauge with sentReject := true } →
      extra.length ≤ 1 → Effect fd data fd' extra
  | rewound : Rejects data → extra = [] → (∃ ns, fd'.gauge = { fd.gauge with nextNs := ns }) →
      Effect fd data fd' extra
  | passed : fd'.gauge = fd.gauge → (∀ frame ∈ extra, ¬ Rejects frame.toBytes) →
      (extra.map fun frame ↦ frameWeight frame.toBytes).sum + extra.length < frameWeight data →
      Effect fd data fd' extra

theorem Queued.nothing (h : fd'.frames.sQueue = fd.frames.sQueue) : Queued fd fd' [] :=
  ⟨by rw [h]; exact List.Perm.refl _, by simp⟩

theorem Puts.queued_list {frame : FrameInfo} (h : Puts fd.frames.sQueue fd'.frames.sQueue frame)
    (hplain : ¬ IsRequest frame.toBytes) : ∃ extra, (extra = [] ∨ extra = [frame]) ∧
    Queued fd fd' extra := by
  rcases h with ⟨i, ha⟩ | ⟨-, hq⟩
  · exact ⟨[frame], .inr rfl, ha.perm, by simpa using hplain⟩
  · exact ⟨[], .inl rfl, .nothing hq⟩

theorem not_isRequest_sFrame {header : FrameHeader}
    (h : header.control &&& hdlcSFrameMask = hdlcSFrameBits) :
    ¬ IsRequest (⟨.sFrame, header, []⟩ : FrameInfo).toBytes := by
  have hne : hdlcSFrameBits ≠ hdlcUFrameBits := by decide
  rintro (hr | hr)
  · exact hne (h.symm.trans hr.1)
  · exact hne (h.symm.trans hr.1)

theorem foldl_freeByNs_shrinks (address : UInt8) (seqs : List UInt8) (q : FrameQueue) :
    seqs.foldl (fun q s ↦ q.freeByNs address s) q = q ∨
      (seqs.foldl (fun q s ↦ q.freeByNs address s) q).held.length < q.held.length := by
  induction seqs generalizing q with
  | nil => exact .inl rfl
  | cons s seqs ih =>
    rw [List.foldl_cons]
    rcases q.freeFirst_spec fun frame ↦
      frame.header.address == address && frame.frameType == .iFrame && frame.ns ==
        s with ⟨hsame, -⟩ |
      ⟨frame, -, hperm, -⟩
    · rw [FrameQueue.freeByNs, hsame]
      exact ih q
    · right
      have hlen := hperm.length_eq
      rw [List.length_cons] at hlen
      rw [FrameQueue.freeByNs]
      rcases ih (q.freeFirst fun frame ↦
        frame.header.address == address && frame.frameType == .iFrame && frame.ns == s) with h | h
      · rw [h]
        omega
      · omega

theorem Acked.gauge {n : ℕ} {control : UInt8} (h : Acked fd fd' 0 n control) :
    fd'.gauge.state = fd.gauge.state ∧ fd'.gauge.iQueue.held.length < fd.gauge.iQueue.held.length ∨
      fd'.gauge = { fd.gauge with
        nextNr := (fd'.peer 0).iQueueControl.rxState.nextNr
        sentReject := (fd'.peer 0).sentReject
        nextNs := if IsRejection control then ackNr control else fd.gauge.nextNs } := by
  rcases foldl_freeByNs_shrinks (fd.addrField 0)
    ((List.range (seqDist (seq n) (ackNr control))).map fun j ↦ seq (n + j))
      fd.frames.iQueue with hq | hq
  · right
    rw [TinyFd.gauge, h.txState, h.state, h.iQueue, hq]
    rfl
  · left
    rw [TinyFd.gauge, TinyFd.gauge, h.state, h.iQueue]
    exact ⟨rfl, hq⟩

theorem Effect.congr {fd₁ : TinyFd} {data : Bytes} {extra : List FrameInfo}
    (h : Effect fd₁ data fd' extra) (hg : fd₁.gauge = fd.gauge) : Effect fd data fd' extra := by
  cases h with
  | answered h => exact .answered h
  | moved h => exact .moved (hg ▸ h)
  | freed hs h => exact .freed (hg ▸ hs) (hg ▸ h)
  | accepted hd hns h => exact .accepted hd (hg ▸ hns) (hg ▸ h)
  | rejected hs h he => exact .rejected (hg ▸ hs) (hg ▸ h) he
  | rewound hr he h => exact .rewound hr he (hg ▸ h)
  | passed h hr hw => exact .passed (hg ▸ h) hr hw

theorem iFrame_effect (h : WellFormed fd) (hp : 0 < fd.peerMgr.peers.length) {data : Bytes}
    (hd : IsData data) :
    ∃ extra, Queued fd (fd.onIFrameReceived 0 data) extra ∧
    Effect fd data (fd.onIFrameReceived 0 data) extra := by
  obtain ⟨n, hn⟩ := exists_seq_of_lt (h.counters 0 hp).confirm
  obtain ⟨k, hk⟩ := exists_seq_of_lt (h.counters 0 hp).recv
  have hack := onIFrameReceived_acked hp hn data hd.2
  have hnot : ¬ IsRejection (data.getD 1 0) := fun hr ↦ hr.1 hd.2
  have hgauge := hack.gauge
  rw [if_neg hnot] at hgauge
  have hrx := onIFrameReceived_rx hp hn data
  dsimp only at hrx
  generalize fd.onIFrameReceived 0 data = fd' at hgauge hrx ⊢
  rcases hrx with ⟨-, -, hrx, hsent, hq⟩ | ⟨hns, -, hrx, hsent, hq⟩
  · rw [hrx, hsent] at hgauge
    rcases hq with ⟨hrej, hq⟩ | ⟨hrej, hq⟩
    · refine ⟨[], .nothing hq, ?_⟩
      rcases hgauge with ⟨hs, hlt⟩ | hg
      · exact .freed hs hlt
      · refine .passed ?_ (by simp) (frameWeight_pos data)
        rw [hg, ← hrej]
        rfl
    · obtain ⟨extra, hextra, hqueued⟩ :=
        hq.queued_list (by rw [hk]; exact not_isRequest_sFrame (rejHeader_fields _ k).2.2)
      refine ⟨extra, hqueued, ?_⟩
      rcases hgauge with ⟨hs, hlt⟩ | hg
      · exact .freed hs hlt
      · refine .rejected hrej hg ?_
        rcases hextra with rfl | rfl
        · exact Nat.zero_le _
        · exact le_rfl
  · rw [hrx, hsent] at hgauge
    obtain ⟨extra, -, hqueued⟩ := hq.queued_list
      (by rw [hk, seq_succ]; exact not_isRequest_sFrame (rrHeader_fields _ (k + 1)).2.2)
    refine ⟨extra, hqueued, ?_⟩
    rcases hgauge with ⟨hs, hlt⟩ | hg
    · exact .freed hs hlt
    · exact .accepted hd hns hg

theorem sFrame_effect (h : WellFormed fd) (hp : 0 < fd.peerMgr.peers.length) {data : Bytes}
    (hI : data.getD 1 0 &&& hdlcIFrameMask ≠ hdlcIFrameBits)
    (hU : data.getD 1 0 &&& hdlcUFrameMask ≠ hdlcUFrameBits) :
    ∃ extra, Queued fd (fd.onSFrameReceived 0 data) extra ∧
    Effect fd data (fd.onSFrameReceived 0 data) extra := by
  obtain ⟨n, hn⟩ := exists_seq_of_lt (h.counters 0 hp).confirm
  have hack := onSFrameReceived_acked hp hn data hI
  obtain ⟨-, hq, hrx, hsent⟩ := onSFrameReceived_rx hp hn data
  refine ⟨[], .nothing hq, ?_⟩
  have hgauge := hack.gauge
  rw [hrx, hsent] at hgauge
  rcases hgauge with ⟨hs, hlt⟩ | hg
  · exact .freed hs hlt
  · by_cases hrej : IsRejection (data.getD 1 0)
    · exact .rewound ⟨hU, hrej⟩ rfl ⟨_, hg⟩
    · rw [if_neg hrej] at hg
      exact .passed hg (by simp) (frameWeight_pos data)

theorem onFrameReceived_effect (h : WellFormed fd) (hone : fd.peerMgr.peers.length = 1)
    (now : Instant) (data : Bytes) : ∃ extra, Queued fd (fd.onFrameReceived now data) extra ∧
      Effect fd data (fd.onFrameReceived now data) extra := by
  have hzero : 0 < fd.peerMgr.peers.length := by omega
  have hzero₁ : 0 < (fd.touch 0 now).peerMgr.peers.length := by rwa [peers_length_touch]
  have hwf := wellFormed_touch h hzero now
  have hg := gauge_touch hzero now
  obtain ⟨-, hua, hua', hdm, hdm'⟩ := kinds_distinct
  have hanswer : ¬ IsRequest (⟨.uFrame, uaHeader (fd.addrField 0), []⟩ : FrameInfo).toBytes :=
    not_or.mpr ⟨hua, hua'⟩
  have hputs := @putUSFrame_puts (fd.touch 0 now) _ rfl .uFrame
  obtain hr := onFrameReceived_reaction h hone now data
  generalize fd.onFrameReceived now data = fd' at hr ⊢
  cases hr with
  | ignored => exact ⟨[], .nothing rfl, .passed rfl (by simp) (frameWeight_pos data)⟩
  | setup haddr hset =>
    obtain ⟨extra, -, hperm, hplain⟩ :=
      Puts.queued_list (hputs (uaHeader (fd.addrField 0)) []) hanswer
    refine ⟨extra, ⟨?_, hplain⟩, .answered (.inl hset)⟩
    rw [frames_switchToConnected]
    exact hperm
  | opened haddr hset hs =>
    refine ⟨[], .nothing (by rw [frames_switchToConnected]; rfl), .moved ?_⟩
    change ((fd.touch 0 now).switchToConnected 0 now |>.peer 0).state.rank < (fd.peer 0).state.rank
    rw [state_switchToConnected _ 0 now hzero₁, hs]
    decide
  | disc haddr hdisc =>
    obtain ⟨extra, -, hperm, hplain⟩ :=
      Puts.queued_list (hputs (uaHeader (fd.addrField 0)) []) hanswer
    refine ⟨extra, ⟨?_, hplain⟩, .answered (.inr hdisc)⟩
    rw [sQueue_switchToDisconnected]
    exact hperm
  | closed haddr hdown =>
    refine ⟨[], .nothing (by rw [sQueue_switchToDisconnected]; rfl), ?_⟩
    by_cases hs : (fd.peer 0).state = .disconnected
    · have hs₁ : ((fd.touch 0 now).peer 0).state = .disconnected :=
        congrArg Gauge.state hg |>.trans hs
      rw [switchToDisconnected_of_disconnected _ 0 now hs₁]
      exact .passed hg (by simp) (frameWeight_pos data)
    · apply Effect.moved
      change ((fd.touch 0 now).switchToDisconnected 0 now |>.peer 0).state.rank <
        (fd.peer 0).state.rank
      rw [state_switchToDisconnected _ 0 now hzero₁]
      cases hs' : (fd.peer 0).state with
      | disconnected => exact absurd hs' hs
      | _ => decide
  | otherU => exact ⟨[], .nothing rfl, .passed hg (by simp) (frameWeight_pos data)⟩
  | refused haddr hU =>
    obtain ⟨extra, hextra, hqueued⟩ :=
      Puts.queued_list (hputs (dmHeader (fd.addrField 0)) []) (not_or.mpr ⟨hdm, hdm'⟩)
    have hdmU : (hdlcUFrameTypeDm ||| hdlcUFrameBits) &&& hdlcUFrameMask = hdlcUFrameBits := by
      decide
    refine ⟨extra, ⟨hqueued.perm, hqueued.plain⟩, .passed ((gauge_putUSFrame ..).trans hg) ?_ ?_⟩
    · rcases hextra with rfl | rfl
      · simp
      · simp only [List.mem_singleton, forall_eq]
        exact fun hr ↦ hr.1 hdmU
    · have hdata : 3 ≤ frameWeight data := by
        rw [frameWeight, if_neg (not_or.mpr ⟨by have := haddr.1; omega, hU⟩)]
        split <;> decide
      rcases hextra with rfl | rfl
      · exact frameWeight_pos data
      · have hw : frameWeight (⟨.uFrame, dmHeader (fd.addrField 0), []⟩ : FrameInfo).toBytes = 1 :=
          if_pos (.inr hdmU)
        simp only [List.map_cons, List.map_nil, List.sum_cons, List.sum_nil, List.length_cons,
          List.length_nil, hw]
        omega
  | iFrame haddr hI =>
    obtain ⟨extra, hqueued, he⟩ := iFrame_effect hwf hzero₁ ⟨haddr.1, hI⟩
    exact ⟨extra, ⟨hqueued.perm, hqueued.plain⟩, he.congr hg⟩
  | sFrame haddr hI hU =>
    obtain ⟨extra, hqueued, he⟩ := sFrame_effect hwf hzero₁ hI hU
    exact ⟨extra, ⟨hqueued.perm, hqueued.plain⟩, he.congr hg⟩

def Alike (x data : Bytes) : Prop := x.length < 2 ∨ x.getD 1 0 = data.getD 1 0

section Alike

variable {x data : Bytes} (h : Alike x data)
include h

theorem Alike.control : x.getD 1 0 = 0 ∨ x.getD 1 0 = data.getD 1 0 := by
  apply h.imp_left
  intro hshort
  rw [List.getD_eq_default _ _ (by omega)]

theorem Alike.isRequest (hx : IsRequest x) : IsRequest data := by
  rcases h.control with hc | hc
  · rw [IsRequest, hc] at hx
    exact absurd hx (by decide)
  · rwa [IsRequest, ← hc]

theorem Alike.rejects (hx : Rejects x) : Rejects data := by
  rcases h.control with hc | hc
  · rw [Rejects, hc] at hx
    exact absurd hx (by decide)
  · rwa [Rejects, ← hc]

theorem Alike.isData (hd : 2 ≤ data.length) (hx : IsData x) : IsData data ∧
    dataNs x = dataNs data := by
  rcases h with hshort | hc
  · exact absurd hx.1 (by omega)
  · refine ⟨⟨hd, hc ▸ hx.2⟩, ?_⟩
    rw [dataNs, hc, dataNs]

theorem Alike.weight (hd : 2 ≤ data.length) : frameWeight x ≤ frameWeight data := by
  by_cases hx : x.length < 2
  · rw [frameWeight, if_pos (.inl hx)]
    exact frameWeight_pos data
  · rcases h with hshort | hc
    · exact absurd hshort hx
    · simp only [frameWeight, hc, hx, Nat.not_lt.mpr hd]
      exact le_rfl

end Alike

theorem seqDist_succ_lt {a b : UInt8} (ha : a < 8) (hb : b < 8) (hne : a ≠ b) :
    seqDist ((a + 1) &&& seqBitsMask) b < seqDist a b := by
  obtain ⟨m, rfl⟩ := exists_seq_of_lt ha
  have hsame := exists_seq hb m
  have hlt := seqDist_lt (seq m) b
  generalize seqDist (seq m) b = d at hsame hlt ⊢
  subst hsame
  have hpos : d ≠ 0 := by
    rintro rfl
    exact hne rfl
  rw [seq_succ, show m + d = m + 1 + (d - 1) by omega, seqDist_seq]
  omega

inductive Emits (fd fd' : TinyFd) : Prop
  | nothing : handed fd fd' = none → fd' = fd → Emits fd fd'
  | service {frame : FrameInfo} : handed fd fd' = some frame.toBytes → ¬ IsData frame.toBytes →
      fd'.gauge = fd.gauge → fd.frames.sQueue.held.Perm (frame :: fd'.frames.sQueue.held) →
      Emits fd fd'
  | data {data : Bytes} : handed fd fd' = some data → IsData data →
      dataNs data ∈ fd.gauge.iQueue.held.map FrameInfo.ns → fd.gauge.nextNs ≠ fd.gauge.lastNs →
      fd'.gauge = { fd.gauge with nextNs := (fd.gauge.nextNs + 1) &&& seqBitsMask } →
      fd'.frames.sQueue = fd.frames.sQueue → Emits fd fd'

theorem generateTxFrames_emits (h : WellFormed fd) (hone : fd.peerMgr.peers.length = 1)
    (now : Instant) :
    Emits fd (fd.generateTxFrames now) := by
  have hzero : 0 < fd.peerMgr.peers.length := by omega
  rcases generateTxFrames_handed hone now with ⟨hn, he, -⟩ | ⟨-, i, frame, hi, -, hh, he⟩ |
    ⟨-, -, frame, ⟨-, hne, i, hget⟩, hh, he⟩
  · exact .nothing hn he
  · have hperm := FrameQueue.free_perm hi
    have hservice := (h.sFrames frame (hperm.mem_iff.mpr (List.mem_cons_self ..))).2.2
    refine .service hh ?_ (by rw [he]; rfl) (by rw [he]; exact hperm)
    exact fun hd ↦ not_isI_of_service (hservice.imp (·.2) (·.2)) hd.2
  · obtain ⟨k, hk⟩ := exists_seq_of_lt (h.counters 0 hzero).next
    obtain ⟨m, hm⟩ := exists_seq_of_lt (h.counters 0 hzero).recv
    obtain ⟨hmem, -, -, hns⟩ := FrameQueue.getNext_some hget
    have hcontrol : (fd.sendIData 0 frame).getD 1 0 = iControl (seq k) (seq m) := by
      rw [sendIData_eq, hk, hm]
      rfl
    refine .data hh ⟨?_, ?_⟩ ?_ hne ?_ (by rw [he]; rfl)
    · rw [sendIData_eq]
      exact Nat.le_add_left 2 _
    · rw [hcontrol]
      exact isI_iControl k m
    · rw [dataNs, hcontrol, ns_iControl, ← hk, ← hns rfl]
      exact List.mem_map_of_mem hmem
    · rw [he, gauge, peer_modifyPeer_self (by exact hzero)]
      rfl

/-- How far the receiver can go on accepting before it needs a number that the
sender does not hold. -/
noncomputable def gap (numbers : List UInt8) (n : UInt8) : ℕ :=
  sInf {k | seq (n.toNat + k) ∉ numbers}

theorem exists_gap {numbers : List UInt8} (hlen : numbers.length < 8) (n : UInt8) :
    ∃ k, seq (n.toNat + k) ∉ numbers := by
  by_contra hall
  simp only [not_exists, not_not] at hall
  have hnodup : ((List.range 8).map fun k ↦ seq (n.toNat + k)).Nodup := by
    apply List.Nodup.map_on _ List.nodup_range
    intro x hx y hy hxy
    rw [List.mem_range] at hx hy
    have hsame := seq_inj hxy (by omega) (by omega)
    omega
  have hsub : ((List.range 8).map fun k ↦ seq (n.toNat + k)) ⊆ numbers := by
    intro x hx
    obtain ⟨k, -, rfl⟩ := List.mem_map.mp hx
    exact hall k
  have hle := (hnodup.subperm hsub).length_le
  rw [List.length_map, List.length_range] at hle
  omega

theorem gap_succ_lt {numbers : List UInt8} (hlen : numbers.length < 8) {n : UInt8} (hn : n < 8)
    (hmem : n ∈ numbers) : gap numbers ((n + 1) &&& seqBitsMask) < gap numbers n := by
  have hin : gap numbers n ∈ {k | seq (n.toNat + k) ∉ numbers} := Nat.sInf_mem (exists_gap hlen n)
  have hself : seq n.toNat = n := by
    apply UInt8.toNat_inj.mp
    rw [toNat_seq]
    exact Nat.mod_eq_of_lt hn
  have hpos : gap numbers n ≠ 0 := by
    intro hz
    rw [hz] at hin
    change seq (n.toNat + 0) ∉ numbers at hin
    rw [Nat.add_zero, hself] at hin
    exact hin hmem
  have hshift : ∀ k, seq (((n + 1) &&& seqBitsMask).toNat + k) = seq (n.toNat + (k + 1)) := by
    intro k
    rw [seq_eq_iff, toNat_mask, UInt8.toNat_add]
    simp only [UInt8.toNat_one]
    omega
  have hle : gap numbers ((n + 1) &&& seqBitsMask) ≤ gap numbers n - 1 := by
    apply Nat.sInf_le
    change seq (_ + _) ∉ numbers
    rw [hshift, Nat.sub_add_cancel (Nat.pos_of_ne_zero hpos)]
    exact hin
  omega

end TinyFd

end TinyProto
