import TinyProto.Net.Disconnect
import TinyProto.Net.Lockstep

namespace TinyProto

open Lib

namespace TinyFd

variable {fd₀ fd : TinyFd} {start now : Instant}

def sabm (address : UInt8) : Bytes := [address, hdlcUFrameTypeSabm ||| hdlcUFrameBits ||| hdlcPBit]

def ua (address : UInt8) : Bytes := [address, hdlcUFrameTypeUa ||| hdlcUFrameBits ||| hdlcFBit]

theorem sabm_ne_ua (address : UInt8) : sabm address ≠ ua address := by
  intro h
  rw [sabm, ua, List.cons.injEq, List.cons.injEq] at h
  exact absurd h.2.1 (by decide)

/-- A station that was disconnected, since `start`: it may have asked for the
connection, and it may have it. -/
structure Rising (start : Instant) (fd₀ fd : TinyFd) : Prop where
  setup : fd.setup = fd₀.setup
  state : (fd.peer 0).state = .disconnected ∨ (fd.peer 0).state = .connecting ∨
    (fd.peer 0).state = .connected
  down : (fd.peer 0).state = .disconnected →
    (fd.peer 0).lastSentFrameTs = (fd₀.peer 0).lastSentFrameTs
  asked : (fd.peer 0).state = .connecting → start ≤ (fd.peer 0).lastSentFrameTs
  up : (fd.peer 0).state = .connected → (fd.peer 0).iQueueControl = .new
  told : fd.callbacks = fd₀.callbacks ++
    if (fd.peer 0).state = .connected then [.connect (fd₀.userAddress 0) true] else []
  iQueue : fd.frames.iQueue.held = []

namespace Rising

variable (h : Rising start fd₀ fd)
include h

theorem of_switch (hzero : 0 < fd.peerMgr.peers.length) :
    Rising start fd₀ (fd.switchToConnected 0 now) := by
  by_cases hs : (fd.peer 0).state = .connected
  · rwa [switchToConnected_of_connected fd 0 now hs]
  have hup := state_switchToConnected fd 0 now hzero
  have htold := h.told
  rw [if_neg hs, List.append_nil] at htold
  refine ⟨(setup_switchToConnected ..).trans h.setup, .inr (.inr hup), ?_, ?_, ?_, ?_, ?_⟩
  · intro hdown
    rw [hup] at hdown
    cases hdown
  · intro hasked
    rw [hup] at hasked
    cases hasked
  · intro _
    rw [peer_switchToConnected_self fd 0 now hzero hs]
    rfl
  · rw [callbacks_switchToConnected fd 0 now hs, htold, if_pos hup, userAddress_congr h.setup]
  · rw [frames_switchToConnected]
    exact h.iQueue

theorem touch (hzero : 0 < fd.peerMgr.peers.length) : Rising start fd₀ (fd.touch 0 now) := by
  have hpeer := peer_touch_self fd 0 now hzero
  refine ⟨(setup_touch ..).trans h.setup, ?_, ?_, ?_, ?_, ?_, h.iQueue⟩ <;> rw [hpeer]
  · exact h.state
  · exact h.down
  · exact h.asked
  · exact h.up
  · exact h.told

theorem putUSFrame (frameType : QueuedFrameType) (header : FrameHeader) (data : Bytes) :
    Rising start fd₀ (fd.putUSFrame frameType header data).1 := by
  refine ⟨(setup_putUSFrame ..).trans h.setup, ?_, ?_, ?_, ?_, ?_, ?_⟩
  · rw [peer_putUSFrame]
    exact h.state
  · rw [peer_putUSFrame]
    exact h.down
  · rw [peer_putUSFrame]
    exact h.asked
  · rw [peer_putUSFrame]
    exact h.up
  · rw [callbacks_putUSFrame, peer_putUSFrame]
    exact h.told
  · rw [iQueue_putUSFrame]
    exact h.iQueue

theorem not_sendable (frame : FrameInfo) : ¬ fd.Sendable 0 frame := by
  rintro ⟨hconn, hne, -⟩
  rw [h.up hconn] at hne
  exact hne rfl

theorem checkTimeouts_cases (hone : fd.peerMgr.peers.length = 1)
    (hnow : elapsed now start < fd₀.retryDur) :
    (fd.checkTimeouts now = fd ∧ ((fd.peer 0).state = .disconnected →
      ¬ (fd.mode = .abm ∧ elapsed now (fd.peer 0).lastSentFrameTs ≥ fd₀.retryDur))) ∨
    (fd.peer 0).state = .disconnected ∧
      fd.checkTimeouts now = (fd.putUSFrame .uFrame (fd.sabmHeader 0) []).1.modifyPeer 0 fun q ↦
        { q with state := .connecting, lastSentFrameTs := now } := by
  have hdur : fd.retryDur = fd₀.retryDur := by
    rw [TinyFd.retryDur, TinyFd.retryDur,
      show fd.retryTimeout = fd₀.retryTimeout from congrArg Setup.retryTimeout h.setup]
  have he : fd.checkTimeouts now = fd.checkTimeout now 0 := by
    rw [TinyFd.checkTimeouts, hone]
    rfl
  rw [he, ← hdur]
  rcases h.state with hs | hs | hs
  · rw [checkTimeout, hs]
    dsimp only
    by_cases hdue : fd.mode = .abm ∧ elapsed now (fd.peer 0).lastSentFrameTs ≥ fd.retryDur
    · rw [if_pos hdue]
      exact .inr ⟨rfl, rfl⟩
    · rw [if_neg hdue]
      exact .inl ⟨rfl, fun _ ↦ hdue⟩
  · left
    have hearly : ¬ elapsed now (fd.peer 0).lastSentFrameTs ≥ fd.retryDur := by
      have hts : elapsed now (fd.peer 0).lastSentFrameTs ≤ elapsed now start :=
        Int.toNat_le_toNat (Int.sub_le_sub_left (h.asked hs) now)
      omega
    rw [checkTimeout, hs]
    dsimp only
    rw [if_neg hearly]
    exact ⟨rfl, fun hdown ↦ by cases hdown⟩
  · left
    have hnone : (fd.peer 0).iQueueControl.hasUnconfirmedFrames = false := by
      rw [h.up hs]
      rfl
    rw [checkTimeout, hs]
    dsimp only
    rw [hnone, if_neg (by simp)]
    exact ⟨rfl, fun hdown ↦ by cases hdown⟩

theorem ask (hzero : 0 < fd.peerMgr.peers.length) (hs : (fd.peer 0).state = .disconnected)
    (hnow : start ≤ now) :
    Rising start fd₀ ((fd.putUSFrame .uFrame (fd.sabmHeader 0) []).1.modifyPeer 0 fun q ↦
      { q with state := .connecting, lastSentFrameTs := now }) := by
  have hput := h.putUSFrame .uFrame (fd.sabmHeader 0) []
  have hpeer : ((fd.putUSFrame .uFrame (fd.sabmHeader 0) []).1.modifyPeer 0 fun q ↦
      { q with state := .connecting, lastSentFrameTs := now }).peer 0 =
        { fd.peer 0 with state := .connecting, lastSentFrameTs := now } := by
    rw [peer_modifyPeer_self (by rwa [peerMgr_putUSFrame]), peer_putUSFrame]
  refine ⟨?_, ?_, ?_, ?_, ?_, ?_, ?_⟩
  · refine (setup_modifyPeer 0 ?_).trans hput.setup
    intro _
    rfl
  · rw [hpeer]
    exact .inr (.inl rfl)
  · rw [hpeer]
    exact fun hdown ↦ by cases hdown
  · rw [hpeer]
    exact fun _ ↦ hnow
  · rw [hpeer]
    exact fun hup ↦ by cases hup
  · have htold := hput.told
    rw [peer_putUSFrame, if_neg (by rw [hs]; decide)] at htold
    rw [callbacks_modifyPeer, hpeer, if_neg FdState.noConfusion]
    exact htold
  · rw [frames_modifyPeer]
    exact hput.iQueue

theorem onFrameReceived (hone : fd.peerMgr.peers.length = 1) {data : Bytes}
    (haddressed : fd.AddressedTo 0 data)
    (hkind : data = sabm (fd.addrField 0) ∨ data = ua (fd.addrField 0) ∧
      (fd.peer 0).state ≠ .disconnected) :
    let fd' := fd.onFrameReceived now data
    Rising start fd₀ fd' ∧ (fd'.peer 0).state = .connected ∧
      (data = sabm (fd.addrField 0) →
        Puts fd.frames.sQueue fd'.frames.sQueue ⟨.uFrame, uaHeader (fd.addrField 0), []⟩) ∧
      (data = ua (fd.addrField 0) → fd'.frames.sQueue = fd.frames.sQueue) := by
  intro fd'
  have hzero : 0 < fd.peerMgr.peers.length := by omega
  have hzero₁ : 0 < (fd.touch 0 now).peerMgr.peers.length := by rwa [peers_length_touch]
  have ht : Rising start fd₀ (fd.touch 0 now) := h.touch hzero
  rcases hkind with rfl | ⟨rfl, hs⟩
  · have hset : IsSetup (hdlcUFrameTypeSabm ||| hdlcUFrameBits ||| hdlcPBit) := by decide
    have he : fd' = _ := onFrameReceived_setup (by decide) now haddressed hset
    have hzero₂ : 0 <
        ((fd.touch 0 now).putUSFrame .uFrame (uaHeader (fd.addrField 0))
          []).1.peerMgr.peers.length := by
      rwa [peerMgr_putUSFrame]
    rw [he]
    refine ⟨(ht.putUSFrame ..).of_switch hzero₂, state_switchToConnected _ 0 now hzero₂,
      fun _ ↦ ?_, ?_⟩
    · rw [frames_switchToConnected]
      exact putUSFrame_puts (by rw [frames_touch]) ..
    · exact fun hua ↦ absurd hua (sabm_ne_ua _)
  · have hua : IsUa (hdlcUFrameTypeUa ||| hdlcUFrameBits ||| hdlcFBit) := by decide
    have hfst : ua (fd.addrField 0) = sabm (fd.addrField 0) →
        Puts fd.frames.sQueue fd'.frames.sQueue ⟨.uFrame, uaHeader (fd.addrField 0), []⟩ :=
      fun hsabm ↦ absurd hsabm (sabm_ne_ua _).symm
    rcases h.state with hdown | hasked | hup
    · exact absurd hdown hs
    · have he : fd' = _ := onFrameReceived_ua hzero (by decide) now haddressed hua hasked
      refine ⟨he ▸ ht.of_switch hzero₁, ?_, hfst, fun _ ↦ ?_⟩ <;> rw [he]
      · exact state_switchToConnected _ 0 now hzero₁
      · rw [frames_switchToConnected, frames_touch]
    · have he : fd' = fd.touch 0 now := by
        have hu := onFrameReceived_u (by decide) now haddressed hua.1
        have hstate : ((fd.touch 0 now).peer 0).state = .connected := by
          rw [peer_touch_self fd 0 now hzero, hup]
        have hne : hdlcUFrameTypeUa ≠ hdlcUFrameTypeSabm := by decide
        refine hu.trans ?_
        rw [onUFrameReceived, show (ua (fd.addrField 0)).getD 1 0 &&& hdlcUFrameTypeMask =
          hdlcUFrameTypeUa from hua.2, if_neg hne, if_pos rfl, hstate]
      refine ⟨he ▸ ht, ?_, hfst, fun _ ↦ by rw [he, frames_touch]⟩
      rw [he, peer_touch_self fd 0 now hzero, hup]

end Rising

end TinyFd

namespace Frames

open TinyFd Side

variable {f f' : Frames} {start now : Instant} {fd₀ : Bool → TinyFd} {addr : UInt8} {s : Bool}

/-- Two stations between the first SABM and the moment in which both are connected,
with what each of them waits for on its way. -/
structure Opening (start : Instant) (fd₀ : Bool → TinyFd) (addr : UInt8) (f : Frames) : Prop where
  address : ∀ s, (f s).station.addrField 0 = addr
  rising : ∀ s, Rising start (fd₀ s) (f s).station
  kinds : ∀ s, ∀ frame ∈ f.coming s, frame = sabm addr ∨ frame = ua addr
  quota : ∀ s, (f.coming s).count (sabm addr) + (f.coming !s).count (ua addr) ≤
    if ((f !s).station.peer 0).state = .disconnected then 0 else 1
  answered : ∀ s, ua addr ∈ f.coming s → ((f !s).station.peer 0).state = .connected
  waiting : ∀ s, ((f s).station.peer 0).state = .connecting → sabm addr ∈ f.coming (!s) ∨
    ua addr ∈ f.coming s
  reached : ∀ s, ((f s).station.peer 0).state = .connected →
    ((f !s).station.peer 0).state = .connected ∨ ua addr ∈ f.coming !s

theorem Opening.congr (h : Opening start fd₀ addr f)
    (hset : ∀ t, (f' t).station.addrField 0 = (f t).station.addrField 0)
    (hrising : ∀ t, Rising start (fd₀ t) (f' t).station)
    (hstate : ∀ t, ((f' t).station.peer 0).state = ((f t).station.peer 0).state)
    (hcoming : ∀ t, (f'.coming t).Perm (f.coming t)) : Opening start fd₀ addr f' := by
  refine ⟨fun t ↦ (hset t).trans (h.address t), hrising, ?_, ?_, ?_, ?_, ?_⟩ <;> intro t
  · exact fun frame hmem ↦ h.kinds t frame ((hcoming t).mem_iff.mp hmem)
  · rw [(hcoming t).count_eq, (hcoming !t).count_eq, hstate]
    exact h.quota t
  · rw [(hcoming t).mem_iff, hstate]
    exact h.answered t
  · rw [(hcoming !t).mem_iff, (hcoming t).mem_iff, hstate]
    exact h.waiting t
  · rw [(hcoming !t).mem_iff, hstate, hstate]
    exact h.reached t

theorem Opening.withHdlc (h : Opening start fd₀ addr f) (s : Bool) (ll : HdlcLl) :
    Opening start fd₀ addr (f.withHdlc s ll) := by
  have hself : f.withHdlc s ll s = { f s with station := (f s).station.withHdlc ll } := put_self
  have hnot : f.withHdlc s ll (!s) = f (!s) := put_not
  apply h.congr
  · exact both s (by rw [hself]; rfl) (by rw [hnot])
  · refine both s ?_ ?_
    · obtain ⟨h₁, h₂, h₃, h₄, h₅, h₆, h₇⟩ := h.rising s
      rw [hself]
      exact ⟨h₁, h₂, h₃, h₄, h₅, h₆, h₇⟩
    · rw [hnot]
      exact h.rising _
  · exact both s (by rw [hself]; rfl) (by rw [hnot])
  · refine both s ?_ ?_
    · rw [coming, hself, hnot, coming]
    · rw [coming, Bool.not_not, hself, hnot, coming, Bool.not_not]
      rfl

theorem Opening.room (h : Opening start fd₀ addr f) (hl : Linked f) (s : Bool) :
    (f s).station.frames.sQueue.hasFreeSlots := by
  have hheld : ∀ frame ∈ (f s).station.frames.sQueue.held.map FrameInfo.toBytes, frame = sabm addr ∨
      frame = ua addr := by
    intro frame hmem
    apply h.kinds !s
    rw [coming, Bool.not_not]
    exact List.mem_append_right _ hmem
  have hle : ∀ x, ((f s).station.frames.sQueue.held.map FrameInfo.toBytes).count x ≤
      (f.coming !s).count x := by
    intro x
    rw [coming, Bool.not_not, List.count_append]
    exact Nat.le_add_left _ _
  have hone : ∀ n : ℕ, ∀ p : Prop, [Decidable p] → n ≤ (if p then 0 else 1) → n ≤ 1 := by
    intro n p _ hn
    split at hn <;> omega
  have h₁ := hone _ _ (h.quota !s)
  have h₂ := hone _ _ (h.quota s)
  have hs := hle (sabm addr)
  have hu := hle (ua addr)
  have hlen : ∀ xs : List Bytes, (∀ x ∈ xs, x = sabm addr ∨ x = ua addr) →
      xs.length = xs.count (sabm addr) + xs.count (ua addr) := by
    intro xs hxs
    induction xs with
    | nil => rfl
    | cons x xs ih =>
      have hih := ih fun y hy ↦ hxs y (List.mem_cons_of_mem x hy)
      rw [List.length_cons, hih]
      rcases hxs x (List.mem_cons_self ..) with rfl | rfl
      · rw [List.count_cons_self, List.count_cons_of_ne (sabm_ne_ua addr)]
        omega
      · rw [List.count_cons_self, List.count_cons_of_ne (sabm_ne_ua addr).symm]
        omega
  rw [FrameQueue.hasFreeSlots_iff, (hl.wf s).sCapacity, ← List.length_map FrameInfo.toBytes,
    hlen _ hheld, uQueueMaxSize]
  omega

theorem coming_put {frame : FrameInfo} (hnot : f' (!s) = f (!s))
    (hputs : Puts (f s).station.frames.sQueue (f' s).station.frames.sQueue frame)
    (hroom : (f s).station.frames.sQueue.hasFreeSlots) :
    (f'.coming !s).Perm (frame.toBytes :: f.coming !s) := by
  rcases hputs with ⟨i, ha⟩ | ⟨hfull, -⟩
  · rw [coming, coming, Bool.not_not, hnot]
    exact ((ha.perm.map FrameInfo.toBytes).append_left _).trans List.perm_middle
  · have hlt := (FrameQueue.hasFreeSlots_iff _).mp hroom
    omega

theorem Opening.checkTimeouts (h : Opening start fd₀ addr f) (hl : Linked f) (s : Bool)
    (hnow : start ≤ now) (hearly : elapsed now start < (fd₀ s).retryDur) :
    Opening start fd₀ addr (f.checkTimeouts s now) := by
  have hzero : 0 < (f s).station.peerMgr.peers.length := by rw [hl.one s]; decide
  have hset := addrField_congr (setup_checkTimeouts (f s).station now) 0
  have hself : f.checkTimeouts s now s = { f s with station := (f s).station.checkTimeouts now } :=
    put_self
  have hnot : f.checkTimeouts s now (!s) = f (!s) := put_not
  have hrise := h.rising s
  generalize f.checkTimeouts s now = f' at hself hnot ⊢
  rcases hrise.checkTimeouts_cases (hl.one s) hearly with ⟨he, -⟩ | ⟨hs, he⟩
  · rw [he] at hself
    have hsame : f' = f := ext_not hself hnot
    exact hsame.symm ▸ h
  have hasked := hrise.ask hzero hs hnow
  have hstate : (((f s).station.checkTimeouts now).peer 0).state = .connecting := by
    rw [he, peer_modifyPeer_self (by rwa [peerMgr_putUSFrame])]
  have hputs : Puts (f s).station.frames.sQueue ((f s).station.checkTimeouts now).frames.sQueue
      ⟨.uFrame, (f s).station.sabmHeader 0, []⟩ := by
    rw [he, frames_modifyPeer]
    exact putUSFrame_puts rfl ..
  rw [← he] at hasked
  generalize (f s).station.checkTimeouts now = fd' at hset hself hasked hstate hputs
  have hback : f'.coming s = f.coming s := by rw [coming, coming, hself, hnot]
  have hforth : (f'.coming !s).Perm (_ :: f.coming !s) :=
    coming_put hnot (by rwa [hself]) (h.room hl s)
  have hsabm : (⟨.uFrame, (f s).station.sabmHeader 0, []⟩ : FrameInfo).toBytes = sabm addr := by
    rw [← h.address s]
    rfl
  rw [hsabm] at hforth
  have hcount : (f'.coming !s).count (sabm addr) = (f.coming !s).count (sabm addr) + 1 ∧
      (f'.coming !s).count (ua addr) = (f.coming !s).count (ua addr) := by
    rw [hforth.count_eq, hforth.count_eq, List.count_cons_self,
      List.count_cons_of_ne (sabm_ne_ua addr)]
    exact ⟨rfl, rfl⟩
  have hmem : ua addr ∈ f'.coming (!s) ↔ ua addr ∈ f.coming !s := by
    rw [hforth.mem_iff, List.mem_cons]
    exact or_iff_right (sabm_ne_ua addr).symm
  have hnone : ¬ ua addr ∈ f.coming !s := by
    intro hua
    have hconn := h.answered (!s) hua
    rw [Bool.not_not, hs] at hconn
    cases hconn
  refine ⟨both s ?_ ?_, both s ?_ ?_, both s ?_ ?_, both s ?_ ?_, both s ?_ ?_,
    both s ?_ ?_, both s ?_ ?_⟩
  · rw [hself]
    exact hset.trans (h.address s)
  · rw [hnot]
    exact h.address _
  · rw [hself]
    exact hasked
  · rw [hnot]
    exact h.rising _
  · rw [hback]
    exact h.kinds s
  · intro frame hframe
    rcases List.mem_cons.mp (hforth.mem_iff.mp hframe) with rfl | hframe
    · exact .inl rfl
    · exact h.kinds _ frame hframe
  · rw [hback, hcount.2, hnot]
    exact h.quota s
  · have hquota := h.quota !s
    rw [Bool.not_not, if_pos hs] at hquota
    rw [Bool.not_not, hback, hcount.1, hself, if_neg (by rw [hstate]; decide)]
    omega
  · rw [hback, hnot]
    exact h.answered s
  · exact fun hua ↦ absurd (hmem.mp hua) hnone
  · exact fun _ ↦ .inl (hforth.mem_iff.mpr (List.mem_cons_self ..))
  · have hwait := h.waiting !s
    rw [Bool.not_not] at hwait
    rwa [Bool.not_not, hback, hnot, hmem]
  · rw [hself, hstate]
    exact fun hup ↦ by cases hup
  · rw [Bool.not_not, hback, hnot]
    intro hup
    have hreach := h.reached (!s) hup
    rw [Bool.not_not, hs] at hreach
    exact .inr (hreach.resolve_left (by decide))

theorem Opening.generateTxFrames (h : Opening start fd₀ addr f) (hl : Linked f) (s : Bool)
    (now : Instant) :
    Opening start fd₀ addr
      (f.generateTxFrames s now
        (handed (f s).station ((f s).station.generateTxFrames now)).toList) := by
  have hself :=
    f.generateTxFrames_self s now (handed (f s).station ((f s).station.generateTxFrames now)).toList
  have hnot :=
    f.generateTxFrames_not s now (handed (f s).station ((f s).station.generateTxFrames now)).toList
  have hrise := h.rising s
  obtain ⟨hcb, hstate, -, -⟩ := generateTxFrames_calm (hl.one s) now
  have hset := setup_generateTxFrames (f s).station now
  rcases generateTxFrames_handed (hl.one s) now with ⟨hn, he, -⟩ | ⟨-, i, frame, hi, -, hh, he⟩ |
    ⟨-, -, frame, hsend, -⟩
  · rw [hn] at hself hnot ⊢
    rw [he] at hself
    rw [Option.toList_none, List.append_nil] at hnot
    have hsame : f.generateTxFrames s now [] = f := ext_not hself hnot
    exact hsame.symm ▸ h
  · apply h.congr
    · refine both s ?_ (by rw [hnot])
      rw [hself]
      exact addrField_congr hset 0
    · refine both s ?_ ?_
      · rw [hself]
        have hpeer : ((f s).station.generateTxFrames now).peer 0 = (f s).station.peer 0 := by
          rw [he]; rfl
        refine ⟨hset.trans hrise.setup, ?_, ?_, ?_, ?_, ?_, ?_⟩ <;> simp only [hpeer, hcb]
        · exact hrise.state
        · exact hrise.down
        · exact hrise.asked
        · exact hrise.up
        · exact hrise.told
        · rw [he]
          exact hrise.iQueue
      · rw [hnot]
        exact h.rising _
    · exact both s (by rw [hself, hstate]) (by rw [hnot])
    · refine both s ?_ ?_
      · rw [coming, coming, hself, hnot]
      · rw [coming, coming, Bool.not_not, hself, hnot, hh, he, Option.toList_some,
          List.append_assoc, List.singleton_append]
        exact (((FrameQueue.free_perm hi).map FrameInfo.toBytes).append_left _).symm
  · exact absurd hsend (hrise.not_sendable frame)

/-- A frame of the handshake leaves its receiver connected, and the other side
either is connected too or will hear of it. -/
theorem Opening.receive_cons (h : Opening start fd₀ addr f) (hl : Linked f) {s : Bool}
    {frame : Bytes} {rest : List Bytes} (hin : (f s).inbox = frame :: rest) (now : Instant) :
    Opening start fd₀ addr (f.receive s now) := by
  have hself := receive_self hin now
  have hnot := f.receive_not s now
  generalize f.receive s now = f' at hself hnot ⊢
  have hback : f.coming s = frame :: f'.coming s := by
    rw [coming, coming, hin, hself, hnot]
    rfl
  have hmem : frame ∈ f.coming s := by
    rw [hback]
    exact List.mem_cons_self ..
  have hkind := h.kinds s frame hmem
  have hquota := h.quota !s
  rw [Bool.not_not] at hquota
  have hstate : frame = ua addr → ((f s).station.peer 0).state ≠ .disconnected := by
    rintro rfl hs
    have hpos := List.count_pos_iff.mpr hmem
    rw [if_pos hs] at hquota
    omega
  have hnow := @TinyFd.Rising.onFrameReceived _ _ _ now (h.rising s) (hl.one s) frame
  rw [h.address s] at hnow
  obtain ⟨hrise, hup, hsabm, hua⟩ := hnow
    (by
      rcases hkind with rfl | rfl
      · exact addressed_of_link hl h.address s .uFrame _
      · exact addressed_of_link hl h.address s .uFrame _)
    (hkind.imp_right fun he ↦ ⟨he, hstate he⟩)
  have hset := addrField_congr (setup_onFrameReceived (hl.wf s) now frame) 0
  generalize (f s).station.onFrameReceived now frame = fd' at hself hrise hup hsabm hua hset
  have hreply : (∀ x ∈ f'.coming !s, x = ua addr ∨ x ∈ f.coming !s) ∧
      (f'.coming s).count (sabm addr) + (f'.coming !s).count (ua addr) =
        (f.coming s).count (sabm addr) + (f.coming !s).count (ua addr) ∧
      (f'.coming !s).count (sabm addr) = (f.coming !s).count (sabm addr) ∧
      (((f !s).station.peer 0).state = .connected ∨ ua addr ∈ f'.coming !s) := by
    rcases hkind with rfl | rfl
    · have hputs := hsabm rfl
      have hforth : (f'.coming !s).Perm (ua addr :: f.coming !s) :=
        @coming_put _ _ s ⟨.uFrame, uaHeader addr, []⟩ hnot (by rwa [hself]) (h.room hl s)
      rw [hforth.count_eq, hforth.count_eq, List.count_cons_self,
        List.count_cons_of_ne (sabm_ne_ua addr).symm, hback, List.count_cons_self]
      refine ⟨fun x hx ↦ List.mem_cons.mp (hforth.mem_iff.mp hx), by omega, rfl, .inr ?_⟩
      exact hforth.mem_iff.mpr (List.mem_cons_self ..)
    · have hforth : f'.coming (!s) = f.coming !s := by
        rw [coming, coming, Bool.not_not, hself, hnot, hua rfl]
      rw [hforth, hback, List.count_cons_of_ne (sabm_ne_ua addr).symm]
      exact ⟨fun x hx ↦ .inr hx, rfl, rfl, .inl (h.answered s hmem)⟩
  obtain ⟨hkinds, hsum, hsame, hnext⟩ := hreply
  refine ⟨both s ?_ ?_, both s ?_ ?_, both s ?_ ?_, both s ?_ ?_, both s ?_ ?_,
    both s ?_ ?_, both s ?_ ?_⟩
  · rw [hself]
    exact hset.trans (h.address s)
  · rw [hnot]
    exact h.address _
  · rw [hself]
    exact hrise
  · rw [hnot]
    exact h.rising _
  · intro x hx
    apply h.kinds s
    rw [hback]
    exact List.mem_cons_of_mem _ hx
  · exact fun x hx ↦ (hkinds x hx).elim .inr (h.kinds _ x)
  · rw [hsum, hnot]
    exact h.quota s
  · have hle : (f'.coming s).count (ua addr) ≤ (f.coming s).count (ua addr) := by
      rw [hback]
      exact List.count_le_count_cons
    have hone : (f.coming !s).count (sabm addr) + (f.coming s).count (ua addr) ≤ 1 := by
      split at hquota <;> omega
    rw [Bool.not_not, hsame, hself, if_neg (by rw [hup]; decide)]
    omega
  · intro hx
    rw [hnot]
    apply h.answered s
    rw [hback]
    exact List.mem_cons_of_mem _ hx
  · rw [Bool.not_not, hself]
    exact fun _ ↦ hup
  · rw [hself, hup]
    exact fun hwait ↦ by cases hwait
  · rw [Bool.not_not, hnot]
    intro hwait
    rw [hwait] at hnext
    exact .inr (hnext.resolve_left (by decide))
  · rw [hnot]
    exact fun _ ↦ hnext
  · rw [Bool.not_not, hself]
    exact fun _ ↦ .inl hup

theorem Opening.receives (h : Opening start fd₀ addr f) (hl : Linked f) (s : Bool)
    (now : Instant) (k : ℕ) :
    Opening start fd₀ addr ((fun f : Frames ↦ f.receive s now)^[k] f) := by
  induction k generalizing f with
  | zero => exact h
  | succ k ih =>
    rw [Function.iterate_succ_apply]
    refine ih ?_ (hl.receive s now)
    cases hin : (f s).inbox with
    | nil => rwa [Frames.receive, hin]
    | cons frame rest => exact h.receive_cons hl hin now

theorem Opening.connected (h : Opening start fd₀ addr f) (hno : ∀ s, f.coming s = []) {s : Bool}
    (hs : ((f s).station.peer 0).state ≠ .disconnected) (t : Bool) :
    ((f t).station.peer 0).state = .connected := by
  have hup : ((f s).station.peer 0).state = .connected := by
    rcases (h.rising s).state with hdown | hasked | hup
    · exact absurd hdown hs
    · rcases h.waiting s hasked with hmem | hmem <;> rw [hno] at hmem <;> cases hmem
    · exact hup
  revert t
  refine both s hup ?_
  rcases h.reached s hup with hother | hmem
  · exact hother
  · rw [hno] at hmem
    cases hmem

end Frames

namespace Net

open TinyFd Side Frames

variable {net net' : Net} {start : Instant}

/-- Two stations that are not connected, with nothing queued and nothing on its way. -/
structure Dormant (net : Net) : Prop where
  down : ∀ s, ((net s).station.peer 0).state = .disconnected
  iQueue : ∀ s, (net s).station.frames.iQueue.held = []
  sQueue : ∀ s, (net s).station.frames.sQueue.held = []
  idle : ∀ s, (net s).station.hdlc.txData = none
  channel : ∀ s, (net s).inbox = []
  settled : net.Settled
  accepted : ∀ s, (net s).accepted = []

/-- The calls that move bytes, less than a retry timeout after `start`, with nothing lost. -/
def Brief (start : Instant) (net : Net) : Op → Prop
  | .getTxData s now _ _ lost => start ≤ now ∧
      elapsed now start < (net s).station.retryDur ∧ lost = false
  | .onRxData .. => True
  | _ => False

/-- Nothing is on its way, and the timers and the queues have nothing to send. -/
def Through (start : Instant) (net : Net) : Prop := ∀ s, (net s).inbox = [] ∧
    ∃ now room timeoutMs, 0 < room ∧
  start ≤ now ∧ elapsed now start < (net s).station.retryDur ∧
  ((net s).station.getTxData now room timeoutMs).map Prod.snd = some []

/-- Station `s` asks for a connection as soon as it is polled. -/
def Asks (start : Instant) (net : Net) (s : Bool) : Prop :=
  (net s).station.mode = .abm ∧
    elapsed start ((net s).station.peer 0).lastSentFrameTs ≥ (net s).station.retryDur

structure ComingUp (start : Instant) (net₀ net : Net) : Prop where
  linked : Linked net
  settled : net.Settled
  accepted : ∀ s, (net s).accepted = []
  opening : Opening start (fun s ↦ (net₀ s).station) ((net₀ true).station.addrField 0) net.frames

theorem retryDur_congr {fd fd' : TinyFd} (hs : fd'.setup = fd.setup) :
    fd'.retryDur = fd.retryDur := by
  rw [TinyFd.retryDur, TinyFd.retryDur,
    show fd'.retryTimeout = fd.retryTimeout from congrArg Setup.retryTimeout hs]

theorem accepted_step {op : Op} (hop : Brief start net op)
    (hs : net.step op = some net') (t : Bool) :
    (net' t).accepted = (net t).accepted := by
  cases op with
  | sendPacket => exact hop.elim
  | disconnect => exact hop.elim
  | getTxData s now room timeoutMs lost =>
    obtain ⟨⟨fd, out⟩, -, rfl⟩ := Option.map_eq_some_iff.mp hs
    revert t
    refine both s ?_ ?_ <;> dsimp only
    · rw [put_of_not, put_self]
    · rw [put_self]
  | onRxData s now count =>
    rw [← Option.some.inj hs]
    revert t
    refine both s ?_ ?_
    · rw [put_self]
    · rw [put_not]

theorem comingUp_start (hl : Linked net) (hd : net.Dormant) : ComingUp start net net := by
  have hin : ∀ s, (net.frames s).inbox = [] := by
    intro s
    have hpending : net.pending s = [] := by
      rw [pending, hd.channel s, HdlcLl.txRest_eq_nil.mpr (hd.idle !s), ite_self, List.append_nil]
    change (net.outlook s).2 = []
    rw [outlook, hpending]
    rfl
  have hcoming : ∀ s, net.frames.coming s = [] := by
    intro s
    rw [coming, hin]
    change List.map FrameInfo.toBytes (net (!s)).station.frames.sQueue.held = []
    rw [hd.sQueue]
    rfl
  have hdown : ∀ s, ((net.frames s).station.peer 0).state = .disconnected := hd.down
  refine ⟨hl, hd.settled, hd.accepted, both true rfl (hl.address true), ?_, ?_, ?_, ?_, ?_, ?_⟩ <;>
    intro s
  · refine ⟨rfl, .inl (hdown s), fun _ ↦ rfl, ?_, ?_, ?_, hd.iQueue s⟩
    · exact fun hasked ↦ by rw [hdown] at hasked; cases hasked
    · exact fun hup ↦ by rw [hdown] at hup; cases hup
    · rw [if_neg (by rw [hdown]; decide), List.append_nil]
      rfl
  · rw [hcoming]
    exact fun frame hmem ↦ absurd hmem List.not_mem_nil
  · rw [hcoming, hcoming]
    exact Nat.zero_le _
  · rw [hcoming]
    exact fun hmem ↦ absurd hmem List.not_mem_nil
  · exact fun hasked ↦ by rw [hdown] at hasked; cases hasked
  · exact fun hup ↦ by rw [hdown] at hup; cases hup

theorem comingUp_step {net₀ : Net} (h : ComingUp start net₀ net) {op : Op}
    (hop : Brief start net op) (hs : net.step op = some net') : ComingUp start net₀ net' := by
  have haccepted : ∀ s, (net' s).accepted = [] :=
    fun s ↦ (accepted_step hop hs s).trans (h.accepted s)
  have hl := h.linked.frames
  cases op with
  | sendPacket => exact hop.elim
  | disconnect => exact hop.elim
  | getTxData s now room timeoutMs lost =>
    obtain ⟨hnow, hearly, rfl⟩ := hop
    obtain ⟨ll, hf, hl', ha', -⟩ := getTxData_settled h.linked h.settled hs
    refine ⟨hl', ha', haccepted, ?_⟩
    have hrise : Rising start (net₀ s).station (net s).station := h.opening.rising s
    rw [retryDur_congr hrise.setup] at hearly
    have hchecked := h.opening.checkTimeouts hl s hnow hearly
    have hsent := hchecked.generateTxFrames (hl.checkTimeouts s now) s now
    have hstation : ((net.frames.checkTimeouts s now) s).station =
        (net s).station.checkTimeouts now := by
      rw [Frames.checkTimeouts, put_self]
      rfl
    rw [hstation] at hsent
    rw [hf]
    exact hsent.withHdlc s ll
  | onRxData s now count =>
    obtain ⟨ll, hf, -, hl', ha'⟩ := onRxData_settled h.linked h.settled hs
    refine ⟨hl', ha', haccepted, ?_⟩
    rw [hf]
    exact (h.opening.receives hl s now _).withHdlc s ll

theorem getTxData_empty {fd₀ fd : TinyFd} (hwf : WellFormed fd) (hone : fd.peerMgr.peers.length = 1)
    (h : Rising start fd₀ fd) {now : Instant} (hearly : elapsed now start < fd₀.retryDur)
    {room timeoutMs : ℕ} (hroom : 0 < room)
    (hout : (fd.getTxData now room timeoutMs).map Prod.snd = some []) : fd.hdlc.txData = none ∧
    fd.frames.sQueue.held = [] ∧ ((fd.peer 0).state = .disconnected →
      ¬ (fd.mode = .abm ∧ elapsed now (fd.peer 0).lastSentFrameTs ≥ fd₀.retryDur)) := by
  obtain ⟨ll, hget, -⟩ := getTxData_eq hwf.tx now room timeoutMs
  rw [hget, Option.map_some, Option.some.injEq] at hout
  have hone₁ : (fd.checkTimeouts now).peerMgr.peers.length = 1 := by
    rwa [peers_length_congr (setup_checkTimeouts fd now)]
  have hcases := h.checkTimeouts_cases hone hearly
  have hasked : (fd.checkTimeouts now).frames.sQueue.held = [] → fd.checkTimeouts now = fd := by
    intro hnone
    rcases hcases with ⟨he, -⟩ | ⟨-, he⟩
    · exact he
    · rw [he, frames_modifyPeer] at hnone
      rcases @putUSFrame_puts fd _ rfl .uFrame (fd.sabmHeader 0) [] with ⟨i, ha⟩ | ⟨hfull, he'⟩
      · have hmem := ha.perm.mem_iff.mpr (List.mem_cons_self ..)
        rw [hnone] at hmem
        cases hmem
      · rw [he'] at hnone
        rw [hnone, hwf.sCapacity] at hfull
        cases hfull
  generalize fd.checkTimeouts now = fd₁ at hout hone₁ hcases hasked
  have hnil : (fd₁.generateTxFrames now).hdlc.txData = none := by
    rw [← HdlcLl.txRest_eq_nil]
    rcases List.take_eq_nil_iff.mp hout with hz | hnil
    · omega
    · exact hnil
  rcases generateTxFrames_handed hone₁ now with ⟨-, he, hno⟩ | ⟨-, i, frame, -, -, -, he⟩ | ⟨-, -,
    frame, -, -, he⟩ <;> rw [he] at hnil
  · have hheld : fd₁.frames.sQueue.held = [] := by
      rw [List.eq_nil_iff_forall_not_mem]
      intro frame hmem
      obtain ⟨i, hi, hget⟩ := List.getElem_of_mem (FrameQueue.mem_held.mp hmem)
      have hslot := (hno hnil).1 i
      rw [FrameQueue.get, List.getElem?_eq_getElem hi, hget] at hslot
      cases hslot
    obtain rfl := hasked hheld
    refine ⟨hnil, hheld, fun hdown ↦ ?_⟩
    rcases hcases with ⟨-, hno⟩ | ⟨-, he⟩
    · exact hno hdown
    · have hstate : (fd₁.peer 0).state = _ := congrArg (fun fd : TinyFd ↦ (fd.peer 0).state) he
      rw [peer_modifyPeer_self (by rw [peerMgr_putUSFrame]; omega), hdown] at hstate
      cases hstate
  · cases hnil
  · cases hnil

theorem ComingUp.through {net₀ : Net} (hup : ComingUp start net₀ net)
    (hasks : ∃ s, Asks start net₀ s) (hthrough : net.Through start) :
    net.JustConnected ∧ ∀ s, (net s).station.callbacks =
      (net₀ s).station.callbacks ++ [.connect ((net₀ s).station.userAddress 0) true] := by
  have hempty : ∀ s, (net s).station.hdlc.txData = none ∧ (net s).station.frames.sQueue.held = [] ∧
      (((net s).station.peer 0).state = .disconnected → ¬ Asks start net₀ s) := by
    intro s
    obtain ⟨-, now, room, timeoutMs, hroom, hnow, hearly, hout⟩ := hthrough s
    have hrise : Rising start (net₀ s).station (net s).station := hup.opening.rising s
    rw [retryDur_congr hrise.setup] at hearly
    obtain ⟨hidle, hheld, hnot⟩ :=
      getTxData_empty (hup.linked.wf s) (hup.linked.one s) hrise hearly hroom hout
    refine ⟨hidle, hheld, fun hdown hasks ↦ hnot hdown ?_⟩
    have hlater : elapsed start ((net₀ s).station.peer 0).lastSentFrameTs ≤
        elapsed now ((net₀ s).station.peer 0).lastSentFrameTs :=
          Int.toNat_le_toNat (Int.sub_le_sub_right hnow _)
    rw [hrise.down hdown,
      show (net s).station.mode = (net₀ s).station.mode from congrArg Setup.mode hrise.setup]
    exact ⟨hasks.1, hasks.2.trans hlater⟩
  have hcoming : ∀ s, net.frames.coming s = [] := by
    intro s
    have hpending : net.pending s = [] := by
      rw [pending, (hthrough s).1, HdlcLl.txRest_eq_nil.mpr (hempty !s).1, ite_self,
        List.append_nil]
    have hin : (net.frames s).inbox = [] := by
      change (net.outlook s).2 = []
      rw [outlook, hpending]
      rfl
    rw [coming, hin]
    change List.map FrameInfo.toBytes (net (!s)).station.frames.sQueue.held = []
    rw [(hempty !s).2.1]
    rfl
  obtain ⟨a, ha⟩ := hasks
  have hconn : ∀ s, ((net s).station.peer 0).state = .connected :=
    hup.opening.connected hcoming (s := a) fun hdown ↦ (hempty a).2.2 hdown ha
  have hrise : ∀ s, Rising start (net₀ s).station (net s).station := hup.opening.rising
  refine ⟨⟨fun s ↦ ?_, fun s ↦ ?_, fun s ↦ (hempty s).2.1, fun s ↦ (hempty s).1,
    fun s ↦ (hthrough s).1, hup.settled, hup.accepted⟩, fun s ↦ ?_⟩
  · have hone := hup.linked.one s
    refine ⟨by omega, fun j hj hne ↦ by omega, hconn s, ?_, ?_⟩
    · rw [(hrise s).up (hconn s)]
      rfl
    · rw [FrameQueue.iPairs, (hrise s).iQueue]
      rfl
  · rw [(hrise s).up (hconn s)]
    rfl
  · have htold := (hrise s).told
    rwa [if_pos (hconn s)] at htold

theorem comingUp_run {config : Bool → TinyFdConfig} (hp : Pair config)
    (hr : ∀ s, Reachable (config s) (net s).station) (hd : net.Dormant) {ops : List Op}
    (hops : EachStep step (Brief start) net ops) (hrun : run step net ops = some net') :
    ComingUp start net net' :=
  run_invariant (fun _ _ _ h hop hs ↦ comingUp_step h hop hs)
    (comingUp_start (linked_of_reachable hp hr) hd) hops hrun

/-- However the two stations are polled and whichever of them asks, also if both
do: once neither has anything left to send, both are connected, each user has been
told once, and the session starts from zero. -/
theorem link_comes_up {config : Bool → TinyFdConfig} (hp : Pair config)
    (hr : ∀ s, Reachable (config s) (net s).station) (hd : net.Dormant)
    (hasks : ∃ s, Asks start net s) {ops : List Op} (hops : EachStep step (Brief start) net ops)
    (hrun : run step net ops = some net') (hthrough : net'.Through start) : net'.JustConnected ∧
    ∀ s, (net' s).station.callbacks =
      (net s).station.callbacks ++ [.connect ((net s).station.userAddress 0) true] :=
  (comingUp_run hp hr hd hops hrun).through hasks hthrough

def dormantNet : Net := (replay plainConfig 0 []).get (by decide +kernel)

def crossing : List Op :=
  [.getTxData true 1 8 0 false, .getTxData false 2 8 0 false, .onRxData false 3 8,
    .onRxData true 3 3,
    .getTxData false 4 8 0 false, .onRxData true 5 99, .getTxData true 6 8 0 false,
    .onRxData false 7 8]

def crossedNet : Net := (run step dormantNet crossing).get (by decide +kernel)

instance (start : Instant) (net : Net) : ∀ op, Decidable (Brief start net op)
  | .getTxData .. => by unfold Brief; infer_instance
  | .onRxData .. => .isTrue trivial
  | .sendPacket .. | .disconnect _ => .isFalse id

instance (start : Instant) (net : Net) (s : Bool) : Decidable (Asks start net s) := by
  unfold Asks; infer_instance

theorem crossed_through : crossedNet.Through 0 := by
  intro s
  refine ⟨?_, 8, 1, 0, Nat.one_pos, by decide, ?_, ?_⟩ <;> revert s <;> decide +kernel

theorem link_comes_up_crossing :
    crossedNet.JustConnected ∧ (crossedNet true).station.callbacks = [.connect 1 true] ∧
      (crossedNet false).station.callbacks = [.connect 0 true] := by
  have hd : dormantNet.Dormant := by constructor <;> decide +kernel
  obtain ⟨hj, htold⟩ := @link_comes_up dormantNet crossedNet 0 plainConfig plainConfig_pair
    (reachable_replay _) hd ⟨true, by decide +kernel⟩ crossing (by decide +kernel)
      (Option.some_get _).symm crossed_through
  exact ⟨hj, (htold true).trans (by decide +kernel), (htold false).trans (by decide +kernel)⟩

theorem dormant_new {config : Bool → TinyFdConfig} {born : Bool → Instant}
    (hnew : ∀ s, TinyFd.new (config s) (born s) = .ok (net s).station)
    (hempty : ∀ s, (net s).inbox = [] ∧ (net s).accepted = []) : net.Dormant := by
  have hinit := fun s ↦ initial_new (hnew s)
  have hphase : ∀ s, (net s).station.hdlc.phase = .hunt := by
    intro s
    have h := hnew s
    rw [TinyFd.new] at h
    split at h
    · cases h
    dsimp only at h
    split at h
    · cases h
    rename_i hll
    rw [← Except.ok.inj h]
    exact (HdlcLl.new_ok hll).2.2.1
  refine ⟨?_, ?_, ?_, fun s ↦ (hinit s).txData, fun s ↦ (hempty s).1, ?_, fun s ↦ (hempty s).2⟩ <;>
    intro s
  · obtain ⟨addr, hpeer⟩ := (hinit s).peer (wellFormed_new (hnew s)).peers_pos
    rw [hpeer]
    rfl
  · obtain ⟨mtu, hframes⟩ := (hinit s).frames
    rw [hframes]
    exact held_new ..
  · obtain ⟨mtu, hframes⟩ := (hinit s).frames
    rw [hframes]
    exact held_new ..
  · have hpending : net.pending s = [] := by
      rw [pending, (hempty s).1, HdlcLl.txRest_eq_nil.mpr (hinit !s).txData, ite_self,
        List.append_nil]
    rw [outlook, hpending, hphase]
    trivial

theorem asks_new {config : TinyFdConfig} {born : Instant} {fd : TinyFd}
    (hnew : TinyFd.new config born = .ok fd) (hmode : config.mode = .abm)
    (hretry : config.retryTimeout ≤ 60000) (hborn : born ≤ start) : fd.mode = .abm ∧
    elapsed start (fd.peer 0).lastSentFrameTs ≥ fd.retryDur := by
  obtain ⟨addr, hpeer⟩ := (initial_new hnew).peer (wellFormed_new hnew).peers_pos
  have hfd : fd.mode = config.mode ∧ fd.retryTimeout.toNat ≤ 60000 := by
    rw [TinyFd.new] at hnew
    split at hnew
    · cases hnew
    dsimp only at hnew
    split at hnew
    · cases hnew
    rw [← Except.ok.inj hnew]
    refine ⟨rfl, ?_⟩
    dsimp only
    split
    · decide
    · exact hretry
  refine ⟨hfd.1.trans hmode, ?_⟩
  have hms := hfd.2
  have hpast : (fd.peer 0).lastSentFrameTs = born - 60 * 1000000000 := by
    rw [hpeer]
    rfl
  have hage : elapsed born (born - 60 * 1000000000) ≤ elapsed start (born - 60 * 1000000000) :=
    Int.toNat_le_toNat (Int.sub_le_sub_right hborn _)
  have hminute : elapsed born (born - 60 * 1000000000) = 60 * 1000000000 := by
    rw [elapsed, sub_sub_cancel]
    rfl
  rw [hpast, TinyFd.retryDur, durationFromMillis]
  omega

/-- Two new stations, one of them in balanced mode, and a link that loses nothing:
once they are connected, every payload of every round is read by the other side,
once and in order. -/
theorem new_link_delivers {config : Bool → TinyFdConfig} (hp : Pair config) {born : Bool → Instant}
    (hnew : ∀ s, TinyFd.new (config s) (born s) = .ok (net s).station)
    (hempty : ∀ s, (net s).inbox = [] ∧ (net s).accepted = [])
    (hasks : ∃ s, (config s).mode = .abm ∧ (config s).retryTimeout ≤ 60000 ∧ born s ≤ start)
    {ops : List Op} (hops : EachStep step (Brief start) net ops)
    (hrun : run step net ops = some net') (hthrough : net'.Through start) {address : Bool → UInt8}
    (haddr : ∀ s, (net s).station.sendPeer (address s) = 0) {room : ℕ}
    (hroom : ∀ s (data : Bytes), data.length ≤ (net s).station.mtu + 2 →
      (wireFrame (config s).crcType data).length ≤ room) (rounds : List Round)
    (hfits : EachStep (round room address) (fun net r ↦ r.Fits config room address net)
      net' rounds) :
    ∃ net'', run (round room address) net' rounds = some net'' ∧
      ∀ s, (net'' s).station.reads = rounds.flatMap fun r ↦ r.batch !s := by
  have hr : ∀ s, Reachable (config s) (net s).station := fun s ↦ .new (hnew s)
  obtain ⟨a, hmode, hretry, hborn⟩ := hasks
  have hup := comingUp_run hp hr (dormant_new hnew hempty) hops hrun
  obtain ⟨hj, htold⟩ := hup.through ⟨a, asks_new (hnew a) hmode hretry hborn⟩ hthrough
  have hr' : ∀ s, Reachable (config s) (net' s).station :=
    run_invariant (P := fun net : Net ↦ ∀ s, Reachable (config s) (net s).station)
      (fun _ _ _ h _ hs ↦ reachable_step h hs) hr hops hrun
  have hset : ∀ s, (net' s).station.setup = (net s).station.setup :=
    fun s ↦ (hup.opening.rising s).setup
  have hcrc : ∀ s, (net' s).station.hdlc.crcType = (config s).crcType := by
    intro s
    obtain ⟨now, fd₀, hfd₀, -, hcrc⟩ := (hr' s).origin
    rw [hcrc, (new_frames hfd₀).1]
  have hnone : ∀ s, (net' s).station.reads = [] := by
    intro s
    rw [TinyFd.reads, htold, (initial_new (hnew s)).callbacks]
    rfl
  have haddr' : ∀ s, (net' s).station.sendPeer (address s) = 0 :=
    fun s ↦ by rw [sendPeer_congr (hset s), haddr]
  obtain ⟨net'', hrounds, hrest⟩ := rounds_end haddr'
    (fun s data hlen ↦ by
      rw [show (net' s).station.mtu = (net s).station.mtu from congrArg Setup.mtu (hset s)] at hlen
      rw [hcrc]
      exact hroom s data hlen)
    (fun s ↦ ⟨hr' s, rfl, rfl⟩) (rest_start hup.linked hj) hfits
  refine ⟨net'', hrounds, fun s ↦ ?_⟩
  have hreads := (hrest.level s).reads
  rwa [hnone, List.take_length, List.nil_append, List.nil_append] at hreads

theorem new_link_delivers_crossing :
    ∃ net', run (round 142 partner) crossedNet threeRounds = some net' ∧
      (net' false).station.reads = [[1], [2], [3], [0x7E], [], [5], [6], [7], [8], [9]] ∧
      (net' true).station.reads = [[4], [10], [11], [12]] := by
  have hnew : ∀ s, TinyFd.new (plainConfig s) 0 = .ok (dormantNet s).station := by
    intro s
    cases s <;> rfl
  have hmtu : ∀ s, (dormantNet s).station.mtu = 64 := by decide +kernel
  have hroom : ∀ s (data : Bytes), data.length ≤ (dormantNet s).station.mtu + 2 →
      (wireFrame (plainConfig s).crcType data).length ≤ 142 := by
    intro s data hlen
    have hle := HdlcLl.wireFrame_length_le (plainConfig s).crcType data
    rw [hmtu s] at hlen
    omega
  obtain ⟨net', hrun, hend⟩ :=
    @new_link_delivers dormantNet crossedNet 0 plainConfig plainConfig_pair (fun _ ↦ 0) hnew
      (by decide +kernel) ⟨true, rfl, by decide, le_rfl⟩ crossing (by decide +kernel)
        (Option.some_get _).symm crossed_through
    partner (by decide +kernel) 142 hroom threeRounds (by decide +kernel)
  exact ⟨net', hrun, hend false, hend true⟩

end Net

end TinyProto
