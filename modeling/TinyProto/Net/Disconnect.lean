import TinyProto.Net.Link

namespace TinyProto

open Lib

def Callback.isGoodbye : Callback → Bool
  | .connect _ connected => !connected
  | .read .. => false

namespace TinyFd

variable {fd : TinyFd} {n : ℕ}

def goodbyes (fd : TinyFd) : ℕ := fd.callbacks.countP Callback.isGoodbye

def Told (n : ℕ) (fd : TinyFd) : Prop :=
  fd.goodbyes = n + if (fd.peer 0).state = .disconnected then 1 else 0

theorem Told.congr {fd' : TinyFd} (h : Told n fd) (hcb : fd'.callbacks = fd.callbacks)
    (hs : (fd'.peer 0).state = (fd.peer 0).state) : Told n fd' := by
  rw [Told, goodbyes, hcb, hs]
  exact h

theorem Told.switch (h : Told n fd) (hp : 0 < fd.peerMgr.peers.length) (now : Instant) :
    Told n (fd.switchToDisconnected 0 now) := by
  by_cases hs : (fd.peer 0).state = .disconnected
  · rwa [switchToDisconnected_of_disconnected fd 0 now hs]
  · rw [Told, if_neg hs, Nat.add_zero] at h
    rw [Told, goodbyes, callbacks_switchToDisconnected fd 0 now hs, List.countP_append,
      state_switchToDisconnected fd 0 now hp, if_pos rfl, ← h]
    rfl

theorem window_reaction (h : WellFormed fd) (hone : fd.peerMgr.peers.length = 1) (now : Instant)
    (data : Bytes) {fd' : TinyFd} (he : fd' = (fd.touch 0 now).onIFrameReceived 0 data ∧
      data.getD 1 0 &&& hdlcIFrameMask = hdlcIFrameBits ∨
      fd' = (fd.touch 0 now).onSFrameReceived 0 data ∧
      data.getD 1 0 &&& hdlcIFrameMask ≠ hdlcIFrameBits) :
    (fd'.peer 0).state = (fd.peer 0).state ∧ fd'.goodbyes = fd.goodbyes ∧
      (fd'.frames.sQueue = fd.frames.sQueue ∨ ∃ header : FrameHeader,
        header.control &&& hdlcUFrameMask ≠ hdlcUFrameBits ∧
          Puts fd.frames.sQueue fd'.frames.sQueue ⟨.sFrame, header, []⟩) := by
  have hzero : 0 < fd.peerMgr.peers.length := by omega
  have hzero₁ : 0 < (fd.touch 0 now).peerMgr.peers.length := by rwa [peers_length_touch]
  have hwf := wellFormed_touch h hzero now
  have hstate : ((fd.touch 0 now).peer 0).state = (fd.peer 0).state := by
    rw [peer_touch_self fd 0 now hzero]
  obtain ⟨m, hm⟩ := exists_seq_of_lt (hwf.counters 0 hzero₁).confirm
  obtain ⟨k, hk⟩ := exists_seq_of_lt (hwf.counters 0 hzero₁).recv
  have hnotU : ∀ n : Fin 8,
      (hdlcSFrameBits ||| hdlcSFrameTypeRr ||| UInt8.ofNat n <<< 5) &&& hdlcUFrameMask ≠
        hdlcUFrameBits ∧
      (hdlcSFrameBits ||| hdlcSFrameTypeRej ||| UInt8.ofNat n <<< 5 ||| hdlcPBit) &&&
        hdlcUFrameMask ≠ hdlcUFrameBits := by decide
  rcases he with ⟨rfl, hI⟩ | ⟨rfl, hI⟩
  · have hack := onIFrameReceived_acked hzero₁ hm data hI
    rcases onIFrameReceived_rx hzero₁ hm data with ⟨-, hcb, -, -, ⟨-, hq⟩ | ⟨-, hq⟩⟩ | ⟨-,
      hcb, -, -, hq⟩
    · exact ⟨hack.state.trans hstate, congrArg (List.countP Callback.isGoodbye) hcb, .inl hq⟩
    · refine ⟨hack.state.trans hstate, congrArg (List.countP Callback.isGoodbye) hcb,
        .inr ⟨_, ?_, hq⟩⟩
      rw [hk]
      exact (hnotU ⟨k % 8, Nat.mod_lt _ (by decide)⟩).2
    · refine ⟨hack.state.trans hstate, ?_, .inr ⟨_, ?_, hq⟩⟩
      · rw [goodbyes, hcb, List.countP_append]
        rfl
      · rw [hk, seq_succ]
        exact (hnotU ⟨(k + 1) % 8, Nat.mod_lt _ (by decide)⟩).1
  · have hack := onSFrameReceived_acked hzero₁ hm data hI
    obtain ⟨hcb, hq, -, -⟩ := onSFrameReceived_rx hzero₁ hm data
    exact ⟨hack.state.trans hstate, congrArg (List.countP Callback.isGoodbye) hcb, .inl hq⟩

def IsReply (control : UInt8) : Prop := IsUa control ∨ IsDm control

/-- What every received frame but a connection request leads to while a
connection is being closed. -/
structure Winding (n : ℕ) (fd : TinyFd) (data : Bytes) (fd' : TinyFd) : Prop where
  told : Told n fd'
  state : (fd'.peer 0).state = .disconnected ∨ (fd'.peer 0).state = (fd.peer 0).state
  kept : ∀ frame ∈ fd.frames.sQueue.held, frame ∈ fd'.frames.sQueue.held
  added : ∀ frame ∈ fd'.frames.sQueue.held, frame ∈ fd.frames.sQueue.held ∨
    ¬ IsSetup frame.header.control ∧ ¬ IsDisc frame.header.control
  disc : fd.AddressedTo 0 data → IsDisc (data.getD 1 0) → (fd'.peer 0).state = .disconnected ∧
    (fd.frames.sQueue.hasFreeSlots → ⟨.uFrame, uaHeader (fd.addrField 0), []⟩ ∈
      fd'.frames.sQueue.held)
  reply : fd.AddressedTo 0 data → IsReply (data.getD 1 0) → (fd.peer 0).state = .disconnecting →
    (fd'.peer 0).state = .disconnected

theorem Winding.before {fd' : TinyFd} {data : Bytes} (h : Winding n fd data fd') {state : FdState}
    (hs : (fd'.peer 0).state = state) (hne : state ≠ .disconnected) :
    (fd.peer 0).state = state := by
  rcases h.state with hdown | hsame
  · exact absurd (hs.symm.trans hdown) hne
  · rw [← hsame, hs]

theorem told_touch (hp : 0 < fd.peerMgr.peers.length) (now : Instant) (h : Told n fd) :
    Told n (fd.touch 0 now) := by
  refine Told.congr h ?_ (by rw [peer_touch_self fd 0 now hp])
  exact callbacks_modifyPeer ..

theorem winding_window (h : WellFormed fd) (hone : fd.peerMgr.peers.length = 1) {now : Instant}
    {data : Bytes} {fd' : TinyFd} (hU : data.getD 1 0 &&& hdlcUFrameMask ≠ hdlcUFrameBits)
    (he : fd' = (fd.touch 0 now).onIFrameReceived 0 data ∧
      data.getD 1 0 &&& hdlcIFrameMask = hdlcIFrameBits ∨
      fd' = (fd.touch 0 now).onSFrameReceived 0 data ∧
      data.getD 1 0 &&& hdlcIFrameMask ≠ hdlcIFrameBits)
    (ht : Told n fd) : Winding n fd data fd' := by
  obtain ⟨hstate, hsaid, hq⟩ := window_reaction h hone now data he
  refine ⟨?_, .inr hstate, ?_, ?_, fun _ hd ↦ absurd hd.1 hU,
    fun _ hr ↦ absurd (hr.elim (·.1) (·.1)) hU⟩
  · rw [Told, hsaid, hstate]
    exact ht
  · intro frame hmem
    rcases hq with hq | ⟨header, -, hq⟩
    · rwa [hq]
    · exact hq.kept hmem
  · intro frame hmem
    rcases hq with hq | ⟨header, hheader, hq⟩
    · exact .inl (hq ▸ hmem)
    · rcases hq.mem hmem with rfl | hmem
      · exact .inr ⟨fun hs ↦ hheader hs.1, fun hd ↦ hheader hd.1⟩
      · exact .inl hmem

theorem winding (h : WellFormed fd) (hone : fd.peerMgr.peers.length = 1) {now : Instant}
    {data : Bytes} {fd' : TinyFd} (hr : Reaction fd now data fd') (hno : ¬ IsSetup (data.getD 1 0))
    (hs : (fd.peer 0).state ≠ .connecting) (ht : Told n fd) : Winding n fd data fd' := by
  have hzero : 0 < fd.peerMgr.peers.length := by omega
  have hzero₁ : 0 < (fd.touch 0 now).peerMgr.peers.length := by rwa [peers_length_touch]
  have ht₁ := told_touch hzero now ht
  have hstate : ((fd.touch 0 now).peer 0).state = (fd.peer 0).state := by
    rw [peer_touch_self fd 0 now hzero]
  obtain ⟨hkinds, hua, hua', hdm, hdm'⟩ := kinds_distinct
  cases hr with
  | ignored hnot =>
      exact ⟨ht, .inr rfl, fun _ h ↦ h, fun _ h ↦ .inl h, fun h ↦ absurd h hnot,
        fun h ↦ absurd h hnot⟩
  | setup haddr hset => exact absurd hset hno
  | opened haddr hset hc => exact absurd hc hs
  | disc haddr hdisc =>
    have hputs := @putUSFrame_puts (fd.touch 0 now) _ rfl .uFrame (uaHeader (fd.addrField 0)) []
    have hzero₂ : 0 <
        ((fd.touch 0 now).putUSFrame .uFrame (uaHeader (fd.addrField 0))
          []).1.peerMgr.peers.length := by
      rwa [peerMgr_putUSFrame]
    have hdown := state_switchToDisconnected _ 0 now hzero₂
    refine ⟨?_, .inl hdown, ?_, ?_, fun _ _ ↦ ⟨hdown, ?_⟩, fun _ _ _ ↦ hdown⟩
    · apply Told.switch _ hzero₂
      exact ht₁.congr (callbacks_putUSFrame ..) (by rw [peer_putUSFrame])
    · intro frame hmem
      rw [sQueue_switchToDisconnected]
      exact hputs.kept hmem
    · intro frame hmem
      rw [sQueue_switchToDisconnected] at hmem
      rcases hputs.mem hmem with rfl | hmem
      · exact .inr ⟨hua, hua'⟩
      · exact .inl hmem
    · intro hfree
      rw [sQueue_switchToDisconnected]
      exact hputs.queued hfree
  | closed haddr hdown =>
    have hdown' := state_switchToDisconnected (fd.touch 0 now) 0 now hzero₁
    have hq : ((fd.touch 0 now).switchToDisconnected 0 now).frames.sQueue = fd.frames.sQueue :=
      sQueue_switchToDisconnected ..
    refine ⟨ht₁.switch hzero₁ now, .inl hdown', ?_, ?_, ?_, fun _ _ _ ↦ hdown'⟩
    · intro frame hmem
      rwa [hq]
    · intro frame hmem
      rw [hq] at hmem
      exact .inl hmem
    · intro _ hdisc
      exact absurd hdown (not_or.mpr ⟨fun h ↦ (hkinds _ hdisc).2 h.1, (hkinds _ hdisc).1⟩)
  | otherU haddr hU hset hdisc hdm hua =>
    refine ⟨ht₁, .inr hstate, fun _ h ↦ h, fun _ h ↦ .inl h, fun _ h ↦ absurd h hdisc, ?_⟩
    intro _ hreply hd
    rcases hreply with h | h
    · exact absurd hd (hua h).2
    · exact absurd h hdm
  | refused haddr hU hc hd =>
    have hputs := @putUSFrame_puts (fd.touch 0 now) _ rfl .uFrame (dmHeader (fd.addrField 0)) []
    refine ⟨ht₁.congr (callbacks_putUSFrame ..) (by rw [peer_putUSFrame]), .inr ?_,
      fun frame hmem ↦ hputs.kept hmem, ?_, fun _ h ↦ absurd h.1 hU, fun _ _ h ↦ absurd h hd⟩
    · rw [peer_putUSFrame, hstate]
    · intro frame hmem
      rcases hputs.mem hmem with rfl | hmem
      · exact .inr ⟨hdm, hdm'⟩
      · exact .inl hmem
  | iFrame haddr hI _ =>
    exact winding_window h hone (fun hU ↦ not_isI_of_service (.inl hU) hI) (.inl ⟨rfl, hI⟩) ht
  | sFrame haddr hI hU _ => exact winding_window h hone hU (.inr ⟨rfl, hI⟩) ht

theorem getTxData_nil (h : WellFormed fd) (hone : fd.peerMgr.peers.length = 1) {now : Instant}
    {room timeoutMs : ℕ} (hroom : 0 < room) (hq : fd.Quiet now)
    (hout : (fd.getTxData now room timeoutMs).map Prod.snd = some []) : fd.hdlc.txRest = [] ∧
    fd.frames.sQueue.held = [] ∧ ∀ frame, ¬ fd.Sendable 0 frame := by
  obtain ⟨ll, hget, -⟩ := getTxData_eq h.tx now room timeoutMs
  rw [hget, Option.map_some, Option.some.injEq, checkTimeouts_quiet hq] at hout
  have hnil : (fd.generateTxFrames now).hdlc.txData = none := by
    rw [← HdlcLl.txRest_eq_nil]
    rcases List.take_eq_nil_iff.mp hout with hz | hnil
    · omega
    · exact hnil
  rcases generateTxFrames_handed hone now with ⟨-, he, hno⟩ | ⟨-, i, frame, -, -, -, he⟩ | ⟨-, -,
    frame, -, -, he⟩ <;> rw [he] at hnil
  · obtain ⟨hservice, hsend⟩ := hno hnil
    refine ⟨HdlcLl.txRest_eq_nil.mpr hnil, ?_, hsend⟩
    rw [List.eq_nil_iff_forall_not_mem]
    intro frame hmem
    obtain ⟨i, hi, hget⟩ := List.getElem_of_mem (FrameQueue.mem_held.mp hmem)
    have hslot := hservice i
    rw [FrameQueue.get, List.getElem?_eq_getElem hi, hget] at hslot
    cases hslot
  · cases hnil
  · cases hnil

end TinyFd

namespace Frames

open TinyFd Side

variable {f : Frames} {a s : Bool} {n : Bool → ℕ} {addr : UInt8}

/-- Station `a` has asked to close the connection, and what it waits for is on
its way. -/
structure Closing (a : Bool) (addr : UInt8) (n : Bool → ℕ) (f : Frames) : Prop where
  address : ∀ s, (f s).station.addrField 0 = addr
  told : ∀ s, Told (n s) (f s).station
  asker : ((f a).station.peer 0).state = .disconnecting ∨
    ((f a).station.peer 0).state = .disconnected
  other : ((f (!a)).station.peer 0).state = .connected ∨
    ((f (!a)).station.peer 0).state = .disconnected
  noSetup : ∀ s, ∀ frame ∈ f.coming s, ¬ IsSetup (frame.getD 1 0)
  noDisc : ∀ frame ∈ f.coming a, ¬ IsDisc (frame.getD 1 0)
  disc : ((f (!a)).station.peer 0).state = .connected →
    (⟨.uFrame, discHeader addr, []⟩ : FrameInfo).toBytes ∈ f.coming !a
  reply : ((f a).station.peer 0).state = .disconnecting →
    (⟨.uFrame, discHeader addr, []⟩ : FrameInfo).toBytes ∈ f.coming (!a) ∨
      (⟨.uFrame, uaHeader addr, []⟩ : FrameInfo).toBytes ∈ f.coming a

theorem closing_disconnect (hl : Linked f) (haddr : (f a).station.addrField 0 = addr)
    (htold : ∀ s, Told (n s) (f s).station) (hup : ∀ s, ((f s).station.peer 0).state = .connected)
    (hno : ∀ s, ∀ frame ∈ f.coming s, ¬ IsSetup (frame.getD 1 0) ∧ ¬ IsDisc (frame.getD 1 0))
    (hok : (f a).station.disconnect.2 = .ok ()) : Closing a addr n (f.disconnect a) := by
  rcases (f a).station.disconnect_cases with ⟨-, he⟩ | ⟨q, i, ha, he, hq⟩
  · rw [he] at hok
    cases hok
  have hzero : 0 < (f a).station.peerMgr.peers.length := by rw [hl.one a]; decide
  have hst : ((f a).station.disconnect.1.peer 0).state = .disconnecting := by
    rw [he, peer_modifyPeer_self (by rwa [peerMgr_putUSFrame])]
  have hcb : (f a).station.disconnect.1.callbacks = (f a).station.callbacks := by
    rw [he, callbacks_modifyPeer, callbacks_putUSFrame]
  have hsq : (f a).station.disconnect.1.frames.sQueue = q := by rw [he, frames_modifyPeer, hq]
  have hset : (f a).station.disconnect.1.setup = (f a).station.setup := setup_disconnect _
  have hself : (f.disconnect a) a = { f a with station := (f a).station.disconnect.1 } := put_self
  have hnot : (f.disconnect a) (!a) = f (!a) := put_not
  have hback : (f.disconnect a).coming a = f.coming a := by rw [coming, hself, hnot, coming]
  have hforth : ((f.disconnect a).coming !a).Perm
      ((⟨.uFrame, discHeader addr, []⟩ : FrameInfo).toBytes :: f.coming !a) := by
    rw [coming, coming, Bool.not_not, hself, hnot]
    dsimp only
    rw [hsq]
    have hp := ha.perm.map FrameInfo.toBytes
    rw [haddr] at hp
    exact (hp.append_left _).trans List.perm_middle
  have hcoming : ∀ s, ∀ frame ∈ (f.disconnect a).coming s, ¬ IsSetup (frame.getD 1 0) := by
    intro s frame hmem
    rcases Bool.eq_or_eq_not s a with rfl | rfl
    · rw [hback] at hmem
      exact (hno _ frame hmem).1
    · rcases List.mem_cons.mp (hforth.mem_iff.mp hmem) with rfl | hmem
      · exact (by decide : ¬ IsSetup (hdlcUFrameTypeDisc ||| hdlcUFrameBits ||| hdlcPBit))
      · exact (hno _ frame hmem).1
  have hdisc : (⟨.uFrame, discHeader addr, []⟩ : FrameInfo).toBytes ∈ (f.disconnect a).coming !a :=
    hforth.mem_iff.mpr (List.mem_cons_self ..)
  refine ⟨?_, ?_, .inl ?_, .inl ?_, hcoming, ?_, fun _ ↦ hdisc, fun _ ↦ .inl hdisc⟩
  · intro s
    rcases Bool.eq_or_eq_not s a with rfl | rfl
    · rw [hself, ← haddr]
      exact addrField_congr hset 0
    · rw [hnot, hl.address, haddr]
  · intro s
    rcases Bool.eq_or_eq_not s a with rfl | rfl
    · have ht := htold s
      rw [Told, if_neg (by rw [hup s]; decide)] at ht
      rw [hself, Told, goodbyes, hcb, if_neg (by rw [hst]; decide)]
      exact ht
    · rw [hnot]
      exact htold _
  · rw [hself, hst]
  · rw [hnot, hup]
  · intro frame hmem
    rw [hback] at hmem
    exact (hno _ frame hmem).2

/-- Handing a frame over keeps every service frame on its way, and an I-frame
joins them. -/
theorem coming_generateTxFrames (hl : Linked f) (s : Bool) (now : Instant) :
    let f' :=
      f.generateTxFrames s now (handed (f s).station ((f s).station.generateTxFrames now)).toList
    f'.coming s = f.coming s ∧ (∀ frame ∈ f.coming !s, frame ∈ f'.coming !s) ∧
      ∀ frame ∈ f'.coming !s, frame ∈ f.coming (!s) ∨
      frame.getD 1 0 &&& hdlcUFrameMask ≠ hdlcUFrameBits := by
  intro f'
  have hzero : 0 < (f s).station.peerMgr.peers.length := by rw [hl.one s]; decide
  have hself : f' s = { f s with station := (f s).station.generateTxFrames now } :=
    generateTxFrames_self ..
  have hnot : f' (!s) = { f (!s) with inbox :=
      (f (!s)).inbox ++ (handed (f s).station ((f s).station.generateTxFrames now)).toList } :=
    put_self
  have hback : f'.coming s = f.coming s := by rw [coming, hself, hnot, coming]
  have hforth : f'.coming (!s) =
      ((f (!s)).inbox ++ (handed (f s).station ((f s).station.generateTxFrames now)).toList) ++
        ((f s).station.generateTxFrames now).frames.sQueue.held.map FrameInfo.toBytes := by
    rw [coming, Bool.not_not, hself, hnot]
  have hold : f.coming (!s) = (f (!s)).inbox ++ (f s).station.frames.sQueue.held.map
      FrameInfo.toBytes := by
    rw [coming, Bool.not_not]
  refine ⟨hback, ?_⟩
  rw [hforth, hold]
  rcases generateTxFrames_handed (hl.one s) now with ⟨hn, he, -⟩ | ⟨-, i, frame, hi, -, hh, he⟩ |
    ⟨-, -, frame, -, hh, he⟩
  · rw [hn, he, Option.toList_none, List.append_nil]
    exact ⟨fun _ h ↦ h, fun _ h ↦ .inl h⟩
  · have hp := (FrameQueue.free_perm hi).map FrameInfo.toBytes
    rw [hh, he, Option.toList_some, List.append_assoc, List.singleton_append]
    have hq := hp.append_left (f !s).inbox
    exact ⟨fun _ h ↦ hq.mem_iff.mp h, fun _ h ↦ .inl (hq.mem_iff.mpr h)⟩
  · rw [hh, he, frames_modifyPeer, Option.toList_some, List.append_assoc, List.singleton_append]
    have hq : ∀ (frame' : Bytes), frame' ∈ (f !s).inbox ++ (f s).station.sendIData 0 frame ::
        (f s).station.frames.sQueue.held.map FrameInfo.toBytes ↔
        frame' = (f s).station.sendIData 0 frame ∨
          frame' ∈ (f !s).inbox ++ (f s).station.frames.sQueue.held.map FrameInfo.toBytes := by
      intro frame'
      rw [List.mem_append, List.mem_cons, List.mem_append]
      exact or_left_comm
    refine ⟨fun frame' h ↦ (hq frame').mpr (.inr h), ?_⟩
    intro frame' h
    rcases (hq frame').mp h with rfl | h
    · right
      obtain ⟨k, hk⟩ := exists_seq_of_lt ((hl.wf s).counters 0 hzero).next
      obtain ⟨m, hm⟩ := exists_seq_of_lt ((hl.wf s).counters 0 hzero).recv
      rw [sendIData_eq, hk, hm]
      exact not_isU_iControl k m
    · exact .inl h

theorem Closing.congr {f' : Frames} (h : Closing a addr n f)
    (haddr : ∀ t, (f' t).station.addrField 0 = (f t).station.addrField 0)
    (hcb : ∀ t, (f' t).station.callbacks = (f t).station.callbacks)
    (hstate : ∀ t, ((f' t).station.peer 0).state = ((f t).station.peer 0).state)
    (hmore : ∀ t, ∀ frame ∈ f.coming t, frame ∈ f'.coming t)
    (hless : ∀ t, ∀ frame ∈ f'.coming t,
      frame ∈ f.coming t ∨ frame.getD 1 0 &&& hdlcUFrameMask ≠ hdlcUFrameBits) :
      Closing a addr n f' := by
  refine ⟨fun t ↦ (haddr t).trans (h.address t), fun t ↦ (h.told t).congr (hcb t) (hstate t), ?_,
    ?_, ?_, ?_, ?_, ?_⟩
  · rw [hstate]
    exact h.asker
  · rw [hstate]
    exact h.other
  · intro t frame hmem
    rcases hless t frame hmem with hmem | hU
    · exact h.noSetup t frame hmem
    · exact fun hset ↦ hU hset.1
  · intro frame hmem
    rcases hless a frame hmem with hmem | hU
    · exact h.noDisc frame hmem
    · exact fun hdisc ↦ hU hdisc.1
  · rw [hstate]
    exact fun hs ↦ hmore _ _ (h.disc hs)
  · rw [hstate]
    exact fun hs ↦ (h.reply hs).imp (hmore _ _) (hmore _ _)

theorem Closing.generateTxFrames (h : Closing a addr n f) (hl : Linked f) (s : Bool)
    (now : Instant) :
    Closing a addr n
      (f.generateTxFrames s now
        (handed (f s).station ((f s).station.generateTxFrames now)).toList) := by
  obtain ⟨hback, hkept, hadded⟩ := coming_generateTxFrames hl s now
  have hself :=
    f.generateTxFrames_self s now (handed (f s).station ((f s).station.generateTxFrames now)).toList
  have hnot :=
    f.generateTxFrames_not s now (handed (f s).station ((f s).station.generateTxFrames now)).toList
  generalize f.generateTxFrames s now
    (handed (f s).station ((f s).station.generateTxFrames now)).toList = f' at *
  obtain ⟨hcb, hstate, -, -⟩ := generateTxFrames_calm (hl.one s) now
  apply h.congr
  · refine both s ?_ (by rw [hnot])
    rw [hself]
    exact addrField_congr (setup_generateTxFrames ..) 0
  · exact both s (by rw [hself, hcb]) (by rw [hnot])
  · exact both s (by rw [hself, hstate]) (by rw [hnot])
  · refine both s ?_ hkept
    rw [hback]
    exact fun _ h ↦ h
  · refine both s ?_ hadded
    rw [hback]
    exact fun _ h ↦ .inl h

theorem Closing.withHdlc (h : Closing a addr n f) (s : Bool) (ll : HdlcLl) :
    Closing a addr n (f.withHdlc s ll) := by
  have hself : f.withHdlc s ll s = { f s with station := (f s).station.withHdlc ll } := put_self
  have hnot : f.withHdlc s ll (!s) = f (!s) := put_not
  have hcoming : ∀ t, (f.withHdlc s ll).coming t = f.coming t := by
    refine both s ?_ ?_
    · rw [coming, hself, hnot, coming]
    · rw [coming, Bool.not_not, hself, hnot, coming, Bool.not_not]
      rfl
  apply h.congr
  · exact both s (by rw [hself]; rfl) (by rw [hnot])
  · exact both s (by rw [hself]; rfl) (by rw [hnot])
  · exact both s (by rw [hself]; rfl) (by rw [hnot])
  · intro t
    rw [hcoming]
    exact fun _ h ↦ h
  · intro t
    rw [hcoming]
    exact fun _ h ↦ .inl h

theorem addressed_of_link (hl : Linked f) (haddr : ∀ s, (f s).station.addrField 0 = addr) (s : Bool)
    (frameType : QueuedFrameType) (control : UInt8) :
    (f s).station.AddressedTo 0 (⟨frameType, ⟨addr, control⟩, []⟩ : FrameInfo).toBytes := by
  refine ⟨le_rfl, ?_⟩
  rw [← haddr s]
  exact hl.addressed s

/-- Handling a frame takes it off the line. Its answer, if it has one, joins what is
on its way back and is neither a setup nor a disconnect. -/
theorem coming_receive {s : Bool} {frame : Bytes} {rest : List Bytes}
    (hin : (f s).inbox = frame :: rest) {now : Instant} {m : ℕ}
    (hw : Winding m (f s).station frame ((f s).station.onFrameReceived now frame)) :
    let f' := f.receive s now
    f.coming s = frame :: f'.coming s ∧ (∀ frame ∈ f.coming !s, frame ∈ f'.coming !s) ∧
      ∀ frame ∈ f'.coming !s,
        frame ∈ f.coming (!s) ∨ ¬ IsSetup (frame.getD 1 0) ∧ ¬ IsDisc (frame.getD 1 0) := by
  intro f'
  have hself : f' s = _ := receive_self hin now
  have hnot : f' (!s) = f (!s) := f.receive_not s now
  refine ⟨?_, ?_, ?_⟩
  · rw [coming, coming, hself, hnot, hin, List.cons_append]
  · intro frame' hmem
    rw [coming, Bool.not_not, List.mem_append] at hmem ⊢
    rw [hself, hnot]
    apply hmem.imp_right
    intro hmem
    obtain ⟨info, hinfo, rfl⟩ := List.mem_map.mp hmem
    exact List.mem_map_of_mem (hw.kept info hinfo)
  · intro frame' hmem
    rw [coming, Bool.not_not, List.mem_append, hself, hnot] at hmem
    rw [coming, Bool.not_not, List.mem_append]
    rcases hmem with hmem | hmem
    · exact .inl (.inl hmem)
    · obtain ⟨info, hinfo, rfl⟩ := List.mem_map.mp hmem
      exact (hw.added info hinfo).imp (fun h ↦ .inr (List.mem_map_of_mem h)) id

theorem Closing.receive (h : Closing a addr n f) (hl : Linked f) {s : Bool} {frame : Bytes}
    {rest : List Bytes} (hin : (f s).inbox = frame :: rest) (now : Instant)
    (hfree : IsDisc (frame.getD 1 0) → (f s).station.frames.sQueue.hasFreeSlots) :
    Closing a addr n (f.receive s now) := by
  have hhead : frame ∈ f.coming s := by
    rw [coming, hin]
    exact List.mem_cons_self ..
  have hconn : ∀ t, ((f t).station.peer 0).state ≠ .connecting := by
    refine both a ?_ ?_
    · rcases h.asker with hs | hs <;> rw [hs] <;> decide
    · rcases h.other with hs | hs <;> rw [hs] <;> decide
  have hw := winding (hl.wf s) (hl.one s) (onFrameReceived_reaction (hl.wf s) (hl.one s) now frame)
    (h.noSetup s frame hhead) (hconn s) (h.told s)
  obtain ⟨hcoming, hkept, hadded⟩ := coming_receive hin hw
  have hset := setup_onFrameReceived (hl.wf s) now frame
  have haddr := addrField_congr hset 0
  have hself := receive_self hin now
  have hnot := f.receive_not s now
  generalize f.receive s now = f' at *
  generalize (f s).station.onFrameReceived now frame = fd' at *
  have hrest : ∀ frame' ∈ f'.coming s, frame' ∈ f.coming s := by
    intro frame' hmem
    rw [hcoming]
    exact List.mem_cons_of_mem _ hmem
  have hstay : ∀ frame' ∈ f.coming s, frame' = frame ∨ frame' ∈ f'.coming s := by
    intro frame' hmem
    rw [hcoming] at hmem
    exact List.mem_cons.mp hmem
  have haddressed := addressed_of_link hl h.address s .uFrame
  have hsetups : ∀ t, ∀ frame ∈ f'.coming t, ¬ IsSetup (frame.getD 1 0) := by
    refine both s (fun frame' hmem ↦ h.noSetup s frame' (hrest frame' hmem)) ?_
    intro frame' hmem
    exact (hadded frame' hmem).elim (h.noSetup _ frame') (·.1)
  have haddress : ∀ t, (f' t).station.addrField 0 = addr := by
    refine both s ?_ ?_
    · rw [hself, haddr, h.address]
    · rw [hnot, h.address]
  have htold : ∀ t, Told (n t) (f' t).station := by
    refine both s ?_ ?_
    · rw [hself]
      exact hw.told
    · rw [hnot]
      exact h.told _
  rcases Bool.eq_or_eq_not s a with rfl | rfl
  · refine ⟨haddress, htold, ?_, ?_, hsetups, fun frame' hmem ↦ h.noDisc frame' (hrest frame' hmem),
      ?_, ?_⟩
    · rw [hself]
      rcases hw.state with hs | hs
      · exact .inr hs
      · rw [hs]
        exact h.asker
    · rw [hnot]
      exact h.other
    · rw [hnot]
      exact fun hs ↦ hkept _ (h.disc hs)
    · rw [hself]
      intro hs
      have hbefore := hw.before hs (by decide)
      apply (h.reply hbefore).imp (hkept _)
      intro hmem
      rcases hstay _ hmem with rfl | hmem
      · have hua : IsReply (hdlcUFrameTypeUa ||| hdlcUFrameBits ||| hdlcFBit) := .inl (by decide)
        have hdown := hw.reply (haddressed _) hua hbefore
        rw [hs] at hdown
        cases hdown
      · exact hmem
  · rw [Bool.not_not] at hkept hadded hnot
    have hdisc : IsDisc (hdlcUFrameTypeDisc ||| hdlcUFrameBits ||| hdlcPBit) := by decide
    refine ⟨haddress, htold, ?_, ?_, hsetups, ?_, ?_, ?_⟩
    · rw [hnot]
      exact h.asker
    · rw [hself]
      rcases hw.state with hs | hs
      · exact .inr hs
      · rw [hs]
        exact h.other
    · intro frame' hmem
      exact (hadded frame' hmem).elim (h.noDisc frame') (·.2)
    · rw [hself]
      intro hs
      have hbefore := hw.before hs (by decide)
      rcases hstay _ (h.disc hbefore) with rfl | hmem
      · have hdown := (hw.disc (haddressed _) hdisc).1
        rw [hs] at hdown
        cases hdown
      · exact hmem
    · rw [hnot]
      intro hs
      rcases h.reply hs with hmem | hmem
      · rcases hstay _ hmem with rfl | hmem
        · right
          have hqueued := (hw.disc (haddressed _) hdisc).2 (hfree hdisc)
          rw [h.address] at hqueued
          rw [coming, List.mem_append, hself]
          exact .inr (List.mem_map_of_mem hqueued)
        · exact .inl hmem
      · exact .inr (hkept _ hmem)

theorem Closing.receives (h : Closing a addr n f) (hl : Linked f) {s : Bool} {xs ys : List Bytes}
    (hin : (f s).inbox = xs ++ ys) (now : Instant)
    (hfree : ∀ k < xs.length, IsDisc ((xs.getD k []).getD 1 0) →
      (deliver now (f s).station (xs.take k)).frames.sQueue.hasFreeSlots) :
    Closing a addr n ((fun f : Frames ↦ f.receive s now)^[xs.length] f) := by
  induction xs generalizing f with
  | nil => exact h
  | cons x xs ih =>
    rw [List.cons_append] at hin
    have hself := receive_self hin now
    rw [List.length_cons, Function.iterate_succ_apply]
    refine ih (h.receive hl hin now (hfree 0 (Nat.succ_pos _))) (hl.receive s now)
      (by rw [hself]) ?_
    intro k hk
    rw [hself]
    exact hfree (k + 1) (Nat.succ_lt_succ hk)

theorem Closing.silent (h : Closing a addr n f) (hno : ∀ s, f.coming s = []) (s : Bool) :
    ((f s).station.peer 0).state = .disconnected := by
  revert s
  refine both a ?_ ?_
  · rcases h.asker with hs | hs
    · rcases h.reply hs with hmem | hmem <;> rw [hno] at hmem <;> cases hmem
    · exact hs
  · rcases h.other with hs | hs
    · have hmem := h.disc hs
      rw [hno] at hmem
      cases hmem
    · exact hs

end Frames

namespace Net

open TinyFd Side Frames

variable {net net' net₁ : Net} {a : Bool}

/-- Every DISC that the call receives finds a free slot for the answer. -/
def DiscAnswered (net : Net) : Op → Prop
  | .onRxData s now count =>
    let arrived := ((net s).station.decode (net s).station.hdlc.phase ((net s).inbox.take count)).2
    ∀ k < arrived.length, IsDisc ((arrived.getD k []).getD 1 0) →
      (deliver now (net s).station (arrived.take k)).frames.sQueue.hasFreeSlots
  | _ => True

instance : ∀ op, Decidable (net.DiscAnswered op)
  | .onRxData s now count => by unfold DiscAnswered; infer_instance
  | .sendPacket .. | .disconnect _ | .getTxData .. => .isTrue trivial

/-- Nothing is on its way, and a call of `get_tx_data` returns nothing on either side. -/
def Silent (net : Net) : Prop := ∀ s, (net s).inbox = [] ∧ ∃ now room timeoutMs, 0 < room ∧
  (net s).station.Quiet now ∧ ((net s).station.getTxData now room timeoutMs).map Prod.snd = some []

theorem silent_coming (h : Linked net) (hs : net.Silent) (s : Bool) : net.frames.coming s = [] := by
  obtain ⟨-, now, room, timeoutMs, hroom, hq, hout⟩ := hs !s
  obtain ⟨htx, hservice, -⟩ := getTxData_nil (h.wf !s) (h.one !s) hroom hq hout
  have hpending : net.pending s = [] := by
    rw [pending, (hs s).1, htx, ite_self]
    rfl
  have hin : (net.frames s).inbox = [] := by
    change (net.outlook s).2 = []
    rw [outlook, hpending]
    rfl
  rw [coming, hin]
  change List.map FrameInfo.toBytes (net (!s)).station.frames.sQueue.held = []
  rw [hservice]
  rfl

structure WindingDown (a : Bool) (addr : UInt8) (n : Bool → ℕ) (net : Net) : Prop where
  linked : Linked net
  settled : net.Settled
  closing : Closing a addr n net.frames

theorem windingDown_step {addr : UInt8} {n : Bool → ℕ} (h : WindingDown a addr n net) {op : Op}
    (hop : net.Exchange op ∧ net.DiscAnswered op) (hs : net.step op = some net') :
    WindingDown a addr n net' := by
  obtain ⟨hl, ha, hc⟩ := h
  obtain ⟨hex, hans⟩ := hop
  cases op with
  | sendPacket => exact hex.elim
  | disconnect => exact hex.elim
  | getTxData s now room timeoutMs lost =>
    obtain ⟨hq, rfl⟩ := hex
    obtain ⟨ll, hf, hl', ha', -⟩ := getTxData_settled hl ha hs
    refine ⟨hl', ha', ?_⟩
    rw [hf, frames_quiet hq, checkTimeouts_quiet hq]
    exact (hc.generateTxFrames hl.frames s now).withHdlc s ll
  | onRxData s now count =>
    obtain ⟨ll, hf, ⟨rest, hin⟩, hl', ha'⟩ := onRxData_settled hl ha hs
    refine ⟨hl', ha', ?_⟩
    rw [hf]
    exact (hc.receives hl.frames hin.symm now hans).withHdlc s ll

/-- A disconnect over a lossless link ends with both stations disconnected and
both users told once, if every DISC received finds room for its UA. -/
theorem disconnect_graceful {config : Bool → TinyFdConfig} (hp : Pair config)
    (hr : ∀ s, Reachable (config s) (net s).station) (hsettled : net.Settled)
    (hup : ∀ s, ((net s).station.peer 0).state = .connected)
    (hno : ∀ s, ∀ frame ∈ net.frames.coming s, ¬ IsSetup (frame.getD 1 0) ∧
      ¬ IsDisc (frame.getD 1 0))
    (hok : (net a).station.disconnect.2 = .ok ()) (hs : net.step (.disconnect a) = some net₁)
      {ops : List Op}
    (hops : EachStep step (fun net op ↦ net.Exchange op ∧ net.DiscAnswered op) net₁ ops)
    (hrun : run step net₁ ops = some net') (hsilent : net'.Silent) (s : Bool) :
    ((net' s).station.peer 0).state = .disconnected ∧
      (net' s).station.goodbyes = (net s).station.goodbyes + 1 := by
  have hl := linked_of_reachable hp hr
  obtain ⟨hf, hl₁, ha₁⟩ := disconnect_settled hl hsettled hs
  have htold : ∀ s, Told (net s).station.goodbyes (net.frames s).station := by
    intro s
    rw [Told, if_neg]
    · rfl
    · change ((net s).station.peer 0).state ≠ _
      rw [hup s]
      decide
  have hc : Closing a ((net a).station.addrField 0) (fun s ↦ (net s).station.goodbyes)
      net₁.frames := by
    rw [hf]
    exact closing_disconnect hl.frames rfl htold hup hno hok
  have hw : WindingDown a _ _ net' :=
    run_invariant (fun _ _ _ h hop hs ↦ windingDown_step h hop hs) ⟨hl₁, ha₁, hc⟩ hops hrun
  have hdown := hw.closing.silent (silent_coming hw.linked hsilent) s
  have htold' := hw.closing.told s
  rw [Told, if_pos hdown] at htold'
  exact ⟨hdown, htold'⟩

def farewell : List Op :=
  [.getTxData true 0 8 0 false, .onRxData false 0 8, .getTxData false 0 8 0 false,
    .onRxData true 0 8]

def leavingNet : Net := (connectedNet.step (.disconnect true)).get (by decide +kernel)

def partedNet : Net := (run step leavingNet farewell).get (by decide +kernel)

theorem disconnect_graceful_idle :
    (((partedNet true).station.peer 0).state = .disconnected ∧
      (partedNet true).station.goodbyes = 1) ∧ ((partedNet false).station.peer 0).state =
        .disconnected ∧ (partedNet false).station.goodbyes = 1 := by
  have hsilent : partedNet.Silent := by
    intro s
    refine ⟨?_, 0, 1, 0, Nat.one_pos, ?_⟩ <;> revert s <;> decide +kernel
  have h := @disconnect_graceful connectedNet partedNet leavingNet true plainConfig plainConfig_pair
    (reachable_replay _) (by decide +kernel) (by decide +kernel) (by decide +kernel)
      (by decide +kernel)
    (Option.some_get _).symm farewell (by decide +kernel) (Option.some_get _).symm hsilent
  exact ⟨h true, h false⟩

def crowded : List Op :=
  [.sendPacket true 1 [1] 0, .sendPacket true 1 [2] 0, .sendPacket true 1 [3] 0,
    .sendPacket true 1 [4] 0,
    .getTxData true 0 8 0 false, .getTxData true 0 8 0 false, .getTxData true 0 8 0 false,
    .getTxData true 0 8 0 false]

def unanswered : List Op :=
  [.getTxData true 0 8 0 false, .onRxData false 0 32, .getTxData false 0 8 0 false,
    .getTxData false 0 8 0 false, .getTxData false 0 8 0 false, .getTxData false 0 8 0 false,
    .onRxData true 0 32]

def crowdedNet : Net := (replay plainConfig 0 (handshake ++ crowded)).get (by decide +kernel)

def interruptedNet : Net := (crowdedNet.step (.disconnect true)).get (by decide +kernel)

def strandedNet : Net := (run step interruptedNet unanswered).get (by decide +kernel)

/-- The station that asked stays Disconnecting, and its user is never told. -/
theorem disconnect_not_graceful :
    ∃ (config : Bool → TinyFdConfig) (net net₁ net' : Net) (ops : List Op), Pair config ∧
      (∀ s, Reachable (config s) (net s).station) ∧ net.Settled ∧
      (∀ s, ((net s).station.peer 0).state = .connected) ∧
      (∀ s, ∀ frame ∈ net.frames.coming s, frame.getD 1 0 &&& hdlcUFrameMask ≠ hdlcUFrameBits) ∧
      (net true).station.disconnect.2 = .ok () ∧ net.step (.disconnect true) = some net₁ ∧
      EachStep step Exchange net₁ ops ∧ run step net₁ ops = some net' ∧ net'.Silent ∧
      ((net' true).station.peer 0).state = .disconnecting ∧
      (net' true).station.goodbyes = (net true).station.goodbyes := by
  have hsilent : strandedNet.Silent := by
    intro s
    refine ⟨?_, 0, 1, 0, Nat.one_pos, ?_⟩ <;> revert s <;> decide +kernel
  exact ⟨plainConfig, crowdedNet, interruptedNet, strandedNet, unanswered, plainConfig_pair,
    reachable_replay _,
    by decide +kernel, by decide +kernel, by decide +kernel, by decide +kernel,
    (Option.some_get _).symm,
    by decide +kernel, (Option.some_get _).symm, hsilent, by decide +kernel, by decide +kernel⟩

end Net

end TinyProto
