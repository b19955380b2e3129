import TinyProto.Fd.Window

namespace TinyProto.TinyFd

variable {fd fd' : TinyFd} {i : ℕ}

/-- The sender's side of peer `i`: its counters are now `tx`, and its queue is
as it was. -/
structure Keeps (i : ℕ) (fd fd' : TinyFd) (tx : IQueueControlSend) : Prop where
  setup : fd'.setup = fd.setup
  tx : (fd'.peer i).iQueueControl.txState = tx
  queue : (fd'.frames.iQueue.iPairs (fd.addrField i)).Perm
    (fd.frames.iQueue.iPairs (fd.addrField i))

theorem Keeps.refl (fd : TinyFd) (i : ℕ) : Keeps i fd fd (fd.peer i).iQueueControl.txState :=
  ⟨rfl, rfl, List.Perm.refl _⟩

theorem Keeps.trans {fd'' : TinyFd} {tx tx' : IQueueControlSend} (h : Keeps i fd fd' tx)
    (h' : Keeps i fd' fd'' tx') : Keeps i fd fd'' tx' := by
  have hq := h'.queue
  rw [addrField_congr h.setup] at hq
  exact ⟨h'.setup.trans h.setup, h'.tx, hq.trans h.queue⟩

/-- No other peer shares the address field of peer `i`. -/
def Distinct (fd : TinyFd) (i : ℕ) : Prop :=
  ∀ j < fd.peerMgr.peers.length, j ≠ i → fd.addrField j ≠ fd.addrField i

theorem Distinct.congr (hs : fd'.setup = fd.setup) (h : Distinct fd i) : Distinct fd' i := by
  intro j hj hne
  rw [peers_length_congr hs] at hj
  rw [addrField_congr hs, addrField_congr hs]
  exact h j hj hne

section Timeouts

theorem peer_checkTimeout_ne (fd : TinyFd) {j : ℕ} (hne : i ≠ j) (now : Instant) :
    (fd.checkTimeout now j).peer i = fd.peer i := by
  rcases fd.checkTimeout_cases now j with ⟨h, -⟩ | ⟨-, -, h⟩ | ⟨-, -, ⟨-, h⟩ | ⟨-, h⟩⟩ | ⟨-, -, -,
    -, h⟩ | ⟨-, h⟩ <;> rw [h]
  · rw [peer_modifyPeer_ne hne, peer_putUSFrame]
  · rw [peer_modifyPeer_ne hne]
  · rw [peer_modifyPeer_ne hne, peer_putUSFrame, peer_modifyPeer_ne hne]
  · rw [peer_switchToDisconnected_ne fd j now hne]
  · rw [peer_setEvents, peer_modifyPeer_ne hne]

theorem iPairs_checkTimeout_ne {j : ℕ} (hd : fd.addrField j ≠ fd.addrField i) (now : Instant) :
    (fd.checkTimeout now j).frames.iQueue.iPairs (fd.addrField i) =
      fd.frames.iQueue.iPairs (fd.addrField i) := by
  rcases fd.checkTimeout_cases now j with ⟨h, -⟩ | ⟨-, -, h⟩ | ⟨-, -, ⟨-, h⟩ | ⟨-, h⟩⟩ | ⟨-, -, -,
    -, h⟩ | ⟨-, h⟩ <;> rw [h]
  · rw [frames_modifyPeer, iQueue_putUSFrame]
  · rw [frames_modifyPeer]
  · rw [frames_modifyPeer, iQueue_putUSFrame, frames_modifyPeer]
  · exact iPairs_switchToDisconnected_ne fd j now hd
  · rfl

theorem foldl_checkTimeout_other (now : Instant) (peers : List ℕ) {fd : TinyFd} (hd : Distinct fd i)
    (hpeers : ∀ j ∈ peers, j < fd.peerMgr.peers.length ∧ j ≠ i) :
    let fd' := peers.foldl (fun fd peer ↦ fd.checkTimeout now peer) fd
    fd'.setup = fd.setup ∧ fd'.peer i = fd.peer i ∧
      fd'.frames.iQueue.iPairs (fd.addrField i) = fd.frames.iQueue.iPairs (fd.addrField i) := by
  induction peers generalizing fd with
  | nil => exact ⟨rfl, rfl, rfl⟩
  | cons j peers ih =>
    obtain ⟨hj, hne⟩ := hpeers j (List.mem_cons_self ..)
    have hpeer := peer_checkTimeout_ne fd hne.symm now
    have hq := iPairs_checkTimeout_ne (hd j hj hne) now
    have hs := setup_checkTimeout fd now j
    have hrest := @ih (fd.checkTimeout now j) (hd.congr hs) (by
      intro k hk
      rw [peers_length_congr hs]
      exact hpeers k (List.mem_cons_of_mem _ hk))
    rw [addrField_congr hs] at hrest
    exact ⟨hrest.1.trans hs, hrest.2.1.trans hpeer, hrest.2.2.trans hq⟩

theorem checkTimeout_self (hi : i < fd.peerMgr.peers.length) (now : Instant)
    (hconn : (fd.peer i).state = .connected)
    (hconn' : ((fd.checkTimeout now i).peer i).state = .connected) :
    Keeps i fd (fd.checkTimeout now i)
      (if fd.retryDue i now then
        { (fd.peer i).iQueueControl.txState with nextNs :=
          (fd.peer i).iQueueControl.txState.confirmNs }
      else (fd.peer i).iQueueControl.txState) := by
  have hs := setup_checkTimeout fd now i
  rcases fd.checkTimeout_cases now i with ⟨h, hdue⟩ | ⟨hstate, -, -⟩ | ⟨hstate, -, -⟩ | ⟨-, -, -, -,
    h⟩ | ⟨hdue, h⟩
  · rw [h, if_neg hdue]
    exact Keeps.refl fd i
  · rw [hconn] at hstate
    simp at hstate
  · rw [hconn] at hstate
    cases hstate
  · rw [h, state_switchToDisconnected fd i now hi] at hconn'
    cases hconn'
  · rw [if_pos hdue]
    refine ⟨hs, ?_, ?_⟩
    · rw [h, peer_setEvents, peer_modifyPeer_self hi]
    · rw [h]
      exact List.Perm.refl _

theorem retryDue_congr (hs : fd'.setup = fd.setup) (hp : fd'.peer i = fd.peer i) (now : Instant) :
    fd'.retryDue i now = fd.retryDue i now := by
  have hr : fd'.retryTimeout = fd.retryTimeout := congrArg Setup.retryTimeout hs
  simp only [retryDue, hp, retryDur, hr]

theorem checkTimeouts_keeps (hi : i < fd.peerMgr.peers.length) (hd : Distinct fd i) (now : Instant)
    (hconn : (fd.peer i).state = .connected)
    (hconn' : ((fd.checkTimeouts now).peer i).state = .connected) :
    Keeps i fd (fd.checkTimeouts now)
      (if fd.retryDue i now then
        { (fd.peer i).iQueueControl.txState with nextNs :=
          (fd.peer i).iQueueControl.txState.confirmNs }
      else (fd.peer i).iQueueControl.txState) := by
  have hsplit := Lib.split_slot (List.getElem?_range hi)
  have hnodup := hsplit ▸ List.nodup_range (n := fd.peerMgr.peers.length)
  rw [List.nodup_append, List.nodup_cons] at hnodup
  obtain ⟨-, ⟨hafter, -⟩, hbefore⟩ := hnodup
  have hlt : ∀ j ∈ List.range fd.peerMgr.peers.length, j < fd.peerMgr.peers.length :=
    fun j hj ↦ List.mem_range.mp hj
  rw [checkTimeouts] at hconn' ⊢
  rw [hsplit, List.foldl_append, List.foldl_cons] at hconn' ⊢
  obtain ⟨hs₁, hpeer₁, hq₁⟩ :=
    foldl_checkTimeout_other now ((List.range fd.peerMgr.peers.length).take i) hd
    fun j hj ↦ ⟨hlt j (List.mem_of_mem_take hj), hbefore j hj i (List.mem_cons_self ..)⟩
  generalize ((List.range fd.peerMgr.peers.length).take i).foldl
    (fun fd peer ↦ fd.checkTimeout now peer) fd = fd₁ at hs₁ hpeer₁ hq₁ hconn' ⊢
  have hs₂ := setup_checkTimeout fd₁ now i
  have hlen := peers_length_congr (hs₂.trans hs₁)
  obtain ⟨hs₃, hpeer₃, hq₃⟩ := foldl_checkTimeout_other now
    ((List.range fd.peerMgr.peers.length).drop (i + 1)) (hd.congr (hs₂.trans hs₁)) (by
      intro j hj
      rw [hlen]
      exact ⟨hlt j (List.mem_of_mem_drop hj), fun he ↦ hafter (he ▸ hj)⟩)
  rw [hpeer₃] at hconn'
  have h₂ := checkTimeout_self (by rwa [peers_length_congr hs₁]) now (by rwa [hpeer₁]) hconn'
  have h₁ : Keeps i fd fd₁ (fd.peer i).iQueueControl.txState :=
    ⟨hs₁, by rw [hpeer₁], by rw [hq₁]⟩
  simp only [hpeer₁, retryDue_congr hs₁ hpeer₁ now] at h₂
  refine (h₁.trans h₂).trans ⟨hs₃, ?_, by rw [hq₃]⟩
  rw [hpeer₃]
  exact h₂.tx

end Timeouts

section SendPacket

theorem sendPacket_keeps (hne : fd.peerMgr.peers ≠ []) (hi : i < fd.peerMgr.peers.length)
    (hd : Distinct fd i) (address : UInt8) (data : Bytes) (timeoutMs : ℕ) :
    let r := fd.sendPacket address data timeoutMs
    (r.1.peer i).state = (fd.peer i).state ∧
    ((¬ (fd.sendPeer address = i ∧ r.2.isOk) ∧ Keeps i fd r.1 (fd.peer i).iQueueControl.txState) ∨
    ((fd.sendPeer address = i ∧ r.2.isOk) ∧ (fd.peer i).iQueueControl.txFull = false ∧
      r.1.setup = fd.setup ∧ (r.1.peer i).iQueueControl.txState =
        { (fd.peer i).iQueueControl.txState with
          lastNs := ((fd.peer i).iQueueControl.txState.lastNs + 1) &&& seqBitsMask } ∧
      ∀ m n, (fd.peer i).iQueueControl.txState.lastNs = seq m →
        (fd.peer i).iQueueControl.rxState.nextNr = seq n →
        (r.1.frames.iQueue.iPairs (fd.addrField i)).Perm
          ((seq m, data) :: fd.frames.iQueue.iPairs (fd.addrField i)))) := by
  intro r
  rcases fd.sendPacket_cases address data timeoutMs with ⟨e, he⟩ | ⟨hvalid, -, hfull, q, k,
    events, ha, he⟩
  · have hr : r = (fd, .error e) := he
    rw [hr]
    refine ⟨rfl, .inl ⟨?_, Keeps.refl fd i⟩⟩
    rintro ⟨-, hok⟩
    cases hok
  · have hr : r = _ := he
    have hp := sendPeer_lt hne hvalid
    have hsetup : r.1.setup = fd.setup := by
      have hm := @setup_modifyPeer fd (fd.sendPeer address)
        (fun q ↦ { q with iQueueControl := q.iQueueControl.moveToNextNs }) fun _ ↦ rfl
      rw [hr]
      simp only [setup, Setup.mk.injEq] at hm ⊢
      exact ⟨hm.1, hm.2.1, ha.capacity, trivial, hm.2.2.2.2⟩
    by_cases hpeer : fd.sendPeer address = i
    · subst hpeer
      have hself : r.1.peer (fd.sendPeer address) =
          { fd.peer (fd.sendPeer address) with
            iQueueControl := (fd.peer (fd.sendPeer address)).iQueueControl.moveToNextNs } := by
        rw [hr]
        exact peer_modifyPeer_self hp _
      refine ⟨by rw [hself], .inr ⟨⟨rfl, by rw [hr]; rfl⟩, hfull, hsetup, by rw [hself]; rfl, ?_⟩⟩
      intro m n hm hn
      have hperm := FrameQueue.iPairs_perm ha.perm rfl
      rw [hr]
      rwa [hm, hn, ns_frame] at hperm
    · have hother : r.1.peer i = fd.peer i := by
        rw [hr]
        exact peer_modifyPeer_ne (Ne.symm hpeer) _
      refine ⟨by rw [hother], .inl ⟨fun h ↦ hpeer h.1, hsetup, by rw [hother], ?_⟩⟩
      rw [hr]
      exact FrameQueue.iPairs_perm_of_ne ha.perm (hd _ hp hpeer)

end SendPacket

section Generate

/-- The I-frame of peer `i` that a call of `generate_tx_frames` has handed to
`HdlcLl::put_frame`, as its N(S) and its payload. -/
def handedTo (i : ℕ) (fd fd' : TinyFd) : Option (UInt8 × Bytes) :=
  if fd.hdlc.txData = none then
    match fd'.hdlc.txData with
    | some (address :: control :: payload) =>
      if address = fd.addrField i ∧ control &&& hdlcIFrameMask = hdlcIFrameBits then
        some ((control >>> 5) &&& seqBitsMask, payload)
      else none
    | _ => none
  else none

theorem generateTxFrames_keeps (h : WellFormed fd) (hi : i < fd.peerMgr.peers.length)
    (hd : Distinct fd i) (now : Instant) :
    let fd' := fd.generateTxFrames now
    (fd'.peer i).state = (fd.peer i).state ∧
    ((handedTo i fd fd' = none ∧ Keeps i fd fd' (fd.peer i).iQueueControl.txState) ∨
    ∃ payload, handedTo i fd fd' = some ((fd.peer i).iQueueControl.txState.nextNs, payload) ∧
      (fd.peer i).iQueueControl.txState.nextNs ≠ (fd.peer i).iQueueControl.txState.lastNs ∧
      ((fd.peer i).iQueueControl.txState.nextNs, payload) ∈ fd.frames.iQueue.iPairs
        (fd.addrField i) ∧
      Keeps i fd fd'
        { (fd.peer i).iQueueControl.txState with
          nextNs := ((fd.peer i).iQueueControl.txState.nextNs + 1) &&& seqBitsMask }) := by
  intro fd'
  have hc := h.counters i hi
  rcases fd.generateTxFrames_cases now with ⟨hbusy, he⟩ | ⟨hidle, k, frame, hk, -, he⟩ |
    ⟨hidle, -, p, frame, hp, ⟨hconn, hne, j, hget⟩, he⟩ | ⟨hidle, -, -, he⟩
  · have he' : fd' = fd := he
    rw [he']
    refine ⟨rfl, .inl ⟨?_, Keeps.refl fd i⟩⟩
    rw [handedTo, if_neg hbusy]
  · have he' : fd' = _ := he
    have hmem : frame ∈ fd.frames.sQueue.held :=
      (FrameQueue.free_perm hk).mem_iff.mpr (List.mem_cons_self ..)
    obtain ⟨-, -, hkind⟩ := h.sFrames frame hmem
    have hnot := not_isI_of_service (hkind.imp And.right And.right)
    rw [he']
    refine ⟨rfl, .inl ⟨?_, ?_, rfl, List.Perm.refl _⟩⟩
    · rw [handedTo, if_pos hidle]
      exact if_neg fun hI ↦ hnot hI.2
    · simp only [setup, handOver, FrameQueue.capacity_free]
  · have he' : fd' = _ := he
    obtain ⟨hmem, htype, haddr, hns⟩ := FrameQueue.getNext_some hget
    have hns := hns rfl
    obtain ⟨m, hm⟩ := exists_seq_of_lt (h.counters p hp).next
    obtain ⟨n, hn⟩ := exists_seq_of_lt (h.counters p hp).recv
    have hdata : fd'.hdlc.txData =
        some (fd.addrField p :: iControl (seq m) (seq n) :: frame.payload) := by
      rw [he', hdlc_modifyPeer, ← haddr, ← hm, ← hn]
      rfl
    have hsetup : fd'.setup = fd.setup := by
      rw [he']
      refine (setup_modifyPeer p ?_).trans rfl
      intro _
      rfl
    have hqueue : fd'.frames = fd.frames := by
      rw [he']
      rfl
    by_cases hpi : p = i
    · subst hpi
      have hpeer : fd'.peer p =
          { fd.peer p with
            iQueueControl := (fd.peer p).iQueueControl.advanceNextNs
            lastSentITs := now
            lastSentFrameTs := now
            retries := fd.retries } := by
        rw [he']
        exact peer_modifyPeer_self hp _
      refine ⟨by rw [hpeer],
        .inr ⟨frame.payload, ?_, hne, ?_, hsetup, by rw [hpeer]; rfl, by rw [hqueue]⟩⟩
      · rw [handedTo, if_pos hidle, hdata]
        dsimp only
        rw [if_pos ⟨rfl, isI_iControl m n⟩, ns_iControl, hm]
      · exact FrameQueue.mem_iPairs.mpr ⟨frame, hmem, htype, haddr, by rw [hns]⟩
    · have hpeer : fd'.peer i = fd.peer i := by
        rw [he']
        exact peer_modifyPeer_ne (Ne.symm hpi) _
      refine ⟨by rw [hpeer], .inl ⟨?_, hsetup, by rw [hpeer], by rw [hqueue]⟩⟩
      rw [handedTo, if_pos hidle, hdata]
      exact if_neg fun hI ↦ hd p hp hpi hI.1
  · have he' : fd' = fd := he
    rw [he']
    refine ⟨rfl, .inl ⟨?_, Keeps.refl fd i⟩⟩
    rw [handedTo, if_pos hidle, hidle]

end Generate

section Receive

def windowControl (i : ℕ) (fd : TinyFd) (data : Bytes) : Option UInt8 :=
  if fd.AddressedTo i data ∧ data.getD 1 0 &&& hdlcUFrameMask ≠ hdlcUFrameBits
    then some (data.getD 1 0)
  else none

theorem keeps_touch (hi : i < fd.peerMgr.peers.length) (p : ℕ) (now : Instant) :
    Keeps i fd (fd.touch p now) (fd.peer i).iQueueControl.txState := by
  refine ⟨setup_touch .., ?_, List.Perm.refl _⟩
  by_cases hpi : p = i
  · subst hpi
    rw [peer_touch_self fd p now hi]
  · rw [peer_touch_ne fd p now (Ne.symm hpi)]

theorem onUFrameReceived_keeps {p : ℕ} (hp : p < fd.peerMgr.peers.length)
    (hi : i < fd.peerMgr.peers.length) (hd : Distinct fd i) (now : Instant) (data : Bytes)
    (hconn : (fd.peer i).state = .connected)
    (hconn' : ((fd.onUFrameReceived p now data).peer i).state = .connected) :
    Keeps i fd (fd.onUFrameReceived p now data) (fd.peer i).iQueueControl.txState := by
  have hua : Keeps i fd (fd.putUSFrame .uFrame (uaHeader (fd.addrField p)) []).1
      (fd.peer i).iQueueControl.txState :=
    ⟨setup_putUSFrame .., by rw [peer_putUSFrame], by rw [iQueue_putUSFrame]⟩
  have hup : ∀ fd₁ : TinyFd, p < fd₁.peerMgr.peers.length → (fd₁.peer i).state = .connected →
      Keeps i fd₁ (fd₁.switchToConnected p now) (fd₁.peer i).iQueueControl.txState := by
    intro fd₁ hp₁ hc
    by_cases hpi : p = i
    · subst hpi
      rw [switchToConnected_of_connected fd₁ p now hc]
      exact Keeps.refl fd₁ p
    · refine ⟨setup_switchToConnected .., ?_, by rw [frames_switchToConnected]⟩
      rw [peer_switchToConnected_ne fd₁ p now (Ne.symm hpi)]
  have hdown : ∀ fd₁ : TinyFd, fd₁.setup = fd.setup → p < fd₁.peerMgr.peers.length →
      ((fd₁.switchToDisconnected p now).peer i).state = .connected →
      Keeps i fd₁ (fd₁.switchToDisconnected p now) (fd₁.peer i).iQueueControl.txState := by
    intro fd₁ hs hp₁ hc
    by_cases hpi : p = i
    · subst hpi
      rw [state_switchToDisconnected fd₁ p now hp₁] at hc
      cases hc
    · have hne : fd₁.addrField p ≠ fd₁.addrField i := hd.congr hs p hp₁ hpi
      refine ⟨setup_switchToDisconnected .., ?_, ?_⟩
      · rw [peer_switchToDisconnected_ne fd₁ p now (Ne.symm hpi)]
      · rw [iPairs_switchToDisconnected_ne fd₁ p now hne]
  have hp₁ : p < (fd.putUSFrame .uFrame (uaHeader (fd.addrField p)) []).1.peerMgr.peers.length := by
    rwa [peerMgr_putUSFrame]
  rcases fd.onUFrameReceived_cases p now data with ⟨-, he⟩ | ⟨-, -, he⟩ | ⟨-, he⟩ | ⟨-, he⟩ | ⟨-, -,
    -, -, -, he⟩ <;> rw [he] at hconn' ⊢
  · have h₂ := hup _ hp₁ (by rwa [peer_putUSFrame])
    rw [peer_putUSFrame] at h₂
    exact hua.trans h₂
  · exact hup fd hp hconn
  · have h₂ := hdown _ (setup_putUSFrame ..) hp₁ hconn'
    rw [peer_putUSFrame] at h₂
    exact hua.trans h₂
  · exact hdown fd rfl hp hconn'
  · exact Keeps.refl fd i

theorem onFrameReceived_keeps (h : WellFormed fd) (hi : i < fd.peerMgr.peers.length)
    (hd : Distinct fd i) (now : Instant) {data : Bytes} (hnone : windowControl i fd data = none)
    (hconn : (fd.peer i).state = .connected)
    (hconn' : ((fd.onFrameReceived now data).peer i).state = .connected) :
    Keeps i fd (fd.onFrameReceived now data) (fd.peer i).iQueueControl.txState := by
  rcases fd.onFrameReceived_cases now data with ⟨-, he⟩ | ⟨p, haddr, hvalid, hcases⟩
  · rw [he]
    exact Keeps.refl fd i
  have hp : p < fd.peerMgr.peers.length := by
    rw [← haddr.2]
    exact PeerManager.addressFieldToPeer_lt h.peers_ne (haddr.2 ▸ hvalid)
  have ht := keeps_touch hi p now
  have hp₁ : p < (fd.touch p now).peerMgr.peers.length := by rwa [peers_length_touch]
  have hi₁ : i < (fd.touch p now).peerMgr.peers.length := by rwa [peers_length_touch]
  have hd₁ := hd.congr (setup_touch fd p now)
  obtain ⟨n, hn⟩ := exists_seq_of_lt ((wellFormed_touch h hp now).counters p hp₁).confirm
  have hacked : ∀ control fd', Acked (fd.touch p now) fd' p n control →
      data.getD 1 0 &&& hdlcUFrameMask ≠ hdlcUFrameBits →
      Keeps i fd fd' (fd.peer i).iQueueControl.txState := by
    intro control fd' hack hU
    have hpi : p ≠ i := by
      rintro rfl
      rw [windowControl, if_pos ⟨haddr, hU⟩] at hnone
      cases hnone
    refine ht.trans ⟨hack.setup, ?_, ?_⟩
    · rw [hack.others i (Ne.symm hpi), ht.tx]
    · rw [hack.iQueue]
      exact iPairs_freeByNs_foldl_ne _ (hd₁ p hp₁ hpi) _
  rcases hcases with ⟨-, he⟩ | ⟨-, -, -, he⟩ | ⟨hU, -, ⟨hI, he⟩ | ⟨hI, he⟩⟩ <;> rw [he] at hconn' ⊢
  · have hstate : ((fd.touch p now).peer i).state = .connected := by
      by_cases hpi : p = i
      · subst hpi
        rwa [peer_touch_self fd p now hi]
      · rwa [peer_touch_ne fd p now (Ne.symm hpi)]
    have h₂ := onUFrameReceived_keeps hp₁ hi₁ hd₁ now data hstate hconn'
    rw [ht.tx] at h₂
    exact ht.trans h₂
  · refine ht.trans ⟨setup_putUSFrame .., ?_, by rw [iQueue_putUSFrame]⟩
    rw [peer_putUSFrame, ht.tx]
  · exact hacked _ _ (onIFrameReceived_acked hp₁ hn data hI) hU
  · exact hacked _ _ (onSFrameReceived_acked hp₁ hn data hI) hU

/-- An I- or S-frame for the connected peer `i` acknowledges up to its N(R). -/
theorem onFrameReceived_acked (hi : i < fd.peerMgr.peers.length) (hle : i < hdlcInvalidPeerIndex)
    (now : Instant) {data : Bytes} {control : UInt8}
    (hsome : windowControl i fd data = some control) (hconn : (fd.peer i).state = .connected)
    {n : ℕ} (hn : (fd.peer i).iQueueControl.txState.confirmNs = seq n) :
    Acked fd (fd.onFrameReceived now data) i n control := by
  rw [windowControl, Option.ite_none_right_eq_some] at hsome
  obtain ⟨⟨haddr, hU⟩, hcontrol⟩ := hsome
  obtain rfl : data.getD 1 0 = control := Option.some.inj hcontrol
  have hi₁ : i < (fd.touch i now).peerMgr.peers.length := by rwa [peers_length_touch]
  have hpeer := peer_touch_self fd i now hi
  have hn₁ : ((fd.touch i now).peer i).iQueueControl.txState.confirmNs = seq n := by rw [hpeer, hn]
  have hlift : ∀ fd', Acked (fd.touch i now) fd' i n (data.getD 1 0) →
      Acked fd fd' i n (data.getD 1 0) := by
    intro fd' hack
    refine ⟨?_, ?_, ?_, ?_, hack.hdlc, hack.setup.trans (setup_touch fd i now)⟩
    · rw [hack.iQueue, addrField_congr (setup_touch fd i now)]
      rfl
    · rw [hack.txState, hpeer]
    · rw [hack.state, hpeer]
    · intro j hj
      rw [hack.others j hj, peer_touch_ne fd i now hj]
  rcases fd.onFrameReceived_cases now data with ⟨hno, -⟩ | ⟨p, haddr', -, hcases⟩
  · exact absurd haddr (hno i hle)
  · obtain rfl : p = i := haddr'.2.symm.trans haddr.2
    rcases hcases with ⟨hU', -⟩ | ⟨-, hs, -, -⟩ | ⟨-, -, ⟨hI, he⟩ | ⟨hI, he⟩⟩
    · exact absurd hU' hU
    · rw [hpeer] at hs
      exact absurd hconn hs
    · rw [he]
      exact hlift _ (onIFrameReceived_acked hi₁ hn₁ data hI)
    · rw [he]
      exact hlift _ (onSFrameReceived_acked hi₁ hn₁ data hI)

end Receive

end TinyProto.TinyFd
