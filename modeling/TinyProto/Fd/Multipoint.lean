import TinyProto.Fd.Flow
import TinyProto.Fd.Isolation

namespace TinyProto

open Lib

def Callback.payloadFrom (user : UInt8) : Callback → Option Bytes
  | .read address payload => if address = user then some payload else none
  | .connect .. => none

namespace TinyFd

variable {fd fd' fd'' : TinyFd} {p q : ℕ}

def readsFrom (fd : TinyFd) (p : ℕ) : List Bytes :=
  fd.callbacks.filterMap (Callback.payloadFrom (fd.userAddress p))

def Separate (fd : TinyFd) (p : ℕ) : Prop :=
  ∀ q < fd.peerMgr.peers.length, q ≠ p → fd.addrField q ≠ fd.addrField p ∧
    fd.userAddress q ≠ fd.userAddress p

theorem Separate.distinct (h : Separate fd p) : Distinct fd p := fun q hq hne ↦ (h q hq hne).1

theorem Separate.congr (h : Separate fd p) (hs : fd'.setup = fd.setup) : Separate fd' p := by
  intro q hq hne
  rw [peers_length_congr hs] at hq
  rw [addrField_congr hs, addrField_congr hs, userAddress_congr hs, userAddress_congr hs]
  exact h q hq hne

theorem peers_secondary {config : TinyFdConfig} (hr : Reachable config fd)
    (hsecondary : fd.peerMgr.isPrimaryStation = false) : fd.peerMgr.peers.length = 1 := by
  obtain ⟨now, fd₀, hnew, hset, -⟩ := hr.origin
  obtain ⟨localAddr, hm⟩ := (initial_new hnew).peerMgr
  rw [isPrimaryStation_congr hset, hm] at hsecondary
  have hlocal : isPrimaryAddress localAddr = false := hsecondary
  rw [peers_length_congr hset, hm, PeerManager.new, hlocal, if_neg Bool.false_ne_true]
  rfl

theorem separate_reachable {config : TinyFdConfig} (hr : Reachable config fd)
    (hle : fd.peerMgr.peers.length ≤ 63) (hp : p < fd.peerMgr.peers.length) : Separate fd p := by
  have hread : ∀ p : Fin 63,
      ((((UInt8.ofNat p + 1) <<< 2 ||| hdlcEBit) &&& ~~~hdlcCrBit) >>> 2).toNat = p + 1 := by
    decide +kernel
  intro q hq hne
  cases hprim : fd.peerMgr.isPrimaryStation with
  | true =>
    have huser : fd.userAddress q ≠ fd.userAddress p := by
      intro heq
      rw [userAddress, if_pos hprim, userAddress, if_pos hprim, addrField_primary hprim,
        addrField_primary hprim, addr_handling (.call hr) hprim hq,
        addr_handling (.call hr) hprim hp] at heq
      have hq' := hread ⟨q, by omega⟩
      have hp' := hread ⟨p, by omega⟩
      rw [heq] at hq'
      exact hne (Nat.succ.inj (hq'.symm.trans hp'))
    refine ⟨fun heq ↦ huser ?_, huser⟩
    rw [userAddress, if_pos hprim, userAddress, if_pos hprim, heq]
  | false =>
    have hone := peers_secondary hr hprim
    omega

theorem readsFrom_readCalls (p : ℕ) (delivered : Option Bytes) (hs : fd'.setup = fd.setup)
    (h : fd'.callbacks = fd.callbacks ++ fd.readCalls p delivered) :
    fd'.readsFrom p = fd.readsFrom p ++ delivered.toList := by
  rw [readsFrom, userAddress_congr hs, h, List.filterMap_append, ← readsFrom]
  congr 1
  cases delivered with
  | none => rfl
  | some payload => exact List.filterMap_cons_some (if_pos rfl)

/-- Nothing has been read from peer `p`, nothing is expected of it that was not
expected before, and only frames of other peers have joined the service queue. -/
structure Aside (p : ℕ) (fd fd' : TinyFd) : Prop where
  setup : fd'.setup = fd.setup
  rxState : (fd'.peer p).iQueueControl.rxState = (fd.peer p).iQueueControl.rxState
  reads : fd'.readsFrom p = fd.readsFrom p
  queue : ∀ {xs}, fd.frames.sQueue.Queues xs → ∃ others : List FrameInfo,
    (∀ x ∈ others, x.header.address ≠ fd.addrField p) ∧ fd'.frames.sQueue.Queues (xs ++ others)

theorem Aside.refl (p : ℕ) (fd : TinyFd) : Aside p fd fd :=
  ⟨rfl, rfl, rfl,
    fun {xs} h ↦ ⟨[], fun _ hx ↦ absurd hx List.not_mem_nil, by rwa [List.append_nil]⟩⟩

theorem Aside.trans (h : Aside p fd fd') (h' : Aside p fd' fd'') : Aside p fd fd'' := by
  refine ⟨h'.setup.trans h.setup, h'.rxState.trans h.rxState, h'.reads.trans h.reads, ?_⟩
  intro xs hq
  obtain ⟨others, hothers, hq'⟩ := h.queue hq
  obtain ⟨others', hothers', hq''⟩ := h'.queue hq'
  rw [addrField_congr h.setup] at hothers'
  refine ⟨others ++ others', ?_, by rwa [← List.append_assoc]⟩
  intro x hx
  exact (List.mem_append.mp hx).elim (hothers x) (hothers' x)

theorem aside_of_calls (hs : fd'.setup = fd.setup)
    (hrx : (fd'.peer p).iQueueControl.rxState = (fd.peer p).iQueueControl.rxState)
    (hq : fd'.frames.sQueue = fd.frames.sQueue) (calls : List Callback)
    (hcb : fd'.callbacks = fd.callbacks ++ calls)
    (hcalls : ∀ c ∈ calls, c.payloadFrom (fd.userAddress p) = none) : Aside p fd fd' := by
  refine ⟨hs, hrx, ?_, ?_⟩
  · rw [readsFrom, userAddress_congr hs, hcb, List.filterMap_append,
      List.filterMap_eq_nil_iff.mpr hcalls, List.append_nil, readsFrom]
  · intro xs h
    refine ⟨[], fun _ hx ↦ absurd hx List.not_mem_nil, ?_⟩
    rwa [hq, List.append_nil]

theorem aside_of_same (hs : fd'.setup = fd.setup)
    (hrx : (fd'.peer p).iQueueControl.rxState = (fd.peer p).iQueueControl.rxState)
    (hq : fd'.frames.sQueue = fd.frames.sQueue) (hcb : fd'.callbacks = fd.callbacks) :
    Aside p fd fd' :=
  aside_of_calls hs hrx hq [] (by rw [hcb, List.append_nil]) fun _ hc ↦ absurd hc List.not_mem_nil

theorem aside_modifyPeer (fd : TinyFd) (hne : q ≠ p) {f : PeerInfo → PeerInfo}
    (hf : ∀ x, (f x).addr = x.addr) : Aside p fd (fd.modifyPeer q f) :=
  aside_of_same (setup_modifyPeer q hf) (by rw [peer_modifyPeer_ne hne.symm]) rfl rfl

theorem aside_call (fd : TinyFd) {c : Callback} (hc : c.payloadFrom (fd.userAddress p) = none) :
    Aside p fd (fd.call c) :=
  aside_of_calls (setup_call c) rfl rfl [c] rfl fun _ hmem ↦ List.mem_singleton.mp hmem ▸ hc

theorem aside_setEvents (fd : TinyFd) (p : ℕ) (bits : UInt8) : Aside p fd (fd.setEvents bits) :=
  aside_of_same (setup_setEvents bits) rfl rfl rfl

theorem aside_putUSFrame (fd : TinyFd) (p : ℕ) (frameType : QueuedFrameType) {header : FrameHeader}
    (data : Bytes) (hne : header.address ≠ fd.addrField p) :
    Aside p fd (fd.putUSFrame frameType header data).1 := by
  refine ⟨setup_putUSFrame .., by rw [peer_putUSFrame], ?_, ?_⟩
  · rw [readsFrom, callbacks_putUSFrame, userAddress_congr (setup_putUSFrame ..)]
    rfl
  · intro xs hq
    rcases putUSFrame_puts rfl frameType header data with ⟨i, ha⟩ | ⟨-, he⟩
    · exact ⟨[⟨frameType, header, data⟩], fun x hx ↦ List.mem_singleton.mp hx ▸ hne, hq.put ha⟩
    · refine ⟨[], fun _ hx ↦ absurd hx List.not_mem_nil, ?_⟩
      rwa [he, List.append_nil]

section Other

theorem aside_switchToConnected (fd : TinyFd) (hne : q ≠ p) (now : Instant) :
    Aside p fd (fd.switchToConnected q now) := by
  by_cases hs : (fd.peer q).state = .connected
  · rw [switchToConnected_of_connected fd q now hs]
    exact .refl p fd
  · refine aside_of_calls (setup_switchToConnected ..) ?_ ?_
      _ (callbacks_switchToConnected fd q now hs) ?_
    · rw [peer_switchToConnected_ne fd q now hne.symm]
    · rw [frames_switchToConnected]
    · intro c hc
      rw [List.mem_singleton.mp hc]
      rfl

theorem aside_switchToDisconnected (fd : TinyFd) (hne : q ≠ p) (now : Instant) :
    Aside p fd (fd.switchToDisconnected q now) := by
  by_cases hs : (fd.peer q).state = .disconnected
  · rw [switchToDisconnected_of_disconnected fd q now hs]
    exact .refl p fd
  · refine aside_of_calls (setup_switchToDisconnected ..) ?_ (sQueue_switchToDisconnected ..) _
      (callbacks_switchToDisconnected fd q now hs) ?_
    · rw [peer_switchToDisconnected_ne fd q now hne.symm]
    · intro c hc
      rw [List.mem_singleton.mp hc]
      rfl

theorem aside_confirmFrames (fd : TinyFd) (hne : q ≠ p) (nr : UInt8) :
    Aside p fd (fd.confirmFrames q nr) :=
  aside_of_same (setup_confirmFrames ..) (by rw [peer_confirmFrames_ne fd q nr hne.symm])
    (sQueue_confirmFrames ..) (callbacks_confirmFrames ..)

theorem aside_onSFrameReceived (fd : TinyFd) (hne : q ≠ p) (data : Bytes) :
    Aside p fd (fd.onSFrameReceived q data) := by
  have hack := aside_confirmFrames fd hne ((data.getD 1 0 >>> 5) &&& seqBitsMask)
  rcases onSFrameReceived_cases fd q data with ⟨-, he⟩ | ⟨-, he⟩ | ⟨-, -, -, he⟩ <;> rw [he]
  · refine hack.trans (aside_modifyPeer _ hne ?_)
    intro _
    rfl
  · refine hack.trans ((aside_modifyPeer _ hne ?_).trans (aside_setEvents ..))
    intro _
    rfl
  · exact hack

variable (hq : q < fd.peerMgr.peers.length) (hne : q ≠ p) (hsep : Separate fd p)
include hq hne hsep

theorem aside_onUFrameReceived (now : Instant) (data : Bytes) :
    Aside p fd (fd.onUFrameReceived q now data) := by
  have hua : Aside p fd (fd.putUSFrame .uFrame (uaHeader (fd.addrField q)) []).1 :=
    fd.aside_putUSFrame p .uFrame [] (hsep q hq hne).1
  rcases fd.onUFrameReceived_cases q now data with ⟨-, he⟩ | ⟨-, -, he⟩ | ⟨-, he⟩ | ⟨-, he⟩ | ⟨-, -,
    -, -, -, he⟩ <;> rw [he]
  · exact hua.trans (aside_switchToConnected _ hne now)
  · exact aside_switchToConnected fd hne now
  · exact hua.trans (aside_switchToDisconnected _ hne now)
  · exact aside_switchToDisconnected fd hne now
  · exact .refl p fd

theorem aside_onIFrameReceived (h : WellFormed fd) (data : Bytes) :
    Aside p fd (fd.onIFrameReceived q data) := by
  obtain ⟨n, hn⟩ := exists_seq_of_lt (h.counters q hq).confirm
  have hack := aside_confirmFrames fd hne ((data.getD 1 0 >>> 1) &&& seqBitsMask)
  obtain ⟨haddr, huser⟩ := hsep q hq hne
  have hput : ∀ {fd₁ : TinyFd}, fd₁.setup = fd.setup →
      ∀ (frameType : QueuedFrameType) (header : FrameHeader), header.address = fd.addrField q →
      Aside p fd₁ (fd₁.putUSFrame frameType header []).1 := by
    intro fd₁ hs frameType header hh
    apply aside_putUSFrame
    rwa [hh, addrField_congr hs]
  rcases onIFrameReceived_cases hq hn data with ⟨-, -, he⟩ | ⟨-, -, he⟩ | ⟨-, he⟩ <;> rw [he]
  · exact hack
  · have hflag : Aside p fd (TinyFd.modifyPeer _ q fun x ↦ { x with sentReject := true }) :=
      hack.trans (aside_modifyPeer _ hne fun _ ↦ rfl)
    exact hflag.trans (hput hflag.setup _ _ rfl)
  · generalize hf : (fun x : PeerInfo ↦ _) = f
    have haddrs : ∀ x, (f x).addr = x.addr := by
      intro x
      rw [← hf]
    have hpeer :
        Aside p fd ((fd.confirmFrames q ((data.getD 1 0 >>> 1) &&& seqBitsMask)).modifyPeer q f) :=
      hack.trans (aside_modifyPeer _ hne haddrs)
    have hread : (Callback.read (fd.userAddress q) (data.drop 2)).payloadFrom
        (((fd.confirmFrames q ((data.getD 1 0 >>> 1) &&& seqBitsMask)).modifyPeer q f).userAddress
          p) = none := by
      rw [userAddress_congr hpeer.setup]
      exact if_neg huser
    have hcall := hpeer.trans (aside_call _ hread)
    exact hcall.trans (hput hcall.setup _ _ rfl)

end Other

theorem aside_onFrameReceived (h : WellFormed fd) (hsep : Separate fd p) {data : Bytes}
    (hno : fd.peerMgr.addressFieldToPeer (data.getD 0 0) ≠ p) (now : Instant) :
    Aside p fd (fd.onFrameReceived now data) ∧ (fd.onFrameReceived now data).peer p = fd.peer p ∧
      windowControl p fd data = none := by
  refine ⟨?_, ?_, if_neg fun hw ↦ hno hw.1.2⟩ <;>
    rcases fd.onFrameReceived_cases now data with ⟨-, he⟩ | ⟨q, hto, hvalid, hcases⟩
  · rw [he]
    exact .refl p fd
  · have hq : q < fd.peerMgr.peers.length := by
      rw [← hto.2]
      exact PeerManager.addressFieldToPeer_lt h.peers_ne (hto.2 ▸ hvalid)
    have hne : q ≠ p := fun he ↦ hno (hto.2.trans he)
    have hset := setup_touch fd q now
    have htouch : Aside p fd (fd.touch q now) := aside_modifyPeer fd hne fun _ ↦ rfl
    have hq' : q < (fd.touch q now).peerMgr.peers.length := by rwa [peers_length_touch]
    have hsep' := hsep.congr hset
    rcases hcases with ⟨-, he⟩ | ⟨-, -, -, he⟩ | ⟨-, -, ⟨-, he⟩ | ⟨-, he⟩⟩ <;> rw [he]
    · exact htouch.trans (aside_onUFrameReceived hq' hne hsep' now data)
    · exact htouch.trans (aside_putUSFrame _ p .uFrame [] (hsep' q hq' hne).1)
    · exact htouch.trans (aside_onIFrameReceived hq' hne hsep' (wellFormed_touch h hq now) data)
    · exact htouch.trans (aside_onSFrameReceived _ hne data)
  · rw [he]
  · have hq : q < fd.peerMgr.peers.length := by
      rw [← hto.2]
      exact PeerManager.addressFieldToPeer_lt h.peers_ne (hto.2 ▸ hvalid)
    have hne : q ≠ p := fun he ↦ hno (hto.2.trans he)
    exact (apart_onFrameReceived h hto hq hne (hsep q hq hne).1 now).peer

section Timeouts

theorem aside_checkTimeout (hq : q < fd.peerMgr.peers.length) (hne : q ≠ p) (hsep : Separate fd p)
    (now : Instant) : Aside p fd (fd.checkTimeout now q) := by
  have haddr := (hsep q hq hne).1
  have hsabm : ∀ {fd₁ : TinyFd}, fd₁.setup = fd.setup →
      Aside p fd₁ (fd₁.putUSFrame .uFrame (fd₁.sabmHeader q) []).1 := by
    intro fd₁ hs
    apply aside_putUSFrame
    change fd₁.addrField q ≠ _
    rwa [addrField_congr hs, addrField_congr hs]
  rcases fd.checkTimeout_cases now q with ⟨h, -⟩ | ⟨-, -, h⟩ | ⟨-, -, ⟨-, h⟩ | ⟨-, h⟩⟩ | ⟨-, -, -,
    -, h⟩ | ⟨-, h⟩ <;> rw [h]
  · exact .refl p fd
  · refine (hsabm rfl).trans (aside_modifyPeer _ hne ?_)
    intro _
    rfl
  · refine aside_modifyPeer _ hne ?_
    intro _
    rfl
  · have hretry : Aside p fd (fd.modifyPeer q fun x ↦ { x with retries := x.retries - 1 }) :=
      aside_modifyPeer _ hne fun _ ↦ rfl
    refine hretry.trans ((hsabm hretry.setup).trans (aside_modifyPeer _ hne ?_))
    intro _
    rfl
  · exact aside_switchToDisconnected fd hne now
  · refine Aside.trans (aside_modifyPeer _ hne ?_) (aside_setEvents ..)
    intro _
    rfl

theorem aside_checkTimeout_self (hp : p < fd.peerMgr.peers.length) (now : Instant)
    (hconn : (fd.peer p).state = .connected)
    (hconn' : ((fd.checkTimeout now p).peer p).state = .connected) :
    Aside p fd (fd.checkTimeout now p) := by
  have hs := setup_checkTimeout fd now p
  rcases fd.checkTimeout_cases now p with ⟨h, -⟩ | ⟨hstate, -, -⟩ | ⟨hstate, -, -⟩ | ⟨-, -, -,
    -, h⟩ | ⟨-, h⟩
  · rw [h]
    exact .refl p fd
  · rw [hconn] at hstate
    simp at hstate
  · rw [hconn] at hstate
    cases hstate
  · rw [h, state_switchToDisconnected fd p now hp] at hconn'
    cases hconn'
  · rw [h] at hs ⊢
    refine aside_of_same hs ?_ rfl rfl
    rw [peer_setEvents, peer_modifyPeer_self hp]

theorem aside_foldl_checkTimeout (now : Instant) (peers : List ℕ) {fd : TinyFd}
    (hsep : Separate fd p) (hpeers : ∀ q ∈ peers, q < fd.peerMgr.peers.length ∧ q ≠ p) :
    Aside p fd (peers.foldl (fun fd peer ↦ fd.checkTimeout now peer) fd) := by
  induction peers generalizing fd with
  | nil => exact .refl p fd
  | cons q peers ih =>
    obtain ⟨hq, hne⟩ := hpeers q (List.mem_cons_self ..)
    have h := aside_checkTimeout hq hne hsep now
    refine h.trans (ih (hsep.congr h.setup) ?_)
    intro j hj
    rw [peers_length_congr h.setup]
    exact hpeers j (List.mem_cons_of_mem _ hj)

theorem aside_checkTimeouts (hp : p < fd.peerMgr.peers.length) (hsep : Separate fd p)
    (now : Instant) (hconn : (fd.peer p).state = .connected)
    (hconn' : ((fd.checkTimeouts now).peer p).state = .connected) :
    Aside p fd (fd.checkTimeouts now) := by
  have hsplit := split_slot (List.getElem?_range hp)
  have hnodup := hsplit ▸ List.nodup_range (n := fd.peerMgr.peers.length)
  rw [List.nodup_append, List.nodup_cons] at hnodup
  obtain ⟨-, ⟨hafter, -⟩, hbefore⟩ := hnodup
  have hlt : ∀ q ∈ List.range fd.peerMgr.peers.length, q < fd.peerMgr.peers.length :=
    fun q hq ↦ List.mem_range.mp hq
  rw [checkTimeouts] at hconn' ⊢
  rw [hsplit, List.foldl_append, List.foldl_cons] at hconn' ⊢
  have hfirst : ∀ q ∈ (List.range fd.peerMgr.peers.length).take p,
      q < fd.peerMgr.peers.length ∧ q ≠ p :=
    fun q hq ↦ ⟨hlt q (List.mem_of_mem_take hq), hbefore q hq p (List.mem_cons_self ..)⟩
  have h₁ := aside_foldl_checkTimeout now _ hsep hfirst
  have hpeer₁ := (foldl_checkTimeout_other now _ hsep.distinct hfirst).2.1
  generalize ((List.range fd.peerMgr.peers.length).take p).foldl
    (fun fd peer ↦ fd.checkTimeout now peer) fd = fd₁ at h₁ hpeer₁ hconn' ⊢
  have hs₂ := (setup_checkTimeout fd₁ now p).trans h₁.setup
  have hlast : ∀ q ∈ (List.range fd.peerMgr.peers.length).drop (p + 1),
      q < (fd₁.checkTimeout now p).peerMgr.peers.length ∧ q ≠ p := by
    intro q hq
    rw [peers_length_congr hs₂]
    exact ⟨hlt q (List.mem_of_mem_drop hq), fun he ↦ hafter (he ▸ hq)⟩
  rw [(foldl_checkTimeout_other now _ (hsep.congr hs₂).distinct hlast).2.1] at hconn'
  have h₂ := aside_checkTimeout_self (by rwa [peers_length_congr h₁.setup]) now
    (by rwa [hpeer₁]) hconn'
  exact (h₁.trans h₂).trans (aside_foldl_checkTimeout now _ (hsep.congr hs₂) hlast)

end Timeouts

/-! What the calls mean for a session with peer `p`. -/

section Session

variable {accepted : List Bytes} {confirmed : ℕ} (h : SendsTo p fd accepted confirmed)
include h

theorem SendsTo.keep {next : UInt8} (hwf : WellFormed fd')
    (hk : Keeps p fd fd' { (fd.peer p).iQueueControl.txState with nextNs := next })
    (hconn : (fd'.peer p).state = .connected) : SendsTo p fd' accepted confirmed := by
  obtain ⟨hc, hm⟩ := h.toCounted.keep hwf hk hconn [] 0
  exact h.moves hc hm

theorem SendsTo.withHdlc {ll : HdlcLl} (hwf : WellFormed (fd.withHdlc ll)) :
    SendsTo p (fd.withHdlc ll) accepted confirmed := by
  have hk : Keeps p fd (fd.withHdlc ll) (fd.peer p).iQueueControl.txState :=
    ⟨rfl, rfl, List.Perm.refl _⟩
  exact h.keep hwf hk h.connected

theorem SendsTo.sendPacket (address : UInt8) (data : Bytes) (timeoutMs : ℕ) :
    let r := fd.sendPacket address data timeoutMs
    SendsTo p r.1 (if fd.sendPeer address = p ∧ r.2.isOk then accepted ++ [data] else accepted)
      confirmed ∧
      Aside p fd r.1 := by
  intro r
  have hdistinct : Distinct fd p := h.distinct
  have hstate := (sendPacket_keeps h.wf.peers_ne h.peer hdistinct address data timeoutMs).1
  have hin : Session.AckInWindow p ⟨fd, accepted, confirmed, [], 0⟩
      (.sendPacket address data timeoutMs) := trivial
  refine ⟨h.step hin rfl (hstate.trans h.connected), ?_⟩
  have hset : r.1.setup = fd.setup := setup_sendPacket ..
  rcases fd.sendPacket_cases address data timeoutMs with ⟨e, he⟩ | ⟨-, -, -, iQueue, k,
    events, -, he⟩
  · rw [show r = _ from he]
    exact .refl p fd
  · refine aside_of_same hset ?_ ?_ ?_ <;> rw [show r = _ from he]
    · by_cases hpeer : fd.sendPeer address = p
      · rw [hpeer]
        change ((fd.modifyPeer p _).peer p).iQueueControl.rxState = _
        rw [peer_modifyPeer_self h.peer]
        rfl
      · change ((fd.modifyPeer _ _).peer p).iQueueControl.rxState = _
        rw [peer_modifyPeer_ne (Ne.symm hpeer)]
    · rfl

theorem SendsTo.checkTimeouts (hsep : Separate fd p) (now : Instant)
    (hconn : ((fd.checkTimeouts now).peer p).state = .connected) :
    SendsTo p (fd.checkTimeouts now) accepted confirmed ∧ Aside p fd (fd.checkTimeouts now) := by
  have hin : Session.AckInWindow p ⟨fd, accepted, confirmed, [], 0⟩ (.checkTimeouts now) := trivial
  exact ⟨h.step hin rfl hconn, aside_checkTimeouts h.peer hsep now h.connected hconn⟩

theorem SendsTo.disconnect (hne : p ≠ 0) (hsep : Separate fd p) :
    SendsTo p fd.disconnect.1 accepted confirmed ∧ Aside p fd fd.disconnect.1 := by
  have hwf := wellFormed_disconnect h.wf
  rcases fd.disconnect_cases with ⟨-, he⟩ | ⟨sQueue, i, -, he, -⟩
  · rw [he]
    exact ⟨h, .refl p fd⟩
  · have haddr : (discHeader (fd.addrField 0)).address ≠ fd.addrField p :=
      (hsep 0 h.wf.peers_pos hne.symm).1
    have hput := fd.aside_putUSFrame p .uFrame [] haddr
    have hpeer : fd.disconnect.1.peer p = fd.peer p := by
      rw [he, peer_modifyPeer_ne hne, peer_putUSFrame]
    have hk : Keeps p fd fd.disconnect.1 (fd.peer p).iQueueControl.txState := by
      refine ⟨setup_disconnect fd, by rw [hpeer], ?_⟩
      rw [he, frames_modifyPeer, iQueue_putUSFrame]
    refine ⟨h.keep hwf hk (by rw [hpeer]; exact h.connected), ?_⟩
    rw [he]
    refine hput.trans (aside_modifyPeer _ hne.symm ?_)
    intro _
    rfl

theorem SendsTo.receive_other (hsep : Separate fd p) {data : Bytes}
    (hno : fd.peerMgr.addressFieldToPeer (data.getD 0 0) ≠ p) (now : Instant) :
    SendsTo p (fd.onFrameReceived now data) accepted confirmed ∧
    Aside p fd (fd.onFrameReceived now data) := by
  obtain ⟨haside, hpeer, hctl⟩ := aside_onFrameReceived h.wf hsep hno now
  have hin : Session.AckInWindow p ⟨fd, accepted, confirmed, [], 0⟩
      (.onFrameReceived now data) := by
    intro control hmem
    rw [hctl] at hmem
    cases hmem
  have hstep := @SendsTo.step fd accepted confirmed p h (.onFrameReceived now data)
  rw [Session.advance] at hstep
  simp only [hctl] at hstep
  exact ⟨hstep hin rfl (by rw [hpeer]; exact h.connected), haside⟩

end Session

def framesFor (address : UInt8) (xs : List FrameInfo) : List FrameInfo :=
  xs.filter fun x ↦ x.header.address == address

/-- The service queue has been filled in turn, and what it holds for one peer are these
acknowledgements. -/
def Waits (fd : TinyFd) (address : UInt8) (acks : List (Bool × ℕ)) : Prop :=
  ∃ xs, fd.frames.sQueue.Queues xs ∧ framesFor address xs = acks.map (Wire.info address)

theorem Aside.waits (h : Aside p fd fd') {address : UInt8} (haddr : fd.addrField p = address)
    {acks : List (Bool × ℕ)} (hw : fd.Waits address acks) : fd'.Waits address acks := by
  obtain ⟨xs, hq, hxs⟩ := hw
  obtain ⟨others, hothers, hq'⟩ := h.queue hq
  refine ⟨xs ++ others, hq', ?_⟩
  have hnone : framesFor address others = [] := by
    rw [framesFor, List.filter_eq_nil_iff]
    intro x hx
    rw [beq_iff_eq, ← haddr]
    exact hothers x hx
  rw [← hxs, framesFor, List.filter_append, ← framesFor, ← framesFor, hnone, List.append_nil]

theorem Answered.waits {address : UInt8} {answer : Option (Bool × ℕ)}
    (h : Answered fd.frames.sQueue fd'.frames.sQueue address answer) {acks : List (Bool × ℕ)}
    (hw : fd.Waits address acks) : ∃ extra : List (Bool × ℕ),
    (extra = [] ∨ ∃ ack, answer = some ack ∧ extra = [ack]) ∧
      fd'.Waits address (acks ++ extra) := by
  obtain ⟨xs, hq, hxs⟩ := hw
  cases answer with
  | none =>
    refine ⟨[], .inl rfl, xs, ?_, by rwa [List.append_nil]⟩
    rw [show fd'.frames.sQueue = fd.frames.sQueue from h]
    exact hq
  | some ack =>
    have hinfo : (Wire.info address ack).header.address = address := by
      obtain ⟨reject, nr⟩ := ack
      cases reject <;> rfl
    rcases h with ⟨i, ha⟩ | ⟨-, he⟩
    · refine ⟨[ack], .inr ⟨ack, rfl, rfl⟩, xs ++ [Wire.info address ack], hq.put ha, ?_⟩
      rw [framesFor, List.filter_append, ← framesFor, hxs, List.map_append]
      congr 1
      exact List.filter_cons_of_pos (by rw [hinfo, beq_self_eq_true])
    · refine ⟨[], .inl rfl, xs, ?_, by rwa [List.append_nil]⟩
      rw [he]
      exact hq

theorem SendsTo.generateTxFrames {accepted : List Bytes}
    {confirmed : ℕ} (h : SendsTo p fd accepted confirmed) (hsep : Separate fd p)
    {address : UInt8} (haddress : fd.addrField p = address) (now : Instant)
    {acks : List (Bool × ℕ)}
    (hwaits : fd.Waits address acks) (horder : fd.hdlc.txData = none →
      InOrder fd.frames.sQueue.frames fd.frames.sQueue.lookupIndex)
      {r : ℕ} (hr : (fd.peer p).iQueueControl.rxState.nextNr = seq r) :
    let fd' := fd.generateTxFrames now
    SendsTo p fd' accepted confirmed ∧ fd'.readsFrom p = fd.readsFrom p ∧
      (fd'.peer p).iQueueControl.rxState = (fd.peer p).iQueueControl.rxState ∧
      ∃ picked rest, fd'.Waits address rest ∧ Chosen accepted confirmed r acks picked rest ∧
        (handed fd fd' = picked.map (Wire.bytes address accepted) ∨
          picked = none ∧ ∃ data q, handed fd fd' = some data ∧
          q < fd.peerMgr.peers.length ∧ q ≠ p ∧
            data.getD 0 0 = fd.addrField q) := by
  intro fd'
  subst haddress
  obtain ⟨xs, hq, hacks⟩ := hwaits
  have hset : fd'.setup = fd.setup := setup_generateTxFrames ..
  have hsends : SendsTo p fd' accepted confirmed := by
    have hdistinct : Distinct fd p := h.distinct
    have hstate := (generateTxFrames_keeps h.wf h.peer hdistinct now).1
    have hin : Session.AckInWindow p ⟨fd, accepted, confirmed, [], 0⟩ (.generateTxFrames now) :=
      trivial
    have hstep := @SendsTo.step fd accepted confirmed p h (.generateTxFrames now)
    rw [Session.advance] at hstep
    dsimp only at hstep
    split at hstep
    · exact hstep hin rfl (hstate.trans h.connected)
    · exact hstep hin rfl (hstate.trans h.connected)
  have hcalls : fd'.callbacks = fd.callbacks ∧
      (fd'.peer p).iQueueControl.rxState = (fd.peer p).iQueueControl.rxState := by
    rcases fd.generateTxFrames_cases now with ⟨-, he⟩ | ⟨-, i, frame, -, -, he⟩ | ⟨-, -, q, frame,
      -, -, he⟩ | ⟨-, -, -, he⟩ <;> rw [show fd' = _ from he]
    · exact ⟨rfl, rfl⟩
    · exact ⟨rfl, rfl⟩
    · refine ⟨rfl, ?_⟩
      by_cases hqp : q = p
      · subst hqp
        rw [peer_modifyPeer_self (by exact h.peer)]
        rfl
      · rw [peer_modifyPeer_ne (Ne.symm hqp)]
        rfl
    · exact ⟨rfl, rfl⟩
  refine ⟨hsends, ?_, hcalls.2, ?_⟩
  · rw [readsFrom, userAddress_congr hset, hcalls.1, readsFrom]
  rcases fd.generateTxFrames_cases now with ⟨hbusy, he⟩ | ⟨hidle, i, frame, hi, hlow, he⟩ |
    ⟨hidle, hno, q, frame, hqlt, hsend, he⟩ | ⟨hidle, hno, -, he⟩
  · refine ⟨none, acks, ⟨xs, ?_, hacks⟩, .nothing, .inl (if_neg hbusy)⟩
    rw [show fd' = fd from he]
    exact hq
  · obtain ⟨rest, hxs, hrest⟩ := hq.pop (horder hidle) hi hlow
    have hmem : frame ∈ fd.frames.sQueue.held :=
      (FrameQueue.free_perm hi).mem_iff.mpr (List.mem_cons_self ..)
    obtain ⟨-, ⟨q, hqlt, haddr⟩, -⟩ := h.wf.sFrames frame hmem
    have hhanded : handed fd fd' = some frame.toBytes := by
      rw [handed, if_pos hidle, show fd' = _ from he]
      rfl
    have hqueue : fd'.frames.sQueue.Queues rest := by
      rw [show fd' = _ from he]
      exact hrest
    rw [hxs, framesFor, List.filter_cons] at hacks
    by_cases hqp : q = p
    · subst hqp
      rw [if_pos (by rw [haddr, beq_self_eq_true])] at hacks
      obtain ⟨ack, acks', rfl, rfl, hrest'⟩ := List.map_eq_cons_iff.mp hacks.symm
      exact ⟨some (.ack ack.1 ack.2), acks', ⟨rest, hqueue, hrest'.symm⟩,
        .service rfl, .inl hhanded⟩
    · have hne : frame.header.address ≠ fd.addrField p := by
        rw [haddr]
        exact (hsep q hqlt hqp).1
      rw [if_neg (by rw [beq_iff_eq]; exact hne)] at hacks
      exact ⟨none, acks, ⟨rest, hqueue, hacks⟩, .nothing,
        .inr ⟨rfl, _, q, hhanded, hqlt, hqp, haddr⟩⟩
  · have hnil := hq.eq_nil hno
    rw [hnil] at hacks hq
    obtain rfl : acks = [] := List.map_eq_nil_iff.mp hacks.symm
    obtain ⟨-, -, i, hget⟩ := hsend
    obtain ⟨hheld, htype, haddr, hns⟩ := FrameQueue.getNext_some hget
    have hhanded : handed fd fd' = some (fd.sendIData q frame) := by
      rw [handed, if_pos hidle, show fd' = _ from he]
      rfl
    have hqueue : fd'.frames.sQueue.Queues [] := by
      rw [show fd' = _ from he]
      exact hq
    by_cases hqp : q = p
    · subst hqp
      have hmem := FrameQueue.mem_iPairs.mpr ⟨frame, hheld, htype, haddr, rfl⟩
      have hpairs : (fd.frames.iQueue.iPairs (fd.addrField q)).Perm
          (windowPairs accepted confirmed) := h.queue
      obtain ⟨n, hle, hlt, hpair⟩ := mem_windowPairs.mp (hpairs.mem_iff.mp hmem)
      rw [Prod.mk.injEq, hns rfl] at hpair
      have hdata : fd.sendIData q frame = (Wire.data n r).bytes (fd.addrField q) accepted := by
        rw [sendIData_eq, haddr, hpair.1, hpair.2, hr, Wire.bytes, List.getD_eq_getElem _ _ hlt]
      refine ⟨some (.data n r), [], ⟨[], hqueue, rfl⟩, .data rfl hle hlt, .inl ?_⟩
      rw [hhanded, hdata]
      rfl
    · refine ⟨none, [], ⟨[], hqueue, rfl⟩, .nothing, .inr ⟨rfl, _, q, hhanded, hqlt, hqp, ?_⟩⟩
      rw [sendIData_eq]
      exact haddr
  · refine ⟨none, acks, ⟨xs, ?_, hacks⟩, .nothing, .inl ?_⟩
    · rw [show fd' = fd from he]
      exact hq
    · rw [handed, if_pos hidle, show fd' = fd from he, hidle]
      rfl

end TinyFd

end TinyProto
