import TinyProto.Fd.Ready
import TinyProto.Fd.Reports

namespace TinyProto

open Lib

theorem and_or_of_disjoint {x y b : UInt8} (h : y &&& b = 0) : (x ||| y) &&& b = x &&& b := by
  have hbits : ∀ k (hk : k < 8), (y.toBitVec[k] && b.toBitVec[k]) = false := by
    intro k hk
    rw [← BitVec.getElem_and, ← UInt8.toBitVec_and, h]
    exact BitVec.getElem_zero hk
  apply UInt8.eq_of_toBitVec_eq
  simp only [UInt8.toBitVec_and, UInt8.toBitVec_or]
  ext k hk
  rw [BitVec.getElem_and, BitVec.getElem_or, BitVec.getElem_and, Bool.and_or_distrib_right,
    hbits k hk, Bool.or_false]

namespace FrameQueue

variable {q : FrameQueue}

theorem hasFreeSlots_of_length_le {q' : FrameQueue} (hc : q'.capacity = q.capacity)
    (hl : q'.held.length ≤ q.held.length) (h : q.hasFreeSlots) : q'.hasFreeSlots := by
  rw [hasFreeSlots_iff] at h ⊢
  omega

theorem hasFreeSlots_freeFirst (p : FrameInfo → Bool) (h : q.hasFreeSlots) :
    (q.freeFirst p).hasFreeSlots := by
  apply hasFreeSlots_of_length_le (q.capacity_freeFirst p) _ h
  rcases q.freeFirst_spec p with ⟨he, -⟩ | ⟨frame, -, hperm, -⟩
  · rw [he]
  · rw [hperm.length_eq]
    exact Nat.le_succ _

theorem hasFreeSlots_freeByNs_foldl (address : UInt8) (seqs : List UInt8) (h : q.hasFreeSlots) :
    (seqs.foldl (fun q s ↦ q.freeByNs address s) q).hasFreeSlots := by
  induction seqs generalizing q with
  | nil => exact h
  | cons s seqs ih => exact ih (hasFreeSlots_freeFirst _ h)

theorem hasFreeSlots_resetFor (address : UInt8) (h : q.hasFreeSlots) :
    (q.resetFor address).hasFreeSlots := by
  apply hasFreeSlots_of_length_le (q.capacity_resetFor address) _ h
  rw [held_resetFor]
  exact List.length_filter_le ..

theorem hasFreeSlots_resetFor_iff (address : UInt8) (hfull : ¬ q.hasFreeSlots) :
    (q.resetFor address).hasFreeSlots ↔ ∃ frame ∈ q.held, frame.header.address = address := by
  have hlen : q.held.length = q.capacity := by
    rw [hasFreeSlots_iff] at hfull
    exact Nat.le_antisymm q.held_length_le (Nat.not_lt.mp hfull)
  rw [hasFreeSlots_iff, capacity_resetFor, held_resetFor, ← hlen,
    List.length_filter_lt_length_iff_exists]
  simp

end FrameQueue

namespace TinyFd

variable {fd fd' : TinyFd}

def freeBit (fd : TinyFd) : UInt8 := fd.events &&& fdEventQueueHasFreeSlots

/-- The user is never told of free slots that do not exist. -/
def Honest (fd : TinyFd) : Prop := fd.freeBit ≠ 0 → fd.frames.iQueue.hasFreeSlots

/-- The event says what the queue is like, and `send_packet` gives up only where
the queue is full. -/
structure Truthful (fd : TinyFd) : Prop where
  event : fd.freeBit ≠ 0 ↔ fd.frames.iQueue.hasFreeSlots
  timeout : ∀ address data, fd.sendPeer address ≠ hdlcInvalidPeerIndex → data.length ≤ fd.mtu →
    (fd.sendPacket address data 0).2 = .error .timeout → ¬ fd.frames.iQueue.hasFreeSlots

def Disconnects (fd : TinyFd) (p : ℕ) : Move → Prop
  | .onFrameReceived _ data => Closes fd p (data.getD 1 0)
  | .checkTimeout now _ =>
    (fd.peer p).state = .connected ∧ (fd.peer p).iQueueControl.hasUnconfirmedFrames = true ∧
      elapsed now (fd.peer p).lastSentITs ≥ fd.retryDur ∧ (fd.peer p).retries = 0
  | _ => False

def Publishes (fd : TinyFd) (p : ℕ) : Move → Prop
  | .onFrameReceived _ data =>
    Opens fd p (data.getD 1 0) ∨ data.getD 1 0 &&& hdlcUFrameMask ≠ hdlcUFrameBits ∧
      ((fd.peer p).state = .connected ∨ (fd.peer p).state = .disconnecting)
  | _ => False

/-- A disconnection that takes frames out of a full queue. -/
def Silent (fd : TinyFd) (m : Move) : Prop :=
  ¬ fd.frames.iQueue.hasFreeSlots ∧ ∃ p, concerns fd m = some p ∧ Disconnects fd p m ∧
    ∃ frame ∈ fd.frames.iQueue.held, frame.header.address = fd.addrField p

instance decidableExistsSome {o : Option ℕ} {P : ℕ → Prop} [DecidablePred P] :
    Decidable (∃ p, o = some p ∧ P p) :=
  match o with
  | none => .isFalse (by simp)
  | some p => decidable_of_iff (P p) (by simp)

instance (fd : TinyFd) (p : ℕ) (m : Move) : Decidable (Disconnects fd p m) :=
  match m with
  | .onFrameReceived .. | .checkTimeout .. => by unfold Disconnects; infer_instance
  | .sendPacket .. | .disconnect | .generateTxFrames .. | .framing .. => .isFalse id

instance (fd : TinyFd) (p : ℕ) (m : Move) : Decidable (Publishes fd p m) :=
  match m with
  | .onFrameReceived .. => by unfold Publishes; infer_instance
  | .sendPacket .. | .disconnect | .checkTimeout .. | .generateTxFrames .. | .framing .. =>
      .isFalse id

instance (fd : TinyFd) (m : Move) : Decidable (Silent fd m) := by unfold Silent; infer_instance

/-- One of the moves publishes the free slots. -/
def Published (fd : TinyFd) : List Move → Prop
  | [] => False
  | m :: ms => (∃ p, concerns fd m = some p ∧ Publishes fd p m) ∨ Published (fd.move m) ms

/-- What a disconnection takes out of a full queue is published before the moves end. -/
def Announced (fd : TinyFd) : List Move → Prop
  | [] => True
  | m :: ms => (Silent fd m → Published (fd.move m) ms) ∧ Announced (fd.move m) ms

instance Published.decidable : ∀ fd ms, Decidable (Published fd ms)
  | _, [] => .isFalse id
  | fd, m :: ms =>
    have := decidable (fd.move m) ms
    inferInstanceAs
      (Decidable ((∃ p, concerns fd m = some p ∧ Publishes fd p m) ∨ Published (fd.move m) ms))

instance Announced.decidable : ∀ fd ms, Decidable (Announced fd ms)
  | _, [] => .isTrue trivial
  | fd, m :: ms =>
    have := decidable (fd.move m) ms
    inferInstanceAs
      (Decidable ((Silent fd m → Published (fd.move m) ms) ∧ Announced (fd.move m) ms))

section Slots

variable {m : Move}

@[simp] theorem freeBit_modifyPeer (p : ℕ) (f : PeerInfo → PeerInfo) :
    (fd.modifyPeer p f).freeBit = fd.freeBit := rfl
@[simp] theorem freeBit_call (c : Callback) : (fd.call c).freeBit = fd.freeBit := rfl
@[simp] theorem freeBit_withHdlc (ll : HdlcLl) : (fd.withHdlc ll).freeBit = fd.freeBit := rfl

@[simp] theorem freeBit_setTx : (fd.setEvents fdEventTxDataAvailable).freeBit = fd.freeBit :=
  and_or_of_disjoint (by decide)

@[simp] theorem freeBit_putUSFrame (frameType : QueuedFrameType) (header : FrameHeader)
    (data : Bytes) : (fd.putUSFrame frameType header data).1.freeBit = fd.freeBit :=
  fd.putUSFrame_blind frameType header data freeBit fun _ _ ↦ freeBit_setTx

theorem freeBit_switchToDisconnected (p : ℕ) (now : Instant) :
    (fd.switchToDisconnected p now).freeBit = fd.freeBit := by
  rw [switchToDisconnected]
  split <;> rfl

theorem Honest.congr (h : Honest fd) (hf : fd'.frames.iQueue = fd.frames.iQueue)
    (hb : fd'.freeBit = fd.freeBit) : Honest fd' := by
  rw [Honest, hf, hb]
  exact h

theorem honest_published (h : Honest fd) :
    Honest (if fd.frames.iQueue.hasFreeSlots then fd.setEvents fdEventQueueHasFreeSlots
      else fd) := by
  split
  · rename_i hfree
    exact fun _ ↦ hfree
  · exact h

theorem Honest.confirmFrames (h : Honest fd) (p : ℕ) (nr : UInt8) :
    Honest (fd.confirmFrames p nr) := by
  apply honest_published
  intro hb
  exact FrameQueue.hasFreeSlots_freeByNs_foldl _ _ (h hb)

theorem Honest.onIFrameReceived (h : Honest fd) (p : ℕ) (data : Bytes) :
    Honest (fd.onIFrameReceived p data) := by
  have h₁ := h.confirmFrames p ((data.getD 1 0 >>> 1) &&& seqBitsMask)
  rw [TinyFd.onIFrameReceived]
  dsimp only
  generalize fd.confirmFrames p ((data.getD 1 0 >>> 1) &&& seqBitsMask) = fd₁ at h₁ ⊢
  split
  · split
    · exact h₁.congr (by simp) (by simp)
    · exact h₁
  · exact h₁.congr (by simp) (by simp)

theorem Honest.onSFrameReceived (h : Honest fd) (p : ℕ) (data : Bytes) :
    Honest (fd.onSFrameReceived p data) := by
  have h₁ := h.confirmFrames p ((data.getD 1 0 >>> 5) &&& seqBitsMask)
  rcases onSFrameReceived_cases fd p data with ⟨-, he⟩ | ⟨-, he⟩ | ⟨-, -, -, he⟩ <;> rw [he]
  · exact h₁.congr rfl rfl
  · exact h₁.congr rfl freeBit_setTx
  · exact h₁

theorem Honest.switchToConnected (h : Honest fd) (p : ℕ) (now : Instant) :
    Honest (fd.switchToConnected p now) := by
  rw [TinyFd.switchToConnected]
  split
  · refine Honest.congr (honest_published (Honest.congr h ?_ ?_)) rfl rfl
    · rfl
    · exact freeBit_setTx
  · exact h

theorem slots_onFrameReceived (h : WellFormed fd) {p : ℕ} {data : Bytes}
    (hto : fd.AddressedTo p data) (hvalid : p ≠ hdlcInvalidPeerIndex) (now : Instant) :
    let fd' := fd.onFrameReceived now data
    (Publishes fd p (.onFrameReceived now data) ∧ Ready fd' ∧ (Honest fd → Honest fd')) ∨
    (¬ Publishes fd p (.onFrameReceived now data) ∧ Disconnects fd p (.onFrameReceived now data) ∧
      fd'.frames.iQueue = fd.frames.iQueue.resetFor (fd.addrField p) ∧ fd'.freeBit = fd.freeBit) ∨
    (¬ Publishes fd p (.onFrameReceived now data) ∧ ¬ Disconnects fd p (.onFrameReceived now data) ∧
      fd'.frames.iQueue = fd.frames.iQueue ∧ fd'.freeBit = fd.freeBit) := by
  intro fd'
  have hp := AddressedTo.lt h hto hvalid
  have hstate : ((fd.touch p now).peer p).state = (fd.peer p).state := by
    rw [peer_touch_self fd p now hp]
  have haddr : (fd.touch p now).addrField p = fd.addrField p :=
    addrField_congr (setup_touch fd p now) p
  have htouch : Honest fd → Honest (fd.touch p now) := fun h ↦ Honest.congr h rfl rfl
  have hr := onFrameReceived_reacts h hto hvalid now
  change Reacts fd p now data fd' at hr
  clear_value fd'
  cases hr with
  | setup hc =>
    obtain ⟨hopens, hcloses⟩ := @turns_setup fd p _ hc
    by_cases hs : (fd.peer p).state = .connected
    · right; right
      rw [switchToConnected_of_connected _ p now (by rw [peer_putUSFrame, hstate, hs])]
      refine ⟨?_, hcloses, by rw [iQueue_putUSFrame, frames_touch], by rw [freeBit_putUSFrame]; rfl⟩
      exact fun h ↦ h.elim (fun h ↦ hopens.mp h hs) fun h ↦ h.1 hc.1
    · left
      refine ⟨.inl (hopens.mpr hs), ready_switchToConnected ?_ now, ?_⟩
      · rwa [peer_putUSFrame, hstate]
      · exact fun h ↦
          (Honest.congr (htouch h) (iQueue_putUSFrame ..) (freeBit_putUSFrame ..)).switchToConnected
            p now
  | opened hc hs =>
    left
    refine ⟨.inl (.inr ⟨hc, hs⟩), ready_switchToConnected ?_ now,
      fun h ↦ (htouch h).switchToConnected p now⟩
    rw [hstate, hs]
    decide
  | disc hc =>
    obtain ⟨hopens, hcloses⟩ := @turns_down fd p _ (.inl hc)
    have hpub : ¬ Publishes fd p (.onFrameReceived now data) :=
      fun h ↦ h.elim hopens fun h ↦ h.1 hc.1
    by_cases hs : (fd.peer p).state = .disconnected
    · right; right
      rw [switchToDisconnected_of_disconnected _ p now (by rw [peer_putUSFrame, hstate, hs])]
      exact ⟨hpub,
        fun h ↦
          hcloses.mp h hs, by rw [iQueue_putUSFrame, frames_touch], by rw [freeBit_putUSFrame]; rfl⟩
    · right; left
      refine ⟨hpub, hcloses.mpr hs,
        ?_, by rw [freeBit_switchToDisconnected, freeBit_putUSFrame]; rfl⟩
      rw [iQueue_switchToDisconnected _ p now (by rwa [peer_putUSFrame, hstate]),
        iQueue_putUSFrame, frames_touch, addrField_congr (setup_putUSFrame ..), haddr]
  | closed hc =>
    obtain ⟨hopens, hcloses⟩ := turns_closed hc
    have hU : data.getD 1 0 &&& hdlcUFrameMask = hdlcUFrameBits :=
      hc.elim (fun h ↦ h.1.1) fun h ↦ h.1
    have hpub : ¬ Publishes fd p (.onFrameReceived now data) := fun h ↦ h.elim hopens fun h ↦ h.1 hU
    by_cases hs : (fd.peer p).state = .disconnected
    · right; right
      rw [switchToDisconnected_of_disconnected _ p now (by rw [hstate, hs])]
      exact ⟨hpub, fun h ↦ hcloses.mp h hs, rfl, rfl⟩
    · right; left
      refine ⟨hpub, hcloses.mpr hs, ?_, by rw [freeBit_switchToDisconnected]; rfl⟩
      rw [iQueue_switchToDisconnected _ p now (by rwa [hstate]), frames_touch, haddr]
  | otherU hU hset hdisc hdm hua =>
    obtain ⟨hopens, hcloses⟩ := turns_none hset hdisc hdm hua
    exact .inr (.inr ⟨fun h ↦ h.elim hopens fun h ↦ h.1 hU, hcloses, rfl, rfl⟩)
  | refused hU hc hd =>
    obtain ⟨hopens, hcloses⟩ := @turns_data fd p _ hU
    refine .inr
      (.inr ⟨?_, hcloses, by rw [iQueue_putUSFrame, frames_touch], by rw [freeBit_putUSFrame]; rfl⟩)
    exact fun h ↦ h.elim hopens fun h ↦ h.2.elim hc hd
  | iFrame hI hs =>
    have hU : data.getD 1 0 &&& hdlcUFrameMask ≠ hdlcUFrameBits :=
      fun hU ↦ not_isI_of_service (.inl hU) hI
    exact .inl ⟨.inr ⟨hU, hs⟩, ready_onIFrameReceived _ p data,
      fun h ↦ (htouch h).onIFrameReceived p data⟩
  | sFrame hI hU hs =>
    exact .inl ⟨.inr ⟨hU, hs⟩, ready_onSFrameReceived _ p data,
      fun h ↦ (htouch h).onSFrameReceived p data⟩

theorem slots_checkTimeout (fd : TinyFd) (now : Instant) (p : ℕ) :
    let fd' := fd.checkTimeout now p
    (Disconnects fd p (.checkTimeout now p) ∧
      fd'.frames.iQueue = fd.frames.iQueue.resetFor (fd.addrField p) ∧ fd'.freeBit = fd.freeBit) ∨
    (¬ Disconnects fd p (.checkTimeout now p) ∧ fd'.frames.iQueue = fd.frames.iQueue ∧
      fd'.freeBit = fd.freeBit) := by
  intro fd'
  have hother : ∀ s, (fd.peer p).state = s → s ≠ .connected →
      ¬ Disconnects fd p (.checkTimeout now p) :=
    fun s hs hne h ↦ hne (hs.symm.trans h.1)
  by_cases hd : Disconnects fd p (.checkTimeout now p)
  · left
    obtain ⟨hs, hu, he, hr⟩ := hd
    have hdown : fd' = fd.switchToDisconnected p now := by
      simp only [fd', checkTimeout, hs]
      rw [if_pos ⟨hu, he⟩, if_pos hr]
    rw [hdown, freeBit_switchToDisconnected,
      iQueue_switchToDisconnected fd p now (by rw [hs]; decide)]
    exact ⟨⟨hs, hu, he, hr⟩, rfl, rfl⟩
  · right
    refine ⟨hd, ?_⟩
    rcases fd.checkTimeout_cases now p with ⟨he, -⟩ | ⟨hs, -, he⟩ | ⟨hs, -, ⟨-, he⟩ | ⟨-, he⟩⟩ |
      ⟨hs, hu, hel, hr, -⟩ | ⟨hdue, he⟩
    · rw [show fd' = _ from he]
      exact ⟨rfl, rfl⟩
    · rw [show fd' = _ from he, frames_modifyPeer, iQueue_putUSFrame, freeBit_modifyPeer,
        freeBit_putUSFrame]
      exact ⟨rfl, rfl⟩
    · rw [show fd' = _ from he]
      exact ⟨rfl, rfl⟩
    · rw [show fd' = _ from he, frames_modifyPeer, iQueue_putUSFrame, freeBit_modifyPeer,
        freeBit_putUSFrame]
      exact ⟨rfl, rfl⟩
    · exact absurd ⟨hs, hu, hel, hr⟩ hd
    · rw [show fd' = _ from he, freeBit_setTx]
      exact ⟨rfl, rfl⟩

theorem slots_move (h : WellFormed fd)
    (hm : ∀ address data timeoutMs, m ≠ .sendPacket address data timeoutMs) :
    (∃ p, concerns fd m = some p ∧ Publishes fd p m ∧ Ready (fd.move m) ∧
      (Honest fd → Honest (fd.move m))) ∨
      (∃ p, concerns fd m = some p ∧ ¬ Publishes fd p m ∧ Disconnects fd p m ∧
        (fd.move m).frames.iQueue = fd.frames.iQueue.resetFor (fd.addrField p) ∧
        (fd.move m).freeBit = fd.freeBit) ∨
    ((∀ p, concerns fd m = some p → ¬ Publishes fd p m ∧ ¬ Disconnects fd p m) ∧
      (fd.move m).frames.iQueue = fd.frames.iQueue ∧ (fd.move m).freeBit = fd.freeBit) := by
  have hnobody : concerns fd m = none → ∀ p, concerns fd m = some p → ¬ Publishes fd p m ∧
      ¬ Disconnects fd p m := by
    intro hnone p hp
    rw [hnone] at hp
    cases hp
  cases m with
  | sendPacket address data timeoutMs => exact absurd rfl (hm address data timeoutMs)
  | disconnect =>
    refine .inr (.inr ⟨hnobody rfl, ?_⟩)
    rw [move]
    rcases fd.disconnect_cases with ⟨-, he⟩ | ⟨q, k, -, he, -⟩ <;> rw [he]
    · exact ⟨rfl, rfl⟩
    · exact ⟨iQueue_putUSFrame .., freeBit_putUSFrame ..⟩
  | onFrameReceived now data =>
    by_cases hc : ∃ p, concerns fd (.onFrameReceived now data) = some p
    · obtain ⟨p, hp⟩ := hc
      obtain ⟨hto, hvalid⟩ := concerns_frame.mp hp
      rcases slots_onFrameReceived h hto hvalid now with ⟨hpub, hr, hh⟩ | ⟨hpub, hd, hq,
        hb⟩ | ⟨hpub, hd, hq, hb⟩
      · exact .inl ⟨p, hp, hpub, hr, hh⟩
      · exact .inr (.inl ⟨p, hp, hpub, hd, hq, hb⟩)
      · refine .inr (.inr ⟨?_, hq, hb⟩)
        intro p' hp'
        obtain rfl := Option.some.inj (hp.symm.trans hp')
        exact ⟨hpub, hd⟩
    · refine .inr (.inr ⟨fun p hp ↦ absurd ⟨p, hp⟩ hc, ?_⟩)
      rw [move]
      rcases fd.onFrameReceived_cases now data with ⟨-, he⟩ | ⟨p, hto, hvalid, -⟩
      · rw [he]
        exact ⟨rfl, rfl⟩
      · exact absurd ⟨p, concerns_frame.mpr ⟨hto, hvalid⟩⟩ hc
  | checkTimeout now p =>
    rcases slots_checkTimeout fd now p with ⟨hd, hq, hb⟩ | ⟨hd, hq, hb⟩
    · exact .inr (.inl ⟨p, rfl, id, hd, hq, hb⟩)
    · refine .inr (.inr ⟨?_, hq, hb⟩)
      intro p' hp'
      obtain rfl := Option.some.inj hp'
      exact ⟨id, hd⟩
  | generateTxFrames now =>
    refine .inr (.inr ⟨hnobody rfl, ?_⟩)
    rw [move]
    rcases fd.generateTxFrames_cases now with ⟨-, he⟩ | ⟨-, i, frame, -, -, he⟩ | ⟨-, -, p,
      frame, -, -, he⟩ | ⟨-, -, -, he⟩ <;> rw [he] <;> exact ⟨rfl, rfl⟩
  | framing ll => exact .inr (.inr ⟨hnobody rfl, rfl, rfl⟩)

theorem Honest.sendPacket (h : Honest fd) (address : UInt8) (data : Bytes) (timeoutMs : ℕ) :
    Honest (fd.sendPacket address data timeoutMs).1 := by
  rw [TinyFd.sendPacket]
  split
  · exact h
  dsimp only
  split
  · exact h
  split
  · exact h
  split
  · rename_i he
    rwa [(putIFrame_error he).1]
  · split
    · rename_i hfree
      exact fun _ ↦ hfree
    · intro hb
      refine absurd ?_ hb
      rw [freeBit, TinyFd.clearEvents, UInt8.and_assoc]
      exact UInt8.and_zero

theorem sendPacket_of_freeBit (hb : fd.freeBit = 0) (address : UInt8) (data : Bytes)
    (timeoutMs : ℕ) : (fd.sendPacket address data timeoutMs).1 = fd := by
  rw [TinyFd.sendPacket]
  split
  · rfl
  dsimp only
  split
  · rfl
  · rw [if_pos (by exact hb)]

theorem freeBit_of_timeout {address : UInt8} {data : Bytes} {timeoutMs : ℕ}
    (h : (fd.sendPacket address data timeoutMs).2 = .error .timeout) : fd.freeBit = 0 := by
  by_contra hb
  rw [TinyFd.sendPacket] at h
  split at h
  · cases h
  dsimp only at h
  split at h
  · cases h
  rw [if_neg (by exact hb)] at h
  split at h
  · rename_i he
    obtain ⟨-, rfl⟩ := putIFrame_error he
    cases h
  · split at h <;> cases h

theorem not_ready_iff : ¬ Ready fd ↔ fd.frames.iQueue.hasFreeSlots ∧ fd.freeBit = 0 := by
  rw [Ready, Classical.not_imp, not_not]
  rfl

theorem honest_move (h : WellFormed fd) (hh : Honest fd) : Honest (fd.move m) := by
  by_cases hm : ∃ address data timeoutMs, m = .sendPacket address data timeoutMs
  · obtain ⟨address, data, timeoutMs, rfl⟩ := hm
    exact hh.sendPacket address data timeoutMs
  · rcases slots_move h (fun a d t he ↦ hm ⟨a, d, t, he⟩) with ⟨-, -, -, -, hh'⟩ | ⟨p, -, -, -, hq,
      hb⟩ | ⟨-, hq, hb⟩
    · exact hh' hh
    · rw [Honest, hq, hb]
      exact fun hbit ↦ FrameQueue.hasFreeSlots_resetFor _ (hh hbit)
    · exact hh.congr hq hb

theorem ready_of_publishes (h : WellFormed fd) {p : ℕ} (hp : concerns fd m = some p)
    (hpub : Publishes fd p m) : Ready (fd.move m) := by
  have hm : ∀ address data timeoutMs, m ≠ .sendPacket address data timeoutMs := by
    rintro _ _ _ rfl
    cases hp
  rcases slots_move h hm with ⟨-, -, -, hr, -⟩ | ⟨p', hp', hno, -⟩ | ⟨hno, -⟩
  · exact hr
  · obtain rfl := Option.some.inj (hp.symm.trans hp')
    exact absurd hpub hno
  · exact absurd hpub (hno p hp).1

theorem not_ready_move (h : WellFormed fd) (hr : ¬ Ready fd)
    (hp : ¬ ∃ p, concerns fd m = some p ∧ Publishes fd p m) : ¬ Ready (fd.move m) := by
  obtain ⟨hfree, hbit⟩ := not_ready_iff.mp hr
  by_cases hm : ∃ address data timeoutMs, m = .sendPacket address data timeoutMs
  · obtain ⟨address, data, timeoutMs, rfl⟩ := hm
    rwa [move, sendPacket_of_freeBit hbit]
  · rw [not_ready_iff]
    rcases slots_move h (fun a d t he ↦ hm ⟨a, d, t, he⟩) with ⟨p, hc, hpub, -⟩ | ⟨p, -, -, -, hq,
      hb⟩ | ⟨-, hq, hb⟩
    · exact absurd ⟨p, hc, hpub⟩ hp
    · rw [hq, hb]
      exact ⟨FrameQueue.hasFreeSlots_resetFor _ hfree, hbit⟩
    · rw [hq, hb]
      exact ⟨hfree, hbit⟩

/-- A station that tells of its free slots goes on to do so unless a disconnection is silent. -/
theorem ready_move_iff (h : WellFormed fd) (hh : Honest fd) (hr : Ready fd) : Ready (fd.move m) ↔
    ¬ Silent fd m := by
  by_cases hm : ∃ address data timeoutMs, m = .sendPacket address data timeoutMs
  · obtain ⟨address, data, timeoutMs, rfl⟩ := hm
    refine iff_of_true (hr.sendPacket address data timeoutMs) ?_
    rintro ⟨-, p, hp, -⟩
    cases hp
  rcases slots_move h (fun a d t he ↦ hm ⟨a, d, t, he⟩) with ⟨p, hc, hpub, hr', -⟩ | ⟨p, hc, -, hd,
    hq, hb⟩ | ⟨hno, hq, hb⟩
  · refine iff_of_true hr' ?_
    rintro ⟨-, p', hp', hd, -⟩
    obtain rfl := Option.some.inj (hc.symm.trans hp')
    cases m with
    | onFrameReceived now data =>
      rcases hpub with ho | ⟨hU, -⟩
      · exact not_closes_of_opens ho hd
      · exact (turns_data hU).2 hd
    | sendPacket | disconnect | checkTimeout | generateTxFrames | framing => exact hpub
  · have hsilent : Silent fd m ↔ ¬ fd.frames.iQueue.hasFreeSlots ∧
        ∃ frame ∈ fd.frames.iQueue.held, frame.header.address = fd.addrField p := by
      constructor
      · rintro ⟨hfull, p', hp', -, hframe⟩
        obtain rfl := Option.some.inj (hc.symm.trans hp')
        exact ⟨hfull, hframe⟩
      · rintro ⟨hfull, hframe⟩
        exact ⟨hfull, p, hc, hd, hframe⟩
    rw [hsilent, Ready, hq]
    change (_ → (fd.move m).freeBit ≠ 0) ↔ _
    rw [hb]
    by_cases hfree : fd.frames.iQueue.hasFreeSlots
    · exact iff_of_true (fun _ ↦ hr hfree) fun hs ↦ hs.1 hfree
    · have hbit : fd.freeBit = 0 := not_not.mp fun hb ↦ hfree (hh hb)
      rw [FrameQueue.hasFreeSlots_resetFor_iff _ hfree, hbit]
      simp [hfree]
  · refine iff_of_true ?_ ?_
    · rw [Ready, hq]
      exact fun hfree ↦ hb.trans_ne (hr hfree)
    · rintro ⟨-, p, hp, hd, -⟩
      exact (hno p hp).2 hd

end Slots

theorem honest_moves (h : WellFormed fd) (hh : Honest fd) {ms : List Move}
    (hm : EachStep stepMove Legal fd ms) : Honest (ms.foldl move fd) := by
  induction ms generalizing fd with
  | nil => exact hh
  | cons m ms ih => exact ih (wellFormed_move h hm.1) (honest_move h hh) (hm.2 _ rfl)

/-- Whether the user knows of the free slots after the moves is decided by the last
silent disconnection and by what is published after it. -/
theorem ready_moves_iff (h : WellFormed fd) (hh : Honest fd) {ms : List Move}
    (hm : EachStep stepMove Legal fd ms) : Ready (ms.foldl move fd) ↔ (Ready fd ∨ Published fd ms) ∧
    Announced fd ms := by
  induction ms generalizing fd with
  | nil => simp [Published, Announced]
  | cons m ms ih =>
    have hrest := ih (wellFormed_move h hm.1) (honest_move h hh) (hm.2 _ rfl)
    rw [List.foldl_cons, hrest, Published, Announced]
    by_cases hr : Ready fd
    · have hnext := ready_move_iff (m := m) h hh hr
      by_cases hs : Silent fd m
      · have hno := hnext.not.mpr (not_not.mpr hs)
        simp only [hno, hr, hs, false_or, true_or, true_and, forall_const]
      · have hyes := hnext.mpr hs
        simp only [hyes, hr, hs, true_or, true_and, false_imp_iff]
    · have hs : ¬ Silent fd m := fun hs ↦ hs.1 (not_ready_iff.mp hr).1
      by_cases hp : ∃ p, concerns fd m = some p ∧ Publishes fd p m
      · obtain ⟨p, hc, hpub⟩ := hp
        have hyes := ready_of_publishes h hc hpub
        simp only [hyes, hr, hs, true_or, true_and, false_imp_iff, false_or, show ∃ p,
          concerns fd m = some p ∧ Publishes fd p m from ⟨p, hc, hpub⟩]
      · have hno := not_ready_move h hr hp
        simp only [hno, hr, hs, hp, false_or, true_and, false_imp_iff]

theorem truthful_iff (hh : Honest fd) : Truthful fd ↔ Ready fd := by
  constructor
  · exact fun h ↦ h.event.mpr
  · intro hr
    refine ⟨⟨hh, hr⟩, ?_⟩
    intro address data _ _ htimeout hfree
    exact hr hfree (freeBit_of_timeout htimeout)

/-- The free-slot event tells the truth between all calls just as long as no call
ends with a silent disconnection. -/
theorem free_slots_told_iff {config : TinyFdConfig} {now : Instant}
    (hnew : TinyFd.new config now = .ok fd) (ops : List Op) : EachState step Truthful fd ops ↔
    EachStep step (fun fd op ↦ Announced fd (fd.moves op)) fd ops := by
  have hready : Ready fd := by
    intro _
    rw [(initial_new hnew).events]
    decide
  have hhonest : Honest fd := by
    intro _
    obtain ⟨mtu, hframes⟩ := (initial_new hnew).frames
    have hempty : fd.frames.iQueue.held = [] := by
      rw [hframes]
      exact held_new ..
    rw [FrameQueue.hasFreeSlots_iff, hempty]
    exact (wellFormed_new hnew).iCapacity.1
  refine @eachState_iff_eachStep _ _ step (fun fd ↦ WellFormed fd ∧ Honest fd ∧ Ready fd)
    _ (fun _ _ ↦ True) _ ?_ ?_ ?_ fd ops ⟨wellFormed_new hnew, hhonest, hready⟩
      (EachStep.trivial fd ops)
  · rintro fd ⟨-, hh, hr⟩
    exact (truthful_iff hh).mpr hr
  · rintro fd op fd' ⟨h, hh, hr⟩ - hc hs
    obtain rfl := step_moves h hs
    have hm := legal_moves h op
    exact ⟨(moves_end h op).2, honest_moves h hh hm, (ready_moves_iff h hh hm).mpr ⟨.inl hr, hc⟩⟩
  · rintro fd op ⟨h, hh, hr⟩ - hc
    have hm := legal_moves h op
    refine ⟨_, (moves_end h op).1, ?_⟩
    rw [truthful_iff (honest_moves h hh hm), ready_moves_iff h hh hm]
    exact fun hall ↦ hc hall.2

def oneSlotStation : TinyFd :=
  (replay { crcType := .hdlcCrcOff, windowFrames := 1, peersCount := 2 } 0 []).get
    (by decide +kernel)

theorem new_oneSlotStation :
    TinyFd.new { crcType := .hdlcCrcOff, windowFrames := 1, peersCount := 2 } 0 =
      .ok oneSlotStation := rfl

def reconnectedOps : List Op :=
  [.onRxData 1 [0x7E, 0x05, 0x3F, 0x7E, 0x7E, 0x09, 0x3F, 0x7E], .sendPacket 1 [7] 0,
    .onRxData 2 [0x7E, 0x05, 0x53, 0x7E, 0x7E, 0x05, 0x3F, 0x7E]]

theorem free_slots_told_reconnected : EachState step Truthful oneSlotStation reconnectedOps :=
  (free_slots_told_iff new_oneSlotStation reconnectedOps).mpr (by decide +kernel)

def silencedOps : List Op :=
  [.onRxData 1 [0x7E, 0x05, 0x3F, 0x7E, 0x7E, 0x09, 0x3F, 0x7E], .sendPacket 1 [7] 0,
    .onRxData 2 [0x7E, 0x05, 0x53, 0x7E]]

theorem free_slot_not_told :
    ∃ config now fd ops fd', TinyFd.new config now = .ok fd ∧ run step fd ops = some fd' ∧
      fd'.frames.iQueue.hasFreeSlots ∧ (fd'.peer 1).state = .connected ∧
      (fd'.sendPacket 2 [8] 0).2 = .error .timeout ∧ ¬ EachState step Truthful fd ops := by
  have hrun : run step oneSlotStation silencedOps =
      some ((run step oneSlotStation silencedOps).get (by decide +kernel)) :=
    (Option.some_get _).symm
  refine ⟨_, _, oneSlotStation, silencedOps, _, new_oneSlotStation,
    hrun, by decide +kernel, by decide +kernel,
    by decide +kernel, ?_⟩
  intro h
  exact (h.of_run hrun).timeout 2 [8] (by decide +kernel) (by decide +kernel) (by decide +kernel)
    (by decide +kernel)

end TinyFd

end TinyProto
