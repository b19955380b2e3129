import Mathlib.Algebra.BigOperators.Group.Finset.Basic
import TinyProto.Fd.UserView

namespace TinyProto.TinyFd

open Lib

variable {fd : TinyFd} {m : Move}

def IsRr (control : UInt8) : Prop :=
  control &&& hdlcSFrameMask = hdlcSFrameBits ∧ control &&& hdlcSFrameTypeMask = hdlcSFrameTypeRr

def IsRej (control : UInt8) : Prop :=
  control &&& hdlcSFrameMask = hdlcSFrameBits ∧ control &&& hdlcSFrameTypeMask = hdlcSFrameTypeRej

instance (control : UInt8) : Decidable (IsRr control) := by unfold IsRr; infer_instance

instance (control : UInt8) : Decidable (IsRej control) := by unfold IsRej; infer_instance

/-- What makes a move queue a service frame. -/
inductive Cause (fd : TinyFd) : Move → FrameHeader → Prop
  | ua {now : Instant} {data : Bytes} {p : ℕ} : fd.AddressedTo p data → p ≠ hdlcInvalidPeerIndex →
      IsSetup (data.getD 1 0) ∨ IsDisc (data.getD 1 0) →
      Cause fd (.onFrameReceived now data) (uaHeader (fd.addrField p))
  | dm {now : Instant} {data : Bytes} {p : ℕ} : fd.AddressedTo p data → p ≠ hdlcInvalidPeerIndex →
      data.getD 1 0 &&& hdlcUFrameMask ≠ hdlcUFrameBits →
      Cause fd (.onFrameReceived now data) (dmHeader (fd.addrField p))
  | rr {now : Instant} {data : Bytes} {p n : ℕ} :
      (fd.onFrameReceived now data).callbacks = fd.callbacks ++
        [.read (fd.userAddress p) (data.drop 2)] →
      Cause fd (.onFrameReceived now data) (rrHeader (fd.addrField p) (seq n))
  | rej {now : Instant} {data : Bytes} {p n : ℕ} : fd.AddressedTo p data →
      p ≠ hdlcInvalidPeerIndex →
      LinkUp fd p → (fd.peer p).sentReject = false →
      ((fd.onFrameReceived now data).peer p).sentReject = true →
      Cause fd (.onFrameReceived now data) (rejHeader (fd.addrField p) (seq n))
  | disc : fd.disconnect.2 = .ok () → Cause fd .disconnect (discHeader (fd.addrField 0))
  | sabm {now : Instant} {p : ℕ} : p < fd.peerMgr.peers.length →
      elapsed now (fd.peer p).lastSentFrameTs ≥ fd.retryDur →
      ((fd.checkTimeout now p).peer p).lastSentFrameTs = now →
      Cause fd (.checkTimeout now p) (fd.sabmHeader p)

/-- What a move does to the service frames that wait. -/
inductive Queueing (fd : TinyFd) (m : Move) : Prop
  | keep : (fd.move m).frames.sQueue.held.Perm fd.frames.sQueue.held →
      (∀ now, m = .generateTxFrames now → ∀ data, handed fd (fd.move m) = some data →
        data.getD 1 0 &&& hdlcIFrameMask = hdlcIFrameBits) → Queueing fd m
  | put (frame : FrameInfo) : Cause fd m frame.header →
      (fd.move m).frames.sQueue.held.Perm (frame :: fd.frames.sQueue.held) → Queueing fd m
  | send (now : Instant) (frame : FrameInfo) : m = .generateTxFrames now →
      fd.frames.sQueue.held.Perm (frame :: (fd.move m).frames.sQueue.held) →
      handed fd (fd.move m) = some frame.toBytes → Queueing fd m

theorem Queueing.of_eq (hm : ∀ now, m ≠ .generateTxFrames now)
    (h : (fd.move m).frames.sQueue = fd.frames.sQueue) : Queueing fd m := by
  refine .keep (by rw [h]) ?_
  intro now hm'
  exact absurd hm' (hm now)

theorem Queueing.of_puts (hm : ∀ now, m ≠ .generateTxFrames now) (frameType : QueuedFrameType)
    {header : FrameHeader} (hc : Cause fd m header)
    (h : Puts fd.frames.sQueue (fd.move m).frames.sQueue ⟨frameType, header, []⟩) :
    Queueing fd m := by
  rcases h with ⟨k, ha⟩ | ⟨-, he⟩
  · exact .put _ hc ha.perm
  · exact .of_eq hm he

theorem queueing_onFrameReceived (h : WellFormed fd) (now : Instant) (data : Bytes) :
    Queueing fd (.onFrameReceived now data) := by
  have hm : ∀ now', Move.onFrameReceived now data ≠ .generateTxFrames now' :=
    fun _ ↦ Move.noConfusion
  rcases fd.onFrameReceived_cases now data with ⟨-, he⟩ | ⟨p, hto, hvalid, -⟩
  · exact .of_eq hm (by rw [move, he])
  have hp := AddressedTo.lt h hto hvalid
  have hp₁ : p < (fd.touch p now).peerMgr.peers.length := by rwa [peers_length_touch]
  have hset := setup_touch fd p now
  have hwf := wellFormed_touch h hp now
  have htouch := peer_touch_self fd p now hp
  obtain ⟨n, hn⟩ := exists_seq_of_lt (hwf.counters p hp₁).confirm
  obtain ⟨r, hr⟩ := exists_seq_of_lt (hwf.counters p hp₁).recv
  have hreacts := onFrameReceived_reacts h hto hvalid now
  have hmove : fd.move (.onFrameReceived now data) = fd.onFrameReceived now data := rfl
  have hua : IsSetup (data.getD 1 0) ∨ IsDisc (data.getD 1 0) →
      Cause fd (.onFrameReceived now data) (uaHeader (fd.addrField p)) := .ua hto hvalid
  have hdm : data.getD 1 0 &&& hdlcUFrameMask ≠ hdlcUFrameBits →
      Cause fd (.onFrameReceived now data) (dmHeader (fd.addrField p)) := .dm hto hvalid
  have hrr : (fd.onFrameReceived now data).callbacks = fd.callbacks ++
      [.read (fd.userAddress p) (data.drop 2)] →
      Cause fd (.onFrameReceived now data) (rrHeader (fd.addrField p) (seq (r + 1))) := .rr
  have hrej : LinkUp fd p → (fd.peer p).sentReject = false →
      ((fd.onFrameReceived now data).peer p).sentReject = true →
      Cause fd (.onFrameReceived now data) (rejHeader (fd.addrField p) (seq r)) := .rej hto hvalid
  generalize fd.onFrameReceived now data = fd' at hreacts hmove hrr hrej
  have hputs : Puts fd.frames.sQueue
      ((fd.touch p now).putUSFrame .uFrame (uaHeader (fd.addrField p)) []).1.frames.sQueue _ :=
    putUSFrame_puts (frames_touch fd p now ▸ rfl) ..
  cases hreacts with
  | setup hc =>
    refine .of_puts hm .uFrame (hua (.inl hc)) ?_
    rwa [hmove, frames_switchToConnected]
  | opened => exact .of_eq hm (by rw [hmove, frames_switchToConnected, frames_touch])
  | disc hc =>
    refine .of_puts hm .uFrame (hua (.inr hc)) ?_
    rwa [hmove, sQueue_switchToDisconnected]
  | closed => exact .of_eq hm (by rw [hmove, sQueue_switchToDisconnected, frames_touch])
  | otherU => exact .of_eq hm (by rw [hmove, frames_touch])
  | refused hU =>
    refine .of_puts hm .uFrame (hdm hU) ?_
    rw [hmove]
    exact putUSFrame_puts (frames_touch fd p now ▸ rfl) ..
  | iFrame hI hs =>
    rcases onIFrameReceived_rx hp₁ hn data with ⟨-, -, -, hsent, ⟨-, hsame⟩ | ⟨hunsent, hput⟩⟩ | ⟨-,
      hcb, -, -, hput⟩
    · exact .of_eq hm (by rw [hmove, hsame, frames_touch])
    · rw [frames_touch, addrField_congr hset, hr] at hput
      rw [htouch] at hunsent
      refine .of_puts hm .sFrame (hrej hs hunsent hsent) ?_
      rwa [hmove]
    · rw [frames_touch, addrField_congr hset, hr, seq_succ] at hput
      rw [callbacks_touch, userAddress_congr hset] at hcb
      refine .of_puts hm .sFrame (hrr hcb) ?_
      rwa [hmove]
  | sFrame hS hU hs =>
      exact .of_eq hm (by rw [hmove, (onSFrameReceived_rx hp₁ hn data).2.1, frames_touch])

theorem queueing_checkTimeout {p : ℕ} (hp : p < fd.peerMgr.peers.length) (now : Instant) :
    Queueing fd (.checkTimeout now p) := by
  have hm : ∀ now', Move.checkTimeout now p ≠ .generateTxFrames now' := fun _ ↦ Move.noConfusion
  have hmove : fd.move (.checkTimeout now p) = fd.checkTimeout now p := rfl
  have hsabm : elapsed now (fd.peer p).lastSentFrameTs ≥ fd.retryDur →
      ((fd.checkTimeout now p).peer p).lastSentFrameTs = now →
      Cause fd (.checkTimeout now p) (fd.sabmHeader p) :=
    .sabm hp
  rcases fd.checkTimeout_cases now p with ⟨he, -⟩ | ⟨-, hdue, he⟩ | ⟨-, hdue,
    ⟨-, he⟩ | ⟨-, he⟩⟩ | ⟨-, -, -, -, he⟩ | ⟨-, he⟩ <;> rw [he] at hmove hsabm
  · exact .of_eq hm (by rw [hmove])
  · refine .of_puts hm .uFrame (hsabm hdue ?_) ?_
    · rw [peer_modifyPeer_self (by rwa [peerMgr_putUSFrame])]
    · rw [hmove]
      exact putUSFrame_puts rfl ..
  · exact .of_eq hm (by rw [hmove, frames_modifyPeer])
  · refine .of_puts hm .uFrame (hsabm hdue ?_) ?_
    · rw [peer_modifyPeer_self (by rwa [peerMgr_putUSFrame, peers_length_modifyPeer])]
    · have hset : (fd.modifyPeer p fun q ↦ { q with retries := q.retries - 1 }).setup = fd.setup :=
        setup_modifyPeer p fun _ ↦ rfl
      have hheader : (fd.modifyPeer p fun q ↦ { q with retries := q.retries - 1 }).sabmHeader p =
        fd.sabmHeader p := by
        rw [sabmHeader, sabmHeader, addrField_congr hset]
      rw [hmove, frames_modifyPeer, hheader]
      refine putUSFrame_puts ?_ ..
      rw [frames_modifyPeer]
  · exact .of_eq hm (by rw [hmove, sQueue_switchToDisconnected])
  · exact .of_eq hm (by rw [hmove]; rfl)

theorem queueing_move (h : WellFormed fd) (hm : Legal fd m) : Queueing fd m := by
  cases m with
  | sendPacket address data timeoutMs =>
    refine .of_eq (fun _ ↦ Move.noConfusion) ?_
    rw [move]
    rcases fd.sendPacket_cases address data timeoutMs with ⟨e, he⟩ | ⟨-, -, -, q, k, events, -,
      he⟩ <;> rw [he]
  | disconnect =>
    rcases fd.disconnect_cases with ⟨-, he⟩ | ⟨q, k, ha, he, hq⟩
    · exact .of_eq (fun _ ↦ Move.noConfusion) (by rw [move, he])
    · refine .put ⟨.uFrame, discHeader (fd.addrField 0), []⟩ (.disc (by rw [he])) ?_
      rw [move, he, frames_modifyPeer, hq]
      exact ha.perm
  | onFrameReceived now data => exact queueing_onFrameReceived h now data
  | checkTimeout now p => exact queueing_checkTimeout hm now
  | generateTxFrames now =>
    rcases fd.generateTxFrames_cases now with ⟨hbusy, he⟩ | ⟨hidle, k, frame, hk, -, he⟩ | ⟨hidle,
      -, p, frame, hp, -, he⟩ | ⟨hidle, -, -, he⟩
    · refine .keep (by rw [move, he]) fun now' _ data hdata ↦ ?_
      rw [move, he, handed_self] at hdata
      cases hdata
    · refine .send now frame rfl ?_ ?_
      · rw [move, he]
        exact FrameQueue.free_perm hk
      · rw [handed, if_pos hidle, move, he]
        rfl
    · refine .keep (by rw [move, he]; rfl) fun now' _ data hdata ↦ ?_
      rw [handed, if_pos hidle, move, he] at hdata
      rw [← Option.some.inj hdata, sendIData_eq]
      obtain ⟨a, ha⟩ := exists_seq_of_lt (h.counters p hp).next
      obtain ⟨b, hb⟩ := exists_seq_of_lt (h.counters p hp).recv
      rw [ha, hb]
      exact isI_iControl a b
    · refine .keep (by rw [move, he]) fun now' _ data hdata ↦ ?_
      rw [move, he, handed_self] at hdata
      cases hdata
  | framing => exact .of_eq (fun _ ↦ Move.noConfusion) rfl

def closes (fd : TinyFd) : Move → ℕ
  | .disconnect => if fd.disconnect.2 = .ok () then 1 else 0
  | _ => 0

section Credits

theorem sum_range_one {M : Type*} [AddCommMonoid M] {f g : ℕ → M} {n p : ℕ} (hp : p < n)
    (h : ∀ q < n, q ≠ p → f q = g q) :
    (∑ q ∈ Finset.range n, f q) + g p = (∑ q ∈ Finset.range n, g q) + f p := by
  have hmem := Finset.mem_range.mpr hp
  have hrest : ∑ q ∈ (Finset.range n).erase p, f q = ∑ q ∈ (Finset.range n).erase p, g q := by
    refine Finset.sum_congr rfl fun q hq ↦ ?_
    obtain ⟨hne, hq⟩ := Finset.mem_erase.mp hq
    exact h q (Finset.mem_range.mp hq) hne
  rw [← Finset.sum_erase_add _ f hmem, ← Finset.sum_erase_add _ g hmem, hrest, add_right_comm]

def Unrejected (fd : TinyFd) (p : ℕ) : Prop := LinkUp fd p ∧ (fd.peer p).sentReject = false

instance (fd : TinyFd) (p : ℕ) : Decidable (Unrejected fd p) := by unfold Unrejected; infer_instance

def credits (fd : TinyFd) : ℕ := ∑ p ∈ Finset.range fd.peerMgr.peers.length,
    if Unrejected fd p then 1 else 0

def renews : Callback → Bool
  | .read .. => true
  | .connect _ connected => connected

theorem unrejected_congr {fd' : TinyFd} {p : ℕ} (hs : (fd'.peer p).state = (fd.peer p).state)
    (hr : (fd'.peer p).sentReject = (fd.peer p).sentReject) : Unrejected fd' p ↔
    Unrejected fd p := by
  rw [Unrejected, Unrejected, LinkUp, LinkUp, hs, hr]

theorem credits_congr {fd' : TinyFd} (hlen : fd'.peerMgr.peers.length = fd.peerMgr.peers.length)
    (h : ∀ p < fd.peerMgr.peers.length, Unrejected fd' p ↔ Unrejected fd p) :
    credits fd' = credits fd := by
  rw [credits, credits, hlen]
  refine Finset.sum_congr rfl fun p hp ↦ ?_
  simp only [h p (Finset.mem_range.mp hp)]

theorem credits_one {fd' : TinyFd} {p : ℕ}
    (hlen : fd'.peerMgr.peers.length = fd.peerMgr.peers.length) (hp : p < fd.peerMgr.peers.length)
    (h : ∀ q < fd.peerMgr.peers.length, q ≠ p → (Unrejected fd' q ↔ Unrejected fd q)) :
    credits fd' + (if Unrejected fd p then 1 else 0) = credits fd +
      if Unrejected fd' p then 1 else 0 := by
  have hsame : ∀ q < fd.peerMgr.peers.length, q ≠ p →
      (if Unrejected fd' q then 1 else 0) = if Unrejected fd q then 1 else 0 := by
    intro q hq hne
    simp only [h q hq hne]
  rw [credits, credits, hlen]
  exact sum_range_one (f := fun q ↦ if Unrejected fd' q then 1 else 0)
    (g := fun q ↦ if Unrejected fd q then 1 else 0) hp hsame

theorem sentReject_onFrameReceived (h : WellFormed fd) {data : Bytes} {p : ℕ}
    (hto : fd.AddressedTo p data) (hvalid : p ≠ hdlcInvalidPeerIndex) (now : Instant)
    (hcalls : (fd.onFrameReceived now data).callbacks = fd.callbacks)
    (hsent : (fd.peer p).sentReject = true) :
    ((fd.onFrameReceived now data).peer p).sentReject = true := by
  have hp := AddressedTo.lt h hto hvalid
  have hp₁ : p < (fd.touch p now).peerMgr.peers.length := by rwa [peers_length_touch]
  have htouch : ((fd.touch p now).peer p).sentReject = true := by rwa [peer_touch_self fd p now hp]
  obtain ⟨n, hn⟩ := exists_seq_of_lt ((wellFormed_touch h hp now).counters p hp₁).confirm
  have hcb := callbacks_touch fd p now
  have hreacts := onFrameReceived_reacts h hto hvalid now
  generalize fd.onFrameReceived now data = fd' at hreacts hcalls ⊢
  have hmade : ∀ {fd₁ : TinyFd} {c : Callback}, fd₁.callbacks = fd.callbacks →
      fd'.callbacks ≠ fd₁.callbacks ++ [c] := by
    intro fd₁ c h₁ he
    rw [h₁, hcalls] at he
    exact absurd he (by simp)
  have hup : ∀ fd₁ : TinyFd, fd₁.callbacks = fd.callbacks → fd' = fd₁.switchToConnected p now →
      fd' = fd₁ := by
    intro fd₁ h₁ he
    by_cases hs : (fd₁.peer p).state = .connected
    · rw [he, switchToConnected_of_connected _ p now hs]
    · exact absurd (he ▸ callbacks_switchToConnected fd₁ p now hs) (hmade h₁)
  have hdown : ∀ fd₁ : TinyFd, fd₁.callbacks = fd.callbacks → fd' = fd₁.switchToDisconnected p now →
      fd' = fd₁ := by
    intro fd₁ h₁ he
    by_cases hs : (fd₁.peer p).state = .disconnected
    · rw [he, switchToDisconnected_of_disconnected _ p now hs]
    · exact absurd (he ▸ callbacks_switchToDisconnected fd₁ p now hs) (hmade h₁)
  cases hreacts with
  | setup => rwa [hup _ (by rw [callbacks_putUSFrame, hcb]) rfl, peer_putUSFrame]
  | opened => rwa [hup _ hcb rfl]
  | disc => rwa [hdown _ (by rw [callbacks_putUSFrame, hcb]) rfl, peer_putUSFrame]
  | closed => rwa [hdown _ hcb rfl]
  | otherU => exact htouch
  | refused => rwa [peer_putUSFrame]
  | iFrame =>
    rcases onIFrameReceived_rx hp₁ hn data with ⟨-, -, -, hsent', -⟩ | ⟨-, hread, -⟩
    · exact hsent'
    · exact absurd hread (hmade hcb)
  | sFrame => rwa [(onSFrameReceived_rx hp₁ hn data).2.2.2]

theorem sentReject_checkTimeout {p : ℕ} (hp : p < fd.peerMgr.peers.length) (now : Instant)
    (hs : ((fd.checkTimeout now p).peer p).state ≠ .disconnected) :
    ((fd.checkTimeout now p).peer p).sentReject = (fd.peer p).sentReject := by
  rcases fd.checkTimeout_cases now p with ⟨he, -⟩ | ⟨-, -, he⟩ | ⟨-, -, ⟨-, he⟩ | ⟨-, he⟩⟩ | ⟨-, -,
    -, -, he⟩ | ⟨-, he⟩ <;> rw [he] at hs ⊢
  · rw [peer_modifyPeer_self (by rwa [peerMgr_putUSFrame]), peer_putUSFrame]
  · rw [peer_modifyPeer_self hp]
  · rw [peer_modifyPeer_self (by rwa [peerMgr_putUSFrame, peers_length_modifyPeer]),
      peer_putUSFrame, peer_modifyPeer_self hp]
  · exact absurd (state_switchToDisconnected fd p now hp) hs
  · rw [peer_setEvents, peer_modifyPeer_self hp]

theorem credits_concerned (h : WellFormed fd) {p : ℕ} (hp : p < fd.peerMgr.peers.length)
    (hm : concerns fd m = some p) : credits (fd.move m) + (if Unrejected fd p then 1 else 0) =
      credits fd + if Unrejected (fd.move m) p then 1 else 0 := by
  have hd : m ≠ .disconnect := by
    rintro rfl
    cases hm
  refine credits_one (peers_length_congr (setup_move h m)) hp fun q hq hne ↦ ?_
  have hother : concerns fd m ≠ some q := fun he ↦ hne (Option.some.inj (he.symm.trans hm))
  exact unrejected_congr (state_move_ne h hq hother hd)
    (field_move_ne PeerInfo.sentReject (fun _ _ _ _ _ ↦ rfl) (fun _ _ ↦ rfl) h hq hother)

theorem credits_unconcerned (h : WellFormed fd) (hc : concerns fd m = none) :
    credits (fd.move m) ≤ credits fd + fd.closes m := by
  have hother : ∀ q : ℕ, concerns fd m ≠ some q := by
    intro q
    rw [hc]
    exact (Option.some_ne_none q).symm
  have hsent : ∀ q < fd.peerMgr.peers.length,
      ((fd.move m).peer q).sentReject = (fd.peer q).sentReject := fun q hq ↦
    field_move_ne PeerInfo.sentReject (fun _ _ _ _ _ ↦ rfl) (fun _ _ ↦ rfl) h hq (hother q)
  have hlen := peers_length_congr (setup_move h m)
  by_cases hd : m = .disconnect
  · subst hd
    rcases fd.disconnect_cases with ⟨-, he⟩ | ⟨q, k, -, he, -⟩
    · rw [move, he]
      exact Nat.le_add_right _ _
    · have hone := credits_one hlen h.peers_pos fun q hq hne ↦ unrejected_congr (by
        rw [move, he, peer_modifyPeer_ne hne, peer_putUSFrame]) (hsent q hq)
      have hcloses : fd.closes .disconnect = 1 := if_pos (by rw [he])
      rw [hcloses]
      split at hone <;> split at hone <;> omega
  · have hsame := credits_congr hlen fun q hq ↦
      unrejected_congr (state_move_ne h hq (hother q) hd) (hsent q hq)
    omega

section Concerned

variable {p : ℕ} (h : WellFormed fd) (hp : p < fd.peerMgr.peers.length)
  (hc : concerns fd m = some p)
include h hp hc

theorem credits_renewed : credits (fd.move m) ≤ credits fd + 1 := by
  have hone := credits_concerned h hp hc
  have hnew : (if Unrejected (fd.move m) p then 1 else 0) ≤ 1 := by split <;> decide
  omega

theorem credits_kept (hback : Unrejected (fd.move m) p → Unrejected fd p) :
    credits (fd.move m) ≤ credits fd := by
  have hone := credits_concerned h hp hc
  by_cases hnew : Unrejected (fd.move m) p
  · rw [if_pos hnew, if_pos (hback hnew)] at hone
    omega
  · rw [if_neg hnew] at hone
    omega

theorem credits_down (hs : ((fd.move m).peer p).state = .disconnected) :
    credits (fd.move m) ≤ credits fd := by
  refine credits_kept h hp hc fun hnew ↦ absurd hnew.1 ?_
  rw [LinkUp, hs]
  decide

end Concerned

/-- A credit comes with a call that renews it, or with `disconnect`. -/
theorem credits_move (h : WellFormed fd) (hm : Legal fd m) :
    ∃ calls, (fd.move m).callbacks = fd.callbacks ++ calls ∧
      credits (fd.move m) ≤ credits fd + calls.countP renews + fd.closes m := by
  cases hc : concerns fd m with
  | none =>
    refine ⟨[], by rw [callbacks_move_none hc, List.append_nil], ?_⟩
    exact (credits_unconcerned h hc).trans (by rw [List.countP_nil, Nat.add_zero])
  | some p =>
    have hp := concerns_lt h hm hc
    have hkept := credits_kept h hp hc
    have hdown := credits_down h hp hc
    have hrenewed := credits_renewed h hp hc
    rcases concerns_cases hc with ⟨now, data, rfl, hto, hvalid⟩ | ⟨now, rfl⟩
    · rcases frame_reports h hto hvalid now with ⟨-, hr⟩ | ⟨-, hr⟩ | ⟨-, -, hstate, hnone | hread⟩
      · refine ⟨_, hr.callbacks, ?_⟩
        have : [Callback.connect (fd.userAddress p) true].countP renews = 1 := rfl
        omega
      · exact ⟨_, hr.callbacks, (hdown hr.state).trans (by omega)⟩
      · refine ⟨[], by rw [move, hnone.callbacks, List.append_nil], (hkept ?_).trans (by omega)⟩
        rintro ⟨hup, hrej⟩
        refine ⟨by rwa [LinkUp, ← hstate], ?_⟩
        by_contra hsent
        rw [move, sentReject_onFrameReceived h hto hvalid now hnone.callbacks
          (Bool.eq_true_of_not_eq_false hsent)] at hrej
        cases hrej
      · refine ⟨_, hread.callbacks, ?_⟩
        have : [Callback.read (fd.userAddress p) (data.drop 2)].countP renews = 1 := rfl
        omega
    · rcases timer_reports hp now with ⟨-, hr⟩ | ⟨hnone, -, hconn, hdisc⟩
      · exact ⟨_, hr.callbacks, (hdown hr.state).trans (by omega)⟩
      · refine ⟨[], by rw [move, hnone.callbacks, List.append_nil], (hkept ?_).trans (by omega)⟩
        rintro ⟨hup, hrej⟩
        refine ⟨hup.imp hconn.mp hdisc.mp, ?_⟩
        rw [move, sentReject_checkTimeout hp now] at hrej
        · exact hrej
        · rcases hup with hs | hs <;> rw [move] at hs <;> rw [hs] <;> decide

theorem credits_rej (h : WellFormed fd) {now : Instant} {data : Bytes} {p : ℕ}
    (hto : fd.AddressedTo p data) (hvalid : p ≠ hdlcInvalidPeerIndex) (hup : LinkUp fd p)
    (hold : (fd.peer p).sentReject = false)
    (hnew : ((fd.onFrameReceived now data).peer p).sentReject = true) :
    credits (fd.move (.onFrameReceived now data)) + 1 = credits fd := by
  have hone := @credits_concerned fd (.onFrameReceived now data) h p (AddressedTo.lt h hto hvalid)
    (concerns_frame.mpr ⟨hto, hvalid⟩)
  have hlost : ¬ Unrejected (fd.move (.onFrameReceived now data)) p := by
    rintro ⟨-, hrej⟩
    rw [move, hnew] at hrej
    cases hrej
  rwa [if_pos ⟨hup, hold⟩, if_neg hlost, Nat.add_zero] at hone

theorem credits_new {config : TinyFdConfig} {created : Instant}
    (hnew : TinyFd.new config created = .ok fd) :
    credits fd = 0 := by
  refine Finset.sum_eq_zero fun p hp ↦ if_neg ?_
  rintro ⟨hup, -⟩
  obtain ⟨addr, hpeer⟩ := (initial_new hnew).peer (Finset.mem_range.mp hp)
  have hdown : (fd.peer p).state = .disconnected := by rw [hpeer, PeerInfo.new]
  rw [LinkUp, hdown] at hup
  exact absurd hup (by decide)

end Credits

/-- The frames that a station sends only when it is asked to. -/
inductive Answer
  | ua | dm | rr | rej | disc
  deriving DecidableEq

def Answer.Is : Answer → UInt8 → Prop
  | .ua => IsUa
  | .dm => IsDm
  | .rr => IsRr
  | .rej => IsRej
  | .disc => IsDisc

instance : ∀ answer : Answer, DecidablePred answer.Is
  | .ua => inferInstanceAs (DecidablePred IsUa)
  | .dm => inferInstanceAs (DecidablePred IsDm)
  | .rr => inferInstanceAs (DecidablePred IsRr)
  | .rej => inferInstanceAs (DecidablePred IsRej)
  | .disc => inferInstanceAs (DecidablePred IsDisc)

section Kinds

variable {answer : Answer} {control : UInt8}

theorem Answer.service (h : answer.Is control) :
    control &&& hdlcUFrameMask = hdlcUFrameBits ∨ control &&& hdlcSFrameMask = hdlcSFrameBits := by
  cases answer with
  | ua | dm | disc => exact .inl h.1
  | rr | rej => exact .inr h.1

theorem Answer.not_isI (h : answer.Is control) : control &&& hdlcIFrameMask ≠ hdlcIFrameBits :=
  not_isI_of_service (Answer.service h)

theorem Answer.unique {answer' : Answer} (h : answer.Is control) (h' : answer'.Is control) :
    answer = answer' := by
  cases answer <;> cases answer' <;> first
    | rfl
    | exact absurd h'.1 (not_isU_of_isS h.1)
    | exact absurd h.1 (not_isU_of_isS h'.1)
    | exact absurd (h.2.symm.trans h'.2) (by decide)

theorem Answer.not_isSetup (h : IsSetup control) : ¬ answer.Is control := by
  intro h'
  cases answer with
  | ua => exact (kinds_exclusive.1 h).1 h'
  | disc => exact (kinds_exclusive.1 h).2.1 h'
  | dm => exact (kinds_exclusive.1 h).2.2 h'
  | rr | rej => exact not_isU_of_isS h'.1 h.1

end Kinds

def taken (fd : TinyFd) : Move → Option Bytes
  | .onFrameReceived now data => (concerns fd (.onFrameReceived now data)).map fun _ ↦ data
  | _ => none

def emits (fd : TinyFd) (m : Move) : Option Bytes :=
  match m with
  | .generateTxFrames _ => handed fd (fd.move m)
  | _ => none

/-- A station with the frames that it has handled for its peers, those that it has handed
over and the number of `disconnect` calls that it has accepted. -/
structure Tally where
  fd : TinyFd
  heard : List Bytes
  handed : List Bytes
  closings : ℕ

namespace Tally

def start (fd : TinyFd) : Tally := ⟨fd, [], [], 0⟩

def next (t : Tally) (m : Move) : Tally :=
  ⟨t.fd.move m, t.heard ++ (t.fd.taken m).toList, t.handed ++ (t.fd.emits m).toList,
    t.closings + t.fd.closes m⟩

def step (t : Tally) (m : Move) : Option Tally := some (t.next m)

def controls (t : Tally) : List UInt8 :=
  t.handed.map (fun data ↦ data.getD 1 0) ++ t.fd.frames.sQueue.held.map fun frame ↦
    frame.header.control

variable {t : Tally}

theorem countP_next (h : WellFormed t.fd) (hm : Legal t.fd m) {P : UInt8 → Bool}
    (hP : ∀ control, P control → control &&& hdlcIFrameMask ≠ hdlcIFrameBits) :
    (t.next m).controls.countP P = t.controls.countP P ∨
      ∃ header, Cause t.fd m header ∧ P header.control ∧
      (t.next m).controls.countP P = t.controls.countP P + 1 := by
  rw [controls, controls, List.countP_append, List.countP_append, next]
  dsimp only
  cases queueing_move h hm with
  | keep hperm hdata =>
    left
    rw [(hperm.map fun frame ↦ frame.header.control).countP_eq, List.map_append, List.countP_append]
    cases hemits : t.fd.emits m with
    | none => rfl
    | some data =>
      have hno : P (data.getD 1 0) = false := by
        rw [Bool.eq_false_iff]
        intro hc
        cases m with
        | generateTxFrames now => exact hP _ hc (hdata now rfl data hemits)
        | sendPacket | disconnect | onFrameReceived | checkTimeout | framing => cases hemits
      rw [Option.toList_some, List.map_singleton, List.countP_singleton, hno]
      rfl
  | put frame hc hperm =>
    have hnone : t.fd.emits m = none := by
      generalize frame.header = header at hc
      cases hc <;> rfl
    rw [(hperm.map fun frame ↦ frame.header.control).countP_eq, hnone, Option.toList_none,
      List.append_nil, List.map_cons]
    by_cases hkind : P frame.header.control
    · right
      exact ⟨frame.header, hc, hkind, by rw [List.countP_cons_of_pos hkind]; rfl⟩
    · left
      rw [List.countP_cons_of_neg hkind]
  | send now frame hm' hperm hhanded =>
    left
    subst hm'
    have hemits : t.fd.emits (.generateTxFrames now) = some frame.toBytes := hhanded
    rw [(hperm.map fun frame ↦ frame.header.control).countP_eq, hemits, Option.toList_some,
      List.map_append, List.countP_append, List.map_singleton, List.map_cons, List.countP_singleton,
      List.countP_cons]
    have hcontrol : frame.toBytes.getD 1 0 = frame.header.control := rfl
    rw [hcontrol]
    omega

/-- How often the station has been asked for an answer. -/
def budget (t : Tally) : Answer → ℕ
  | .ua => t.heard.countP fun data ↦ IsSetup (data.getD 1 0) ∨ IsDisc (data.getD 1 0)
  | .dm => t.heard.countP fun data ↦ data.getD 1 0 &&& hdlcUFrameMask ≠ hdlcUFrameBits
  | .rr => t.fd.reads.length
  | .rej => t.fd.callbacks.countP renews + t.closings
  | .disc => t.closings

/-- How many of the answers asked for may still be given later. -/
def reserve (t : Tally) : Answer → ℕ
  | .rej => t.fd.credits
  | .ua | .dm | .rr | .disc => 0

variable {answer : Answer}

theorem budget_next (h : WellFormed t.fd) (hm : Legal t.fd m) :
    (t.next m).reserve answer + t.budget answer ≤ t.reserve answer + (t.next m).budget answer := by
  obtain ⟨calls, hcalls, hcredits⟩ := credits_move h hm
  cases answer with
  | ua | dm =>
    rw [budget, budget, next, List.countP_append]
    exact Nat.add_le_add_left (Nat.le_add_right _ _) _
  | rr =>
    rw [budget, budget, next, TinyFd.reads, TinyFd.reads, hcalls, List.filterMap_append,
      List.length_append]
    exact Nat.add_le_add_left (Nat.le_add_right _ _) _
  | rej =>
    rw [budget, budget, reserve, reserve, next, hcalls, List.countP_append]
    dsimp only
    omega
  | disc => exact Nat.add_le_add_left (Nat.le_add_right _ _) _

theorem budget_cause (h : WellFormed t.fd) {header : FrameHeader} (hc : Cause t.fd m header)
    (hkind : answer.Is header.control) :
    (t.next m).reserve answer + t.budget answer + 1 ≤ t.reserve answer +
      (t.next m).budget answer := by
  cases hc with
  | @ua now data p hto hvalid hasked =>
    obtain rfl : answer = .ua :=
      Answer.unique hkind (show IsUa (hdlcUFrameTypeUa ||| hdlcUFrameBits ||| hdlcFBit) by decide)
    have hheard : (t.next (.onFrameReceived now data)).heard = t.heard ++ [data] := by
      rw [next, taken, concerns_frame.mpr ⟨hto, hvalid⟩]
      rfl
    rw [budget, budget, hheard, List.countP_append, List.countP_singleton,
      if_pos (decide_eq_true hasked)]
    exact Nat.le_refl _
  | @dm now data p hto hvalid hasked =>
    obtain rfl : answer = .dm :=
      Answer.unique hkind (show IsDm (hdlcUFrameTypeDm ||| hdlcUFrameBits) by decide)
    have hheard : (t.next (.onFrameReceived now data)).heard = t.heard ++ [data] := by
      rw [next, taken, concerns_frame.mpr ⟨hto, hvalid⟩]
      rfl
    rw [budget, budget, hheard, List.countP_append, List.countP_singleton,
      if_pos (decide_eq_true hasked)]
    exact Nat.le_refl _
  | @rr now data p n hcalls =>
    have hfields := rrHeader_fields (t.fd.addrField p) n
    obtain rfl : answer = .rr := Answer.unique hkind ⟨hfields.2.2, hfields.2.1⟩
    have hfd : (t.next (.onFrameReceived now data)).fd = t.fd.onFrameReceived now data := rfl
    rw [budget, budget, hfd, TinyFd.reads, TinyFd.reads, hcalls, List.filterMap_append,
      List.length_append]
    exact Nat.le_refl _
  | @rej now data p n hto hvalid hup hold hnew =>
    have hfields := rejHeader_fields (t.fd.addrField p) n
    obtain rfl : answer = .rej := Answer.unique hkind ⟨hfields.2.2, hfields.2.1⟩
    have hcredits := credits_rej h hto hvalid hup hold hnew
    obtain ⟨calls, hcalls, -⟩ := @credits_move t.fd (.onFrameReceived now data) h trivial
    rw [budget, budget, reserve, reserve, next, hcalls, List.countP_append]
    dsimp only
    omega
  | disc hok =>
    obtain rfl : answer = .disc :=
      Answer.unique hkind
        (show IsDisc (hdlcUFrameTypeDisc ||| hdlcUFrameBits ||| hdlcPBit) by decide)
    have hcloses : t.fd.closes .disconnect = 1 := if_pos hok
    rw [budget, budget, next, hcloses]
    exact Nat.le_refl _
  | sabm =>
    exact absurd hkind
      (Answer.not_isSetup
        (show IsSetup (hdlcUFrameTypeSabm ||| hdlcUFrameBits ||| hdlcPBit) by decide))

/-- The answers queued or handed over, and those that may still be given, do not
exceed those asked for. -/
structure Accounted (t : Tally) : Prop where
  wf : WellFormed t.fd
  answers : ∀ answer : Answer,
    t.reserve answer + t.controls.countP (fun control ↦ answer.Is control) ≤ t.budget answer

theorem Accounted.next (h : Accounted t) (hm : Legal t.fd m) : Accounted (t.next m) := by
  refine ⟨wellFormed_move h.wf hm, fun answer ↦ ?_⟩
  have hold := h.answers answer
  have hP : ∀ control, decide (answer.Is control) = true →
      control &&& hdlcIFrameMask ≠ hdlcIFrameBits :=
    fun control hc ↦ Answer.not_isI (of_decide_eq_true hc)
  rcases countP_next h.wf hm hP with hsame | ⟨header, hcause, hkind, hone⟩
  · have hbudget := @budget_next m t answer h.wf hm
    omega
  · have hbudget := budget_cause h.wf hcause (of_decide_eq_true hkind)
    omega

theorem controls_new {config : TinyFdConfig} {created : Instant} {fd : TinyFd}
    (hnew : TinyFd.new config created = .ok fd) : (start fd).controls = [] := by
  obtain ⟨mtu, hframes⟩ := (initial_new hnew).frames
  have hempty : fd.frames.sQueue.held = [] := by
    rw [hframes]
    exact held_new ..
  rw [controls, start, hempty]
  rfl

theorem accounted_new {config : TinyFdConfig} {created : Instant} {fd : TinyFd}
    (hnew : TinyFd.new config created = .ok fd) : Accounted (start fd) := by
  refine ⟨wellFormed_new hnew, fun answer ↦ ?_⟩
  have hreserve : (start fd).reserve answer = 0 := by
    cases answer with
    | rej => exact credits_new hnew
    | ua | dm | rr | disc => rfl
  rw [controls_new hnew, hreserve]
  exact Nat.zero_le _

end Tally

/-- In no run does a station send more answers of a kind than it has been asked for: a UA
for each SABM, SNRM or DISC, a DM for each other frame, an RR for each payload read, a
REJ for each connection, payload read or `disconnect`, and a DISC for each `disconnect`. -/
theorem answers_asked {config : TinyFdConfig} {created : Instant} {fd : TinyFd}
    (hnew : TinyFd.new config created = .ok fd) (ops : List Op) :
    EachState Tally.step (fun t ↦ ∀ answer : Answer,
        t.handed.countP (fun data ↦ answer.Is (data.getD 1 0)) ≤ t.budget answer)
      (Tally.start fd) (fd.runMoves ops) := by
  have hlegal : EachStep Tally.step (fun t m ↦ Legal t.fd m) (Tally.start fd) (fd.runMoves ops) :=
    @legal_watched _ Tally.step Tally.fd (fun t m t' hs ↦ by rw [← Option.some.inj hs, Tally.next])
      (Tally.start fd) (wellFormed_new hnew) ops
  have hall : EachState Tally.step Tally.Accounted (Tally.start fd) (fd.runMoves ops) := by
    refine eachState_of_eachStep ?_ (Tally.accounted_new hnew) hlegal
    intro t m t' ht hm hs
    obtain rfl := Option.some.inj hs
    exact ht.next hm
  refine hall.mono fun t ht answer ↦ ?_
  have hanswer := ht.answers answer
  rw [Tally.controls, List.countP_append, List.countP_map] at hanswer
  exact (Nat.le_add_right _ _).trans ((Nat.le_add_left _ _).trans hanswer)

def answerOps : List Op :=
  [.getTxData 500000000 9 0,
    .onRxData 5 [0x7E, 0x05, 0x73, 0x7E, 0x7E, 0x05, 0x00, 0x41, 0x7E, 0x7E, 0x05, 0x04, 0x43, 0x7E,
      0x7E, 0x05, 0x04, 0x43, 0x7E],
    .getTxData 6 9 0, .getTxData 6 9 0, .getTxData 6 9 0, .disconnect, .getTxData 7 9 0,
    .onRxData 8 [0x7E, 0x05, 0x73, 0x7E, 0x7E, 0x05, 0x01, 0x7E, 0x7E, 0x05, 0x3F, 0x7E],
      .getTxData 9 9 0, .getTxData 9 9 0]

theorem answers_asked_session :
    EachState Tally.step (fun t ↦ ∀ answer : Answer,
        t.handed.countP (fun data ↦ answer.Is (data.getD 1 0)) ≤ t.budget answer)
      (Tally.start freshStation) (freshStation.runMoves answerOps) ∧
    (run Tally.step (Tally.start freshStation) (freshStation.runMoves answerOps)).map (fun t ↦
        [Answer.ua, .dm, .rr, .rej, .disc].map fun answer ↦
          (t.handed.countP (fun data ↦ answer.Is (data.getD 1 0)), t.budget answer)) =
      some [(1, 1), (1, 4), (1, 1), (1, 4), (1, 1)] :=
  ⟨answers_asked new_freshStation answerOps, by decide +kernel⟩

end TinyProto.TinyFd
