import TinyProto.Fd.Observe
import TinyProto.Fd.Sequence

namespace TinyProto.TinyFd

variable {fd : TinyFd}

section ConfirmFrames

variable (fd) (p : ℕ) (nr : UInt8)

@[simp] theorem hdlc_confirmFrames : (fd.confirmFrames p nr).hdlc = fd.hdlc := by
  simp only [confirmFrames]
  split <;> rfl

@[simp] theorem sQueue_confirmFrames :
    (fd.confirmFrames p nr).frames.sQueue = fd.frames.sQueue := by
  simp only [confirmFrames]
  split <;> rfl

@[simp] theorem callbacks_confirmFrames : (fd.confirmFrames p nr).callbacks = fd.callbacks := by
  simp only [confirmFrames]
  split <;> rfl

@[simp] theorem peers_length_confirmFrames :
    (fd.confirmFrames p nr).peerMgr.peers.length = fd.peerMgr.peers.length := by
  simp only [confirmFrames]
  split <;> simp

theorem peer_confirmFrames_ne {j : ℕ} (hj : j ≠ p) :
    (fd.confirmFrames p nr).peer j = fd.peer j := by
  simp only [confirmFrames]
  split <;> exact peer_modifyPeer_ne hj _

theorem capacity_freeByNs_foldl (q : FrameQueue) (address : UInt8) (seqs : List UInt8) :
    (seqs.foldl (fun q s ↦ q.freeByNs address s) q).capacity = q.capacity := by
  induction seqs generalizing q with
  | nil => rfl
  | cons s seqs ih => rw [List.foldl_cons, ih, FrameQueue.freeByNs, FrameQueue.capacity_freeFirst]

@[simp] theorem setup_confirmFrames : (fd.confirmFrames p nr).setup = fd.setup := by
  have hs : ∀ (f : PeerInfo → PeerInfo) (q : FrameQueue), (∀ x, (f x).addr = x.addr) →
      q.capacity = fd.frames.iQueue.capacity →
      { fd.modifyPeer p f with frames := { fd.frames with iQueue := q } }.setup = fd.setup := by
    intro f q hf hq
    have h : (fd.modifyPeer p f).setup = fd.setup := setup_modifyPeer p hf
    simp only [setup, Setup.mk.injEq] at h ⊢
    exact ⟨h.1, h.2.1, hq, trivial, h.2.2.2.2⟩
  simp only [confirmFrames]
  split
  · rw [setup_setEvents]
    exact hs _ _ (fun _ ↦ rfl) (capacity_freeByNs_foldl ..)
  · exact hs _ _ (fun _ ↦ rfl) (capacity_freeByNs_foldl ..)

variable {fd p nr} {n : ℕ} (hc : (fd.peer p).iQueueControl.txState.confirmNs = seq n) (hnr : nr < 8)
include hc hnr

theorem confirmed_control :
    ∃ b, (fd.peer p).iQueueControl.confirmSentFrames nr (fun seqs seq ↦ (seqs ++ [seq], true))
      ([] : List UInt8) = ({ (fd.peer p).iQueueControl with
          txState := { (fd.peer p).iQueueControl.txState with confirmNs := nr } },
        (List.range (seqDist (seq n) nr)).map fun j ↦ seq (n + j), b) := by
  obtain ⟨b, hb⟩ := IQueueControl.confirmSentFrames_true (fun seqs seq ↦ seqs ++ [seq]) [] hc hnr
  refine ⟨b, ?_⟩
  rw [hb, List.foldl_append_eq_append, List.nil_append, ← List.flatMap_def, List.flatMap_singleton']

theorem peer_confirmFrames_self (hp : p < fd.peerMgr.peers.length) :
    (fd.confirmFrames p nr).peer p =
      { fd.peer p with
        iQueueControl := { (fd.peer p).iQueueControl with
          txState := { (fd.peer p).iQueueControl.txState with confirmNs := nr } } } := by
  obtain ⟨b, hb⟩ := confirmed_control hc hnr
  simp only [confirmFrames, hb]
  split <;> exact peer_modifyPeer_self hp _

theorem iQueue_confirmFrames :
    (fd.confirmFrames p nr).frames.iQueue =
      ((List.range (seqDist (seq n) nr)).map fun j ↦ seq (n + j)).foldl
        (fun q s ↦ q.freeByNs (fd.addrField p) s) fd.frames.iQueue := by
  obtain ⟨b, hb⟩ := confirmed_control hc hnr
  simp only [confirmFrames, hb]
  split <;> rfl

end ConfirmFrames

def ackNr (control : UInt8) : UInt8 :=
  if control &&& hdlcIFrameMask = hdlcIFrameBits then (control >>> 1) &&& seqBitsMask
  else (control >>> 5) &&& seqBitsMask

def IsRejection (control : UInt8) : Prop :=
  control &&& hdlcIFrameMask ≠ hdlcIFrameBits ∧
    (control &&& hdlcSFrameTypeMask = hdlcSFrameTypeRej ∨
      control &&& hdlcSFrameTypeMask = hdlcSFrameTypeSrej)

instance (control : UInt8) : Decidable (IsRejection control) := by
  unfold IsRejection; infer_instance

def rrHeader (address nr : UInt8) : FrameHeader :=
  ⟨address, hdlcSFrameBits ||| hdlcSFrameTypeRr ||| nr <<< 5⟩

def rejHeader (address nr : UInt8) : FrameHeader :=
  ⟨address, hdlcSFrameBits ||| hdlcSFrameTypeRej ||| nr <<< 5 ||| hdlcPBit⟩

theorem rrHeader_fields (address : UInt8) (n : ℕ) :
    ((rrHeader address (seq n)).control >>> 5) &&& seqBitsMask = seq n ∧
      (rrHeader address (seq n)).control &&& hdlcSFrameTypeMask = hdlcSFrameTypeRr ∧
      (rrHeader address (seq n)).control &&& hdlcSFrameMask = hdlcSFrameBits := by
  have h := sControl_fields ⟨n % 8, Nat.mod_lt _ (by decide)⟩
  exact ⟨h.1, h.2.1, h.2.2.1⟩

theorem rejHeader_fields (address : UInt8) (n : ℕ) :
    ((rejHeader address (seq n)).control >>> 5) &&& seqBitsMask = seq n ∧
      (rejHeader address (seq n)).control &&& hdlcSFrameTypeMask = hdlcSFrameTypeRej ∧
      (rejHeader address (seq n)).control &&& hdlcSFrameMask = hdlcSFrameBits := by
  have h := sControl_fields ⟨n % 8, Nat.mod_lt _ (by decide)⟩
  exact ⟨h.2.2.2.1, h.2.2.2.2.1, h.2.2.2.2.2⟩

theorem ackNr_lt (control : UInt8) : ackNr control < 8 := by
  rw [ackNr]
  split <;> exact mask_lt _

section IFrame

variable {p n : ℕ} (hp : p < fd.peerMgr.peers.length)
    (hc : (fd.peer p).iQueueControl.txState.confirmNs = seq n)
  (data : Bytes)
include hp hc

theorem onIFrameReceived_cases :
    let nr := (data.getD 1 0 >>> 1) &&& seqBitsMask
    let ns := (data.getD 1 0 >>> 5) &&& seqBitsMask
    let fd₁ := fd.confirmFrames p nr
    let expected := (fd.peer p).iQueueControl.rxState.nextNr
    (ns ≠ expected ∧ (fd.peer p).sentReject = true ∧ fd.onIFrameReceived p data = fd₁) ∨
    (ns ≠ expected ∧ (fd.peer p).sentReject = false ∧ fd.onIFrameReceived p data =
      ((fd₁.modifyPeer p fun q ↦ { q with sentReject := true }).putUSFrame .sFrame
        (rejHeader (fd.addrField p) expected) []).1) ∨
    (ns = expected ∧ fd.onIFrameReceived p data =
      (((fd₁.modifyPeer p fun q ↦
          { q with
            iQueueControl := (fd₁.peer p).iQueueControl.moveToNextFrameToReceive
            sentReject := false
            sentNr := (expected + 1) &&& seqBitsMask }).call
        (.read (fd.userAddress p) (data.drop 2))).putUSFrame .sFrame
        (rrHeader (fd.addrField p) ((expected + 1) &&& seqBitsMask)) []).1) := by
  intro nr ns fd₁ expected
  have hpeer := peer_confirmFrames_self hc (mask_lt (data.getD 1 0 >>> 1)) hp
  have hget : (fd₁.peer p).iQueueControl.getNextFrameToReceive = expected := by
    rw [hpeer]
    rfl
  have hrej : (fd₁.peer p).sentReject = (fd.peer p).sentReject := by rw [hpeer]
  have hunfold : fd.onIFrameReceived p data =
      if ns ≠ (fd₁.peer p).iQueueControl.getNextFrameToReceive then
        if !(fd₁.peer p).sentReject then
          ((fd₁.modifyPeer p fun q ↦ { q with sentReject := true }).putUSFrame .sFrame
            (rejHeader (fd.addrField p) (fd₁.peer p).iQueueControl.getNextFrameToReceive) []).1
        else fd₁
      else
        (((fd₁.modifyPeer p fun q ↦
            { q with
              iQueueControl := (fd₁.peer p).iQueueControl.moveToNextFrameToReceive
              sentReject := false
              sentNr := ((fd₁.peer p).iQueueControl.getNextFrameToReceive + 1) &&&
                seqBitsMask }).call
          (.read (fd.userAddress p) (data.drop 2))).putUSFrame .sFrame
          (rrHeader (fd.addrField p)
            (((fd₁.peer p).iQueueControl.getNextFrameToReceive + 1) &&& seqBitsMask)) []).1 := rfl
  clear_value fd₁
  rw [hunfold, hget, hrej]
  by_cases hns : ns = expected
  · right; right
    exact ⟨hns, if_neg (not_not.mpr hns)⟩
  · rw [if_pos hns]
    cases (fd.peer p).sentReject with
    | true =>
      left
      exact ⟨hns, rfl, rfl⟩
    | false =>
      right; left
      exact ⟨hns, rfl, rfl⟩

end IFrame

theorem retransmitFrame_fst (c : IQueueControl) (nr : UInt8) (f : UInt8 → Bool) :
    (c.retransmitFrame nr f).1 = { c with txState := { c.txState with nextNs := nr } } := by
  rw [IQueueControl.retransmitFrame]
  split
  · rename_i h
    rw [← h]
  · rfl

theorem onSFrameReceived_cases (fd : TinyFd) (p : ℕ) (data : Bytes) :
    let control := data.getD 1 0
    let nr := (control >>> 5) &&& seqBitsMask
    let fd₁ := fd.confirmFrames p nr
    (control &&& hdlcSFrameTypeMask = hdlcSFrameTypeRr ∧
      fd.onSFrameReceived p data = fd₁.modifyPeer p fun q ↦ { q with retries := fd₁.retries }) ∨
    ((control &&& hdlcSFrameTypeMask = hdlcSFrameTypeRej ∨
      control &&& hdlcSFrameTypeMask = hdlcSFrameTypeSrej) ∧ fd.onSFrameReceived p data =
        (fd₁.modifyPeer p fun q ↦
          { q with iQueueControl := { q.iQueueControl with
              txState := { q.iQueueControl.txState with nextNs := nr } } }).setEvents
                fdEventTxDataAvailable) ∨
    (control &&& hdlcSFrameTypeMask ≠ hdlcSFrameTypeRr ∧
      control &&& hdlcSFrameTypeMask ≠ hdlcSFrameTypeRej ∧
      control &&& hdlcSFrameTypeMask ≠ hdlcSFrameTypeSrej ∧ fd.onSFrameReceived p data = fd₁) := by
  intro control nr fd₁
  rw [onSFrameReceived]
  change (_ ∧ (if control &&& hdlcSFrameTypeMask = _ then _ else _) = _) ∨
    (_ ∧ (if control &&& hdlcSFrameTypeMask = _ then _ else _) = _) ∨
    _ ∧ _ ∧ _ ∧ (if control &&& hdlcSFrameTypeMask = _ then _ else _) = _
  by_cases hrr : control &&& hdlcSFrameTypeMask = hdlcSFrameTypeRr
  · left
    exact ⟨hrr, if_pos hrr⟩
  · rw [if_neg hrr]
    by_cases hrej : control &&& hdlcSFrameTypeMask = hdlcSFrameTypeRej ∨
        control &&& hdlcSFrameTypeMask = hdlcSFrameTypeSrej
    · right; left
      refine ⟨hrej, ?_⟩
      rw [if_pos hrej]
      simp only [retransmitFrame_fst]
      rfl
    · right; right
      rw [not_or] at hrej
      exact ⟨hrr, hrej.1, hrej.2, if_neg (not_or.mpr hrej)⟩

structure Acked (fd fd' : TinyFd) (p n : ℕ) (control : UInt8) : Prop where
  iQueue : fd'.frames.iQueue =
    ((List.range (seqDist (seq n) (ackNr control))).map fun j ↦ seq (n + j)).foldl
      (fun q s ↦ q.freeByNs (fd.addrField p) s) fd.frames.iQueue
  txState : (fd'.peer p).iQueueControl.txState =
    { (fd.peer p).iQueueControl.txState with
      confirmNs := ackNr control
      nextNs := if IsRejection control then ackNr control
        else (fd.peer p).iQueueControl.txState.nextNs }
  state : (fd'.peer p).state = (fd.peer p).state
  others : ∀ j, j ≠ p → fd'.peer j = fd.peer j
  hdlc : fd'.hdlc = fd.hdlc
  setup : fd'.setup = fd.setup

section Acked

variable {p n : ℕ} (hp : p < fd.peerMgr.peers.length)
    (hc : (fd.peer p).iQueueControl.txState.confirmNs = seq n)
include hp hc

theorem confirmFrames_acked {control nr : UInt8} (hnr : nr = ackNr control)
    (hrej : ¬ IsRejection control) :
    Acked fd (fd.confirmFrames p nr) p n control := by
  subst hnr
  have hlt := ackNr_lt control
  have hpeer := peer_confirmFrames_self hc hlt hp
  constructor
  · exact iQueue_confirmFrames hc hlt
  · rw [hpeer, if_neg hrej]
  · rw [hpeer]
  · intro j hj
    exact peer_confirmFrames_ne fd p _ hj
  · exact hdlc_confirmFrames ..
  · exact setup_confirmFrames ..

theorem onIFrameReceived_acked (data : Bytes)
    (hI : data.getD 1 0 &&& hdlcIFrameMask = hdlcIFrameBits) :
    Acked fd (fd.onIFrameReceived p data) p n (data.getD 1 0) := by
  have hack : Acked fd (fd.confirmFrames p ((data.getD 1 0 >>> 1) &&& seqBitsMask)) p n
      (data.getD 1 0) :=
    confirmFrames_acked hp hc (by rw [ackNr, if_pos hI]) fun h ↦ h.1 hI
  have hp₁ : p <
      (fd.confirmFrames p ((data.getD 1 0 >>> 1) &&& seqBitsMask)).peerMgr.peers.length := by
    rwa [peers_length_confirmFrames]
  rcases onIFrameReceived_cases hp hc data with ⟨-, -, h⟩ | ⟨-, -, h⟩ | ⟨-, h⟩ <;> rw [h]
  · exact hack
  · constructor
    · rw [iQueue_putUSFrame, frames_modifyPeer, hack.iQueue]
    · rw [peer_putUSFrame, peer_modifyPeer_self hp₁, hack.txState]
    · rw [peer_putUSFrame, peer_modifyPeer_self hp₁, hack.state]
    · intro j hj
      rw [peer_putUSFrame, peer_modifyPeer_ne hj, hack.others j hj]
    · rw [hdlc_putUSFrame, hdlc_modifyPeer, hack.hdlc]
    · rw [setup_putUSFrame]
      refine (setup_modifyPeer p ?_).trans hack.setup
      intro _
      rfl
  · constructor
    · rw [iQueue_putUSFrame, frames_call, frames_modifyPeer, hack.iQueue]
    · rw [peer_putUSFrame, peer_call, peer_modifyPeer_self hp₁]
      dsimp only
      rw [IQueueControl.txState_moveToNextFrameToReceive, hack.txState]
    · rw [peer_putUSFrame, peer_call, peer_modifyPeer_self hp₁, hack.state]
    · intro j hj
      rw [peer_putUSFrame, peer_call, peer_modifyPeer_ne hj, hack.others j hj]
    · rw [hdlc_putUSFrame, hdlc_call, hdlc_modifyPeer, hack.hdlc]
    · rw [setup_putUSFrame, setup_call]
      refine (setup_modifyPeer p ?_).trans hack.setup
      intro _
      rfl

theorem onSFrameReceived_acked (data : Bytes)
    (hS : data.getD 1 0 &&& hdlcIFrameMask ≠ hdlcIFrameBits) :
    Acked fd (fd.onSFrameReceived p data) p n (data.getD 1 0) := by
  have hnr : (data.getD 1 0 >>> 5) &&& seqBitsMask = ackNr (data.getD 1 0) := by
    rw [ackNr, if_neg hS]
  have hp₁ : p <
      (fd.confirmFrames p ((data.getD 1 0 >>> 5) &&& seqBitsMask)).peerMgr.peers.length := by
    rwa [peers_length_confirmFrames]
  rcases onSFrameReceived_cases fd p data with ⟨hrr, h⟩ | ⟨hrej, h⟩ | ⟨-, hrej, hsrej, h⟩ <;> rw [h]
  · have hne : hdlcSFrameTypeRr ≠ hdlcSFrameTypeRej ∧ hdlcSFrameTypeRr ≠ hdlcSFrameTypeSrej := by
      decide
    have hack := confirmFrames_acked hp hc hnr fun hr ↦
      hr.2.elim (fun he ↦ hne.1 (hrr.symm.trans he)) fun he ↦ hne.2 (hrr.symm.trans he)
    constructor
    · rw [frames_modifyPeer, hack.iQueue]
    · rw [peer_modifyPeer_self hp₁, hack.txState]
    · rw [peer_modifyPeer_self hp₁, hack.state]
    · intro j hj
      rw [peer_modifyPeer_ne hj, hack.others j hj]
    · rw [hdlc_modifyPeer, hack.hdlc]
    · refine (setup_modifyPeer p ?_).trans hack.setup
      intro _
      rfl
  · have hpeer := peer_confirmFrames_self hc (mask_lt (data.getD 1 0 >>> 5)) hp
    have hr : IsRejection (data.getD 1 0) := ⟨hS, hrej⟩
    rw [hnr] at hpeer hp₁ ⊢
    constructor
    · rw [frames_setEvents, frames_modifyPeer]
      exact iQueue_confirmFrames hc (ackNr_lt _)
    · rw [peer_setEvents, peer_modifyPeer_self hp₁, hpeer, if_pos hr]
    · rw [peer_setEvents, peer_modifyPeer_self hp₁, hpeer]
    · intro j hj
      rw [peer_setEvents, peer_modifyPeer_ne hj, peer_confirmFrames_ne fd p _ hj]
    · rw [hdlc_setEvents, hdlc_modifyPeer]
      exact hdlc_confirmFrames ..
    · rw [setup_setEvents]
      refine (setup_modifyPeer p ?_).trans (setup_confirmFrames ..)
      intro _
      rfl
  · exact confirmFrames_acked hp hc hnr fun hr ↦ hr.2.elim hrej hsrej

end Acked

end TinyProto.TinyFd
