import TinyProto.Fd.Moves

namespace TinyProto.TinyFd

variable {fd fd' : TinyFd} {i : ℕ}

def connects (cs : List Callback) : List Bool :=
  cs.filterMap fun
    | .connect _ connected => some connected
    | .read .. => none

def Opens (fd : TinyFd) (i : ℕ) (control : UInt8) : Prop :=
  IsSetup control ∧ (fd.peer i).state ≠ .connected ∨ IsUa control ∧ (fd.peer i).state = .connecting

def Closes (fd : TinyFd) (i : ℕ) (control : UInt8) : Prop :=
  (IsDisc control ∨ IsDm control) ∧ (fd.peer i).state ≠ .disconnected ∨
    IsUa control ∧ (fd.peer i).state = .disconnecting

instance (fd : TinyFd) (i : ℕ) (control : UInt8) : Decidable (Opens fd i control) := by
  unfold Opens; infer_instance

instance (fd : TinyFd) (i : ℕ) (control : UInt8) : Decidable (Closes fd i control) := by
  unfold Closes; infer_instance

structure Reports (i : ℕ) (connected : Bool) (fd fd' : TinyFd) : Prop where
  callbacks : fd'.callbacks = fd.callbacks ++ [.connect (fd.userAddress i) connected]
  state : (fd'.peer i).state = if connected then .connected else .disconnected
  reset : (fd'.peer i).iQueueControl = .new

structure Reads (i : ℕ) (data : Bytes) (fd fd' : TinyFd) : Prop where
  iFrame : data.getD 1 0 &&& hdlcIFrameMask = hdlcIFrameBits
  state : (fd.peer i).state = .connected ∨ (fd.peer i).state = .disconnecting
  ns : (data.getD 1 0 >>> 5) &&& seqBitsMask = (fd.peer i).iQueueControl.rxState.nextNr
  callbacks : fd'.callbacks = fd.callbacks ++ [.read (fd.userAddress i) (data.drop 2)]
  next : (fd'.peer i).iQueueControl.rxState.nextNr =
    ((fd.peer i).iQueueControl.rxState.nextNr + 1) &&& seqBitsMask

structure Silence (i : ℕ) (fd fd' : TinyFd) : Prop where
  callbacks : fd'.callbacks = fd.callbacks
  rxState : (fd'.peer i).iQueueControl.rxState = (fd.peer i).iQueueControl.rxState

theorem Reads.of_eq {data : Bytes} {fd₁ : TinyFd} (h : Reads i data fd₁ fd')
    (hset : fd₁.setup = fd.setup) (hcb : fd₁.callbacks = fd.callbacks)
    (hs : (fd₁.peer i).state = (fd.peer i).state)
    (hrx : (fd₁.peer i).iQueueControl.rxState = (fd.peer i).iQueueControl.rxState) :
    Reads i data fd fd' :=
  ⟨h.iFrame, hs ▸ h.state, hrx ▸ h.ns, by rw [h.callbacks, hcb, userAddress_congr hset],
    hrx ▸ h.next⟩

theorem kinds_exclusive {control : UInt8} :
    (IsSetup control → ¬ IsUa control ∧ ¬ IsDisc control ∧ ¬ IsDm control) ∧
      (IsUa control → ¬ IsDisc control ∧ ¬ IsDm control) := by
  have hne : [hdlcUFrameTypeSabm, hdlcUFrameTypeSnrm, hdlcUFrameTypeUa, hdlcUFrameTypeDisc,
      hdlcUFrameTypeDm].Nodup := by
    decide
  simp only [List.nodup_cons, List.mem_cons, List.not_mem_nil, or_false, not_or] at hne
  obtain ⟨⟨-, h₁, h₂, h₃⟩, ⟨h₄, h₅, h₆⟩, ⟨h₇, h₈⟩, -⟩ := hne
  refine ⟨?_, ?_⟩
  · rintro ⟨-, ht | ht⟩
    · exact ⟨fun h ↦ h₁ (ht.symm.trans h.2), fun h ↦ h₂ (ht.symm.trans h.2),
        fun h ↦ h₃ (ht.symm.trans h.2)⟩
    · exact ⟨fun h ↦ h₄ (ht.symm.trans h.2), fun h ↦ h₅ (ht.symm.trans h.2),
        fun h ↦ h₆ (ht.symm.trans h.2)⟩
  · rintro ⟨-, ht⟩
    exact ⟨fun h ↦ h₇ (ht.symm.trans h.2), fun h ↦ h₈ (ht.symm.trans h.2)⟩

section Turns

variable {control : UInt8}

theorem turns_setup (hc : IsSetup control) :
    (Opens fd i control ↔ (fd.peer i).state ≠ .connected) ∧ ¬ Closes fd i control := by
  obtain ⟨hua, hdisc, hdm⟩ := kinds_exclusive.1 hc
  constructor
  · exact ⟨fun h ↦ h.elim And.right fun h ↦ absurd h.1 hua, fun hs ↦ .inl ⟨hc, hs⟩⟩
  · exact fun h ↦ h.elim (fun h ↦ h.1.elim hdisc hdm) fun h ↦ hua h.1

theorem turns_ua (hc : IsUa control) :
    (Opens fd i control ↔ (fd.peer i).state = .connecting) ∧
      (Closes fd i control ↔ (fd.peer i).state = .disconnecting) := by
  obtain ⟨hdisc, hdm⟩ := kinds_exclusive.2 hc
  constructor
  · exact ⟨fun h ↦ h.elim (fun h ↦ absurd hc (kinds_exclusive.1 h.1).1) And.right,
      fun hs ↦ .inr ⟨hc, hs⟩⟩
  · exact ⟨fun h ↦ h.elim (fun h ↦ absurd h.1 (not_or.mpr ⟨hdisc, hdm⟩)) And.right,
      fun hs ↦ .inr ⟨hc, hs⟩⟩

theorem turns_down (hc : IsDisc control ∨ IsDm control) :
    ¬ Opens fd i control ∧ (Closes fd i control ↔ (fd.peer i).state ≠ .disconnected) := by
  have hset : ¬ IsSetup control :=
    fun h ↦ hc.elim (kinds_exclusive.1 h).2.1 (kinds_exclusive.1 h).2.2
  have hua : ¬ IsUa control := fun h ↦ hc.elim (kinds_exclusive.2 h).1 (kinds_exclusive.2 h).2
  constructor
  · exact fun h ↦ h.elim (fun h ↦ hset h.1) fun h ↦ hua h.1
  · exact ⟨fun h ↦ h.elim And.right fun h ↦ absurd h.1 hua, fun hs ↦ .inl ⟨hc, hs⟩⟩

theorem turns_closed (hc : IsUa control ∧ (fd.peer i).state = .disconnecting ∨ IsDm control) :
    ¬ Opens fd i control ∧ (Closes fd i control ↔ (fd.peer i).state ≠ .disconnected) := by
  rcases hc with ⟨hua, hs⟩ | hdm
  · rw [(turns_ua hua).1, (turns_ua hua).2, hs]
    decide
  · exact turns_down (.inr hdm)

theorem turns_none (hset : ¬ IsSetup control) (hdisc : ¬ IsDisc control) (hdm : ¬ IsDm control)
    (hua : IsUa control → (fd.peer i).state ≠ .connecting ∧ (fd.peer i).state ≠ .disconnecting) :
    ¬ Opens fd i control ∧ ¬ Closes fd i control := by
  constructor
  · exact fun h ↦ h.elim (fun h ↦ hset h.1) fun h ↦ (hua h.1).1 h.2
  · exact fun h ↦ h.elim (fun h ↦ h.1.elim hdisc hdm) fun h ↦ (hua h.1).2 h.2

theorem turns_data (hU : control &&& hdlcUFrameMask ≠ hdlcUFrameBits) :
    ¬ Opens fd i control ∧ ¬ Closes fd i control :=
  turns_none (fun h ↦ hU h.1) (fun h ↦ hU h.1) (fun h ↦ hU h.1) fun h ↦ absurd h.1 hU

theorem not_closes_of_opens (h : Opens fd i control) : ¬ Closes fd i control := by
  rcases h with ⟨hset, -⟩ | ⟨hua, hs⟩
  · exact (turns_setup hset).2
  · rw [(turns_ua hua).2, hs]
    decide

end Turns

theorem reports_up (hp : i < fd.peerMgr.peers.length) (hs : (fd.peer i).state ≠ .connected)
    (now : Instant) :
    Reports i true fd (fd.switchToConnected i now) := by
  refine ⟨callbacks_switchToConnected fd i now hs, state_switchToConnected fd i now hp, ?_⟩
  rw [peer_switchToConnected_self fd i now hp hs]
  rfl

theorem reports_down (hp : i < fd.peerMgr.peers.length) (hs : (fd.peer i).state ≠ .disconnected)
    (now : Instant) : Reports i false fd (fd.switchToDisconnected i now) := by
  refine ⟨callbacks_switchToDisconnected fd i now hs, state_switchToDisconnected fd i now hp, ?_⟩
  rw [peer_switchToDisconnected_self fd i now hp hs]
  rfl

theorem Reports.of_eq {connected : Bool} {fd₁ : TinyFd} (h : Reports i connected fd₁ fd')
    (hset : fd₁.setup = fd.setup) (hcb : fd₁.callbacks = fd.callbacks) :
    Reports i connected fd fd' :=
  ⟨by rw [h.callbacks, hcb, userAddress_congr hset], h.state, h.reset⟩

theorem Reports.connects {connected : Bool} (h : Reports i connected fd fd') {m : Move}
    (hm : fd' = fd.move m) (hi : concerns fd m = some i) :
    TinyFd.connects (fd.callsFor i m) = [connected] := by
  rw [callsFor_self hi, calls_eq (hm ▸ h.callbacks)]
  rfl

theorem frame_reports (h : WellFormed fd) {data : Bytes} (hto : fd.AddressedTo i data)
    (hvalid : i ≠ hdlcInvalidPeerIndex) (now : Instant) :
    let fd' := fd.onFrameReceived now data
    (Opens fd i (data.getD 1 0) ∧ Reports i true fd fd') ∨
    (Closes fd i (data.getD 1 0) ∧ Reports i false fd fd') ∨
      (¬ Opens fd i (data.getD 1 0) ∧ ¬ Closes fd i (data.getD 1 0) ∧
        (fd'.peer i).state = (fd.peer i).state ∧ (Silence i fd fd' ∨ Reads i data fd fd')) := by
  intro fd'
  have hp := AddressedTo.lt h hto hvalid
  have hp₁ : i < (fd.touch i now).peerMgr.peers.length := by rwa [peers_length_touch]
  have hua : i <
      ((fd.touch i now).putUSFrame .uFrame (uaHeader (fd.addrField i))
        []).1.peerMgr.peers.length := by
    rwa [peerMgr_putUSFrame]
  have hpeer := peer_touch_self fd i now hp
  have hstate : ((fd.touch i now).peer i).state = (fd.peer i).state := by rw [hpeer]
  have hrx : ((fd.touch i now).peer i).iQueueControl.rxState =
      (fd.peer i).iQueueControl.rxState := by rw [hpeer]
  have hset := setup_touch fd i now
  have hcb := callbacks_touch fd i now
  have hwf := wellFormed_touch h hp now
  obtain ⟨n, hn⟩ := exists_seq_of_lt (hwf.counters i hp₁).confirm
  have hr := onFrameReceived_reacts h hto hvalid now
  change Reacts fd i now data fd' at hr
  clear_value fd'
  cases hr with
  | setup hc =>
    obtain ⟨hopens, hcloses⟩ := @turns_setup fd i _ hc
    by_cases hs : (fd.peer i).state = .connected
    · right; right
      rw [switchToConnected_of_connected _ i now (by rw [peer_putUSFrame, hstate, hs])]
      refine ⟨fun h ↦ hopens.mp h hs, hcloses, by rw [peer_putUSFrame, hstate], .inl ⟨?_, ?_⟩⟩
      · rw [callbacks_putUSFrame, hcb]
      · rw [peer_putUSFrame, hrx]
    · left
      refine ⟨hopens.mpr hs, Reports.of_eq (reports_up hua ?_ now) ?_ ?_⟩
      · rwa [peer_putUSFrame, hstate]
      · rw [setup_putUSFrame, hset]
      · rw [callbacks_putUSFrame, hcb]
  | opened hc hs =>
    left
    refine ⟨.inr ⟨hc, hs⟩, Reports.of_eq (reports_up hp₁ ?_ now) hset hcb⟩
    rw [hstate, hs]
    decide
  | disc hc =>
    obtain ⟨hopens, hcloses⟩ := @turns_down fd i _ (.inl hc)
    by_cases hs : (fd.peer i).state = .disconnected
    · right; right
      rw [switchToDisconnected_of_disconnected _ i now (by rw [peer_putUSFrame, hstate, hs])]
      refine ⟨hopens, fun h ↦ hcloses.mp h hs, by rw [peer_putUSFrame, hstate], .inl ⟨?_, ?_⟩⟩
      · rw [callbacks_putUSFrame, hcb]
      · rw [peer_putUSFrame, hrx]
    · right; left
      refine ⟨hcloses.mpr hs, Reports.of_eq (reports_down hua ?_ now) ?_ ?_⟩
      · rwa [peer_putUSFrame, hstate]
      · rw [setup_putUSFrame, hset]
      · rw [callbacks_putUSFrame, hcb]
  | closed hc =>
    obtain ⟨hopens, hcloses⟩ := turns_closed hc
    by_cases hs : (fd.peer i).state = .disconnected
    · right; right
      rw [switchToDisconnected_of_disconnected _ i now (by rw [hstate, hs])]
      exact ⟨hopens, fun h ↦ hcloses.mp h hs, hstate, .inl ⟨hcb, hrx⟩⟩
    · right; left
      exact ⟨hcloses.mpr hs, Reports.of_eq (reports_down hp₁ (by rwa [hstate]) now) hset hcb⟩
  | otherU hU hset hdisc hdm hua =>
    obtain ⟨hopens, hcloses⟩ := turns_none hset hdisc hdm hua
    exact .inr (.inr ⟨hopens, hcloses, hstate, .inl ⟨hcb, hrx⟩⟩)
  | refused hU hc hd =>
    obtain ⟨hopens, hcloses⟩ := @turns_data fd i _ hU
    refine .inr (.inr ⟨hopens, hcloses, by rw [peer_putUSFrame, hstate], .inl ⟨?_, ?_⟩⟩)
    · rw [callbacks_putUSFrame, hcb]
    · rw [peer_putUSFrame, hrx]
  | iFrame hI hs =>
    have hU : data.getD 1 0 &&& hdlcUFrameMask ≠ hdlcUFrameBits :=
      fun hU ↦ not_isI_of_service (.inl hU) hI
    obtain ⟨hopens, hcloses⟩ := @turns_data fd i _ hU
    refine .inr
      (.inr ⟨hopens, hcloses, (onIFrameReceived_acked hp₁ hn data hI).state.trans hstate, ?_⟩)
    rcases onIFrameReceived_rx hp₁ hn data with ⟨-, hcb', hrx', -⟩ | ⟨hns, hcb', hrx', -⟩
    · exact .inl ⟨hcb'.trans hcb, hrx'.trans hrx⟩
    · exact .inr (Reads.of_eq ⟨hI, by rwa [hstate], hns, hcb', by rw [hrx']⟩ hset hcb hstate hrx)
  | sFrame hI hU hs =>
    obtain ⟨hopens, hcloses⟩ := @turns_data fd i _ hU
    obtain ⟨hcb', -, hrx', -⟩ := onSFrameReceived_rx hp₁ hn data
    exact .inr (.inr ⟨hopens, hcloses, (onSFrameReceived_acked hp₁ hn data hI).state.trans hstate,
      .inl ⟨hcb'.trans hcb, hrx'.trans hrx⟩⟩)

theorem timer_reports (hp : i < fd.peerMgr.peers.length) (now : Instant) :
    let fd' := fd.checkTimeout now i
    ((fd.peer i).state = .connected ∧ Reports i false fd fd') ∨
      (Silence i fd fd' ∧ ((fd'.peer i).state = .idle → (fd.peer i).state = .idle) ∧
        ((fd'.peer i).state = .connected ↔ (fd.peer i).state = .connected) ∧
        ((fd'.peer i).state = .disconnecting ↔ (fd.peer i).state = .disconnecting)) := by
  intro fd'
  rcases fd.checkTimeout_cases now i with ⟨he, -⟩ | ⟨hs, -, he⟩ | ⟨hs, -, ⟨-, he⟩ | ⟨-, he⟩⟩ | ⟨hs,
    -, -, -, he⟩ | ⟨hdue, he⟩ <;> rw [show fd' = _ from he]
  · exact .inr ⟨⟨rfl, rfl⟩, id, Iff.rfl, Iff.rfl⟩
  · have hpeer := @peer_modifyPeer_self (fd.putUSFrame .uFrame (fd.sabmHeader i) []).1 i
      (by rwa [peerMgr_putUSFrame]) fun q ↦ { q with state := .connecting, lastSentFrameTs := now }
    refine .inr ⟨⟨?_, ?_⟩, ?_⟩
    · rw [callbacks_modifyPeer, callbacks_putUSFrame]
    · rw [hpeer, peer_putUSFrame]
    · rw [hpeer]
      rcases hs with hs | hs <;> simp [hs]
  · refine .inr ⟨⟨rfl, ?_⟩, ?_⟩ <;> rw [peer_modifyPeer_self hp]
    simp [hs]
  · have hpeer := @peer_modifyPeer_self fd i hp fun q ↦ { q with retries := q.retries - 1 }
    have hp₁ : i < ((fd.modifyPeer i fun q ↦ { q with retries := q.retries - 1 }).putUSFrame .uFrame
        ((fd.modifyPeer i fun q ↦ { q with retries := q.retries - 1 }).sabmHeader i)
          []).1.peerMgr.peers.length := by
      rwa [peerMgr_putUSFrame, peers_length_modifyPeer]
    refine .inr ⟨⟨?_, ?_⟩, ?_⟩
    · rw [callbacks_modifyPeer, callbacks_putUSFrame, callbacks_modifyPeer]
    · rw [peer_modifyPeer_self hp₁, peer_putUSFrame, hpeer]
    · rw [peer_modifyPeer_self hp₁, peer_putUSFrame, hpeer]
      exact ⟨id, Iff.rfl, Iff.rfl⟩
  · refine .inl ⟨hs, reports_down hp ?_ now⟩
    rw [hs]
    decide
  · refine .inr ⟨⟨rfl, ?_⟩, ?_⟩ <;> rw [peer_setEvents, peer_modifyPeer_self hp]
    exact ⟨id, Iff.rfl, Iff.rfl⟩

end TinyProto.TinyFd
