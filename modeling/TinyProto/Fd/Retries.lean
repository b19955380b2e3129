import TinyProto.Fd.Reports

namespace TinyProto.TinyFd

open Lib

variable {fd fd' : TinyFd} {i : ℕ}

def Pending (fd : TinyFd) (p : ℕ) : Prop :=
  (fd.peer p).state = .connected ∧ (fd.peer p).iQueueControl.txState.nextNs ≠
    (fd.peer p).iQueueControl.txState.lastNs ∧
    (fd.frames.iQueue.getNext .iFrame (fd.addrField p)
      (fd.peer p).iQueueControl.txState.nextNs).isSome

def HandsOver (fd : TinyFd) (i : ℕ) : Prop :=
  fd.hdlc.txData = none ∧ (∀ k < fd.frames.sQueue.capacity, fd.frames.sQueue.get k = none) ∧
    (∀ p < i, ¬ Pending fd p) ∧ Pending fd i

instance (fd : TinyFd) (p : ℕ) : Decidable (Pending fd p) := by unfold Pending; infer_instance

instance (fd : TinyFd) (i : ℕ) : Decidable (HandsOver fd i) := by unfold HandsOver; infer_instance

theorem pending_iff {p : ℕ} : Pending fd p ↔ ∃ frame, fd.Sendable p frame := by
  constructor
  · rintro ⟨hs, hne, hget⟩
    obtain ⟨⟨k, frame⟩, hk⟩ := Option.isSome_iff_exists.mp hget
    exact ⟨frame, hs, hne, k, hk⟩
  · rintro ⟨frame, hs, hne, k, hk⟩
    exact ⟨hs, hne, Option.isSome_iff_exists.mpr ⟨_, hk⟩⟩

def PeerInfo.sent (q : PeerInfo) (now : Instant) (retries : UInt8) : PeerInfo :=
  { q with
    iQueueControl := q.iQueueControl.advanceNextNs
    lastSentITs := now
    lastSentFrameTs := now
    retries := retries }

theorem generateTxFrames_peer (hi : i < fd.peerMgr.peers.length) (now : Instant) :
    HandsOver fd i ∧ (fd.generateTxFrames now).peer i = PeerInfo.sent (fd.peer i) now fd.retries ∨
      ¬ HandsOver fd i ∧ (fd.generateTxFrames now).peer i = fd.peer i := by
  by_cases hidle : fd.hdlc.txData = none
  · by_cases hno : ∀ k < fd.frames.sQueue.capacity, fd.frames.sQueue.get k = none
    · rcases generateTxFrames_first hidle (FrameQueue.get_eq_none hno) now with ⟨p, frame, hp, hs,
        hfirst, he⟩ | ⟨hall, he⟩
      · have hp' : p < (fd.handOver (fd.sendIData p frame)).peerMgr.peers.length := hp
        by_cases hpi : i = p
        · subst hpi
          left
          refine ⟨⟨hidle, hno, ?_, pending_iff.mpr ⟨frame, hs⟩⟩, ?_⟩
          · intro j hj hpend
            obtain ⟨frame', hs'⟩ := pending_iff.mp hpend
            exact hfirst j hj frame' hs'
          · rw [he, peer_modifyPeer_self hp']
            rfl
        · right
          refine ⟨?_, ?_⟩
          · rintro ⟨-, -, hlow, hpend⟩
            rcases Nat.lt_or_gt_of_ne hpi with hlt | hgt
            · obtain ⟨frame', hs'⟩ := pending_iff.mp hpend
              exact hfirst i hlt frame' hs'
            · exact hlow p hgt (pending_iff.mpr ⟨frame, hs⟩)
          · rw [he, peer_modifyPeer_ne hpi]
            rfl
      · right
        refine ⟨?_, by rw [he]⟩
        rintro ⟨-, -, -, hpend⟩
        obtain ⟨frame, hs⟩ := pending_iff.mp hpend
        exact hall i hi frame hs
    · right
      refine ⟨fun h ↦ hno h.2.1, ?_⟩
      rcases fd.generateTxFrames_cases now with ⟨-, he⟩ | ⟨-, k, frame, -, -, he⟩ | ⟨-, hno',
        -⟩ | ⟨-, hno', -⟩
      · rw [he]
      · rw [he]
        rfl
      · exact absurd (fun k _ ↦ hno' k) hno
      · exact absurd (fun k _ ↦ hno' k) hno
  · right
    refine ⟨fun h ↦ hidle h.1, ?_⟩
    rcases fd.generateTxFrames_cases now with ⟨-, he⟩ | ⟨hidle', -⟩ | ⟨hidle', -⟩ | ⟨hidle', -⟩
    · rw [he]
    · exact absurd hidle' hidle
    · exact absurd hidle' hidle
    · exact absurd hidle' hidle

theorem toNat_pred {x : UInt8} (h : x ≠ 0) : (x - 1).toNat + 1 = x.toNat := by
  have hpos : x.toNat ≠ 0 := fun hz ↦ h (UInt8.toNat_inj.mp hz)
  have hlt := x.toNat_lt
  rw [UInt8.toNat_sub, UInt8.toNat_one]
  omega

/-! A peer never has more retries left than the station allows. -/

theorem retries_switchToConnected {p : ℕ} (hp : p < fd.peerMgr.peers.length) (now : Instant)
    (h : (fd.peer p).retries ≤ fd.retries) : ((fd.switchToConnected p now).peer p).retries ≤
      fd.retries := by
  by_cases hs : (fd.peer p).state = .connected
  · rwa [switchToConnected_of_connected fd p now hs]
  · rw [peer_switchToConnected_self fd p now hp hs]
    exact UInt8.le_refl _

theorem retries_switchToDisconnected (fd : TinyFd) {p : ℕ} (hp : p < fd.peerMgr.peers.length)
    (now : Instant) : ((fd.switchToDisconnected p now).peer p).retries = (fd.peer p).retries := by
  by_cases hs : (fd.peer p).state = .disconnected
  · rw [switchToDisconnected_of_disconnected fd p now hs]
  · rw [peer_switchToDisconnected_self fd p now hp hs]
    rfl

theorem retries_onIFrameReceived {p n : ℕ} (hp : p < fd.peerMgr.peers.length)
    (hc : (fd.peer p).iQueueControl.txState.confirmNs = seq n) (data : Bytes) :
    ((fd.onIFrameReceived p data).peer p).retries = (fd.peer p).retries := by
  have hpeer := peer_confirmFrames_self hc (mask_lt (data.getD 1 0 >>> 1)) hp
  have hp₁ : p <
      (fd.confirmFrames p ((data.getD 1 0 >>> 1) &&& seqBitsMask)).peerMgr.peers.length := by
    rwa [peers_length_confirmFrames]
  rcases onIFrameReceived_cases hp hc data with ⟨-, -, he⟩ | ⟨-, -, he⟩ | ⟨-, he⟩ <;> rw [he]
  · rw [hpeer]
  · rw [peer_putUSFrame, peer_modifyPeer_self hp₁, hpeer]
  · rw [peer_putUSFrame, peer_call, peer_modifyPeer_self hp₁, hpeer]

theorem retries_onSFrameReceived {p n : ℕ} (hp : p < fd.peerMgr.peers.length)
    (hc : (fd.peer p).iQueueControl.txState.confirmNs = seq n) (data : Bytes)
    (h : (fd.peer p).retries ≤ fd.retries) : ((fd.onSFrameReceived p data).peer p).retries ≤
      fd.retries := by
  have hpeer := peer_confirmFrames_self hc (mask_lt (data.getD 1 0 >>> 5)) hp
  have hp₁ : p <
      (fd.confirmFrames p ((data.getD 1 0 >>> 5) &&& seqBitsMask)).peerMgr.peers.length := by
    rwa [peers_length_confirmFrames]
  rcases onSFrameReceived_cases fd p data with ⟨-, he⟩ | ⟨-, he⟩ | ⟨-, -, -, he⟩ <;> rw [he]
  · have hset : (fd.confirmFrames p ((data.getD 1 0 >>> 5) &&& seqBitsMask)).retries = fd.retries :=
      congrArg Setup.retries (setup_confirmFrames ..)
    rw [peer_modifyPeer_self hp₁]
    exact hset ▸ UInt8.le_refl _
  · rw [peer_setEvents, peer_modifyPeer_self hp₁, hpeer]
    exact h
  · rw [hpeer]
    exact h

theorem retries_frame (h : WellFormed fd) {p : ℕ} {data : Bytes} (hto : fd.AddressedTo p data)
    (hvalid : p ≠ hdlcInvalidPeerIndex) (now : Instant) (hr : (fd.peer p).retries ≤ fd.retries) :
    ((fd.onFrameReceived now data).peer p).retries ≤ fd.retries := by
  have hp := AddressedTo.lt h hto hvalid
  have hp₁ : p < (fd.touch p now).peerMgr.peers.length := by rwa [peers_length_touch]
  have hua : p <
      ((fd.touch p now).putUSFrame .uFrame (uaHeader (fd.addrField p))
        []).1.peerMgr.peers.length := by
    rwa [peerMgr_putUSFrame]
  have htouch : ((fd.touch p now).peer p).retries = (fd.peer p).retries := by
    rw [peer_touch_self fd p now hp]
  obtain ⟨n, hn⟩ := exists_seq_of_lt ((wellFormed_touch h hp now).counters p hp₁).confirm
  have hreacts := onFrameReceived_reacts h hto hvalid now
  generalize fd.onFrameReceived now data = fd' at hreacts ⊢
  cases hreacts with
  | setup =>
    have hset : ((fd.touch p now).putUSFrame .uFrame (uaHeader (fd.addrField p)) []).1.retries =
        fd.retries :=
      congrArg Setup.retries ((setup_putUSFrame ..).trans (setup_touch fd p now))
    rw [← hset]
    refine retries_switchToConnected hua now ?_
    rwa [peer_putUSFrame, htouch, hset]
  | opened =>
    refine retries_switchToConnected hp₁ now ?_
    rwa [htouch]
  | disc => rwa [retries_switchToDisconnected _ hua now, peer_putUSFrame, htouch]
  | closed => rwa [retries_switchToDisconnected _ hp₁ now, htouch]
  | otherU => rwa [htouch]
  | refused => rwa [peer_putUSFrame, htouch]
  | iFrame => rwa [retries_onIFrameReceived hp₁ hn, htouch]
  | sFrame =>
    refine retries_onSFrameReceived hp₁ hn data ?_
    rwa [htouch]

theorem retries_checkTimeout {p : ℕ} (hp : p < fd.peerMgr.peers.length) (now : Instant)
    (h : (fd.peer p).retries ≤ fd.retries) :
    ((fd.checkTimeout now p).peer p).retries ≤ fd.retries := by
  have hpred : (fd.peer p).retries ≠ 0 → (fd.peer p).retries - 1 ≤ fd.retries := by
    intro hne
    have hle := UInt8.le_iff_toNat_le.mp h
    have hpred := toNat_pred hne
    exact UInt8.le_iff_toNat_le.mpr (by omega)
  rcases fd.checkTimeout_cases now p with ⟨he, -⟩ | ⟨-, -, he⟩ | ⟨-, -, ⟨-, he⟩ | ⟨hr, he⟩⟩ | ⟨-, -,
    -, -, he⟩ | ⟨hdue, he⟩ <;> rw [he]
  · exact h
  · rwa [peer_modifyPeer_self (by rwa [peerMgr_putUSFrame]), peer_putUSFrame]
  · rwa [peer_modifyPeer_self hp]
  · have hpeer := @peer_modifyPeer_self fd p hp fun q ↦ { q with retries := q.retries - 1 }
    rw [peer_modifyPeer_self (by rwa [peerMgr_putUSFrame, peers_length_modifyPeer]),
      peer_putUSFrame, hpeer]
    exact hpred hr
  · rwa [retries_switchToDisconnected fd hp now]
  · rw [peer_setEvents, peer_modifyPeer_self hp]
    exact hpred hdue.2.2.2

/-- A move leaves a peer it is not about alone, sends an I-frame of it, gives it one more
or puts it into `Disconnecting`. -/
theorem peer_move_ne (h : WellFormed fd) (hi : i < fd.peerMgr.peers.length) {m : Move}
    (hm : concerns fd m ≠ some i) : (fd.move m).peer i = fd.peer i ∨
      (∃ now, m = .generateTxFrames now ∧ HandsOver fd i ∧
        (fd.move m).peer i = PeerInfo.sent (fd.peer i) now fd.retries) ∨
      (m = .disconnect ∧ i = 0 ∧ fd.frames.sQueue.hasFreeSlots ∧
        (fd.move m).peer i = { fd.peer i with state := .disconnecting }) ∨
      ((∃ address data timeoutMs, m = .sendPacket address data timeoutMs) ∧
        (fd.move m).peer i =
          { fd.peer i with iQueueControl := (fd.peer i).iQueueControl.moveToNextNs }) := by
  cases m with
  | sendPacket address data timeoutMs =>
    rw [move]
    rcases fd.sendPacket_cases address data timeoutMs with ⟨e, he⟩ | ⟨-, -, -, q, k, events, -,
      he⟩ <;> rw [he]
    · exact .inl rfl
    change (fd.modifyPeer (fd.sendPeer address) _).peer i = _ ∨ _ ∨ _ ∨ _ ∧
      (fd.modifyPeer (fd.sendPeer address) _).peer i = _
    by_cases hp : i = fd.sendPeer address
    · subst hp
      rw [peer_modifyPeer_self hi]
      exact .inr (.inr (.inr ⟨⟨_, _, _, rfl⟩, rfl⟩))
    · rw [peer_modifyPeer_ne hp]
      exact .inl rfl
  | disconnect =>
    rw [move]
    rcases fd.disconnect_cases with ⟨-, he⟩ | ⟨q, k, ha, he, -⟩ <;> rw [he]
    · exact .inl rfl
    · by_cases hz : i = 0
      · subst hz
        rw [peer_modifyPeer_self (by rwa [peerMgr_putUSFrame]), peer_putUSFrame]
        refine .inr (.inr (.inl ⟨rfl, rfl, ?_, rfl⟩))
        rw [FrameQueue.hasFreeSlots, List.any_eq_true]
        exact ⟨none, List.mem_of_getElem? ha.free, rfl⟩
      · rw [peer_modifyPeer_ne hz, peer_putUSFrame]
        exact .inl rfl
  | onFrameReceived now data => exact .inl (peer_onFrameReceived_ne h hm)
  | checkTimeout now p =>
    refine .inl (peer_checkTimeout_ne fd ?_ now)
    rintro rfl
    exact hm rfl
  | generateTxFrames now =>
    rcases generateTxFrames_peer hi now with ⟨ho, he⟩ | ⟨-, he⟩
    · exact .inr (.inl ⟨now, rfl, ho, he⟩)
    · exact .inl he
  | framing => exact .inl rfl

theorem retries_move (h : WellFormed fd) (hi : i < fd.peerMgr.peers.length) (m : Move)
    (hr : (fd.peer i).retries ≤ fd.retries) :
    ((fd.move m).peer i).retries ≤ (fd.move m).retries := by
  have hset : (fd.move m).retries = fd.retries := congrArg Setup.retries (setup_move h m)
  rw [hset]
  by_cases hm : concerns fd m = some i
  · rcases concerns_cases hm with ⟨now, data, rfl, hto, hvalid⟩ | ⟨now, rfl⟩
    · exact retries_frame h hto hvalid now hr
    · exact retries_checkTimeout hi now hr
  · rcases peer_move_ne h hi hm with he | ⟨now, -, -, he⟩ | ⟨-, -, -, he⟩ | ⟨-, he⟩ <;> rw [he]
    · exact hr
    · exact UInt8.le_refl _
    · exact hr
    · exact hr

theorem Reachable.retries_le {config : TinyFdConfig} (h : Reachable config fd)
    (hi : i < fd.peerMgr.peers.length) : (fd.peer i).retries ≤ fd.retries := by
  induction h with
  | new hnew =>
    obtain ⟨addr, hpeer⟩ := (initial_new hnew).peer hi
    rw [hpeer]
    exact UInt8.zero_le
  | @step fd fd' op hr hs ih =>
    have hwf := hr.wellFormed
    rw [peers_length_congr (setup_step hwf hs)] at hi
    have hrun := run_stepMove fd (fd.moves op)
    rw [step_moves hwf hs] at hrun
    have hend :=
      run_invariant (P := fun fd ↦ WellFormed fd ∧ i < fd.peerMgr.peers.length ∧
        (fd.peer i).retries ≤ fd.retries) ?_ ⟨hwf, hi, ih hi⟩ (legal_moves hwf op) hrun
    · exact hend.2.2
    · rintro fd₁ m fd₂ ⟨h₁, hi₁, hr₁⟩ hm hs₁
      obtain rfl := Option.some.inj hs₁
      refine ⟨wellFormed_move h₁ hm, ?_, retries_move h₁ hi₁ m hr₁⟩
      rwa [peers_length_congr (setup_move h₁ m)]

/-- `check_timeouts` comes to the peer with its retry timer elapsed. -/
def Expires (i : ℕ) (fd : TinyFd) : Move → Prop
  | .checkTimeout now p => p = i ∧ elapsed now (fd.peer i).lastSentITs ≥ fd.retryDur
  | _ => False

/-- The peer becomes `Disconnected`, its I-frames are freed and the user is told. -/
def GivesUp (i : ℕ) (fd : TinyFd) (m : Move) : Prop :=
  ((fd.move m).peer i).state = .disconnected ∧
    (∀ frame ∈ (fd.move m).frames.iQueue.held, frame.header.address ≠ fd.addrField i) ∧
    .connect (fd.userAddress i) false ∈ fd.callsFor i m

/-- No frame arrives from the peer, and nothing is sent. -/
def LeftAlone (i : ℕ) (fd : TinyFd) : Move → Prop
  | .sendPacket .. => False
  | .onFrameReceived _ data => ¬ fd.AddressedTo i data
  | _ => True

instance (i : ℕ) (fd : TinyFd) (m : Move) : Decidable (Expires i fd m) :=
  match m with
  | .checkTimeout .. => by
    unfold Expires
    infer_instance
  | .sendPacket .. | .disconnect | .onFrameReceived .. | .generateTxFrames .. | .framing .. =>
      .isFalse not_false

instance (i : ℕ) (fd : TinyFd) (m : Move) : Decidable (GivesUp i fd m) := by
  unfold GivesUp; infer_instance

instance (i : ℕ) (fd : TinyFd) (m : Move) : Decidable (LeftAlone i fd m) :=
  match m with
  | .sendPacket .. => .isFalse not_false
  | .onFrameReceived .. => by
    unfold LeftAlone
    infer_instance
  | .disconnect | .checkTimeout .. | .generateTxFrames .. | .framing .. => .isTrue trivial

section Alone

variable {m : Move}

theorem LeftAlone.timer (hm : LeftAlone i fd m) (hc : concerns fd m = some i) :
    ∃ now, m = .checkTimeout now i := by
  rcases concerns_cases hc with ⟨now, data, rfl, hto, -⟩ | ht
  · exact absurd hto hm
  · exact ht

theorem not_expires_of_ne (hc : concerns fd m ≠ some i) : ¬ Expires i fd m := by
  cases m with
  | checkTimeout now p =>
    rintro ⟨rfl, -⟩
    exact hc rfl
  | sendPacket | disconnect | onFrameReceived | generateTxFrames | framing => exact not_false

theorem checkTimeout_last {now : Instant} (hs : (fd.peer i).state = .connected)
    (hun : (fd.peer i).iQueueControl.hasUnconfirmedFrames = true)
    (hel : elapsed now (fd.peer i).lastSentITs ≥ fd.retryDur) (hr : (fd.peer i).retries = 0) :
    fd.checkTimeout now i = fd.switchToDisconnected i now := by
  rw [checkTimeout]
  dsimp only
  rw [hs]
  exact (if_pos ⟨hun, hel⟩).trans (if_pos hr)

theorem checkTimeout_due {now : Instant} (hdue : fd.retryDue i now) :
    fd.checkTimeout now i =
      (fd.modifyPeer i fun q ↦
        { q with
          retries := q.retries - 1
          iQueueControl := { q.iQueueControl with
            txState :=
              { q.iQueueControl.txState with nextNs := q.iQueueControl.txState.confirmNs } }
          lastSentITs := now }).setEvents fdEventTxDataAvailable := by
  obtain ⟨hs, -, -, hr⟩ := id hdue
  rcases fd.checkTimeout_cases now i with ⟨-, hno⟩ | ⟨hs', -⟩ | ⟨hs', -⟩ | ⟨-, -, -,
    hr', -⟩ | ⟨-, he⟩
  · exact absurd hdue hno
  · rw [hs] at hs'
    exact absurd hs' (by decide)
  · rw [hs] at hs'
    cases hs'
  · exact absurd hr' hr
  · exact he

theorem givesUp_timer {now : Instant} (hi : i < fd.peerMgr.peers.length)
    (hs : (fd.peer i).state = .connected)
    (he : fd.checkTimeout now i = fd.switchToDisconnected i now) :
    GivesUp i fd (.checkTimeout now i) := by
  have hne : (fd.peer i).state ≠ .disconnected := by
    rw [hs]
    decide
  have hr : Reports i false fd (fd.move (.checkTimeout now i)) := by
    rw [move, he]
    exact reports_down hi hne now
  refine ⟨hr.state, ?_, ?_⟩
  · intro frame hmem
    rw [move, he, iQueue_switchToDisconnected fd i now hne, FrameQueue.held_resetFor] at hmem
    simpa using List.of_mem_filter hmem
  · rw [callsFor_self rfl, calls_eq hr.callbacks]
    exact List.mem_singleton.mpr rfl

theorem connected_move (h : WellFormed fd) (hi : i < fd.peerMgr.peers.length)
    (hm : LeftAlone i fd m) (hs : (fd.peer i).state = .connected)
    (hun : (fd.peer i).iQueueControl.hasUnconfirmedFrames = true) :
    (¬ Expires i fd m ∧ (fd.move m).peer i = fd.peer i) ∨
    (¬ Expires i fd m ∧ ∃ now, m = .generateTxFrames now ∧ HandsOver fd i ∧
      (fd.move m).peer i = PeerInfo.sent (fd.peer i) now fd.retries) ∨
    (¬ Expires i fd m ∧ m = .disconnect ∧ i = 0 ∧ fd.frames.sQueue.hasFreeSlots ∧
      ((fd.move m).peer i).state = .disconnecting) ∨
    (Expires i fd m ∧ (fd.peer i).retries = 0 ∧ GivesUp i fd m) ∨
    (Expires i fd m ∧ (fd.peer i).retries ≠ 0 ∧ ((fd.move m).peer i).state = .connected ∧
      ((fd.move m).peer i).iQueueControl.hasUnconfirmedFrames = true ∧
      ((fd.move m).peer i).retries = (fd.peer i).retries - 1) := by
  by_cases hc : concerns fd m = some i
  · obtain ⟨now, rfl⟩ := hm.timer hc
    by_cases hel : elapsed now (fd.peer i).lastSentITs ≥ fd.retryDur
    · have hexp : Expires i fd (.checkTimeout now i) := ⟨rfl, hel⟩
      by_cases hr : (fd.peer i).retries = 0
      · exact .inr
          (.inr (.inr (.inl ⟨hexp, hr, givesUp_timer hi hs (checkTimeout_last hs hun hel hr)⟩)))
      · refine .inr (.inr (.inr (.inr ⟨hexp, hr, ?_, ?_, ?_⟩))) <;>
          rw [move, checkTimeout_due ⟨hs, hun, hel, hr⟩, peer_setEvents, peer_modifyPeer_self hi]
        · exact hs
        · exact hun
    · refine .inl ⟨fun hexp ↦ hel hexp.2, ?_⟩
      rw [move, checkTimeout_quiet]
      rw [TimerDue, hs]
      exact fun hdue ↦ hel hdue.2
  · have hno := not_expires_of_ne hc
    rcases peer_move_ne h hi hc with he | ⟨now, rfl, ho, he⟩ | ⟨rfl, hz, hfree,
      he⟩ | ⟨⟨_, _, _, rfl⟩, -⟩
    · exact .inl ⟨hno, he⟩
    · exact .inr (.inl ⟨hno, now, rfl, ho, he⟩)
    · refine .inr (.inr (.inl ⟨hno, rfl, hz, hfree, ?_⟩))
      rw [he]
    · exact absurd hm not_false

theorem disconnecting_move (h : WellFormed fd) (hi : i < fd.peerMgr.peers.length)
    (hm : LeftAlone i fd m) (hs : (fd.peer i).state = .disconnecting) :
    ((fd.move m).peer i).state = .disconnecting := by
  by_cases hc : concerns fd m = some i
  · obtain ⟨now, rfl⟩ := hm.timer hc
    rwa [move, checkTimeout_quiet]
    rw [TimerDue, hs]
    exact not_false
  · rcases peer_move_ne h hi hc with he | ⟨now, -, ho, -⟩ | ⟨-, -, -, he⟩ | ⟨⟨_, _, _, rfl⟩, -⟩
    · rwa [he]
    · have hconn := ho.2.2.2.1
      rw [hs] at hconn
      cases hconn
    · rw [he]
    · exact absurd hm not_false

end Alone

/-- A station with the expiries of the retry timer of peer `i` so far, and how many it
took until the peer was given up. -/
structure Watch where
  fd : TinyFd
  expiries : ℕ
  ended : Option ℕ

namespace Watch

def next (i : ℕ) (w : Watch) (m : Move) : Watch :=
  let expiries := w.expiries + if Expires i w.fd m then 1 else 0
  { fd := w.fd.move m
    expiries := expiries
    ended := w.ended.or (if GivesUp i w.fd m then some expiries else none) }

def step (i : ℕ) (w : Watch) (m : Move) : Option Watch := some (w.next i m)

/-- Until the peer is given up, no I-frame of it is handed over after the first expiry
where that gives it back retries, and `disconnect` is not called for it. -/
def Unrefilled (i : ℕ) (w : Watch) : Move → Prop
  | .generateTxFrames _ => w.ended = none → 0 < w.expiries → w.fd.retries ≠ 0 → ¬ HandsOver w.fd i
  | .disconnect => w.ended = none → i = 0 → ¬ w.fd.frames.sQueue.hasFreeSlots
  | _ => True

instance (i : ℕ) (w : Watch) (m : Move) : Decidable (Unrefilled i w m) :=
  match m with
  | .generateTxFrames _ | .disconnect => by
    unfold Unrefilled
    infer_instance
  | .sendPacket .. | .onFrameReceived .. | .checkTimeout .. | .framing .. => .isTrue trivial

variable {w w' : Watch} {m : Move} {limit : ℕ}

structure Watched (i limit : ℕ) (w : Watch) : Prop where
  wf : WellFormed w.fd
  peer : i < w.fd.peerMgr.peers.length
  retries : w.fd.retries.toNat = limit

/-- Expiries and retries left make up at most the configured number. -/
structure Counting (i limit : ℕ) (w : Watch) : Prop extends Watched i limit w where
  live : w.ended = none → (w.fd.peer i).state = .connected ∧
    (w.fd.peer i).iQueueControl.hasUnconfirmedFrames = true ∧
    (w.fd.peer i).retries.toNat + w.expiries ≤ limit
  ended : ∀ n, w.ended = some n → n ≤ limit + 1

/-- The peer has more retries left than the bound allows, or will never be given up. -/
structure Overrun (i limit : ℕ) (w : Watch) : Prop extends Watched i limit w where
  live : w.ended = none → (w.fd.peer i).state = .disconnecting ∨ (w.fd.peer i).state = .connected ∧
    (w.fd.peer i).iQueueControl.hasUnconfirmedFrames = true ∧ 0 < w.expiries ∧
      limit < (w.fd.peer i).retries.toNat + w.expiries
  ended : ∀ n, w.ended = some n → limit + 1 < n

theorem Watched.next (h : Watched i limit w) (hm : Legal w.fd m) :
    Watched i limit (w.next i m) := by
  have hset := setup_move h.wf m
  refine ⟨wellFormed_move h.wf hm, ?_, ?_⟩
  · rw [Watch.next, peers_length_congr hset]
    exact h.peer
  · rw [← h.retries]
    exact congrArg (UInt8.toNat ∘ Setup.retries) hset

theorem ended_some {n : ℕ} (h : w.ended = some n) : (w.next i m).ended = some n := by
  rw [Watch.next, h]
  rfl

theorem ended_none (h : w.ended = none) (hne : ((w.fd.move m).peer i).state ≠ .disconnected) :
    (w.next i m).ended = none := by
  have hg : ¬ GivesUp i w.fd m := fun hg ↦ hne hg.1
  rw [Watch.next, h, Option.none_or]
  exact if_neg hg

theorem ended_now (h : w.ended = none) (he : Expires i w.fd m) (hg : GivesUp i w.fd m) :
    (w.next i m).ended = some (w.expiries + 1) := by
  rw [Watch.next, h, Option.none_or, if_pos he]
  exact if_pos hg

theorem expiries_self (h : ¬ Expires i w.fd m) : (w.next i m).expiries = w.expiries := by
  rw [Watch.next, if_neg h, Nat.add_zero]

theorem expiries_succ (h : Expires i w.fd m) : (w.next i m).expiries = w.expiries + 1 := by
  rw [Watch.next, if_pos h]

theorem Counting.of_some (hw : Watched i limit w) {n : ℕ} (hn : w.ended = some n)
    (hle : n ≤ limit + 1) :
    Counting i limit w := by
  refine ⟨hw, ?_, ?_⟩ <;> rw [hn]
  · exact fun h ↦ nomatch h
  · rintro _ ⟨⟩
    exact hle

theorem Counting.of_none (hw : Watched i limit w) (hn : w.ended = none)
    (hs : (w.fd.peer i).state = .connected)
    (hun : (w.fd.peer i).iQueueControl.hasUnconfirmedFrames = true)
    (hle : (w.fd.peer i).retries.toNat + w.expiries ≤ limit) : Counting i limit w := by
  refine ⟨hw, fun _ ↦ ⟨hs, hun, hle⟩, ?_⟩
  rw [hn]
  exact fun _ h ↦ nomatch h

theorem Overrun.of_some (hw : Watched i limit w) {n : ℕ} (hn : w.ended = some n)
    (hlt : limit + 1 < n) :
    Overrun i limit w := by
  refine ⟨hw, ?_, ?_⟩ <;> rw [hn]
  · exact fun h ↦ nomatch h
  · rintro _ ⟨⟩
    exact hlt

theorem Overrun.of_none (hw : Watched i limit w) (hn : w.ended = none)
    (hlive : (w.fd.peer i).state = .disconnecting ∨ (w.fd.peer i).state = .connected ∧
      (w.fd.peer i).iQueueControl.hasUnconfirmedFrames = true ∧ 0 < w.expiries ∧
        limit < (w.fd.peer i).retries.toNat + w.expiries) : Overrun i limit w := by
  refine ⟨hw, fun _ ↦ hlive, ?_⟩
  rw [hn]
  exact fun _ h ↦ nomatch h

theorem counting_next (h : Counting i limit w) (hm : Legal w.fd m) (hleft : LeftAlone i w.fd m)
    (hc : Unrefilled i w m) : Counting i limit (w.next i m) := by
  have hw := h.toWatched.next hm
  cases hend : w.ended with
  | some n => exact .of_some hw (ended_some hend) (h.ended n hend)
  | none =>
    obtain ⟨hs, hun, hle⟩ := h.live hend
    rcases connected_move h.wf h.peer hleft hs hun with ⟨hno, he⟩ | ⟨hno, now, rfl, ho, he⟩ | ⟨hno,
      rfl, hz, hfree, -⟩ | ⟨hexp, hr, hg⟩ | ⟨hexp, hr, hs', hun', hr'⟩
    · have hpeer : (w.next i m).fd.peer i = w.fd.peer i := he
      refine .of_none hw (ended_none hend (by rw [he, hs]; decide)) ?_ ?_ ?_ <;> rw [hpeer]
      · exact hs
      · exact hun
      · rwa [expiries_self hno]
    · have hpeer : (w.next i (.generateTxFrames now)).fd.peer i =
          PeerInfo.sent (w.fd.peer i) now w.fd.retries := he
      have hzero : w.expiries = 0 := by
        by_contra hpos
        have hretries : w.fd.retries = 0 := by
          by_contra hne
          exact hc hend (Nat.pos_of_ne_zero hpos) hne ho
        have hlimit : 0 = limit := by rw [← h.retries, hretries]; rfl
        omega
      refine .of_none hw (ended_none hend (by rw [he, PeerInfo.sent, hs]; decide)) ?_ ?_ ?_ <;>
        rw [hpeer, PeerInfo.sent]
      · exact hs
      · exact hun
      · rw [expiries_self hno, hzero, Nat.add_zero, h.retries]
    · exact absurd hfree (hc hend hz)
    · refine .of_some hw (ended_now hend hexp hg) ?_
      rw [hr] at hle
      exact Nat.succ_le_succ (by omega)
    · refine .of_none hw (ended_none hend (by rw [hs']; decide)) hs' hun' ?_
      have hpred := toNat_pred hr
      rw [expiries_succ hexp]
      change ((w.fd.move m).peer i).retries.toNat + _ ≤ _
      rw [hr']
      omega

theorem overrun_of_counting (h : Counting i limit w) (hm : Legal w.fd m)
    (hleft : LeftAlone i w.fd m) (hc : ¬ Unrefilled i w m) : Overrun i limit (w.next i m) := by
  have hw := h.toWatched.next hm
  cases m with
  | generateTxFrames now =>
    simp only [Unrefilled, Classical.not_imp, not_not] at hc
    obtain ⟨hend, hpos, -, ho⟩ := hc
    obtain ⟨hs, hun, -⟩ := h.live hend
    have hno : ¬ Expires i w.fd (.generateTxFrames now) := not_false
    have he := ((generateTxFrames_peer h.peer now).resolve_right fun hnot ↦ hnot.1 ho).2
    have hpeer : (w.next i (.generateTxFrames now)).fd.peer i =
        PeerInfo.sent (w.fd.peer i) now w.fd.retries := he
    refine .of_none hw (ended_none hend ?_) (.inr ?_)
    · rw [move, he, PeerInfo.sent, hs]
      decide
    · rw [hpeer, PeerInfo.sent, expiries_self hno, h.retries]
      exact ⟨hs, hun, hpos, Nat.lt_add_of_pos_right hpos⟩
  | disconnect =>
    simp only [Unrefilled, Classical.not_imp, not_not] at hc
    obtain ⟨hend, rfl, hfree⟩ := hc
    have hs : ((w.fd.move .disconnect).peer 0).state = .disconnecting := by
      rcases w.fd.disconnect_cases with ⟨hfull, -⟩ | ⟨q, k, -, he, -⟩
      · exact absurd (w.fd.frames.sQueue.hasFreeSlots_iff.mp hfree) (by omega)
      · rw [move, he, peer_modifyPeer_self (by rw [peerMgr_putUSFrame]; exact h.peer)]
    refine .of_none hw (ended_none hend ?_) (.inl hs)
    rw [hs]
    decide
  | sendPacket | onFrameReceived | checkTimeout | framing => exact absurd trivial hc

theorem overrun_next (h : Overrun i limit w) (hm : Legal w.fd m) (hleft : LeftAlone i w.fd m) :
    Overrun i limit (w.next i m) := by
  have hw := h.toWatched.next hm
  cases hend : w.ended with
  | some n => exact .of_some hw (ended_some hend) (h.ended n hend)
  | none =>
    have hstop : ((w.fd.move m).peer i).state = .disconnecting → Overrun i limit (w.next i m) := by
      intro hs
      refine .of_none hw (ended_none hend ?_) (.inl hs)
      rw [hs]
      decide
    rcases h.live hend with hs | ⟨hs, hun, hpos, hlt⟩
    · exact hstop (disconnecting_move h.wf h.peer hleft hs)
    rcases connected_move h.wf h.peer hleft hs hun with ⟨hno, he⟩ | ⟨hno, now, rfl, -, he⟩ | ⟨-,
      -, -, -, hs'⟩ | ⟨hexp, hr, hg⟩ | ⟨hexp, hr, hs', hun', hr'⟩
    · have hpeer : (w.next i m).fd.peer i = w.fd.peer i := he
      refine .of_none hw (ended_none hend (by rw [he, hs]; decide)) (.inr ?_)
      rw [hpeer, expiries_self hno]
      exact ⟨hs, hun, hpos, hlt⟩
    · have hpeer : (w.next i (.generateTxFrames now)).fd.peer i =
          PeerInfo.sent (w.fd.peer i) now w.fd.retries := he
      refine .of_none hw (ended_none hend (by rw [he, PeerInfo.sent, hs]; decide)) (.inr ?_)
      rw [hpeer, PeerInfo.sent, expiries_self hno, h.retries]
      exact ⟨hs, hun, hpos, Nat.lt_add_of_pos_right hpos⟩
    · exact hstop hs'
    · refine .of_some hw (ended_now hend hexp hg) ?_
      rw [hr] at hlt
      exact Nat.succ_lt_succ (by simpa using hlt)
    · refine .of_none hw (ended_none hend (by rw [hs']; decide)) (.inr ⟨hs', hun', ?_, ?_⟩)
      · rw [expiries_succ hexp]
        exact Nat.succ_pos _
      · have hpred := toNat_pred hr
        rw [expiries_succ hexp]
        change _ < ((w.fd.move m).peer i).retries.toNat + _
        rw [hr']
        omega

def start (fd : TinyFd) : Watch := ⟨fd, 0, none⟩

theorem fd_step (i : ℕ) (w : Watch) (m : Move) (w' : Watch) (h : step i w m = some w') :
    w'.fd = w.fd.move m := by
  obtain rfl := Option.some.inj h
  rfl

/-- In a run with more expiries than retries, the peer is given up in time exactly if
nothing gives it back its retries on the way. -/
theorem given_up_iff {config : TinyFdConfig} (hr : Reachable config fd)
    (hi : i < fd.peerMgr.peers.length) (hs : (fd.peer i).state = .connected)
    (hun : (fd.peer i).iQueueControl.hasUnconfirmedFrames = true) (ops : List Op)
    (hleft : EachStep (step i) (fun w m ↦ LeftAlone i w.fd m) (start fd) (fd.runMoves ops))
    (w : Watch) (hrun : run (step i) (start fd) (fd.runMoves ops) = some w)
    (hexp : config.retries.toNat < w.expiries) : run TinyFd.step fd ops = some w.fd ∧
      ((∃ n ≤ config.retries.toNat + 1, w.ended = some n) ↔
        EachStep (step i) (Unrefilled i) (start fd) (fd.runMoves ops)) := by
  have hwf := hr.wellFormed
  have hretries : fd.retries = config.retries := by
    obtain ⟨now, fd₀, hnew, hset, -⟩ := hr.origin
    exact (congrArg Setup.retries hset).trans (initial_new hnew).retries
  have hbound := UInt8.le_iff_toNat_le.mp (hr.retries_le hi)
  rw [hretries] at hbound
  have hstart : Counting i config.retries.toNat (start fd) :=
    .of_none ⟨hwf, hi, congrArg UInt8.toNat hretries⟩ rfl hs hun hbound
  have hlegal := legal_watched (fd_step i) (start fd) hwf ops
  constructor
  · rw [run_runMoves hwf ops, ← run_stepMove]
    refine run_comap (f := Watch.fd) ?_ hrun
    intro w m w' hs
    rw [stepMove, fd_step i w m w' hs]
  · have hends := @end_of_eachStep _ _ (step i) (Counting i config.retries.toNat)
      (Overrun i config.retries.toNat) (fun w m ↦ Legal w.fd m ∧ LeftAlone i w.fd m)
        (Unrefilled i) ?_ ?_ ?_ _ _ _ hstart (hlegal.and hleft) hrun
    · rcases hends with ⟨hall, hc⟩ | ⟨hnot, ho⟩
      · refine iff_of_true ?_ hall
        cases hend : w.ended with
        | some n => exact ⟨n, hc.ended n hend, rfl⟩
        | none =>
          obtain ⟨-, -, hle⟩ := hc.live hend
          omega
      · refine iff_of_false ?_ hnot
        rintro ⟨n, hle, hn⟩
        exact absurd (ho.ended n hn) (Nat.not_lt.mpr hle)
    · rintro w m w' h ⟨hm, hleft⟩ hc hs
      obtain rfl := Option.some.inj hs
      exact counting_next h hm hleft hc
    · rintro w m w' h ⟨hm, hleft⟩ hc hs
      obtain rfl := Option.some.inj hs
      exact overrun_of_counting h hm hleft hc
    · rintro w m w' h ⟨hm, hleft⟩ hs
      obtain rfl := Option.some.inj hs
      exact overrun_next h hm hleft

def sendingOps (room : ℕ) : List Op :=
  [.onRxData 1 [0x7E, 0x05, 0x3F, 0x7E], .getTxData 2 9 0, .sendPacket 0 [7] 0, .getTxData 3 room 0]

def busyStation : TinyFd :=
  (replay { crcType := .hdlcCrcOff } 0 (sendingOps 0)).get (by decide +kernel)

def idleOps : List Op :=
  [.getTxData 1000000000 0 0, .getTxData 2000000000 0 0, .getTxData 3000000000 0 0]

theorem given_up_busy :
    ∃ w, run (step 0) (start busyStation) (busyStation.runMoves idleOps) = some w ∧ w.expiries = 3 ∧
      ∃ n ≤ 3, w.ended = some n := by
  have hrun : run (step 0) (start busyStation) (busyStation.runMoves idleOps) =
      some ((run (step 0) (start busyStation) (busyStation.runMoves idleOps)).get
        (by decide +kernel)) :=
    (Option.some_get _).symm
  refine ⟨_, hrun, by decide +kernel, ?_⟩
  exact (given_up_iff (reachable_replay _)
    (by decide +kernel : 0 < busyStation.peerMgr.peers.length) (by decide +kernel)
      (by decide +kernel) idleOps (by decide +kernel) _ hrun (by decide +kernel)).2.mpr
        (by decide +kernel)

def waitingStation : TinyFd :=
  (replay { crcType := .hdlcCrcOff } 0 (sendingOps 9)).get (by decide +kernel)

def resendingOps : List Op :=
  [.getTxData 1000000000 9 0, .getTxData 2000000000 9 0, .getTxData 3000000000 9 0,
    .getTxData 4000000000 9 0, .getTxData 5000000000 9 0]

/-- Five expiries with two retries, and the peer is connected as before. -/
theorem not_given_up :
    ∃ config fd ops w, Reachable config fd ∧ 0 < fd.peerMgr.peers.length ∧
    (fd.peer 0).state = .connected ∧
      (fd.peer 0).iQueueControl.hasUnconfirmedFrames = true ∧
      EachStep (step 0) (fun w m ↦ LeftAlone 0 w.fd m) (start fd) (fd.runMoves ops) ∧
      run (step 0) (start fd) (fd.runMoves ops) = some w ∧ config.retries.toNat < w.expiries ∧
      w.expiries = 5 ∧ (w.fd.peer 0).state = .connected ∧ w.ended = none ∧
      ¬ ∃ n ≤ config.retries.toNat + 1, w.ended = some n := by
  have hrun : run (step 0) (start waitingStation) (waitingStation.runMoves resendingOps) =
      some ((run (step 0) (start waitingStation) (waitingStation.runMoves resendingOps)).get
        (by decide +kernel)) :=
    (Option.some_get _).symm
  have hnone :
      ((run (step 0) (start waitingStation) (waitingStation.runMoves resendingOps)).get
        (by decide +kernel)).ended = none := by
    decide +kernel
  refine ⟨_, waitingStation, resendingOps, _,
    reachable_replay _, by decide +kernel, by decide +kernel, by decide +kernel, by decide +kernel,
    hrun, by decide +kernel, by decide +kernel, by decide +kernel, hnone, ?_⟩
  rintro ⟨n, -, hn⟩
  rw [hnone] at hn
  cases hn

end Watch

end TinyProto.TinyFd
