import TinyProto.Fd.Emission

namespace TinyProto.TinyFd

open Lib

variable {fd fd' : TinyFd}

inductive Move
  | sendPacket (address : UInt8) (data : Bytes) (timeoutMs : ℕ)
  | disconnect
  | onFrameReceived (now : Instant) (data : Bytes)
  | checkTimeout (now : Instant) (p : ℕ)
  | generateTxFrames (now : Instant)
  | framing (ll : HdlcLl)

def move (fd : TinyFd) : Move → TinyFd
  | .sendPacket address data timeoutMs => (fd.sendPacket address data timeoutMs).1
  | .disconnect => fd.disconnect.1
  | .onFrameReceived now data => fd.onFrameReceived now data
  | .checkTimeout now p => fd.checkTimeout now p
  | .generateTxFrames now => fd.generateTxFrames now
  | .framing ll => fd.withHdlc ll

def stepMove (fd : TinyFd) (m : Move) : Option TinyFd := some (fd.move m)

/-- The moves of a call: the frames it handles, or the timers and the frame it sends,
and last what becomes of the framing layer. -/
def moves (fd : TinyFd) : Op → List Move
  | .sendPacket address data timeoutMs => [.sendPacket address data timeoutMs]
  | .disconnect => [.disconnect]
  | .onRxData now data =>
    (fd.onRxDataLog now data).2.1.map (.onFrameReceived now) ++
      [.framing (fd.onRxData now data).hdlc]
  | .getTxData now room timeoutMs =>
    (List.range fd.peerMgr.peers.length).map (.checkTimeout now) ++ [.generateTxFrames now] ++
      ((fd.getTxData now room timeoutMs).map fun r ↦ .framing r.1.hdlc).toList

def runMoves : TinyFd → List Op → List Move
  | _, [] => []
  | fd, op :: ops => fd.moves op ++ runMoves ((fd.moves op).foldl move fd) ops

/-- A timer is that of a peer, and the framing layer keeps to what the station needs of it. -/
def Legal (fd : TinyFd) : Move → Prop
  | .checkTimeout _ p => p < fd.peerMgr.peers.length
  | .framing ll => WellFormed (fd.withHdlc ll)
  | _ => True

def concerns (fd : TinyFd) : Move → Option ℕ
  | .onFrameReceived _ data =>
    if 2 ≤ data.length ∧ fd.peerMgr.addressFieldToPeer (data.getD 0 0) ≠ hdlcInvalidPeerIndex then
      some (fd.peerMgr.addressFieldToPeer (data.getD 0 0))
    else none
  | .checkTimeout _ p => some p
  | _ => none

theorem wellFormed_move (h : WellFormed fd) {m : Move} (hm : Legal fd m) :
    WellFormed (fd.move m) := by
  cases m with
  | sendPacket address data timeoutMs => exact wellFormed_sendPacket h address data timeoutMs
  | disconnect => exact wellFormed_disconnect h
  | onFrameReceived now data => exact wellFormed_onFrameReceived h now data
  | checkTimeout now p => exact wellFormed_checkTimeout h hm now
  | generateTxFrames now => exact wellFormed_generateTxFrames h now
  | framing ll => exact hm

theorem setup_move (h : WellFormed fd) (m : Move) : (fd.move m).setup = fd.setup := by
  cases m with
  | sendPacket address data timeoutMs => exact setup_sendPacket ..
  | disconnect => exact setup_disconnect fd
  | onFrameReceived now data => exact setup_onFrameReceived h now data
  | checkTimeout now p => exact setup_checkTimeout ..
  | generateTxFrames now => exact setup_generateTxFrames ..
  | framing ll => rfl

theorem legal_congr {m : Move} (hs : fd'.setup = fd.setup) (hm : ∀ ll, m ≠ .framing ll)
    (h : Legal fd m) :
    Legal fd' m := by
  cases m with
  | checkTimeout now p =>
    change p < fd'.peerMgr.peers.length
    rwa [peers_length_congr hs]
  | framing ll => exact absurd rfl (hm ll)
  | sendPacket | disconnect | onFrameReceived | generateTxFrames => trivial

theorem run_stepMove (fd : TinyFd) (ms : List Move) :
    run stepMove fd ms = some (ms.foldl move fd) := by
  induction ms generalizing fd with
  | nil => rfl
  | cons m ms ih => exact ih (fd.move m)

theorem deliver_moves (now : Instant) (fd : TinyFd) (frames : List Bytes) :
    (frames.map (Move.onFrameReceived now)).foldl move fd = deliver now fd frames := List.foldl_map

theorem checkTimeouts_moves (fd : TinyFd) (now : Instant) :
    ((List.range fd.peerMgr.peers.length).map (Move.checkTimeout now)).foldl move fd =
      fd.checkTimeouts now :=
  List.foldl_map

theorem step_moves (h : WellFormed fd) {op : Op} (hs : fd.step op = some fd') :
    (fd.moves op).foldl move fd = fd' := by
  cases op with
  | sendPacket address data timeoutMs => exact Option.some.inj hs
  | disconnect => exact Option.some.inj hs
  | onRxData now data =>
    rw [← Option.some.inj hs, moves, List.foldl_append, deliver_moves,
      onRxDataLog_eq h.rx h.rxFrames,
      onRxData_eq h.rx h.rxFrames]
    rfl
  | getTxData now room timeoutMs =>
    obtain ⟨⟨fd₁, out⟩, hget, rfl⟩ := Option.map_eq_some_iff.mp hs
    obtain ⟨ll, heq, -⟩ := getTxData_eq h.tx now room timeoutMs
    have hfd₁ := heq
    rw [hget, Option.some.injEq, Prod.mk.injEq] at hfd₁
    rw [moves, List.foldl_append, List.foldl_append, checkTimeouts_moves, heq, hfd₁.1]
    rfl

theorem step_isSome (h : WellFormed fd) (op : Op) : (fd.step op).isSome := by
  cases op with
  | getTxData now room timeoutMs =>
    obtain ⟨ll, heq, -⟩ := getTxData_eq h.tx now room timeoutMs
    rw [step, heq]
    rfl
  | sendPacket | disconnect | onRxData => rfl

theorem legal_map {α : Type} (h : WellFormed fd) {f : α → Move}
    (hf : ∀ x ll, f x ≠ .framing ll) {xs : List α} (hxs : ∀ x ∈ xs, Legal fd (f x)) :
    EachStep stepMove Legal fd (xs.map f) := by
  induction xs generalizing fd with
  | nil => trivial
  | cons x xs ih =>
    have hx := hxs x (List.mem_cons_self ..)
    refine ⟨hx, ?_⟩
    intro fd₁ h₁
    obtain rfl := Option.some.inj h₁
    refine ih (wellFormed_move h hx) ?_
    intro y hy
    exact legal_congr (setup_move h _) (hf y) (hxs y (List.mem_cons_of_mem x hy))

theorem legal_moves (h : WellFormed fd) (op : Op) : EachStep stepMove Legal fd (fd.moves op) := by
  obtain ⟨fd₁, hs⟩ := Option.isSome_iff_exists.mp (step_isSome h op)
  have hwf := wellFormed_step h hs
  have hend := step_moves h hs
  cases op with
  | sendPacket | disconnect => exact ⟨trivial, fun _ _ ↦ trivial⟩
  | onRxData now data =>
    rw [moves, List.foldl_append] at hend
    rw [moves, eachStep_append]
    refine ⟨legal_map h (by intro _ _ h; cases h) fun _ _ ↦ trivial, ?_⟩
    intro fd₂ hrun
    obtain rfl := Option.some.inj ((run_stepMove ..).symm.trans hrun)
    refine ⟨?_, fun _ _ ↦ trivial⟩
    rw [← hend] at hwf
    exact hwf
  | getTxData now room timeoutMs =>
    obtain ⟨ll, heq, -⟩ := getTxData_eq h.tx now room timeoutMs
    rw [moves, heq, List.foldl_append] at hend
    rw [moves, heq, eachStep_append, eachStep_append]
    refine ⟨⟨legal_map h (by intro _ _ h; cases h) ?_, ?_⟩, ?_⟩
    · intro p hp
      exact List.mem_range.mp hp
    · exact fun _ _ ↦ ⟨trivial, fun _ _ ↦ trivial⟩
    · intro fd₂ hrun
      obtain rfl := Option.some.inj ((run_stepMove ..).symm.trans hrun)
      refine ⟨?_, fun _ _ ↦ trivial⟩
      rw [← hend] at hwf
      exact hwf

theorem moves_end (h : WellFormed fd) (op : Op) :
    fd.step op = some ((fd.moves op).foldl move fd) ∧ WellFormed ((fd.moves op).foldl move fd) := by
  obtain ⟨fd₁, hs⟩ := Option.isSome_iff_exists.mp (step_isSome h op)
  rw [step_moves h hs]
  exact ⟨hs, wellFormed_step h hs⟩

/-- A run of calls is the run of their moves. -/
theorem run_runMoves (h : WellFormed fd) (ops : List Op) :
    run step fd ops = some ((fd.runMoves ops).foldl move fd) := by
  induction ops generalizing fd with
  | nil => rfl
  | cons op ops ih =>
    obtain ⟨hs, hwf⟩ := moves_end h op
    rw [runMoves, List.foldl_append, run_cons]
    exact ⟨_, hs, ih hwf⟩

theorem legal_runMoves (h : WellFormed fd) (ops : List Op) :
    EachStep stepMove Legal fd (fd.runMoves ops) := by
  induction ops generalizing fd with
  | nil => trivial
  | cons op ops ih =>
    rw [runMoves, eachStep_append]
    refine ⟨legal_moves h op, ?_⟩
    intro fd₁ hrun
    obtain rfl := Option.some.inj ((run_stepMove ..).symm.trans hrun)
    exact ih (moves_end h op).2

/-- The moves of calls are legal however the run is watched. -/
theorem legal_watched {τ : Type} {step : τ → Move → Option τ} {f : τ → TinyFd}
    (hf : ∀ t m t', step t m = some t' → f t' = (f t).move m) (t : τ) (h : WellFormed (f t))
    (ops : List Op) : EachStep step (fun t m ↦ Legal (f t) m) t ((f t).runMoves ops) := by
  refine @EachStep.comap _ _ stepMove _ step f ?_ _ t _ (legal_runMoves h ops)
  intro t m t' hs
  rw [stepMove, hf t m t' hs]

def freshStation : TinyFd := (replay { crcType := .hdlcCrcOff } 0 []).get (by decide +kernel)

theorem new_freshStation : TinyFd.new { crcType := .hdlcCrcOff } 0 = .ok freshStation := rfl

section Concerns

variable {i : ℕ} {now : Instant} {data : Bytes} {m : Move}

theorem concerns_frame : concerns fd (.onFrameReceived now data) = some i ↔
    fd.AddressedTo i data ∧ i ≠ hdlcInvalidPeerIndex := by
  rw [concerns, AddressedTo]
  split
  · rename_i h
    rw [Option.some.injEq]
    constructor
    · rintro rfl
      exact ⟨⟨h.1, rfl⟩, h.2⟩
    · exact fun hto ↦ hto.1.2
  · rename_i h
    refine iff_of_false (by simp) ?_
    rintro ⟨⟨hlen, rfl⟩, hvalid⟩
    exact h ⟨hlen, hvalid⟩

theorem concerns_cases (h : concerns fd m = some i) :
    (∃ now data, m = .onFrameReceived now data ∧ fd.AddressedTo i data ∧ i ≠ hdlcInvalidPeerIndex) ∨
      ∃ now, m = .checkTimeout now i := by
  cases m with
  | onFrameReceived now data => exact .inl ⟨now, data, rfl, concerns_frame.mp h⟩
  | checkTimeout now p => exact .inr ⟨now, congrArg (Move.checkTimeout now) (Option.some.inj h)⟩
  | sendPacket | disconnect | generateTxFrames | framing => cases h

theorem peer_onFrameReceived_ne (h : WellFormed fd)
    (hm : concerns fd (.onFrameReceived now data) ≠ some i) :
    (fd.onFrameReceived now data).peer i = fd.peer i := by
  rcases fd.onFrameReceived_cases now data with ⟨-, he⟩ | ⟨p, hto, hvalid, -⟩
  · rw [he]
  have hne : i ≠ p := by
    rintro rfl
    exact hm (concerns_frame.mpr ⟨hto, hvalid⟩)
  have hp := AddressedTo.lt h hto hvalid
  have htouch := peer_touch_ne fd p now hne
  have hp₁ : p < (fd.touch p now).peerMgr.peers.length := by rwa [peers_length_touch]
  obtain ⟨n, hn⟩ := exists_seq_of_lt ((wellFormed_touch h hp now).counters p hp₁).confirm
  have hr := onFrameReceived_reacts h hto hvalid now
  generalize fd.onFrameReceived now data = fd' at hr ⊢
  cases hr with
  | setup => rw [peer_switchToConnected_ne _ p now hne, peer_putUSFrame, htouch]
  | opened => rw [peer_switchToConnected_ne _ p now hne, htouch]
  | disc => rw [peer_switchToDisconnected_ne _ p now hne, peer_putUSFrame, htouch]
  | closed => rw [peer_switchToDisconnected_ne _ p now hne, htouch]
  | otherU => exact htouch
  | refused => rw [peer_putUSFrame, htouch]
  | iFrame hI => exact ((onIFrameReceived_acked hp₁ hn data hI).others i hne).trans htouch
  | sFrame hS => exact ((onSFrameReceived_acked hp₁ hn data hS).others i hne).trans htouch

theorem field_move_ne {α : Type} (f : PeerInfo → α)
    (hf : ∀ q c t t' r, f { q with
      iQueueControl := { q.iQueueControl with txState := c }, lastSentITs := t, lastSentFrameTs :=
        t', retries := r } = f q)
    (hd : m = .disconnect → ∀ q, f { q with state := .disconnecting } = f q) (h : WellFormed fd)
    (hi : i < fd.peerMgr.peers.length) (hm : concerns fd m ≠ some i) : f ((fd.move m).peer i) =
      f (fd.peer i) := by
  cases m with
  | sendPacket address data timeoutMs =>
    rw [move]
    rcases fd.sendPacket_cases address data timeoutMs with ⟨e, he⟩ | ⟨-, -, -, q, k, events, -,
      he⟩ <;> rw [he]
    change f ((fd.modifyPeer (fd.sendPeer address) _).peer i) = _
    by_cases hp : i = fd.sendPeer address
    · subst hp
      rw [peer_modifyPeer_self hi]
      exact hf (fd.peer _) _ _ _ _
    · rw [peer_modifyPeer_ne hp]
  | disconnect =>
    rw [move]
    rcases fd.disconnect_cases with ⟨-, he⟩ | ⟨q, k, -, he, -⟩ <;> rw [he]
    by_cases hz : i = 0
    · subst hz
      rw [peer_modifyPeer_self (by rwa [peerMgr_putUSFrame]), peer_putUSFrame]
      exact hd rfl _
    · rw [peer_modifyPeer_ne hz, peer_putUSFrame]
  | onFrameReceived now data => rw [move, peer_onFrameReceived_ne h hm]
  | checkTimeout now p =>
    rw [move, peer_checkTimeout_ne fd ?_ now]
    rintro rfl
    exact hm rfl
  | generateTxFrames now =>
    rw [move]
    rcases fd.generateTxFrames_cases now with ⟨-, he⟩ | ⟨-, k, frame, -, -, he⟩ | ⟨-, -, p,
      frame, hp, -, he⟩ | ⟨-, -, -, he⟩ <;> rw [he]
    · rfl
    · have hp' : p < (fd.handOver (fd.sendIData p frame)).peerMgr.peers.length := hp
      by_cases hpi : i = p
      · subst hpi
        rw [peer_modifyPeer_self hp']
        exact hf (fd.peer i) _ _ _ _
      · rw [peer_modifyPeer_ne hpi]
        rfl
  | framing => rfl

theorem state_move_ne (h : WellFormed fd) (hi : i < fd.peerMgr.peers.length)
    (hm : concerns fd m ≠ some i) (hd : m ≠ .disconnect) :
    ((fd.move m).peer i).state = (fd.peer i).state :=
  field_move_ne PeerInfo.state (fun _ _ _ _ _ ↦ rfl) (fun hm' ↦ absurd hm' hd) h hi hm

def calls (fd : TinyFd) (m : Move) : List Callback := (fd.move m).callbacks.drop fd.callbacks.length

def callsFor (i : ℕ) (fd : TinyFd) (m : Move) : List Callback :=
    if concerns fd m = some i then fd.calls m else []

theorem calls_eq {cs : List Callback} (h : (fd.move m).callbacks = fd.callbacks ++ cs) :
    fd.calls m = cs := by
  rw [calls, h, List.drop_left]

theorem callsFor_self (h : concerns fd m = some i) : fd.callsFor i m = fd.calls m := if_pos h

theorem callsFor_ne (h : concerns fd m ≠ some i) : fd.callsFor i m = [] := if_neg h

end Concerns

/-- What a move does to the queue of service frames: it adds a frame, an RR or REJ with
the N(R) of its peer, or it hands the lowest one to the framing layer. -/
inductive Serviced (fd : TinyFd) (m : Move) : Prop
  | keep : (fd.move m).frames.sQueue = fd.frames.sQueue → Serviced fd m
  | put (frame : FrameInfo) (k : ℕ) :
      fd.frames.sQueue.Allocated (fd.move m).frames.sQueue frame k →
      (frame.frameType = .sFrame → ∃ p, concerns fd m = some p ∧
        frame.header.address = fd.addrField p ∧ (frame.header.control >>> 5) &&& seqBitsMask =
          ((fd.move m).peer p).iQueueControl.rxState.nextNr) →
      Serviced fd m
  | send (now : Instant) (k : ℕ) (frame : FrameInfo) : m = .generateTxFrames now →
      fd.frames.sQueue.get k = some frame → (∀ j < k, fd.frames.sQueue.get j = none) →
      (fd.move m).frames.sQueue = fd.frames.sQueue.free k →
      handed fd (fd.move m) = some frame.toBytes → Serviced fd m

section Serviced

variable {m : Move}

theorem serviced_of_puts {header : FrameHeader}
    (h : Puts fd.frames.sQueue (fd.move m).frames.sQueue ⟨.uFrame, header, []⟩) :
    Serviced fd m := by
  rcases h with ⟨k, ha⟩ | ⟨-, he⟩
  · exact .put _ k ha QueuedFrameType.noConfusion
  · exact .keep he

theorem serviced_onFrameReceived (h : WellFormed fd) (now : Instant) (data : Bytes) :
    Serviced fd (.onFrameReceived now data) := by
  rcases fd.onFrameReceived_cases now data with ⟨-, he⟩ | ⟨p, hto, hvalid, -⟩
  · exact .keep (by rw [move, he])
  have hp := AddressedTo.lt h hto hvalid
  have hp₁ : p < (fd.touch p now).peerMgr.peers.length := by rwa [peers_length_touch]
  have hset := setup_touch fd p now
  have hwf := wellFormed_touch h hp now
  obtain ⟨n, hn⟩ := exists_seq_of_lt (hwf.counters p hp₁).confirm
  obtain ⟨r, hr⟩ := exists_seq_of_lt (hwf.counters p hp₁).recv
  have hconcerns : concerns fd (.onFrameReceived now data) = some p :=
    concerns_frame.mpr ⟨hto, hvalid⟩
  have hreacts := onFrameReceived_reacts h hto hvalid now
  have hmove : fd.move (.onFrameReceived now data) = fd.onFrameReceived now data := rfl
  generalize fd.onFrameReceived now data = fd' at hreacts hmove
  have hua : Puts fd.frames.sQueue
      ((fd.touch p now).putUSFrame .uFrame (uaHeader (fd.addrField p)) []).1.frames.sQueue _ :=
    putUSFrame_puts (frames_touch fd p now ▸ rfl) ..
  cases hreacts with
  | setup =>
    apply serviced_of_puts
    rwa [hmove, frames_switchToConnected]
  | opened => exact .keep (by rw [hmove, frames_switchToConnected, frames_touch])
  | disc =>
    apply serviced_of_puts
    rwa [hmove, sQueue_switchToDisconnected]
  | closed => exact .keep (by rw [hmove, sQueue_switchToDisconnected, frames_touch])
  | otherU => exact .keep (by rw [hmove, frames_touch])
  | refused =>
    apply serviced_of_puts
    rw [hmove]
    exact putUSFrame_puts (frames_touch fd p now ▸ rfl) ..
  | iFrame hI hs =>
    rcases onIFrameReceived_rx hp₁ hn data with ⟨-, -, hrx, -, ⟨-, hsame⟩ | ⟨-, hput⟩⟩ | ⟨-,
      -, hrx, -, hput⟩
    · exact .keep (by rw [hmove, hsame, frames_touch])
    · rw [frames_touch, addrField_congr hset, hr] at hput
      rcases hput with ⟨k, ha⟩ | ⟨-, he⟩
      · refine .put _ k (by rwa [hmove]) fun _ ↦ ⟨p, hconcerns, rfl, ?_⟩
        rw [hmove, hrx, hr]
        exact (rejHeader_fields _ r).1
      · exact .keep (by rw [hmove, he])
    · rw [frames_touch, addrField_congr hset, hr, seq_succ] at hput
      rcases hput with ⟨k, ha⟩ | ⟨-, he⟩
      · refine .put _ k (by rwa [hmove]) fun _ ↦ ⟨p, hconcerns, rfl, ?_⟩
        rw [hmove, hrx, hr, seq_succ]
        exact (rrHeader_fields _ (r + 1)).1
      · exact .keep (by rw [hmove, he])
  | sFrame hS hU hs =>
      exact .keep (by rw [hmove, (onSFrameReceived_rx hp₁ hn data).2.1, frames_touch])

theorem serviced_checkTimeout (fd : TinyFd) (now : Instant) (p : ℕ) :
    Serviced fd (.checkTimeout now p) := by
  have hmove : fd.move (.checkTimeout now p) = fd.checkTimeout now p := rfl
  rcases fd.checkTimeout_cases now p with ⟨he, -⟩ | ⟨-, -, he⟩ | ⟨-, -, ⟨-, he⟩ | ⟨-, he⟩⟩ | ⟨-, -,
    -, -, he⟩ | ⟨-, he⟩ <;> rw [he] at hmove
  · exact .keep (by rw [hmove])
  · apply serviced_of_puts
    rw [hmove]
    exact putUSFrame_puts rfl ..
  · exact .keep (by rw [hmove, frames_modifyPeer])
  · apply serviced_of_puts
    rw [hmove, frames_modifyPeer]
    refine putUSFrame_puts ?_ ..
    rw [frames_modifyPeer]
  · exact .keep (by rw [hmove, sQueue_switchToDisconnected])
  · exact .keep (by rw [hmove]; rfl)

theorem serviced_move (h : WellFormed fd) (m : Move) : Serviced fd m := by
  cases m with
  | sendPacket address data timeoutMs =>
    refine .keep ?_
    rw [move]
    rcases fd.sendPacket_cases address data timeoutMs with ⟨e, he⟩ | ⟨-, -, -, q, k, events, -,
      he⟩ <;> rw [he]
  | disconnect =>
    rcases fd.disconnect_cases with ⟨-, he⟩ | ⟨q, k, ha, he, hq⟩
    · exact .keep (by rw [move, he])
    · apply serviced_of_puts
      rw [move, he, frames_modifyPeer, hq]
      exact .inl ⟨k, ha⟩
  | onFrameReceived now data => exact serviced_onFrameReceived h now data
  | checkTimeout now p => exact serviced_checkTimeout fd now p
  | generateTxFrames now =>
    rcases fd.generateTxFrames_cases now with ⟨-, he⟩ | ⟨hidle, k, frame, hk, hlow, he⟩ | ⟨-, -, p,
      frame, -, -, he⟩ | ⟨-, -, -, he⟩
    · exact .keep (by rw [move, he])
    · refine .send now k frame rfl hk hlow (by rw [move, he]) ?_
      rw [move, handed, if_pos hidle, he]
      rfl
    · exact .keep (by rw [move, he]; rfl)
    · exact .keep (by rw [move, he])
  | framing => exact .keep rfl

end Serviced

end TinyProto.TinyFd
