import TinyProto.Fd.Multipoint
import TinyProto.Fd.Reports

namespace TinyProto

open Lib

def Callback.address : Callback → UInt8
  | .read address _ => address
  | .connect address _ => address

/-- What the user may be called with while the link is up or down: an event sets it
up or takes it down, and only a link that is up has payloads. -/
def Callback.turn : Bool → Callback → Option Bool
  | true, .read .. => some true
  | false, .read .. => none
  | _, .connect _ connected => some connected

namespace TinyFd

variable {fd fd' : TinyFd} {i : ℕ} {m : Move}

def callsTo (fd : TinyFd) (i : ℕ) : List Callback :=
  fd.callbacks.filter fun c ↦ c.address == fd.userAddress i

/-- Whether the last connect event of peer `i` said that the link is up. -/
def told (fd : TinyFd) (i : ℕ) : Bool := (connects (fd.callsTo i)).getLast?.getD false

theorem callsTo_quiet (hs : fd'.setup = fd.setup) (h : fd'.callbacks = fd.callbacks) :
    fd'.callsTo i = fd.callsTo i := by
  rw [callsTo, h, userAddress_congr hs, callsTo]

theorem callsTo_own (hs : fd'.setup = fd.setup) {c : Callback}
    (h : fd'.callbacks = fd.callbacks ++ [c]) (hc : c.address = fd.userAddress i) :
    fd'.callsTo i = fd.callsTo i ++ [c] := by
  rw [callsTo, h, userAddress_congr hs, List.filter_append, ← callsTo]
  congr 1
  exact List.filter_cons_of_pos (beq_iff_eq.mpr hc)

theorem callsTo_other (hs : fd'.setup = fd.setup) {c : Callback}
    (h : fd'.callbacks = fd.callbacks ++ [c]) (hc : c.address ≠ fd.userAddress i) :
    fd'.callsTo i = fd.callsTo i := by
  rw [callsTo, h, userAddress_congr hs, List.filter_append, ← callsTo,
    List.filter_cons_of_neg (by simpa using hc)]
  exact List.append_nil _

theorem told_quiet (h : fd'.callsTo i = fd.callsTo i) : fd'.told i = fd.told i := by
  rw [told, h, told]

theorem told_event {address : UInt8} {connected : Bool}
    (h : fd'.callsTo i = fd.callsTo i ++ [.connect address connected]) :
    fd'.told i = connected := by
  rw [told, h, connects, List.filterMap_append]
  exact congrArg (Option.getD · false) List.getLast?_concat

theorem told_read {address : UInt8} {payload : Bytes}
    (h : fd'.callsTo i = fd.callsTo i ++ [.read address payload]) : fd'.told i = fd.told i := by
  rw [told, h, connects, List.filterMap_append]
  exact congrArg (fun events : List Bool ↦ events.getLast?.getD false) (List.append_nil _)

/-- What a move does to a peer, as its user sees it. -/
inductive Turn (i : ℕ) (fd fd' : TinyFd) : Prop
  | event (connected : Bool) :
      fd'.callsTo i = fd.callsTo i ++ [.connect (fd.userAddress i) connected] →
      (fd'.peer i).state = (if connected then .connected else .disconnected) → Turn i fd fd'
  | read (payload : Bytes) : fd'.callsTo i = fd.callsTo i ++ [.read (fd.userAddress i) payload] →
      ((fd.peer i).state = .connected ∨ (fd.peer i).state = .disconnecting) →
      (fd'.peer i).state = (fd.peer i).state → Turn i fd fd'
  | quiet : fd'.callsTo i = fd.callsTo i →
      ((fd'.peer i).state = .connected ↔ (fd.peer i).state = .connected) →
      ((fd'.peer i).state = .disconnecting ↔ (fd.peer i).state = .disconnecting) → Turn i fd fd'

theorem Reports.turn {connected : Bool} (h : Reports i connected fd fd')
    (hs : fd'.setup = fd.setup) : Turn i fd fd' :=
  .event connected (callsTo_own hs h.callbacks rfl) h.state

theorem callsTo_reports_other (hsep : Separate fd i) {q : ℕ}
    (hq : q < fd.peerMgr.peers.length) (hne : q ≠ i) {connected : Bool}
    (h : Reports q connected fd fd') (hs : fd'.setup = fd.setup) : fd'.callsTo i = fd.callsTo i :=
  callsTo_other hs h.callbacks (hsep q hq hne).2

theorem callbacks_move_none (h : concerns fd m = none) : (fd.move m).callbacks = fd.callbacks := by
  cases m with
  | sendPacket address data timeoutMs =>
    rw [move]
    rcases fd.sendPacket_cases address data timeoutMs with ⟨e, he⟩ | ⟨-, -, -, q, k, events, -,
      he⟩ <;> rw [he]
    rfl
  | disconnect =>
    rw [move]
    rcases fd.disconnect_cases with ⟨-, he⟩ | ⟨q, k, -, he, -⟩ <;> rw [he]
    rw [callbacks_modifyPeer, callbacks_putUSFrame]
  | onFrameReceived now data =>
    rw [move]
    rcases fd.onFrameReceived_cases now data with ⟨-, he⟩ | ⟨p, hto, hvalid, -⟩
    · rw [he]
    · rw [concerns_frame.mpr ⟨hto, hvalid⟩] at h
      cases h
  | checkTimeout now p => cases h
  | generateTxFrames now =>
    rw [move]
    rcases fd.generateTxFrames_cases now with ⟨-, he⟩ | ⟨-, k, frame, -, -, he⟩ | ⟨-, -, p,
      frame, -, -, he⟩ | ⟨-, -, -, he⟩ <;> rw [he]
    all_goals rfl
  | framing ll => rfl

theorem concerns_lt (h : WellFormed fd) (hm : Legal fd m) (hi : concerns fd m = some i) :
    i < fd.peerMgr.peers.length := by
  rcases concerns_cases hi with ⟨now, data, rfl, hto, hvalid⟩ | ⟨now, rfl⟩
  · exact AddressedTo.lt h hto hvalid
  · exact hm

theorem turn_self (h : WellFormed fd) (hm : Legal fd m) (hi : concerns fd m = some i) :
    Turn i fd (fd.move m) := by
  have hset := setup_move h m
  rcases concerns_cases hi with ⟨now, data, rfl, hto, hvalid⟩ | ⟨now, rfl⟩
  · rcases frame_reports h hto hvalid now with ⟨-, hr⟩ | ⟨-, hr⟩ | ⟨-, -, hstate, hnone | hread⟩
    · exact hr.turn hset
    · exact hr.turn hset
    · refine .quiet (callsTo_quiet hset hnone.callbacks) ?_ ?_ <;> rw [move, hstate]
    · exact .read (data.drop 2) (callsTo_own hset hread.callbacks rfl) hread.state hstate
  · rcases timer_reports (concerns_lt h hm hi) now with ⟨-, hr⟩ | ⟨hnone, -, hconn, hdisc⟩
    · exact hr.turn hset
    · exact .quiet (callsTo_quiet hset hnone.callbacks) hconn hdisc

theorem callsTo_move_ne (h : WellFormed fd) (hsep : Separate fd i) (hm : Legal fd m)
    (hi : concerns fd m ≠ some i) : (fd.move m).callsTo i = fd.callsTo i := by
  have hset := setup_move h m
  cases hq : concerns fd m with
  | none => exact callsTo_quiet hset (callbacks_move_none hq)
  | some q =>
    have hlt := concerns_lt h hm hq
    have hne : q ≠ i := fun he ↦ hi (he ▸ hq)
    rcases concerns_cases hq with ⟨now, data, rfl, hto, hvalid⟩ | ⟨now, rfl⟩
    · rcases frame_reports h hto hvalid now with ⟨-, hr⟩ | ⟨-, hr⟩ | ⟨-, -, -, hnone | hread⟩
      · exact callsTo_reports_other hsep hlt hne hr hset
      · exact callsTo_reports_other hsep hlt hne hr hset
      · exact callsTo_quiet hset hnone.callbacks
      · exact callsTo_other hset hread.callbacks (hsep q hlt hne).2
    · rcases timer_reports hlt now with ⟨-, hr⟩ | ⟨hnone, -⟩
      · exact callsTo_reports_other hsep hlt hne hr hset
      · exact callsTo_quiet hset hnone.callbacks

/-- Only `disconnect` does to a peer what its user is not told. -/
theorem turn_move (h : WellFormed fd) (hsep : Separate fd i) (hp : i < fd.peerMgr.peers.length)
    (hm : Legal fd m) : Turn i fd (fd.move m) ∨
    (m = .disconnect ∧ i = 0 ∧ (fd.move m).callsTo i = fd.callsTo i ∧
      ((fd.move m).peer i).state = .disconnecting) := by
  by_cases hi : concerns fd m = some i
  · exact .inl (turn_self h hm hi)
  have hcalls := callsTo_move_ne h hsep hm hi
  by_cases hd : m = .disconnect
  · subst hd
    rcases fd.disconnect_cases with ⟨-, he⟩ | ⟨q, k, -, he, -⟩
    · refine .inl (.quiet hcalls ?_ ?_) <;> rw [move, he]
    · by_cases hz : i = 0
      · subst hz
        refine .inr ⟨rfl, rfl, hcalls, ?_⟩
        rw [move, he, peer_modifyPeer_self (by rwa [peerMgr_putUSFrame])]
      · refine .inl (.quiet hcalls ?_ ?_) <;> rw [move, he, peer_modifyPeer_ne hz, peer_putUSFrame]
  · have hsame := state_move_ne h hp hi hd
    refine .inl (.quiet hcalls ?_ ?_) <;> rw [hsame]

/-- A peer that is not disconnecting is connected just when its user was told so. -/
structure Informed (i : ℕ) (fd : TinyFd) : Prop where
  wf : WellFormed fd
  peer : i < fd.peerMgr.peers.length
  separate : Separate fd i
  told : (fd.peer i).state ≠ .disconnecting → (fd.told i = true ↔ (fd.peer i).state = .connected)

theorem Informed.move (h : Informed i fd) (hm : Legal fd m) : Informed i (fd.move m) := by
  have hset := setup_move h.wf m
  refine ⟨wellFormed_move h.wf hm, by rw [peers_length_congr hset]; exact h.peer,
    h.separate.congr hset, ?_⟩
  rcases turn_move h.wf h.separate h.peer
    hm with (⟨connected, hcalls, hstate⟩ | ⟨payload, hcalls, -, hstate⟩ | ⟨hcalls, hconn,
      hdisc⟩) | ⟨-, -, -, hstate⟩
  · intro _
    rw [told_event hcalls, hstate]
    cases connected <;> decide
  · rw [told_read hcalls, hstate]
    exact h.told
  · rw [told_quiet hcalls, hconn]
    exact fun hne ↦ h.told (hdisc.not.mp hne)
  · exact fun hne ↦ absurd hstate hne

def LinkUp (fd : TinyFd) (i : ℕ) : Prop := (fd.peer i).state = .connected ∨
    (fd.peer i).state = .disconnecting

instance (fd : TinyFd) (i : ℕ) : Decidable (LinkUp fd i) := by unfold LinkUp; infer_instance

/-- The calls made for the peer are what the user may be called with, and leave it
with the link as it is. -/
structure Follows (i : ℕ) (fd : TinyFd) : Prop extends Informed i fd where
  calls : run Callback.turn false (fd.callsTo i) = some (decide (LinkUp fd i))

theorem run_snoc {calls : List Callback} {up up' : Bool} {c : Callback}
    (h : run Callback.turn false calls = some up) (hc : c.turn up = some up') :
    run Callback.turn false (calls ++ [c]) = some up' := by
  rw [run_append, h, Option.bind_some, run_cons]
  exact ⟨up', hc, rfl⟩

theorem last_connects {calls : List Callback} {up up' : Bool}
    (h : run Callback.turn up calls = some up') : (connects calls).getLast?.getD up = up' := by
  induction calls generalizing up with
  | nil => exact Option.some.inj h
  | cons c calls ih =>
    obtain ⟨up₁, hc, hrest⟩ := run_cons.mp h
    have hlast := ih hrest
    cases c with
    | read address payload =>
      cases up with
      | true => exact Option.some.inj hc ▸ hlast
      | false => cases hc
    | connect address connected =>
      have hup₁ : connected = up₁ := by
        cases up <;> exact Option.some.inj hc
      rw [show connects (.connect address connected :: calls) = connected ::
        connects calls from rfl, List.getLast?_cons, Option.getD_some, hup₁]
      exact hlast

theorem Follows.told_iff (h : Follows i fd) : fd.told i = true ↔ LinkUp fd i := by
  rw [TinyFd.told, last_connects h.calls, decide_eq_true_iff]

theorem Follows.move (h : Follows i fd) (hm : Legal fd m)
    (hs : m = .disconnect → i = 0 → fd.told i = true) :
    Follows i (fd.move m) := by
  refine ⟨h.toInformed.move hm, ?_⟩
  rcases turn_move h.wf h.separate h.peer
    hm with (⟨connected, hcalls, hstate⟩ | ⟨payload, hcalls, hup, hstate⟩ | ⟨hcalls, hconn,
      hdisc⟩) | ⟨rfl, hz, hcalls, hstate⟩ <;> rw [hcalls]
  · have hup : LinkUp (fd.move m) i ↔ connected = true := by
      rw [LinkUp, hstate]
      cases connected <;> decide
    refine run_snoc h.calls ?_
    rw [show decide (LinkUp (fd.move m) i) = connected by cases connected <;> simp [hup]]
    cases decide (LinkUp fd i) <;> rfl
  · have hup' : LinkUp (fd.move m) i := by rwa [LinkUp, hstate]
    refine run_snoc h.calls ?_
    rw [decide_eq_true (show LinkUp fd i from hup), decide_eq_true hup']
    rfl
  · have hup : LinkUp fd i ↔ LinkUp (fd.move m) i := or_congr hconn.symm hdisc.symm
    rw [h.calls, decide_eq_decide.mpr hup]
  · have hup := h.told_iff.mp (hs rfl hz)
    rw [h.calls, decide_eq_true hup, decide_eq_true (show LinkUp _ i from .inr hstate)]

theorem Informed.step (h : Informed i fd) {op : Op} (hs : fd.step op = some fd') :
    Informed i fd' := by
  have hrun := run_stepMove fd (fd.moves op)
  rw [step_moves h.wf hs] at hrun
  refine run_invariant ?_ h (legal_moves h.wf op) hrun
  intro fd₁ m fd₂ ht hm hs
  obtain rfl := Option.some.inj hs
  exact ht.move hm

/-- The user only closes links that it has been told of. -/
def Sensible (i : ℕ) (fd : TinyFd) : Op → Prop
  | .disconnect => i = 0 → fd.told i = true
  | _ => True

instance (i : ℕ) (fd : TinyFd) (op : Op) : Decidable (Sensible i fd op) :=
  match op with
  | .disconnect => inferInstanceAs (Decidable (i = 0 → fd.told i = true))
  | .sendPacket .. | .onRxData .. | .getTxData .. => .isTrue trivial

theorem disconnect_not_mem {op : Op} (hop : op ≠ .disconnect) {m : Move} (hm : m ∈ fd.moves op) :
    m ≠ .disconnect := by
  rintro rfl
  cases op with
  | disconnect => exact absurd rfl hop
  | sendPacket address data timeoutMs => simp [moves] at hm
  | onRxData now data => simp [moves] at hm
  | getTxData now room timeoutMs => simp [moves] at hm

theorem Follows.step (h : Follows i fd) {op : Op} (hop : Sensible i fd op)
    (hs : fd.step op = some fd') :
    Follows i fd' := by
  by_cases hd : op = .disconnect
  · subst hd
    rw [← Option.some.inj hs]
    exact h.move (m := .disconnect) trivial fun _ ↦ hop
  · have hrun := run_stepMove fd (fd.moves op)
    rw [step_moves h.wf hs] at hrun
    refine run_invariant ?_ h
      ((legal_moves h.wf op).and_mem fun m hm ↦ disconnect_not_mem hd hm) hrun
    intro fd₁ m fd₂ hf hm hs
    obtain rfl := Option.some.inj hs
    exact hf.move hm.2 fun he ↦ absurd he hm.1

theorem follows_new {config : TinyFdConfig} {now : Instant} (hnew : TinyFd.new config now = .ok fd)
    (hle : fd.peerMgr.peers.length ≤ 63) (hi : i < fd.peerMgr.peers.length) : Follows i fd := by
  obtain ⟨addr, hpeer⟩ := (initial_new hnew).peer hi
  have hdown : (fd.peer i).state = .disconnected := by rw [hpeer, PeerInfo.new]
  have hnone : fd.callsTo i = [] := by
    rw [callsTo, (initial_new hnew).callbacks]
    rfl
  refine ⟨⟨wellFormed_new hnew, hi, separate_reachable (.new hnew) hle hi, ?_⟩, ?_⟩
  · rw [told, hnone, hdown]
    decide
  · have hnot : ¬ LinkUp fd i := by
      rw [LinkUp, hdown]
      decide
    rw [hnone, decide_eq_false hnot]
    rfl

theorem getStatus_ok_iff (hi : 0 < fd.peerMgr.peers.length) :
    fd.getStatus = .ok () ↔ (fd.peer 0).state = .connected := by
  rw [getStatus, if_neg (List.ne_nil_of_length_pos hi)]
  by_cases hconn : (fd.peer 0).state = .connected
  · rw [if_pos hconn]
    exact iff_of_true rfl hconn
  · rw [if_neg hconn]
    exact iff_of_false (fun h ↦ by cases h) hconn

/-- The last connect event tells the state of every peer that is not disconnecting,
and `on_read` is only called for links that the user has been told of, if `disconnect`
is only called on such a link. -/
theorem user_told {config : TinyFdConfig} {now : Instant} (hnew : TinyFd.new config now = .ok fd)
    (hle : fd.peerMgr.peers.length ≤ 63) (hi : i < fd.peerMgr.peers.length) (ops : List Op) :
    EachState TinyFd.step (fun fd' ↦ ((fd'.peer i).state ≠ .disconnecting →
        (fd'.told i = true ↔ (fd'.peer i).state = .connected)) ∧
      (i = 0 → (fd'.getStatus = .ok () ↔ fd'.told i = true ∧ (fd'.peer i).state ≠ .disconnecting)))
        fd ops ∧
    (EachStep TinyFd.step (Sensible i) fd ops →
      EachState TinyFd.step
        (fun fd' ↦ run Callback.turn false (fd'.callsTo i) = some (decide (LinkUp fd' i))) fd
          ops) := by
  have h := follows_new hnew hle hi
  constructor
  · have hall : EachState TinyFd.step (Informed i) fd ops :=
      eachState_of_eachStep (fun _ _ _ ht _ hs ↦ ht.step hs) h.toInformed (EachStep.trivial fd ops)
    refine hall.mono fun fd' ht ↦ ⟨ht.told, ?_⟩
    rintro rfl
    rw [getStatus_ok_iff ht.peer]
    constructor
    · intro hconn
      have hopen : (fd'.peer 0).state ≠ .disconnecting := by rw [hconn]; decide
      exact ⟨(ht.told hopen).mpr hconn, hopen⟩
    · exact fun ⟨htold, hopen⟩ ↦ (ht.told hopen).mp htold
  · intro hsensible
    have hall : EachState TinyFd.step (Follows i) fd ops :=
      eachState_of_eachStep (fun _ _ _ hf hop hs ↦ hf.step hop hs) h hsensible
    exact hall.mono fun fd' hf ↦ hf.calls

def lateOps : List Op :=
  [.getTxData 500000000 9 0, .onRxData 5 [0x7E, 0x05, 0x73, 0x7E, 0x7E, 0x05, 0x00, 0x41, 0x7E],
    .disconnect, .onRxData 6 [0x7E, 0x05, 0x20, 0x42, 0x7E], .onRxData 7 [0x7E, 0x05, 0x73, 0x7E]]

theorem user_told_late :
    EachState TinyFd.step
      (fun fd ↦ run Callback.turn false (fd.callsTo 0) = some (decide (LinkUp fd 0))) freshStation
        lateOps ∧ (run TinyFd.step freshStation lateOps).map (TinyFd.callsTo · 0) =
          some [.connect 1 true, .read 1 [0x41], .read 1 [0x42], .connect 1 false] :=
  ⟨(user_told new_freshStation (by decide +kernel) (by decide +kernel : 0 < _) lateOps).2
    (by decide +kernel),
    by decide +kernel⟩

end TinyFd

end TinyProto
