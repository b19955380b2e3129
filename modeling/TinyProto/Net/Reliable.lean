import TinyProto.Fd.Flow
import TinyProto.Lib.SlidingWindow
import TinyProto.Net.Link

namespace TinyProto

open Lib

/-- The history of a session: the two streams of payloads, each under the station
that sends them, the frames on their way to each station and the
acknowledgements that wait at each for their turn. -/
structure History where
  stream : Bool → Stream Bytes
  wire : Bool → List Wire
  waiting : Bool → List (Bool × ℕ)

namespace Frames

open TinyFd Side Relation

def ends {α : Type} (s : Bool) (x y : α) : Bool → α := fun t ↦ if t = s then x else y

variable {α : Type} (s : Bool) (x y : α)

@[simp] theorem ends_self : ends s x y s = x := if_pos rfl

@[simp] theorem ends_not : ends s x y (!s) = y := if_neg (by cases s <;> decide)

/-- What a station shows of the stream it sends and of the one that comes in. -/
structure Shows (addr : UInt8) (old : List Bytes) (out inc : Stream Bytes)
    (waiting : List (Bool × ℕ)) (side : Side Bytes) : Prop where
  address : side.station.addrField 0 = addr
  accepted : side.accepted = out.accepted
  sends : Sends side.station out.accepted out.confirmed
  nextNr : (side.station.peer 0).iQueueControl.rxState.nextNr = seq inc.delivered.length
  reads : side.station.reads = old ++ inc.delivered
  queue : side.station.frames.sQueue.Queues (waiting.map (Wire.info addr))

/-- The frames and the stations are those of the history. -/
structure Tracks (addr : UInt8) (old : Bool → List Bytes) (h : History) (f : Frames) : Prop where
  linked : Linked f
  shows : ∀ s, Shows addr (old s) (h.stream s) (h.stream !s) (h.waiting s) (f s)
  inbox : ∀ s, (f s).inbox = (h.wire s).map (Wire.bytes addr (h.stream !s).accepted)
  flight : ∀ s, (h.stream s).flight = (h.wire !s).filterMap Wire.index
  acks : ∀ s, (h.stream s).acks = (h.wire s).map Wire.nr ++ (h.waiting !s).map Prod.snd

/-- The history `h'` comes from `h` by steps of the two streams. -/
def Leads (h h' : History) : Prop := ∀ s, ReflTransGen (Stream.Step 7 8) (h.stream s) (h'.stream s)

variable {addr : UInt8} {old : Bool → List Bytes} {h : History} {f f' : Frames} {s : Bool}
  {out inc out' inc' : Stream Bytes} {q : List (Bool × ℕ)}

theorem Shows.congr {old : List Bytes} {side : Side Bytes} (h : Shows addr old out inc q side)
    (ha : out'.accepted = out.accepted) (hc : out'.confirmed = out.confirmed)
    (hd : inc'.delivered = inc.delivered) : Shows addr old out' inc' q side := by
  refine ⟨h.address, ?_, ?_, ?_, ?_, h.queue⟩
  · rw [ha]
    exact h.accepted
  · rw [ha, hc]
    exact h.sends
  · rw [hd]
    exact h.nextNr
  · rw [hd]
    exact h.reads

theorem tracks_ends (s : Bool) (w w' : List Wire) (q q' : List (Bool × ℕ)) (hl : Linked f)
    (hself : Shows addr (old s) out inc q (f s)) (hnot : Shows addr (old !s) inc out q' (f !s))
    (hin : (f s).inbox = w.map (Wire.bytes addr inc.accepted))
    (hin' : (f !s).inbox = w'.map (Wire.bytes addr out.accepted))
    (hflight : out.flight = w'.filterMap Wire.index)
    (hflight' : inc.flight = w.filterMap Wire.index)
    (hacks : out.acks = w.map Wire.nr ++ q'.map Prod.snd)
    (hacks' : inc.acks = w'.map Wire.nr ++ q.map Prod.snd) :
    Tracks addr old ⟨ends s out inc, ends s w w', ends s q q'⟩ f := by
  refine ⟨hl, both s ?_ ?_, both s ?_ ?_, both s ?_ ?_, both s ?_ ?_⟩ <;>
    simp only [Bool.not_not, ends_self, ends_not]
  · exact hself
  · exact hnot
  · exact hin
  · exact hin'
  · exact hflight
  · exact hflight'
  · exact hacks
  · exact hacks'

theorem leads_ends {w w' : List Wire} {q q' : List (Bool × ℕ)}
    (hout : ReflTransGen (Stream.Step 7 8) (h.stream s) out)
    (hinc : ReflTransGen (Stream.Step 7 8) (h.stream !s) inc) :
    Leads h ⟨ends s out inc, ends s w w', ends s q q'⟩ := by
  refine both s ?_ ?_ <;> dsimp only
  · rwa [ends_self]
  · rwa [ends_not]

theorem Tracks.stay (ht : Tracks addr old h f) {side : Side Bytes} (hl : Linked (put f s side))
    (hs : Shows addr (old s) (h.stream s) (h.stream !s) (h.waiting s) side)
    (hin : side.inbox = (f s).inbox) :
    Tracks addr old h (put f s side) := by
  refine ⟨hl, both s ?_ ?_, both s ?_ ?_, ht.flight, ht.acks⟩
  · rw [put_self]
    exact hs
  · rw [put_not]
    exact ht.shows _
  · rw [put_self, hin]
    exact ht.inbox s
  · rw [put_not]
    exact ht.inbox _

theorem index_lt (ht : Tracks addr old h f) (hsafe : (h.stream s).Safe 7) {x : Wire}
    (hx : x ∈ h.wire !s) :
    ∀ n ∈ x.index, n < (h.stream s).accepted.length := by
  intro n hn
  apply fun hmem ↦ (hsafe.flight n hmem).1
  rw [ht.flight s]
  exact List.mem_filterMap.mpr ⟨x, hx, hn⟩

theorem tracks_sendPacket (ht : Tracks addr old h f) (hsafe : ∀ s, (h.stream s).Safe 7) (s : Bool)
    (address : UInt8) (data : Bytes) (timeoutMs : ℕ) :
    ∃ h', Tracks addr old h' (f.sendPacket s address data timeoutMs) ∧ Leads h h' := by
  have hlinked := ht.linked.sendPacket s address data timeoutMs
  have hs := ht.shows s
  obtain ⟨hsends, hq, hcb, hrx, -⟩ := hs.sends.sendPacket (ht.linked.one s) address data timeoutMs
  have haddr := addrField_congr (setup_sendPacket (f s).station address data timeoutMs) 0
  rw [Frames.sendPacket] at hlinked ⊢
  cases hok : ((f s).station.sendPacket address data timeoutMs).2.isOk with
  | false =>
    rw [hok, if_neg (by decide)] at hsends
    simp only [hok] at hlinked ⊢
    refine ⟨h, ht.stay hlinked ⟨haddr.trans hs.address, hs.accepted, hsends, ?_, ?_, ?_⟩ rfl,
      fun _ ↦ .refl⟩
    · rw [hrx]
      exact hs.nextNr
    · rw [TinyFd.reads, hcb]
      exact hs.reads
    · rw [hq]
      exact hs.queue
  | true =>
    rw [hok, if_pos rfl] at hsends
    simp only [hok, if_pos] at hlinked ⊢
    have hroom := hsends.window
    rw [List.length_append] at hroom
    refine ⟨_, tracks_ends s (h.wire s) (h.wire !s) (h.waiting s) (h.waiting !s) hlinked
      ?_ ?_ ?_ ?_ ?_ ?_ ?_ ?_, leads_ends (.single (.accept data hroom)) .refl⟩
    · rw [put_self]
      refine ⟨haddr.trans hs.address, ?_, hsends, ?_, ?_, ?_⟩
      · rw [← hs.accepted]
      · rw [hrx]
        exact hs.nextNr
      · rw [TinyFd.reads, hcb]
        exact hs.reads
      · rw [hq]
        exact hs.queue
    · rw [put_not]
      have hnot := ht.shows !s
      rw [Bool.not_not] at hnot
      exact hnot.congr rfl rfl rfl
    · rw [put_self]
      exact ht.inbox s
    · have hin := ht.inbox !s
      rw [Bool.not_not] at hin
      rw [put_not, hin]
      apply List.map_congr_left
      intro x hx
      exact (Wire.bytes_append _ _ (index_lt ht (hsafe s) hx) _).symm
    · exact ht.flight s
    · have hflight := ht.flight !s
      rwa [Bool.not_not] at hflight
    · exact ht.acks s
    · have hacks := ht.acks !s
      rwa [Bool.not_not] at hacks

theorem tracks_checkTimeouts (ht : Tracks addr old h f) (s : Bool) (now : Instant)
    (hconn : (((f s).station.checkTimeouts now).peer 0).state = .connected) :
    Tracks addr old h (f.checkTimeouts s now) := by
  have hs := ht.shows s
  obtain ⟨hsends, hq, hcb, hrx⟩ := hs.sends.checkTimeouts (ht.linked.one s) now hconn
  have haddr := addrField_congr (setup_checkTimeouts (f s).station now) 0
  refine ht.stay (ht.linked.checkTimeouts s now) ⟨haddr.trans hs.address, hs.accepted, hsends,
    ?_, ?_, ?_⟩ rfl
  · rw [hrx]
    exact hs.nextNr
  · rw [TinyFd.reads, hcb]
    exact hs.reads
  · rw [hq]
    exact hs.queue

theorem tracks_withHdlc (ht : Tracks addr old h f) {s : Bool} {ll : HdlcLl}
    (hl : Linked (f.withHdlc s ll)) :
    Tracks addr old h (f.withHdlc s ll) := by
  have hs := ht.shows s
  have hwf := hl.wf s
  rw [Frames.withHdlc, put_self] at hwf
  exact ht.stay hl ⟨hs.address, hs.accepted, hs.sends.withHdlc hwf, hs.nextNr,
    hs.reads, hs.queue⟩ rfl

/-- What handing a frame over means for the stream that goes out and for the one
that comes in. -/
theorem leads_picks {out inc : Stream Bytes} {waiting rest : List (Bool × ℕ)} {picked : Option Wire}
    (hpicks : Chosen out.accepted out.confirmed inc.delivered.length waiting picked rest)
    {acks : List ℕ} (hacks : inc.acks = acks ++ waiting.map Prod.snd) (lost : Bool) :
    let sent := if lost then [] else picked.toList
    ReflTransGen (Stream.Step 7 8) out
      { out with flight := out.flight ++ sent.filterMap Wire.index } ∧
      ReflTransGen (Stream.Step 7 8) inc
        { inc with acks := acks ++ (sent.map Wire.nr ++ rest.map Prod.snd) } := by
  intro sent
  cases hpicks with
  | nothing =>
    have hnil : sent = [] := by cases lost <;> rfl
    rw [hnil, List.filterMap_nil, List.map_nil, List.append_nil, List.nil_append, ← hacks]
    exact ⟨.refl, .refl⟩
  | @service ack rest hwaiting =>
    have hnone : sent.filterMap Wire.index = [] := by cases lost <;> rfl
    rw [hnone, List.append_nil]
    refine ⟨.refl, ?_⟩
    rw [hwaiting] at hacks
    cases lost with
    | true =>
      rw [show sent = [] from rfl, List.map_nil, List.nil_append]
      refine .single (.lose ?_)
      rw [hacks]
      exact List.Sublist.append_left (List.sublist_cons_self ..) _
    | false =>
      rw [show sent.map Wire.nr ++ rest.map Prod.snd = (ack :: rest).map Prod.snd from rfl, ← hacks]
  | @data n hwaiting hle hlt =>
    rw [hwaiting, List.map_nil, List.append_nil] at hacks
    cases lost with
    | true =>
      rw [show sent = [] from rfl, List.filterMap_nil, List.map_nil, List.map_nil, List.append_nil,
        List.append_nil, List.append_nil, ← hacks]
      exact ⟨.refl, .refl⟩
    | false =>
      rw [← hacks]
      exact ⟨.single (.send n hle hlt), .single .report⟩

theorem tracks_generateTxFrames (ht : Tracks addr old h f) (s : Bool) (now : Instant) (lost : Bool)
    (horder : (f s).station.hdlc.txData = none →
      InOrder (f s).station.frames.sQueue.frames (f s).station.frames.sQueue.lookupIndex) :
    let fd := (f s).station
    let arrived := if lost then [] else (handed fd (fd.generateTxFrames now)).toList
    ∃ h', Tracks addr old h' (f.generateTxFrames s now arrived) ∧ Leads h h' := by
  intro fd arrived
  have hs := ht.shows s
  obtain ⟨hsends, picked, rest, hhanded, hq, hpicks⟩ :=
    hs.sends.generateTxFrames (ht.linked.one s) hs.address now hs.queue horder hs.nextNr
  obtain ⟨hcb, -, hrx, -⟩ := generateTxFrames_calm (ht.linked.one s) now
  have haddr := addrField_congr (setup_generateTxFrames (f s).station now) 0
  have hlinked := ht.linked.generateTxFrames s now arrived
  obtain ⟨sent, hsent⟩ : ∃ sent, sent = if lost then [] else picked.toList := ⟨_, rfl⟩
  have harrived : arrived = sent.map (Wire.bytes addr (h.stream s).accepted) := by
    have ha : arrived = if lost then [] else (handed fd (fd.generateTxFrames now)).toList := rfl
    rw [ha, hhanded, hsent]
    cases lost with
    | true => rfl
    | false => cases picked <;> rfl
  have hacks := ht.acks !s
  rw [Bool.not_not] at hacks
  obtain ⟨hout, hinc⟩ := leads_picks hpicks.chosen hacks lost
  rw [← hsent] at hout hinc
  refine ⟨_, tracks_ends s (h.wire s) (h.wire (!s) ++ sent) rest (h.waiting !s) hlinked
    ?_ ?_ ?_ ?_ ?_ ?_ ?_ ?_, leads_ends hout hinc⟩
  · rw [generateTxFrames_self]
    refine ⟨haddr.trans hs.address, hs.accepted, hsends, ?_, ?_, hq⟩
    · rw [hrx]
      exact hs.nextNr
    · rw [TinyFd.reads, hcb]
      exact hs.reads
  · rw [generateTxFrames_not]
    have hnot := ht.shows !s
    rw [Bool.not_not] at hnot
    exact ⟨hnot.address, hnot.accepted, hnot.sends, hnot.nextNr, hnot.reads, hnot.queue⟩
  · rw [generateTxFrames_self]
    exact ht.inbox s
  · have hin := ht.inbox !s
    rw [Bool.not_not] at hin
    rw [generateTxFrames_not, hin, harrived, List.map_append]
  · rw [List.filterMap_append, ht.flight s]
  · have hflight := ht.flight !s
    rwa [Bool.not_not] at hflight
  · exact ht.acks s
  · rw [List.map_append, List.append_assoc]

theorem leads_takes {inc : Stream Bytes} {x : Wire} {flight : List ℕ} {delivered : Option Bytes}
    {answer : Option (Bool × ℕ)}
    (htakes : Takes inc.accepted inc.delivered.length x delivered answer)
    (hflight : inc.flight = x.index.toList ++ flight) (hlt : ∀ n ∈ x.index, n < inc.accepted.length)
    {extra : List (Bool × ℕ)} (hextra : extra = [] ∨ ∃ ack, answer = some ack ∧ extra = [ack]) :
    ReflTransGen (Stream.Step 7 8) inc
      { inc with
        flight := flight
        delivered := inc.delivered ++ delivered.toList
        acks := inc.acks ++ extra.map Prod.snd } := by
  cases htakes with
  | ack =>
    have hnil : extra = [] := by
      rcases hextra with rfl | ⟨ack, hack, -⟩
      · rfl
      · cases hack
    rw [hnil, Option.toList_none, List.map_nil, List.append_nil, List.append_nil]
    have hsame : flight = inc.flight := hflight.symm
    rw [hsame]
  | refused _ hanswer =>
    have hdiscard := @Stream.Step.discard Bytes 7 8 inc _ flight hflight
    rw [Option.toList_none, List.append_nil]
    rcases hextra with rfl | ⟨ack, rfl, rfl⟩
    · rw [List.map_nil, List.append_nil]
      exact .single hdiscard
    · obtain rfl := Option.some.inj (hanswer.resolve_left (Option.some_ne_none _))
      exact .tail (.single hdiscard) .report
  | @delivered n _ hmod =>
    have hn : n < inc.accepted.length := hlt n rfl
    have hdeliver := Stream.Step.deliver (W := 7) hflight hmod (List.getElem?_eq_getElem hn)
    rw [List.getD_eq_getElem _ _ hn]
    rcases hextra with rfl | ⟨ack, hack, rfl⟩
    · rw [List.map_nil, List.append_nil]
      exact .single hdeliver
    · obtain rfl := Option.some.inj hack
      have hlength : inc.delivered.length + 1 = (inc.delivered ++ [inc.accepted[n]]).length := by
        rw [List.length_append, List.length_singleton]
      rw [List.map_singleton, hlength]
      exact .tail (.single hdeliver) .report

theorem tracks_receive (ht : Tracks addr old h f) (hsafe : ∀ s, (h.stream s).Safe 7) (s : Bool)
    (now : Instant) :
    ∃ h', Tracks addr old h' (f.receive s now) ∧ Leads h h' := by
  cases hin : (f s).inbox with
  | nil =>
    refine ⟨h, ?_, fun _ ↦ .refl⟩
    rw [Frames.receive, hin]
    exact ht
  | cons frame rest =>
    have hs := ht.shows s
    have hlinked := ht.linked.receive s now
    obtain ⟨x, w, hwire, rfl, rfl⟩ := List.map_eq_cons_iff.mp ((ht.inbox s).symm.trans hin)
    have hacks := ht.acks s
    rw [hwire, List.map_cons, List.cons_append] at hacks
    have hnr := (hsafe s).acks x.nr (by rw [hacks]; exact List.mem_cons_self ..)
    have hto := ht.linked.addressed s
    rw [hs.address] at hto
    obtain ⟨hsends, -, delivered, answer, htakes, hreads, hnext, hanswered⟩ :=
      hs.sends.receive hs.address hto now x (h.stream !s).accepted hnr.1
        (hnr.2.trans (hsafe s).delivered.length_le) hs.nextNr
    obtain ⟨extra, hextra, hqueue⟩ := hanswered.queues hs.queue
    have haddr :=
      addrField_congr
        (setup_onFrameReceived (ht.linked.wf s) now (x.bytes addr (h.stream !s).accepted)) 0
    have hflight := ht.flight !s
    rw [Bool.not_not, hwire] at hflight
    have hindex : (h.stream !s).flight = x.index.toList ++ w.filterMap Wire.index := by
      rw [hflight]
      cases x <;> rfl
    have hlt : ∀ n ∈ x.index, n < (h.stream !s).accepted.length := by
      have hmem : x ∈ h.wire !!s := by
        rw [Bool.not_not, hwire]
        exact List.mem_cons_self ..
      exact index_lt ht (hsafe !s) hmem
    have hacks' := ht.acks !s
    rw [Bool.not_not] at hacks'
    refine ⟨_, tracks_ends s w (h.wire !s) (h.waiting s ++ extra) (h.waiting !s) hlinked ?_ ?_ ?_
      ?_ ?_ ?_ ?_ ?_, leads_ends (.single (.confirm hacks)) (leads_takes htakes hindex hlt hextra)⟩
    · rw [receive_self hin]
      refine ⟨haddr.trans hs.address, hs.accepted, hsends, ?_, ?_, hqueue⟩
      · rw [List.length_append]
        exact hnext
      · rw [← List.append_assoc, ← hs.reads]
        exact hreads
    · rw [receive_not]
      have hnot := ht.shows !s
      rw [Bool.not_not] at hnot
      exact ⟨hnot.address, hnot.accepted, hnot.sends, hnot.nextNr, hnot.reads, hnot.queue⟩
    · rw [receive_self hin]
    · have hin' := ht.inbox !s
      rw [Bool.not_not] at hin'
      rwa [receive_not]
    · exact ht.flight s
    · rfl
    · rfl
    · rw [hacks', List.map_append, List.append_assoc]

def Tracked (addr : UInt8) (old : Bool → List Bytes) (f : Frames) : Prop :=
  ∃ h, Tracks addr old h f ∧ ∀ s, (h.stream s).Safe 7

theorem tracked_leads {h' : History} (hsafe : ∀ s, (h.stream s).Safe 7) (ht : Tracks addr old h' f)
    (hl : Leads h h') : Tracked addr old f :=
  ⟨h', ht, fun s ↦ Stream.safe_steps (hsafe s) (by decide) (hl s)⟩

theorem tracked_receives (ht : Tracked addr old f) (s : Bool) (now : Instant) (k : ℕ) :
    Tracked addr old ((fun f : Frames ↦ f.receive s now)^[k] f) := by
  induction k with
  | zero => exact ht
  | succ k ih =>
    obtain ⟨h, ht, hsafe⟩ := ih
    obtain ⟨h', ht', hl⟩ := tracks_receive ht hsafe s now
    rw [Function.iterate_succ_apply']
    exact tracked_leads hsafe ht' hl

end Frames

namespace Net

open TinyFd Side Frames

def Op.Transfers : Op → Prop
  | .disconnect _ => False
  | _ => True

instance : ∀ op : Op, Decidable op.Transfers
  | .disconnect _ => .isFalse id
  | .sendPacket .. | .getTxData .. | .onRxData .. => .isTrue trivial

/-- A session lasts for as long as both stations stay connected. -/
def sessionStep (net : Net) (op : Op) : Option Net :=
  (net.step op).filter fun net' ↦ ∀ s, ((net' s).station.peer 0).state = .connected

/-- Two stations that have just connected: nothing is counted, queued or on its
way, and no receiver is in the middle of a frame. -/
structure JustConnected (net : Net) : Prop where
  fresh : ∀ s, Session.Fresh (net s).station 0
  nextNr : ∀ s, ((net s).station.peer 0).iQueueControl.rxState.nextNr = 0
  queue : ∀ s, (net s).station.frames.sQueue.held = []
  idle : ∀ s, (net s).station.hdlc.txData = none
  channel : ∀ s, (net s).inbox = []
  settled : net.Settled
  accepted : ∀ s, (net s).accepted = []

/-- When `generate_tx_frames` picks a frame, the occupied slots of the service
queue stand in the order in which they were filled. -/
def OldestFirst (net : Net) : Op → Prop
  | .getTxData s .. => (net s).station.hdlc.txData = none →
      InOrder (net s).station.frames.sQueue.frames (net s).station.frames.sQueue.lookupIndex
  | _ => True

/-- What each side has read since `net₀` is a prefix of what the other side's
`send_packet` has accepted. -/
def DeliversInOrder (net₀ net : Net) : Prop :=
  ∀ s, ∃ delivered, (net s).station.reads = (net₀ s).station.reads ++ delivered ∧
    delivered <+: (net !s).accepted

variable {addr : UInt8} {old : Bool → List Bytes} {net net' : Net}

theorem tracked_step (hl : Linked net) (ha : net.Settled)
    (ht : Tracked addr old net.frames) {op : Op} (htransfers : op.Transfers)
    (horder : net.OldestFirst op) (hs : net.sessionStep op = some net') : Linked net' ∧
    net'.Settled ∧ Tracked addr old net'.frames := by
  rw [sessionStep, Option.filter_eq_some_iff] at hs
  obtain ⟨hs, hconn⟩ := hs
  rw [decide_eq_true_eq] at hconn
  obtain ⟨h, ht, hsafe⟩ := ht
  cases op with
  | sendPacket s address data timeoutMs =>
    obtain ⟨hf, hl', ha'⟩ := sendPacket_settled hl ha hs
    obtain ⟨h', ht', hlead⟩ := tracks_sendPacket ht hsafe s address data timeoutMs
    refine ⟨hl', ha', ?_⟩
    rw [hf]
    exact tracked_leads hsafe ht' hlead
  | disconnect => exact htransfers.elim
  | getTxData s now room timeoutMs lost =>
    obtain ⟨ll, hf, hl', ha', -⟩ := getTxData_settled hl ha hs
    have hstation : ((net.frames.checkTimeouts s now) s).station =
        (net s).station.checkTimeouts now := by
      rw [Frames.checkTimeouts, put_self]
      rfl
    have hone : ((net s).station.checkTimeouts now).peerMgr.peers.length = 1 := by
      rw [peers_length_congr (setup_checkTimeouts ..), hl.one s]
    have hup : (((net s).station.checkTimeouts now).peer 0).state = .connected := by
      rw [← (generateTxFrames_calm hone now).2.1, ← hconn s]
      have hside := congrFun hf s
      rw [Frames.withHdlc, put_self, generateTxFrames_self, hstation] at hside
      exact congrArg (fun side : Side Bytes ↦ (side.station.peer 0).state) hside.symm
    have ht₁ := tracks_checkTimeouts ht s now hup
    obtain ⟨-, hq, -⟩ := (ht.shows s).sends.checkTimeouts (hl.one s) now hup
    have horder₁ : ((net.frames.checkTimeouts s now) s).station.hdlc.txData = none →
        InOrder ((net.frames.checkTimeouts s now) s).station.frames.sQueue.frames
          ((net.frames.checkTimeouts s now) s).station.frames.sQueue.lookupIndex := by
      rw [hstation, checkTimeouts_hdlc]
      change _ → InOrder ((net.frames s).station.checkTimeouts now).frames.sQueue.frames
        ((net.frames s).station.checkTimeouts now).frames.sQueue.lookupIndex
      rw [hq]
      exact horder
    obtain ⟨h', ht', hlead⟩ := tracks_generateTxFrames ht₁ s now lost horder₁
    rw [hstation] at ht'
    refine ⟨hl', ha', tracked_leads hsafe ?_ hlead⟩
    have hlf := hl'.frames
    rw [hf] at hlf ⊢
    exact tracks_withHdlc ht' hlf
  | onRxData s now count =>
    obtain ⟨ll, hf, -, hl', ha'⟩ := onRxData_settled hl ha hs
    obtain ⟨h', ht', hsafe'⟩ := tracked_receives ⟨h, ht, hsafe⟩ s now
      ((net s).station.decode (net s).station.hdlc.phase ((net s).inbox.take count)).2.length
    refine ⟨hl', ha', h', ?_, hsafe'⟩
    have hlf := hl'.frames
    rw [hf] at hlf ⊢
    exact tracks_withHdlc ht' hlf

theorem tracked_start (hl : Linked net) (hj : net.JustConnected) :
    Tracked ((net true).station.addrField 0) (fun s ↦ (net s).station.reads) net.frames := by
  have haddr : ∀ s, (net s).station.addrField 0 = (net true).station.addrField 0 :=
    both true rfl (hl.address true)
  refine ⟨⟨fun _ ↦ .start, fun _ ↦ [], fun _ ↦ []⟩, ⟨hl.frames, ?_, ?_, fun _ ↦ rfl, fun _ ↦ rfl⟩,
    fun _ ↦ Stream.safe_start 7⟩
  · intro s
    refine ⟨haddr s, hj.accepted s, ?_, hj.nextNr s, (List.append_nil _).symm,
      FrameQueue.queues_nil (hj.queue s)⟩
    exact Sends.of_window (Session.window_start (hl.wf s) (hj.fresh s))
  · intro s
    have hpending : net.pending s = [] := by
      rw [pending, hj.channel s, HdlcLl.txRest_eq_nil.mpr (hj.idle !s), ite_self, List.append_nil]
    change (net.outlook s).2 = []
    rw [outlook, hpending]
    rfl

/-- Over a session in which acknowledgements leave in the order in which they
were queued, whatever gets lost on the way and whatever timers run out, each side
has read at every moment a prefix of what the other side accepted. -/
theorem delivers_in_order {config : Bool → TinyFdConfig} (hp : Pair config)
    (hr : ∀ s, Reachable (config s) (net s).station) (hj : net.JustConnected) (ops : List Op)
    (htransfers : ∀ op ∈ ops, op.Transfers) (horder : EachStep sessionStep OldestFirst net ops) :
    EachState sessionStep (DeliversInOrder net) net ops := by
  have hl := linked_of_reachable hp hr
  have htracked := eachState_of_eachStep
    (P := fun net' : Net ↦ Linked net' ∧ net'.Settled ∧
      Tracked ((net true).station.addrField 0) (fun s ↦ (net s).station.reads) net'.frames)
    (fun _ _ _ ⟨hl, ha, ht⟩ hop hs ↦ tracked_step hl ha ht hop.1 hop.2 hs)
      ⟨hl, hj.settled, tracked_start hl hj⟩
    (horder.and_mem htransfers)
  apply htracked.mono
  rintro net' ⟨-, -, h, ht, hsafe⟩ s
  have haccepted := (ht.shows !s).accepted
  refine ⟨(h.stream !s).delivered, (ht.shows s).reads, ?_⟩
  rw [show (net' !s).accepted = (h.stream !s).accepted from haccepted]
  exact (hsafe !s).delivered

instance (net : Net) : Decidable net.JustConnected :=
  decidable_of_iff ((∀ s, Session.Fresh (net s).station 0) ∧
      (∀ s, ((net s).station.peer 0).iQueueControl.rxState.nextNr = 0) ∧
      (∀ s, (net s).station.frames.sQueue.held = []) ∧ (∀ s, (net s).station.hdlc.txData = none) ∧
      (∀ s, (net s).inbox = []) ∧ net.Settled ∧ ∀ s, (net s).accepted = [])
    ⟨fun ⟨h₁, h₂, h₃, h₄, h₅, h₆, h₇⟩ ↦ ⟨h₁, h₂, h₃, h₄, h₅, h₆, h₇⟩,
      fun h ↦ ⟨h.1, h.2, h.3, h.4, h.5, h.6, h.7⟩⟩

instance (net : Net) : ∀ op, Decidable (net.OldestFirst op)
  | .getTxData .. => by unfold OldestFirst; infer_instance
  | .sendPacket .. | .disconnect _ | .onRxData .. => .isTrue trivial

def recovery : List Op :=
  [.sendPacket true 1 [1] 0, .sendPacket true 1 [2] 0, .getTxData true 0 9 0 true,
    .getTxData true 0 9 0 false, .onRxData false 0 9, .getTxData false 0 9 0 false,
    .onRxData true 0 9, .getTxData true 0 9 0 false, .getTxData true 0 9 0 false,
    .onRxData false 0 99]

def recoveredNet : Net := (run sessionStep connectedNet recovery).get (by decide +kernel)

theorem delivers_in_order_recovery :
    DeliversInOrder connectedNet recoveredNet ∧ (recoveredNet false).station.reads =
      [[1], [2]] := by
  refine ⟨?_, by decide +kernel⟩
  have h :=
    delivers_in_order plainConfig_pair (reachable_replay _)
      (by decide +kernel : connectedNet.JustConnected) recovery (by decide +kernel)
        (by decide +kernel)
  exact h.of_run (Option.some_get _).symm

def overtaking : List Op :=
  [.sendPacket true 1 [0] 0, .sendPacket true 1 [1] 0, .sendPacket true 1 [2] 0,
    .sendPacket true 1 [3] 0,
    .getTxData true 0 9 0 false, .getTxData true 0 9 0 false, .getTxData true 0 9 0 false,
    .getTxData true 0 9 0 false, .onRxData false 0 99, .getTxData false 0 9 0 false,
    .getTxData false 0 9 0 false, .onRxData true 0 4, .sendPacket true 1 [4] 0,
    .sendPacket true 1 [5] 0, .sendPacket true 1 [6] 0, .sendPacket true 1 [7] 0,
    .sendPacket true 1 [8] 0, .sendPacket true 1 [9] 0, .sendPacket true 1 [10] 0,
    .onRxData true 0 4, .sendPacket true 1 [11] 0, .sendPacket true 1 [12] 0,
    .getTxData true 0 9 0 false, .onRxData false 0 99]

def overtakenNet : Net := (run sessionStep connectedNet overtaking).get (by decide +kernel)

/-- The fifth payload that the second station reads is the thirteenth accepted. -/
theorem delivers_out_of_order :
    ∃ (config : Bool → TinyFdConfig) (net net' : Net) (ops : List Op), Pair config ∧
      (∀ s, Reachable (config s) (net s).station) ∧ net.JustConnected ∧ (∀ op ∈ ops, op.Transfers) ∧
      run sessionStep net ops = some net' ∧
      (net' false).station.reads = [[0], [1], [2], [3], [12]] ∧
      (net' true).accepted = [[0], [1], [2], [3], [4], [5], [6], [7], [8], [9], [10], [11], [12]] ∧
      ¬ DeliversInOrder net net' := by
  have hreads : (overtakenNet false).station.reads = [[0], [1], [2], [3], [12]] := by decide +kernel
  have haccepted : (overtakenNet true).accepted =
      [[0], [1], [2], [3], [4], [5], [6], [7], [8], [9], [10], [11], [12]] := by decide +kernel
  have hnone : (connectedNet false).station.reads = [] := by decide +kernel
  refine ⟨plainConfig, connectedNet, overtakenNet, overtaking, plainConfig_pair,
    reachable_replay _, by decide +kernel, by decide +kernel, (Option.some_get _).symm, hreads,
    haccepted, ?_⟩
  intro h
  obtain ⟨delivered, hd, hpre⟩ := h false
  rw [hreads, hnone, List.nil_append] at hd
  rw [← hd, Bool.not_false, haccepted] at hpre
  exact absurd hpre (by decide)

end Net

end TinyProto
