import TinyProto.Fd.Session
import TinyProto.Fd.Single
import TinyProto.Lib.Ring

namespace TinyProto

open Lib

namespace FrameQueue

variable {q q' : FrameQueue} {xs : List FrameInfo}

/-- The queue holds `xs`, filled in this order. -/
def Queues (q : FrameQueue) (xs : List FrameInfo) : Prop :=
  Ring q.frames (q.lookupIndex % q.capacity) xs ∧ (xs = [] ∨ q.lookupIndex < q.capacity)

theorem queues_nil (h : q.held = []) : q.Queues [] := by
  refine ⟨ring_of_none ?_, .inl rfl⟩
  intro slot hmem
  cases slot with
  | none => rfl
  | some frame =>
    rw [← mem_held, h] at hmem
    cases hmem

theorem Queues.put (h : q.Queues xs) {frame : FrameInfo} {i : ℕ} (ha : q.Allocated q' frame i) :
    q'.Queues (xs ++ [frame]) := by
  have hi := (List.getElem?_eq_some_iff.mp ha.free).1
  have hpos : 0 < q.capacity := Nat.zero_lt_of_lt hi
  have hs : q.lookupIndex % q.capacity < q.frames.length := Nat.mod_lt _ hpos
  have hroom := h.1.room hs (List.mem_of_getElem? ha.free)
  have hat := ha.turn hroom
  have hlookup : q'.lookupIndex = (q.lookupIndex % q.capacity + 1) % q.capacity := by
    rw [ha.lookup, hat]
  have hlt : q'.lookupIndex < q'.capacity := by
    rw [hlookup, ha.capacity]
    exact Nat.mod_lt _ hpos
  refine ⟨?_, .inr hlt⟩
  rw [Nat.mod_eq_of_lt hlt, hlookup, ha.frames, hat]
  exact h.1.push hs hroom frame

theorem Queues.pop (h : q.Queues xs) (horder : InOrder q.frames q.lookupIndex)
    {frame : FrameInfo} {i : ℕ} (hi : q.get i = some frame) (hlow : ∀ j < i, q.get j = none) :
    ∃ rest, xs = frame :: rest ∧ (q.free i).Queues rest := by
  cases xs with
  | nil =>
    have hmem : some frame ∈ q.frames := List.mem_of_getElem? (Option.join_eq_some_iff.mp hi)
    cases h.1.none_of_nil hmem
  | cons x rest =>
    have hlt := h.2.resolve_left (List.cons_ne_nil x rest)
    have hring := h.1
    rw [Nat.mod_eq_of_lt hlt] at hring
    obtain ⟨rfl, hpop⟩ := hring.pop horder hi hlow
    refine ⟨rest, rfl, ?_, .inr ?_⟩
    · rw [capacity_free]
      change Ring _ (q.lookupIndex % q.capacity) rest
      rwa [Nat.mod_eq_of_lt hlt]
    · rwa [capacity_free]

theorem Queues.eq_nil (h : q.Queues xs) (hnone : ∀ i, q.get i = none) : xs = [] := by
  apply h.1.nil_of_none
  intro slot hmem
  obtain ⟨i, hi, rfl⟩ := List.getElem_of_mem hmem
  have hget := hnone i
  rwa [get, List.getElem?_eq_getElem hi, Option.join_some] at hget

theorem Queues.held_nil (h : q.Queues []) : q.held = [] := by
  rw [List.eq_nil_iff_forall_not_mem]
  intro frame hmem
  cases h.1.none_of_nil (mem_held.mp hmem)

theorem Queues.inOrder (h : q.Queues xs) (hone : xs.length ≤ 1) :
    InOrder q.frames q.lookupIndex := by
  rcases Nat.lt_or_ge q.lookupIndex q.capacity with hlt | hge
  · have hring := h.1
    rw [Nat.mod_eq_of_lt hlt] at hring
    exact hring.inOrder hone
  · right
    rw [List.drop_eq_nil_of_le hge]
    intro slot hmem
    cases hmem

end FrameQueue

def Callback.payload : Callback → Option Bytes
  | .read _ payload => some payload
  | .connect .. => none

def TinyFd.reads (fd : TinyFd) : List Bytes := fd.callbacks.filterMap Callback.payload

/-- A frame of a session, with the counts that its sequence numbers stand for:
the payload of index `n`, or an RR or REJ. -/
inductive Wire
  | data (n nr : ℕ)
  | ack (reject : Bool) (nr : ℕ)

namespace Wire

open TinyFd

def nr : Wire → ℕ
  | data _ nr => nr
  | ack _ nr => nr

def rejects : Wire → Bool
  | data .. => false
  | ack reject _ => reject

def index : Wire → Option ℕ
  | data n _ => some n
  | ack .. => none

def info (address : UInt8) (ack : Bool × ℕ) : FrameInfo :=
  ⟨.sFrame, if ack.1 then rejHeader address (seq ack.2) else rrHeader address (seq ack.2), []⟩

def bytes (address : UInt8) (payloads : List Bytes) : Wire → Bytes
  | data n nr => address :: iControl (seq n) (seq nr) :: payloads.getD n []
  | ack reject nr => (info address (reject, nr)).toBytes

variable (address : UInt8) (payloads : List Bytes)

theorem data_control (n nr : ℕ) :
    let control := ((data n nr).bytes address payloads).getD 1 0
    control &&& hdlcUFrameMask ≠ hdlcUFrameBits ∧ control &&& hdlcIFrameMask = hdlcIFrameBits ∧
      ackNr control = seq nr ∧ (control >>> 5) &&& seqBitsMask = seq n := by
  refine ⟨not_isU_iControl n nr, isI_iControl n nr, ?_, ns_iControl n nr⟩
  rw [ackNr]
  exact (if_pos (isI_iControl n nr)).trans (nr_iControl n nr)

theorem ack_control (reject : Bool) (nr : ℕ) :
    let control := ((ack reject nr).bytes address payloads).getD 1 0
    control &&& hdlcUFrameMask ≠ hdlcUFrameBits ∧ control &&& hdlcIFrameMask ≠ hdlcIFrameBits ∧
      ackNr control = seq nr := by
  have hne : hdlcSFrameBits ≠ hdlcUFrameBits := by decide
  have hall : ∀ header : FrameHeader, (header.control >>> 5) &&& seqBitsMask = seq nr →
      header.control &&& hdlcSFrameMask = hdlcSFrameBits →
      header.control &&& hdlcUFrameMask ≠ hdlcUFrameBits ∧
      header.control &&& hdlcIFrameMask ≠ hdlcIFrameBits ∧
        ackNr header.control = seq nr := by
    intro header hnr hS
    have hI := not_isI_of_service (.inr hS)
    refine ⟨fun hU ↦ hne (hS.symm.trans hU), hI, ?_⟩
    rw [ackNr, if_neg hI, hnr]
  cases reject with
  | false => exact hall _ (rrHeader_fields address nr).1 (rrHeader_fields address nr).2.2
  | true => exact hall _ (rejHeader_fields address nr).1 (rejHeader_fields address nr).2.2

theorem control (x : Wire) :
    let control := (x.bytes address payloads).getD 1 0
    control &&& hdlcUFrameMask ≠ hdlcUFrameBits ∧ ackNr control = seq x.nr ∧
    (IsRejection control ↔ x.rejects) := by
  cases x with
  | data n nr =>
    obtain ⟨hU, hI, hnr, -⟩ := data_control address payloads n nr
    refine ⟨hU, hnr, iff_of_false ?_ Bool.false_ne_true⟩
    exact fun hrej ↦ hrej.1 hI
  | ack reject nr =>
    obtain ⟨hU, hI, hnr⟩ := ack_control address payloads reject nr
    refine ⟨hU, hnr, ?_⟩
    have hne : hdlcSFrameTypeRr ≠ hdlcSFrameTypeRej ∧ hdlcSFrameTypeRr ≠ hdlcSFrameTypeSrej := by
      decide
    cases reject with
    | false =>
      have hrr := (rrHeader_fields address nr).2.1
      refine iff_of_false ?_ Bool.false_ne_true
      exact fun hrej ↦ hrej.2.elim (fun ht ↦ hne.1 (hrr.symm.trans ht)) fun ht ↦
        hne.2 (hrr.symm.trans ht)
    | true => exact iff_of_true ⟨hI, .inl (rejHeader_fields address nr).2.1⟩ rfl

theorem two_le_length (x : Wire) : 2 ≤ (x.bytes address payloads).length := by
  cases x
  · exact Nat.le_add_left 2 _
  · exact le_rfl

theorem bytes_append {x : Wire} (h : ∀ n ∈ x.index, n < payloads.length) (more : List Bytes) :
    x.bytes address (payloads ++ more) = x.bytes address payloads := by
  cases x with
  | data n nr => rw [bytes, bytes, List.getD_append _ _ _ _ (h n rfl)]
  | ack => rfl

theorem bytes_address (x : Wire) : (x.bytes address payloads).getD 0 0 = address := by
  cases x with
  | data => rfl
  | ack reject => cases reject <;> rfl

end Wire

namespace TinyFd

variable {fd fd' : TinyFd} {accepted : List Bytes} {confirmed : ℕ}

/-- A connected station with one peer as a sender: its counters and its queue
show the payloads accepted and how many of them are confirmed. -/
def Sends (fd : TinyFd) (accepted : List Bytes) (confirmed : ℕ) : Prop :=
  Session.Window 0 ⟨fd, accepted, confirmed, [], 0⟩

namespace Sends

theorem of_window {s : Session} (h : Session.Window 0 s) : Sends s.fd s.accepted s.confirmed :=
  ⟨⟨h.wf, h.peer, h.distinct, h.connected, h.confirm, h.last, h.le, h.lt⟩, h.queue⟩

variable (h : Sends fd accepted confirmed)
include h

theorem connected : (fd.peer 0).state = .connected := Session.Counted.connected h.toCounted

theorem zero_lt : 0 < fd.peerMgr.peers.length := Session.Counted.peer h.toCounted

theorem wf : WellFormed fd := Session.Counted.wf h.toCounted

theorem confirmNs : (fd.peer 0).iQueueControl.txState.confirmNs = seq confirmed :=
  Session.Counted.confirm h.toCounted

theorem lastNs : (fd.peer 0).iQueueControl.txState.lastNs = seq accepted.length :=
  Session.Counted.last h.toCounted

theorem window : accepted.length ≤ confirmed + 7 := Session.Counted.lt h.toCounted

theorem confirmed_le : confirmed ≤ accepted.length := Session.Counted.le h.toCounted

theorem iPairs :
    (fd.frames.iQueue.iPairs (fd.addrField 0)).Perm (windowPairs accepted confirmed) := by
  have hqueue := Session.Window.queue h
  exact hqueue

theorem step {op : SessionOp} {s' : Session}
    (hin : Session.AckInWindow 0 ⟨fd, accepted, confirmed, [], 0⟩ op)
    (hs : Session.advance 0 ⟨fd, accepted, confirmed, [], 0⟩ op = some s')
    (hconn : (s'.fd.peer 0).state = .connected) : Sends s'.fd s'.accepted s'.confirmed := by
  refine of_window (Session.window_step h hin ?_)
  rw [Session.step, hs, Option.filter_some, if_pos (by simpa using hconn)]

theorem withHdlc {ll : HdlcLl} (hwf : WellFormed (fd.withHdlc ll)) :
    Sends (fd.withHdlc ll) accepted confirmed := by
  have hdistinct : Distinct fd 0 := Session.Counted.distinct h.toCounted
  exact ⟨⟨hwf, h.zero_lt, hdistinct, h.connected, h.confirmNs, h.lastNs, h.confirmed_le, h.window⟩,
    h.iPairs⟩

theorem sendPacket (hone : fd.peerMgr.peers.length = 1) (address : UInt8) (data : Bytes)
    (timeoutMs : ℕ) :
    let r := fd.sendPacket address data timeoutMs
    Sends r.1 (if r.2.isOk then accepted ++ [data] else accepted) confirmed ∧
      r.1.frames.sQueue = fd.frames.sQueue ∧ r.1.callbacks = fd.callbacks ∧
      (r.1.peer 0).iQueueControl.rxState = (fd.peer 0).iQueueControl.rxState ∧
      (r.1.peer 0).iQueueControl.txState.nextNs = (fd.peer 0).iQueueControl.txState.nextNs ∧
      r.1.hdlc = fd.hdlc := by
  intro r
  have hstate :=
    (sendPacket_keeps h.wf.peers_ne h.zero_lt (Session.Counted.distinct h.toCounted) address
      data timeoutMs).1
  have hin : Session.AckInWindow 0 ⟨fd, accepted, confirmed, [], 0⟩
      (.sendPacket address data timeoutMs) := trivial
  have hsend := h.step hin rfl (hstate.trans h.connected)
  dsimp only at hsend
  rcases fd.sendPacket_cases address data timeoutMs with ⟨e, he⟩ | ⟨hvalid, -, -, q, k,
    events, -, he⟩
  · have hr : r = _ := he
    rw [hr]
    exact ⟨h, rfl, rfl, rfl, rfl, rfl⟩
  · have hpeer : fd.sendPeer address = 0 := by
      have hlt := sendPeer_lt h.wf.peers_ne hvalid
      omega
    have hr : r = _ := he
    rw [he, hpeer] at hsend
    rw [hr, hpeer]
    refine ⟨?_, rfl, rfl, ?_, ?_, rfl⟩
    · rwa [if_pos ⟨rfl, rfl⟩] at hsend
    · change ((fd.modifyPeer 0 _).peer 0).iQueueControl.rxState = _
      rw [peer_modifyPeer_self h.zero_lt]
      rfl
    · change ((fd.modifyPeer 0 _).peer 0).iQueueControl.txState.nextNs = _
      rw [peer_modifyPeer_self h.zero_lt]
      rfl

theorem held_length (hone : fd.peerMgr.peers.length = 1) :
    fd.frames.iQueue.held.length = accepted.length - confirmed := by
  rw [← windowPairs_length, ← h.iPairs.length_eq, FrameQueue.iPairs, List.length_map,
    List.filter_eq_self.mpr]
  intro frame hmem
  obtain ⟨htype, ⟨p, hp, haddr⟩, -⟩ := h.wf.iFrames frame hmem
  obtain rfl : p = 0 := by omega
  simp only [htype, haddr, beq_self_eq_true, Bool.and_self]

/-- A payload is accepted while the window and the slots leave room for it. -/
theorem sendPacket_ok (hone : fd.peerMgr.peers.length = 1)
    (hready : fd.frames.iQueue.hasFreeSlots → fd.events &&& fdEventQueueHasFreeSlots ≠ 0)
    {address : UInt8} (hpeer : fd.sendPeer address = 0) {data : Bytes} (hlen : data.length ≤ fd.mtu)
    (hroom : accepted.length < confirmed + fd.frames.iQueue.capacity) (timeoutMs : ℕ) :
    (fd.sendPacket address data timeoutMs).2 = .ok () := by
  have hheld : fd.frames.iQueue.held.length < fd.frames.iQueue.capacity := by
    have hle := h.confirmed_le
    rw [h.held_length hone]
    omega
  have hw : fd.waitEvents fdEventQueueHasFreeSlots ≠ 0 :=
    hready (fd.frames.iQueue.hasFreeSlots_iff.mpr hheld)
  have hfull : (fd.peer 0).iQueueControl.txFull = false := by
    have hcap := h.wf.iCapacity.2
    rw [IQueueControl.txFull, h.lastNs, h.confirmNs, seq_succ, beq_eq_false_iff_ne]
    intro hseq
    have hle := h.confirmed_le
    have hsame := seq_inj hseq (by omega) (by omega)
    omega
  have hvalid : (0 : ℕ) ≠ hdlcInvalidPeerIndex := by decide
  rw [TinyFd.sendPacket, if_neg (by omega)]
  dsimp only
  rw [hpeer, if_neg hvalid, if_neg hw, putIFrame]
  dsimp only
  rw [if_neg (by rw [hfull]; decide)]
  rcases fd.frames.iQueue.allocate_spec .iFrame
      ⟨fd.addrField 0,
        iControl (fd.peer 0).iQueueControl.getLastNs
          (fd.peer 0).iQueueControl.getNextFrameToReceive⟩
      data with ⟨q, i, hq, -⟩ | ⟨-, hno⟩
  · rw [hq]
    dsimp only
    split <;> rfl
  · omega

theorem sendable {n : ℕ} (hnext : (fd.peer 0).iQueueControl.txState.nextNs = seq n)
    (hle : confirmed ≤ n) (hlt : n < accepted.length) : ∃ frame, fd.Sendable 0 frame := by
  have hwindow := h.window
  have hne : (fd.peer 0).iQueueControl.txState.nextNs ≠
      (fd.peer 0).iQueueControl.txState.lastNs := by
    rw [hnext, h.lastNs]
    intro hseq
    have hsame := seq_inj hseq (by omega) (by omega)
    omega
  have hmem : (seq n, accepted[n]) ∈ fd.frames.iQueue.iPairs (fd.addrField 0) :=
    h.iPairs.mem_iff.mpr (mem_windowPairs.mpr ⟨n, hle, hlt, rfl⟩)
  obtain ⟨frame, hheld, htype, haddr, hpair⟩ := FrameQueue.mem_iPairs.mp hmem
  rw [Prod.mk.injEq] at hpair
  cases hget : fd.frames.iQueue.getNext .iFrame (fd.addrField 0)
    (fd.peer 0).iQueueControl.txState.nextNs with
  | none =>
      exact (FrameQueue.getNext_none hget hheld
        ⟨htype, haddr, fun _ ↦ hpair.1.trans hnext.symm⟩).elim
  | some found => exact ⟨found.2, h.connected, hne, found.1, hget⟩

theorem checkTimeouts (hone : fd.peerMgr.peers.length = 1) (now : Instant)
    (hconn : ((fd.checkTimeouts now).peer 0).state = .connected) :
    Sends (fd.checkTimeouts now) accepted confirmed ∧ (fd.checkTimeouts now).frames.sQueue =
      fd.frames.sQueue ∧ (fd.checkTimeouts now).callbacks = fd.callbacks ∧
      ((fd.checkTimeouts now).peer 0).iQueueControl.rxState =
        (fd.peer 0).iQueueControl.rxState := by
  have hin : Session.AckInWindow 0 ⟨fd, accepted, confirmed, [], 0⟩ (.checkTimeouts now) := trivial
  refine ⟨h.step hin rfl hconn, ?_⟩
  have he : fd.checkTimeouts now = fd.checkTimeout now 0 := by
    rw [TinyFd.checkTimeouts, hone]
    rfl
  rw [he] at hconn ⊢
  rcases fd.checkTimeout_cases now 0 with ⟨hsame, -⟩ | ⟨hs, -⟩ | ⟨hs, -⟩ | ⟨-, -, -, -,
    hdown⟩ | ⟨-, hretry⟩
  · rw [hsame]
    exact ⟨rfl, rfl, rfl⟩
  · rw [h.connected] at hs
    rcases hs with hs | hs <;> cases hs
  · rw [h.connected] at hs
    cases hs
  · rw [hdown, state_switchToDisconnected fd 0 now h.zero_lt] at hconn
    cases hconn
  · rw [hretry, peer_setEvents, peer_modifyPeer_self h.zero_lt]
    exact ⟨rfl, rfl, rfl⟩

end Sends

/-- What a call of `generate_tx_frames` picks of the `acks` that wait and of the
payloads accepted, and the acknowledgements that wait afterwards. -/
inductive Picks (fd fd' : TinyFd) (accepted : List Bytes) (confirmed r : ℕ)
    (acks : List (Bool × ℕ)) :
    Option Wire → List (Bool × ℕ) → Prop
  | nothing : fd' = fd → (fd.hdlc.txData = none → acks = [] ∧ ∀ frame, ¬ fd.Sendable 0 frame) →
      Picks fd fd' accepted confirmed r acks none acks
  | service {ack : Bool × ℕ} {rest : List (Bool × ℕ)} : acks = ack :: rest →
      fd'.peer 0 = fd.peer 0 →
      Picks fd fd' accepted confirmed r acks (some (.ack ack.1 ack.2)) rest
  | data {n : ℕ} : acks = [] → confirmed ≤ n → n < accepted.length →
      (fd.peer 0).iQueueControl.txState.nextNs = seq n →
      (fd'.peer 0).iQueueControl.txState.nextNs = seq (n + 1) →
      Picks fd fd' accepted confirmed r acks (some (.data n r)) []

inductive Chosen (accepted : List Bytes) (confirmed r : ℕ) (acks : List (Bool × ℕ)) :
    Option Wire → List (Bool × ℕ) → Prop
  | nothing : Chosen accepted confirmed r acks none acks
  | service {ack : Bool × ℕ} {rest : List (Bool × ℕ)} : acks = ack :: rest →
      Chosen accepted confirmed r acks (some (.ack ack.1 ack.2)) rest
  | data {n : ℕ} : acks = [] → confirmed ≤ n → n < accepted.length →
      Chosen accepted confirmed r acks (some (.data n r)) []

theorem Picks.chosen {r : ℕ} {acks rest : List (Bool × ℕ)} {picked : Option Wire}
    (h : Picks fd fd' accepted confirmed r acks picked rest) :
    Chosen accepted confirmed r acks picked rest := by
  cases h with
  | nothing => exact .nothing
  | service hacks => exact .service hacks
  | data hacks hle hlt => exact .data hacks hle hlt

theorem Sends.generateTxFrames
    (h : Sends fd accepted confirmed) (hone : fd.peerMgr.peers.length = 1)
    {address : UInt8} (haddress : fd.addrField 0 = address) (now : Instant)
    {acks : List (Bool × ℕ)}
    (hq : fd.frames.sQueue.Queues (acks.map (Wire.info address))) (horder : fd.hdlc.txData = none →
      InOrder fd.frames.sQueue.frames fd.frames.sQueue.lookupIndex)
      {r : ℕ} (hr : (fd.peer 0).iQueueControl.rxState.nextNr = seq r) :
    let fd' := fd.generateTxFrames now
    Sends fd' accepted confirmed ∧ ∃ picked rest,
      handed fd fd' = picked.map (Wire.bytes address accepted) ∧
      fd'.frames.sQueue.Queues (rest.map (Wire.info address)) ∧
      Picks fd fd' accepted confirmed r acks picked rest := by
  intro fd'
  subst haddress
  refine ⟨?_, ?_⟩
  · have hstate := (generateTxFrames_calm hone now).2.1
    have hin : Session.AckInWindow 0 ⟨fd, accepted, confirmed, [], 0⟩ (.generateTxFrames now) :=
      trivial
    have hstep := @Sends.step fd accepted confirmed h (.generateTxFrames now)
    rw [Session.advance] at hstep
    dsimp only at hstep
    split at hstep
    · exact hstep hin rfl (hstate.trans h.connected)
    · exact hstep hin rfl (hstate.trans h.connected)
  rcases generateTxFrames_handed hone now with ⟨hn, he, hidle⟩ | ⟨hidle, i, frame, hi,
    hlow, hh, he⟩ | ⟨hidle, hno, frame, hsend, hh, he⟩
  · refine ⟨none, acks, hn, ?_, .nothing he ?_⟩
    · rw [show fd' = fd from he]
      exact hq
    · intro hnone
      obtain ⟨hempty, hnot⟩ := hidle hnone
      exact ⟨List.map_eq_nil_iff.mp (hq.eq_nil hempty), hnot⟩
  · obtain ⟨rest, hxs, hrest⟩ := hq.pop (horder hidle) hi hlow
    obtain ⟨ack, acks', rfl, rfl, rfl⟩ := List.map_eq_cons_iff.mp hxs
    refine ⟨some (.ack ack.1 ack.2), acks', hh, ?_, .service rfl ?_⟩
    · rw [show fd' = _ from he]
      exact hrest
    · rw [show fd' = _ from he]
      rfl
  · have hacks := List.map_eq_nil_iff.mp (hq.eq_nil hno)
    obtain ⟨-, -, i, hget⟩ := hsend
    obtain ⟨hheld, htype, haddr, hns⟩ := FrameQueue.getNext_some hget
    have hmem := FrameQueue.mem_iPairs.mpr ⟨frame, hheld, htype, haddr, rfl⟩
    obtain ⟨n, hle, hlt, hpair⟩ := mem_windowPairs.mp (h.iPairs.mem_iff.mp hmem)
    rw [Prod.mk.injEq, hns rfl] at hpair
    have hdata : fd.sendIData 0 frame = (Wire.data n r).bytes (fd.addrField 0) accepted := by
      rw [sendIData_eq, haddr, hpair.1, hpair.2, hr, Wire.bytes, List.getD_eq_getElem _ _ hlt]
    refine ⟨some (.data n r), [], ?_, ?_, .data hacks hle hlt hpair.1 ?_⟩
    · rw [show handed fd fd' = _ from hh, hdata]
      rfl
    · rw [show fd' = _ from he, frames_modifyPeer]
      rw [hacks] at hq
      exact hq
    · rw [show fd' = _ from he, peer_modifyPeer_self (by exact h.zero_lt), ← seq_succ, ← hpair.1]
      rfl

/-- What a station that has read `r` payloads of the other one makes of a frame:
the payload it reads and the acknowledgement that it wants to send. -/
inductive Takes (payloads : List Bytes) (r : ℕ) : Wire → Option Bytes → Option (Bool × ℕ) → Prop
  | ack {reject : Bool} {nr : ℕ} : Takes payloads r (.ack reject nr) none none
  | refused {n nr : ℕ} {answer : Option (Bool × ℕ)} : n % 8 ≠ r % 8 →
      (answer = none ∨ answer = some (true, r)) → Takes payloads r (.data n nr) none answer
  | delivered {n nr : ℕ} : n % 8 = r % 8 →
      Takes payloads r (.data n nr) (some (payloads.getD n [])) (some (false, r + 1))

def Answered (q q' : FrameQueue) (address : UInt8) (answer : Option (Bool × ℕ)) : Prop :=
  match answer with
  | none => q' = q
  | some ack => Puts q q' (Wire.info address ack)

theorem Answered.queues {q q' : FrameQueue} {address : UInt8} {answer : Option (Bool × ℕ)}
    {acks : List (Bool × ℕ)} (h : Answered q q' address answer)
    (hq : q.Queues (acks.map (Wire.info address))) :
    ∃ extra : List (Bool × ℕ), (extra = [] ∨ ∃ ack, answer = some ack ∧ extra = [ack]) ∧
      q'.Queues ((acks ++ extra).map (Wire.info address)) := by
  cases answer with
  | none =>
    refine ⟨[], .inl rfl, ?_⟩
    rw [show q' = q from h, List.append_nil]
    exact hq
  | some ack =>
    rcases h with ⟨i, ha⟩ | ⟨-, rfl⟩
    · refine ⟨[ack], .inr ⟨ack, rfl, rfl⟩, ?_⟩
      rw [List.map_append]
      exact hq.put ha
    · refine ⟨[], .inl rfl, ?_⟩
      rw [List.append_nil]
      exact hq

def readCalls (fd : TinyFd) (p : ℕ) (delivered : Option Bytes) : List Callback :=
  delivered.toList.map (.read (fd.userAddress p))

theorem reads_readCalls (p : ℕ) (delivered : Option Bytes)
    (h : fd'.callbacks = fd.callbacks ++ fd.readCalls p delivered) :
    fd'.reads = fd.reads ++ delivered.toList := by
  rw [reads, h, List.filterMap_append]
  cases delivered <;> rfl

theorem receive_takes {p : ℕ} (h : WellFormed fd) (hp : p < fd.peerMgr.peers.length) (x : Wire)
    (payloads : List Bytes) {r : ℕ} (hr : (fd.peer p).iQueueControl.rxState.nextNr = seq r) :
    let data := x.bytes (fd.addrField p) payloads
    let fd' := if data.getD 1 0 &&& hdlcIFrameMask = hdlcIFrameBits then fd.onIFrameReceived p data
      else fd.onSFrameReceived p data
    ∃ delivered answer, Takes payloads r x delivered answer ∧
      fd'.callbacks = fd.callbacks ++ fd.readCalls p delivered ∧
      (fd'.peer p).iQueueControl.rxState.nextNr = seq (r + delivered.toList.length) ∧
      Answered fd.frames.sQueue fd'.frames.sQueue (fd.addrField p) answer := by
  intro data fd'
  obtain ⟨m, hm⟩ := exists_seq_of_lt (h.counters p hp).confirm
  cases x with
  | ack reject nr =>
    have hfd : fd' = fd.onSFrameReceived p data :=
      if_neg (Wire.ack_control (fd.addrField p) payloads reject nr).2.1
    obtain ⟨hcb, hq, hrx, -⟩ := onSFrameReceived_rx hp hm data
    refine ⟨none, none, .ack, ?_, ?_, ?_⟩
    · rw [hfd, hcb]
      exact (List.append_nil _).symm
    · rw [hfd, hrx]
      exact hr
    · rw [hfd]
      exact hq
  | data n nr =>
    obtain ⟨-, hI, -, hns⟩ := Wire.data_control (fd.addrField p) payloads n nr
    have hfd : fd' = fd.onIFrameReceived p data := if_pos hI
    rcases onIFrameReceived_rx hp hm data with ⟨hne, hcb, hrx, -, hq⟩ | ⟨heq, hcb, hrx, -, hq⟩
    · have hmod : n % 8 ≠ r % 8 := by
        rw [hr] at hne
        exact fun hmod ↦ hne (hns.trans (seq_eq_iff.mpr hmod))
      have hcalls : fd'.callbacks = fd.callbacks ++ fd.readCalls p none := by
        rw [hfd, hcb]
        exact (List.append_nil _).symm
      have hnr : (fd'.peer p).iQueueControl.rxState.nextNr =
          seq (r + (none : Option Bytes).toList.length) := by
        rw [hfd, hrx]
        exact hr
      rcases hq with ⟨-, hq⟩ | ⟨-, hq⟩
      · refine ⟨none, none, .refused hmod (.inl rfl), hcalls, hnr, ?_⟩
        rw [hfd]
        exact hq
      · refine ⟨none, some (true, r), .refused hmod (.inr rfl), hcalls, hnr, ?_⟩
        rw [hr] at hq
        rw [hfd]
        exact hq
    · rw [hr] at heq hrx hq
      rw [seq_succ] at hrx hq
      refine ⟨_, _, .delivered (seq_eq_iff.mp (hns.symm.trans heq)), ?_, ?_, ?_⟩
      · rw [hfd, hcb]
        rfl
      · rw [hfd, hrx]
        rfl
      · rw [hfd]
        exact hq

abbrev SendsTo (p : ℕ) (fd : TinyFd) (accepted : List Bytes) (confirmed : ℕ) : Prop :=
  Session.Window p ⟨fd, accepted, confirmed, [], 0⟩

theorem SendsTo.step {p : ℕ} (h : SendsTo p fd accepted confirmed) {op : SessionOp} {s' : Session}
    (hin : Session.AckInWindow p ⟨fd, accepted, confirmed, [], 0⟩ op)
    (hs : Session.advance p ⟨fd, accepted, confirmed, [], 0⟩ op = some s')
    (hconn : (s'.fd.peer p).state = .connected) : SendsTo p s'.fd s'.accepted s'.confirmed := by
  have hw :=
    Session.window_step h hin
      (by rw [Session.step, hs, Option.filter_some, if_pos (by simpa using hconn)])
  exact ⟨⟨hw.wf, hw.peer, hw.distinct, hw.connected, hw.confirm, hw.last, hw.le, hw.lt⟩, hw.queue⟩

theorem SendsTo.receive {p : ℕ} (h : SendsTo p fd accepted confirmed) {address : UInt8}
    (haddress : fd.addrField p = address) (haddr : fd.peerMgr.addressFieldToPeer address = p)
    (now : Instant) (x : Wire) (payloads : List Bytes) (hle : confirmed ≤ x.nr)
    (hnr : x.nr ≤ accepted.length) {r : ℕ} (hr : (fd.peer p).iQueueControl.rxState.nextNr = seq r) :
    let fd' := fd.onFrameReceived now (x.bytes address payloads)
    SendsTo p fd' accepted x.nr ∧
      (fd'.peer p).iQueueControl.txState.nextNs =
        (if x.rejects then seq x.nr else (fd.peer p).iQueueControl.txState.nextNs) ∧
      ∃ delivered answer, Takes payloads r x delivered answer ∧
        fd'.callbacks = fd.callbacks ++ fd.readCalls p delivered ∧
        (fd'.peer p).iQueueControl.rxState.nextNr = seq (r + delivered.toList.length) ∧
        Answered fd.frames.sQueue fd'.frames.sQueue address answer := by
  intro fd'
  subst haddress
  have hp : p < fd.peerMgr.peers.length := h.peer
  have hvalid : p < hdlcInvalidPeerIndex := hp.trans_le h.wf.peers_le
  have hconfirm : (fd.peer p).iQueueControl.txState.confirmNs = seq confirmed := h.confirm
  obtain ⟨hU, hack, hrej⟩ := Wire.control (fd.addrField p) payloads x
  have hto : fd.AddressedTo p (x.bytes (fd.addrField p) payloads) := by
    refine ⟨Wire.two_le_length .., ?_⟩
    rw [Wire.bytes_address]
    exact haddr
  have hctl : windowControl p fd (x.bytes (fd.addrField p) payloads) =
      some ((x.bytes (fd.addrField p) payloads).getD 1 0) := if_pos ⟨hto, hU⟩
  have hacked := onFrameReceived_acked hp hvalid now hctl h.connected hconfirm
  have hwindow : accepted.length ≤ confirmed + 7 := h.lt
  have hdist : seqDist (seq confirmed) (seq x.nr) = x.nr - confirmed := by
    rw [show x.nr = confirmed + (x.nr - confirmed) by omega, seqDist_seq]
    omega
  refine ⟨?_, ?_, ?_⟩
  · have hin : Session.AckInWindow p ⟨fd, accepted, confirmed, [], 0⟩
        (.onFrameReceived now (x.bytes (fd.addrField p) payloads)) := by
      intro control hmem
      obtain rfl := Option.some.inj (hctl.symm.trans hmem)
      rw [h.pending, hack]
      change seqDist (fd.peer p).iQueueControl.txState.confirmNs _ ≤ accepted.length - confirmed
      rw [hconfirm, hdist]
      omega
    have hstep :=
      @SendsTo.step fd accepted confirmed p h
        (.onFrameReceived now (x.bytes (fd.addrField p) payloads))
    rw [Session.advance] at hstep
    simp only [hctl] at hstep
    have hsends := hstep hin rfl (hacked.state.trans h.connected)
    have hcount : Session.ackCount ⟨fd, accepted, confirmed, [], 0⟩ p
        ((x.bytes (fd.addrField p) payloads).getD 1 0) = x.nr := by
      rw [Session.ackCount, hack]
      change confirmed + seqDist (fd.peer p).iQueueControl.txState.confirmNs _ = x.nr
      rw [hconfirm, hdist]
      omega
    rwa [hcount] at hsends
  · rw [hacked.txState]
    simp only [hrej, hack]
  · have hset := setup_touch fd p now
    have hpeer := peer_touch_self fd p now hp
    have hp₁ : p < (fd.touch p now).peerMgr.peers.length := by rwa [peers_length_touch]
    have htakes := @receive_takes (fd.touch p now) p (wellFormed_touch h.wf hp now) hp₁ x payloads r
      (by rw [hpeer, hr])
    have hcalls : ∀ delivered, (fd.touch p now).readCalls p delivered = fd.readCalls p delivered :=
      fun _ ↦ by
      rw [readCalls, userAddress_congr hset, readCalls]
    rw [addrField_congr hset] at htakes
    simp only [hcalls] at htakes
    rcases fd.onFrameReceived_cases now (x.bytes (fd.addrField p) payloads) with ⟨hno, -⟩ | ⟨q,
      hto', -, hcases⟩
    · exact absurd hto (hno p hvalid)
    · obtain rfl : q = p := hto'.2.symm.trans hto.2
      rcases hcases with ⟨hU', -⟩ | ⟨-, hs, -, -⟩ | ⟨-, -, ⟨hI, he⟩ | ⟨hI, he⟩⟩
      · exact absurd hU' hU
      · rw [hpeer] at hs
        exact absurd h.connected hs
      · rw [if_pos hI] at htakes
        rw [show fd' = _ from he]
        exact htakes
      · rw [if_neg hI] at htakes
        rw [show fd' = _ from he]
        exact htakes

theorem Sends.receive (h : Sends fd accepted confirmed) {address : UInt8}
    (haddress : fd.addrField 0 = address) (haddr : fd.peerMgr.addressFieldToPeer address = 0)
    (now : Instant) (x : Wire) (payloads : List Bytes) (hle : confirmed ≤ x.nr)
    (hnr : x.nr ≤ accepted.length) {r : ℕ} (hr : (fd.peer 0).iQueueControl.rxState.nextNr = seq r) :
    let fd' := fd.onFrameReceived now (x.bytes address payloads)
    Sends fd' accepted x.nr ∧
      (fd'.peer 0).iQueueControl.txState.nextNs =
        (if x.rejects then seq x.nr else (fd.peer 0).iQueueControl.txState.nextNs) ∧
      ∃ delivered answer, Takes payloads r x delivered answer ∧
        fd'.reads = fd.reads ++ delivered.toList ∧ (fd'.peer 0).iQueueControl.rxState.nextNr =
          seq (r + delivered.toList.length) ∧
        Answered fd.frames.sQueue fd'.frames.sQueue address answer := by
  intro fd'
  obtain ⟨hsends, hnext, delivered, answer, htakes, hcalls, hrest⟩ :=
    SendsTo.receive h haddress haddr now x payloads hle hnr hr
  exact ⟨hsends, hnext, delivered, answer, htakes, reads_readCalls 0 delivered hcalls, hrest⟩

end TinyFd

end TinyProto
