import TinyProto.Fd.Reports

namespace TinyProto.TinyFd

open Lib

variable {fd fd' : TinyFd} {i : ℕ}

theorem handed_iFrame (h : WellFormed fd) {now : Instant} {data : Bytes}
    (hd : handed fd (fd.generateTxFrames now) = some data)
    (hI : data.getD 1 0 &&& hdlcIFrameMask = hdlcIFrameBits) : ∃ p frame,
    p < fd.peerMgr.peers.length ∧ data.getD 0 0 = fd.addrField p ∧ data = fd.sendIData p frame ∧
      fd.generateTxFrames now = (fd.handOver (fd.sendIData p frame)).modifyPeer p fun q ↦
        { q with
          iQueueControl := q.iQueueControl.advanceNextNs
          lastSentITs := now
          lastSentFrameTs := now
          retries := fd.retries } := by
  rcases fd.generateTxFrames_cases now with ⟨hbusy, he⟩ | ⟨hidle, k, frame, hk, -, he⟩ |
    ⟨hidle, -, p, frame, hp, hs, he⟩ | ⟨hidle, -, -, he⟩
  · rw [handed, if_neg hbusy] at hd
    cases hd
  · rw [handed, if_pos hidle, he] at hd
    obtain rfl := Option.some.inj hd
    have hmem : frame ∈ fd.frames.sQueue.held :=
      (FrameQueue.free_perm hk).mem_iff.mpr (List.mem_cons_self ..)
    refine absurd hI (not_isI_of_service ?_)
    exact (h.sFrames frame hmem).2.2.imp And.right And.right
  · rw [handed, if_pos hidle, he] at hd
    obtain rfl := Option.some.inj hd
    obtain ⟨-, -, k, hget⟩ := hs
    exact ⟨p, frame, hp, (FrameQueue.getNext_some hget).2.2.1, rfl, he⟩
  · rw [handed, if_pos hidle, he, hidle] at hd
    cases hd

/-- A station with its moves so far, each with the state that peer `i` was in, and
the payloads passed to `on_read` for that peer since its last connect event, each
with the place of the move that passed it on. -/
structure Delivery where
  fd : TinyFd
  log : List (Move × FdState)
  delivered : List (Bytes × ℕ)

namespace Delivery

def record (place : ℕ) (delivered : List (Bytes × ℕ)) : Callback → List (Bytes × ℕ)
  | .read _ payload => delivered ++ [(payload, place)]
  | .connect .. => []

def next (i : ℕ) (d : Delivery) (m : Move) : Delivery :=
  { fd := d.fd.move m
    log := d.log ++ [(m, (d.fd.peer i).state)]
    delivered := (d.fd.callsFor i m).foldl (record d.log.length) d.delivered }

def step (i : ℕ) (d : Delivery) (m : Move) : Option Delivery := some (d.next i m)

/-- The move is the arrival of the `k`-th I-frame of the session, with this payload. -/
def ArrivalOf (i : ℕ) (fd : TinyFd) (k : ℕ) (payload : Bytes) : Move × FdState → Prop
  | (.onFrameReceived _ data, state) =>
    fd.AddressedTo i data ∧ (state = .connected ∨ state = .disconnecting) ∧
      data.getD 1 0 &&& hdlcIFrameMask = hdlcIFrameBits ∧
      (data.getD 1 0 >>> 5) &&& seqBitsMask = seq k ∧
      payload = data.drop 2
  | _ => False

/-- The payloads are those of I-frames in sequence, each of its own frame. -/
structure InSequence (i : ℕ) (d : Delivery) : Prop where
  next : (d.fd.peer i).iQueueControl.rxState.nextNr = seq d.delivered.length
  sources : ∀ k payload place, d.delivered[k]? = some (payload, place) →
    ∃ arrival, d.log[place]? = some arrival ∧ ArrivalOf i d.fd k payload arrival
  once : (d.delivered.map Prod.snd).Pairwise (· < ·)

/-- A move that resets the peer's connection starts a session, and what it builds
for the peer acknowledges what has been delivered. -/
structure Acknowledges (i : ℕ) (d : Delivery) (m : Move) : Prop where
  reset : ∀ address connected, .connect address connected ∈ d.fd.callsFor i m →
    ((d.fd.move m).peer i).iQueueControl = .new
  service : ∀ frame k, d.fd.frames.sQueue.Allocated (d.fd.move m).frames.sQueue frame k →
    frame.frameType = .sFrame → ∃ p, concerns d.fd m = some p ∧
    frame.header.address = d.fd.addrField p ∧
      (p = i → (frame.header.control >>> 5) &&& seqBitsMask = seq (d.next i m).delivered.length)
  information : ∀ now data, m = .generateTxFrames now → handed d.fd (d.fd.move m) = some data →
    data.getD 1 0 &&& hdlcIFrameMask = hdlcIFrameBits →
    ∃ p < d.fd.peerMgr.peers.length, data.getD 0 0 = d.fd.addrField p ∧
      (∀ j, j ≠ p → (d.fd.move m).peer j = d.fd.peer j) ∧
      ((d.fd.move m).peer p).iQueueControl = (d.fd.peer p).iQueueControl.advanceNextNs ∧
      (p = i → (data.getD 1 0 >>> 1) &&& seqBitsMask = seq (d.next i m).delivered.length)

variable {d d' : Delivery} {m : Move}

structure Tracked (i : ℕ) (d : Delivery) : Prop extends InSequence i d where
  wf : WellFormed d.fd
  peer : i < d.fd.peerMgr.peers.length

theorem ArrivalOf.congr (hs : fd'.setup = fd.setup) {k : ℕ} {payload : Bytes}
    {arrival : Move × FdState} (h : ArrivalOf i fd k payload arrival) :
    ArrivalOf i fd' k payload arrival := by
  obtain ⟨move, state⟩ := arrival
  cases move with
  | onFrameReceived now data => exact ⟨AddressedTo.congr hs h.1, h.2⟩
  | sendPacket | disconnect | checkTimeout | generateTxFrames | framing => exact h

theorem Tracked.valid (h : Tracked i d) : i ≠ hdlcInvalidPeerIndex :=
  (h.peer.trans_le h.wf.peers_le).ne

theorem InSequence.place_lt (h : InSequence i d) {n : ℕ} (hn : n ∈ d.delivered.map Prod.snd) :
    n < d.log.length := by
  obtain ⟨⟨payload, place⟩, hmem, rfl⟩ := List.mem_map.mp hn
  obtain ⟨k, hk⟩ := List.mem_iff_getElem?.mp hmem
  obtain ⟨arrival, hlog, -⟩ := h.sources k payload place hk
  exact (List.getElem?_eq_some_iff.mp hlog).1

theorem InSequence.kept (h : InSequence i d) (hs : (d.fd.move m).setup = d.fd.setup) {k place : ℕ}
    {payload : Bytes} (hk : d.delivered[k]? = some (payload, place)) :
    ∃ arrival, (d.next i m).log[place]? = some arrival ∧
    ArrivalOf i (d.fd.move m) k payload arrival := by
  obtain ⟨arrival, hlog, harrival⟩ := h.sources k payload place hk
  refine ⟨arrival, ?_, harrival.congr hs⟩
  rw [Delivery.next, List.getElem?_append_left (List.getElem?_eq_some_iff.mp hlog).1]
  exact hlog

theorem Tracked.keep (h : Tracked i d) (hm : Legal d.fd m) (hc : d.fd.callsFor i m = [])
    (hrx : ((d.fd.move m).peer i).iQueueControl.rxState = (d.fd.peer i).iQueueControl.rxState) :
    Tracked i (d.next i m) := by
  have hset := setup_move h.wf m
  have hsame : (d.next i m).delivered = d.delivered := by rw [next, hc, List.foldl_nil]
  refine ⟨⟨?_, ?_, ?_⟩, wellFormed_move h.wf hm, ?_⟩
  · rw [hsame, next, hrx]
    exact h.next
  · intro k payload place hk
    rw [hsame] at hk
    exact h.kept hset hk
  · rw [hsame]
    exact h.once
  · rw [next, peers_length_congr hset]
    exact h.peer

theorem Tracked.restart (h : Tracked i d) (hm : Legal d.fd m)
    (hi : concerns d.fd m = some i) {b : Bool} (hr : Reports i b d.fd (d.fd.move m)) :
    Tracked i (d.next i m) := by
  have hnone : (d.next i m).delivered = [] := by
    rw [next, callsFor_self hi, calls_eq hr.callbacks]
    rfl
  refine ⟨⟨?_, ?_, ?_⟩, wellFormed_move h.wf hm, ?_⟩
  · rw [hnone, next, hr.reset]
    rfl
  · rw [hnone]
    intro k payload place hk
    cases hk
  · rw [hnone]
    exact .nil
  · rw [next, peers_length_congr (setup_move h.wf m)]
    exact h.peer

theorem Tracked.deliver (h : Tracked i d) {now : Instant} {data : Bytes}
    (hto : d.fd.AddressedTo i data)
    (hr : Reads i data d.fd (d.fd.move (.onFrameReceived now data))) :
    Tracked i (d.next i (.onFrameReceived now data)) := by
  have hset := setup_move h.wf (.onFrameReceived now data)
  have hlegal : Legal d.fd (.onFrameReceived now data) := trivial
  have hnext : (d.next i (.onFrameReceived now data)).delivered = d.delivered ++
      [(data.drop 2, d.log.length)] := by
    rw [next, callsFor_self (concerns_frame.mpr ⟨hto, h.valid⟩), calls_eq hr.callbacks]
    rfl
  refine ⟨⟨?_, ?_, ?_⟩, wellFormed_move h.wf hlegal, ?_⟩
  · rw [hnext, List.length_append, List.length_singleton, ← seq_succ, ← h.next]
    exact hr.next
  · intro k payload place hk
    rw [hnext] at hk
    rcases Nat.lt_or_ge k d.delivered.length with hlt | hge
    · rw [List.getElem?_append_left hlt] at hk
      exact h.kept hset hk
    · rw [List.getElem?_append_right hge, List.getElem?_singleton] at hk
      obtain ⟨hzero, he⟩ := Option.ite_none_right_eq_some.mp hk
      obtain ⟨rfl, rfl⟩ := Prod.mk.inj (Option.some.inj he)
      obtain rfl : k = d.delivered.length := by omega
      refine ⟨(.onFrameReceived now data, (d.fd.peer i).state), ?_, ?_⟩
      · rw [next, List.getElem?_concat_length]
      · exact ⟨AddressedTo.congr hset hto, hr.state, hr.iFrame, hr.ns.trans h.next, rfl⟩
  · rw [hnext, List.map_append, List.pairwise_append]
    refine ⟨h.once, List.pairwise_singleton .., ?_⟩
    rintro n hn place hplace
    obtain rfl := List.mem_singleton.mp hplace
    exact h.place_lt hn
  · rw [next, peers_length_congr hset]
    exact h.peer

theorem tracked_next (h : Tracked i d) (hm : Legal d.fd m) : Tracked i (d.next i m) := by
  by_cases hi : concerns d.fd m = some i
  · have hquiet : Silence i d.fd (d.fd.move m) → Tracked i (d.next i m) := by
      intro hq
      refine h.keep hm ?_ hq.rxState
      rw [callsFor_self hi, calls_eq (hq.callbacks.trans (List.append_nil _).symm)]
    rcases concerns_cases hi with ⟨now, data, rfl, hto, hvalid⟩ | ⟨now, rfl⟩
    · rcases frame_reports h.wf hto hvalid now with ⟨-, hr⟩ | ⟨-, hr⟩ | ⟨-, -, -, hq | hr⟩
      · exact h.restart hm hi hr
      · exact h.restart hm hi hr
      · exact hquiet hq
      · exact h.deliver hto hr
    · rcases timer_reports h.peer now with ⟨-, hr⟩ | ⟨hq, -⟩
      · exact h.restart hm hi hr
      · exact hquiet hq
  · refine h.keep hm (callsFor_ne hi) ?_
    exact field_move_ne (fun q ↦ q.iQueueControl.rxState) (fun _ _ _ _ _ ↦ rfl)
      (fun _ _ ↦ rfl) h.wf h.peer hi

theorem reset_of_connect (h : Tracked i d) {address : UInt8} {connected : Bool}
    (hmem : .connect address connected ∈ d.fd.callsFor i m) :
    ((d.fd.move m).peer i).iQueueControl = .new := by
  by_cases hi : concerns d.fd m = some i
  · rw [callsFor_self hi] at hmem
    have hquiet : (d.fd.move m).callbacks = d.fd.callbacks →
        ((d.fd.move m).peer i).iQueueControl = .new := by
      intro hq
      rw [calls_eq (hq.trans (List.append_nil _).symm)] at hmem
      cases hmem
    rcases concerns_cases hi with ⟨now, data, rfl, hto, hvalid⟩ | ⟨now, rfl⟩
    · rcases frame_reports h.wf hto hvalid now with ⟨-, hr⟩ | ⟨-, hr⟩ | ⟨-, -, -, hq | hr⟩
      · exact hr.reset
      · exact hr.reset
      · exact hquiet hq.callbacks
      · have hcalls : d.fd.calls (.onFrameReceived now data) = [_] := calls_eq hr.callbacks
        rw [hcalls] at hmem
        cases List.mem_singleton.mp hmem
    · rcases timer_reports h.peer now with ⟨-, hr⟩ | ⟨hq, -⟩
      · exact hr.reset
      · exact hquiet hq.callbacks
  · rw [callsFor_ne hi] at hmem
    cases hmem

theorem acknowledges (h : Tracked i d) (hm : Legal d.fd m) : Acknowledges i d m := by
  have hnext := (tracked_next h hm).next
  refine ⟨fun _ _ ↦ reset_of_connect h, ?_, ?_⟩
  · intro frame k ha htype
    rcases serviced_move h.wf m with he | ⟨frame', k', ha', hs⟩ | ⟨-, k', -, -, -, -, he, -⟩
    · rw [he] at ha
      exact absurd ha FrameQueue.not_allocated_self
    · obtain ⟨-, rfl⟩ := ha'.unique ha
      obtain ⟨p, hp, haddr, hnr⟩ := hs htype
      refine ⟨p, hp, haddr, ?_⟩
      rintro rfl
      rw [hnr]
      exact hnext
    · rw [he] at ha
      exact absurd ha FrameQueue.not_allocated_free
  · rintro now data rfl hd hI
    rcases handed_iFrame h.wf hd hI with ⟨p, frame, hp, haddr, rfl, he⟩
    refine ⟨p, hp, haddr, ?_, ?_, ?_⟩
    · intro j hj
      rw [move, he, peer_modifyPeer_ne hj]
      rfl
    · have hp' : p < (d.fd.handOver (d.fd.sendIData p frame)).peerMgr.peers.length := hp
      rw [move, he, peer_modifyPeer_self hp']
      rfl
    · rintro rfl
      have hnone : concerns d.fd (.generateTxFrames now) ≠ some p := by
        intro hc
        cases hc
      have hsame : (d.next p (.generateTxFrames now)).delivered = d.delivered := by
        rw [next, callsFor_ne hnone, List.foldl_nil]
      obtain ⟨ns, hns⟩ := exists_seq_of_lt (h.wf.counters p h.peer).next
      rw [hsame, sendIData_eq, hns, h.next]
      exact nr_iControl ns _

theorem tracked_new {config : TinyFdConfig} {now : Instant} (hnew : TinyFd.new config now = .ok fd)
    (hi : i < fd.peerMgr.peers.length) : Tracked i ⟨fd, [], []⟩ := by
  obtain ⟨addr, hpeer⟩ := (initial_new hnew).peer hi
  refine ⟨⟨?_, ?_, .nil⟩, wellFormed_new hnew, hi⟩
  · rw [hpeer]
    rfl
  · intro k payload place hk
    cases hk

theorem fd_step (i : ℕ) (d : Delivery) (m : Move) (d' : Delivery) (h : step i d m = some d') :
    d'.fd = d.fd.move m := by
  obtain rfl := Option.some.inj h
  rfl

/-- Whatever arrives, a peer's payloads are delivered in sequence and acknowledged as delivered. -/
theorem delivered_in_sequence {config : TinyFdConfig} {now : Instant}
    (hnew : TinyFd.new config now = .ok fd) (ops : List Op) (hi : i < fd.peerMgr.peers.length) :
    run TinyFd.step fd ops = some ((fd.runMoves ops).foldl TinyFd.move fd) ∧
      EachState (step i) (InSequence i) ⟨fd, [], []⟩ (fd.runMoves ops) ∧
      EachStep (step i) (Acknowledges i) ⟨fd, [], []⟩ (fd.runMoves ops) := by
  have hwf := wellFormed_new hnew
  have hlegal := legal_watched (fd_step i) ⟨fd, [], []⟩ hwf ops
  have htracked : EachState (step i) (Tracked i) ⟨fd, [], []⟩ (fd.runMoves ops) := by
    refine eachState_of_eachStep ?_ (tracked_new hnew hi) hlegal
    intro d m d' h hm hs
    obtain rfl := Option.some.inj hs
    exact tracked_next h hm
  refine ⟨run_runMoves hwf ops, htracked.mono fun d h ↦ h.toInSequence, ?_⟩
  exact (htracked.eachStep hlegal).mono fun d m h ↦ acknowledges h.1 h.2

def repeatedOps : List Op :=
  [.onRxData 1 [0x7E, 0x05, 0x3F, 0x7E],
    .onRxData 2 [0x7E, 0x05, 0x00, 7, 0x7E, 0x7E, 0x05, 0x00, 7, 0x7E],
    .onRxData 3 [0x7E, 0x05, 0x20, 8, 0x7E]]

theorem delivered_in_sequence_repeated :
    EachState (step 0) (InSequence 0) ⟨freshStation, [], []⟩ (freshStation.runMoves repeatedOps) ∧
      EachStep (step 0) (Acknowledges 0) ⟨freshStation, [], []⟩
        (freshStation.runMoves repeatedOps) ∧
      (run (step 0) ⟨freshStation, [], []⟩ (freshStation.runMoves repeatedOps)).map
        Delivery.delivered =
        some [([7], 2), ([8], 5)] := by
  obtain ⟨-, hstates, hsteps⟩ :=
    delivered_in_sequence new_freshStation repeatedOps
      (by decide +kernel : 0 < freshStation.peerMgr.peers.length)
  exact ⟨hstates, hsteps, by decide +kernel⟩

end Delivery

end TinyProto.TinyFd
