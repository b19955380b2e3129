import TinyProto.Fd.Delivery
import TinyProto.Lib.Ring

namespace TinyProto

open Lib

namespace FrameQueue

variable {q q' : FrameQueue} {frame : FrameInfo} {k : ℕ}

def taken (q q' : FrameQueue) : Option ℕ :=
  (List.range q.capacity).find? fun k ↦ (q.get k).isNone && (q'.get k).isSome

theorem get_lt (h : q.get k = some frame) : k < q.capacity := by
  obtain ⟨hk, -⟩ := List.getElem?_eq_some_iff.mp (Option.join_eq_some_iff.mp h)
  exact hk

theorem taken_eq (hk : k < q.capacity) (hnone : q.get k = none) (hsome : q'.get k = some frame)
    (hsame : ∀ j, j ≠ k → q'.get j = q.get j) : taken q q' = some k := by
  rw [taken, List.find?_range_eq_some]
  refine ⟨by rw [hnone, hsome]; rfl, List.mem_range.mpr hk, ?_⟩
  intro j hj
  rw [hsame j hj.ne]
  cases q.get j <;> rfl

theorem taken_none (h : ∀ k, q.get k = none → q'.get k = none) : taken q q' = none := by
  rw [taken, List.find?_range_eq_none]
  intro k _
  cases hk : q.get k with
  | none => rw [h k hk]; rfl
  | some frame => rfl

theorem taken_self (q : FrameQueue) : taken q q = none := taken_none fun _ h ↦ h

theorem Allocated.taken (h : q.Allocated q' frame k) : taken q q' = some k :=
  taken_eq (List.getElem?_eq_some_iff.mp h.free).1 h.get.1 h.get.2 fun _ hj ↦ h.get_ne hj

theorem taken_free (h : q.get k = some frame) : taken q (q.free k) = none ∧
    taken (q.free k) q = some k := by
  constructor
  · refine taken_none ?_
    intro j hj
    by_cases hjk : j = k
    · rw [hjk, get_free_self]
    · rw [get_free_ne hjk, hj]
  · refine taken_eq ?_ (get_free_self q k) h fun j hj ↦ (get_free_ne hj).symm
    rw [capacity_free]
    exact get_lt h

end FrameQueue

namespace TinyFd

variable {fd : TinyFd} {i : ℕ}

/-- A frame that entered the queue, with the peer it was about. For peer `i`, `session`
counts the connect events before it and `count` the payloads delivered since the last. -/
structure Accepted where
  frame : FrameInfo
  peer : Option ℕ
  session : ℕ
  count : ℕ

/-- A station with the service frames that entered the queue, the places in that list
of those that still wait, slot by slot, and of those that were handed over. -/
structure Service extends Delivery where
  sessions : ℕ
  accepted : List Accepted
  slots : List (Option ℕ)
  handed : List ℕ

namespace Service

def queue (s : Service) : FrameQueue := s.fd.frames.sQueue

def start (fd : TinyFd) : Service :=
  ⟨⟨fd, [], []⟩, 0, [], List.replicate fd.frames.sQueue.capacity none, []⟩

def next (i : ℕ) (s : Service) (m : Move) : Service :=
  let q := s.queue
  let q' := (s.fd.move m).frames.sQueue
  let delivery := s.toDelivery.next i m
  let sessions := s.sessions + (connects (s.fd.callsFor i m)).length
  match q.taken q' with
  | some k =>
    { toDelivery := delivery
      sessions := sessions
      accepted := s.accepted ++
        (q'.get k).toList.map fun frame ↦
          ⟨frame, concerns s.fd m, sessions, delivery.delivered.length⟩
      slots := s.slots.set k (some s.accepted.length)
      handed := s.handed }
  | none =>
    { toDelivery := delivery
      sessions := sessions
      accepted := s.accepted
      slots := (q'.taken q).elim s.slots fun k ↦ s.slots.set k none
      handed := s.handed ++ ((q'.taken q).bind fun k ↦ (s.slots[k]?).join).toList }

def step (i : ℕ) (s : Service) (m : Move) : Option Service := some (s.next i m)

def acks (i : ℕ) (s : Service) : List Accepted :=
  (s.handed.filterMap (s.accepted[·]?)).filter fun a ↦ a.frame.frameType = .sFrame ∧ a.peer = some i

/-- What was handed over is what entered the queue first, and within a session the
acknowledgements for the peer do not go back. -/
structure Fifo (i : ℕ) (s : Service) : Prop where
  order : s.handed = List.range s.handed.length
  numbers : ∀ a ∈ s.acks i, (a.frame.header.control >>> 5) &&& seqBitsMask = seq a.count
  acks : (s.acks i).Pairwise fun a b ↦ a.session = b.session → a.count ≤ b.count

/-- The lists say what happened: a frame that enters the queue is appended to
`accepted`, and the place of one that is handed over to `handed`. -/
structure Recorded (i : ℕ) (s : Service) (m : Move) : Prop where
  accepted : ∀ frame k, s.queue.Allocated (s.fd.move m).frames.sQueue frame k →
    (s.next i m).accepted.map Accepted.frame = s.accepted.map Accepted.frame ++ [frame]
  handed : ∀ now data, m = .generateTxFrames now → TinyFd.handed s.fd (s.fd.move m) = some data →
    data.getD 1 0 &&& hdlcIFrameMask ≠ hdlcIFrameBits →
    ∃ place a, (s.next i m).handed = s.handed ++ [place] ∧ s.accepted[place]? = some a ∧
    a.frame.toBytes = data

/-- A frame is handed over only while the filled slots do not go round the end. -/
def Unturned (s : Service) : Move → Prop
  | .generateTxFrames _ => s.fd.hdlc.txData = none → InOrder s.queue.frames s.queue.lookupIndex
  | _ => True

instance (s : Service) (m : Move) : Decidable (Unturned s m) :=
  match m with
  | .generateTxFrames _ => by
    unfold Unturned
    infer_instance
  | .sendPacket .. | .disconnect | .onFrameReceived .. | .checkTimeout .. | .framing .. =>
      .isTrue trivial

variable {s s' : Service} {m : Move} {frame : FrameInfo} {k : ℕ}

theorem toDelivery_next : (s.next i m).toDelivery = s.toDelivery.next i m := by
  rw [next]
  split <;> rfl

/-! The three things a move can do to the lists. -/

theorem next_keep (h : (s.fd.move m).frames.sQueue = s.queue) :
    s.next i m = { s with
      toDelivery := s.toDelivery.next i m
      sessions := s.sessions + (connects (s.fd.callsFor i m)).length } := by
  rw [next]
  simp only [h, FrameQueue.taken_self, Option.elim_none, Option.bind_none, Option.toList_none,
    List.append_nil]

theorem next_put (h : s.queue.Allocated (s.fd.move m).frames.sQueue frame k) :
    s.next i m =
      { toDelivery := s.toDelivery.next i m
        sessions := s.sessions + (connects (s.fd.callsFor i m)).length
        accepted :=
          s.accepted ++
            [⟨frame, concerns s.fd m, s.sessions + (connects (s.fd.callsFor i m)).length,
              (s.toDelivery.next i m).delivered.length⟩]
        slots := s.slots.set k (some s.accepted.length)
        handed := s.handed } := by
  rw [next]
  simp only [h.taken, h.get.2, Option.toList_some, List.map_singleton]

theorem next_send (hk : s.queue.get k = some frame)
    (h : (s.fd.move m).frames.sQueue = s.queue.free k) :
    s.next i m =
      { toDelivery := s.toDelivery.next i m
        sessions := s.sessions + (connects (s.fd.callsFor i m)).length
        accepted := s.accepted
        slots := s.slots.set k none
        handed := s.handed ++ (s.slots[k]?).join.toList } := by
  rw [next]
  simp only [h, (FrameQueue.taken_free hk).1, (FrameQueue.taken_free hk).2, Option.elim_some,
    Option.bind_some]

/-- The lists agree with the queue, and the counts in them ascend. -/
structure Ledger (i : ℕ) (s : Service) : Prop where
  tracked : Delivery.Tracked i s.toDelivery
  shape : s.slots.map Option.isSome = s.queue.frames.map Option.isSome
  contents : ∀ k n, (s.slots[k]?).join = some n → ∃ a, s.accepted[n]? = some a ∧
    s.queue.get k = some a.frame
  latest : ∀ a ∈ s.accepted, a.session ≤ s.sessions ∧
    (a.session = s.sessions → a.count ≤ s.delivered.length)
  ascending : s.accepted.Pairwise fun a b ↦ a.session = b.session → a.count ≤ b.count
  numbers : ∀ a ∈ s.accepted, a.frame.frameType = .sFrame → a.peer = some i →
    (a.frame.header.control >>> 5) &&& seqBitsMask = seq a.count

theorem record_grows {place : ℕ} {cs : List Callback} (h : connects cs = [])
    (delivered : List (Bytes × ℕ)) :
    delivered.length ≤ (cs.foldl (Delivery.record place) delivered).length := by
  induction cs generalizing delivered with
  | nil => exact le_rfl
  | cons c cs ih =>
    cases c with
    | read address payload =>
      refine le_trans ?_ (ih h (delivered ++ [(payload, place)]))
      rw [List.length_append]
      exact Nat.le_add_right ..
    | connect address connected => cases h

theorem Ledger.older (h : Ledger i s) (m : Move) {a : Accepted} (ha : a ∈ s.accepted) :
    let sessions := s.sessions + (connects (s.fd.callsFor i m)).length
    a.session ≤ sessions ∧
    (a.session = sessions → a.count ≤ (s.toDelivery.next i m).delivered.length) := by
  intro sessions
  obtain ⟨hle, hcount⟩ := h.latest a ha
  refine ⟨hle.trans (Nat.le_add_right ..), ?_⟩
  intro he
  have hnone : connects (s.fd.callsFor i m) = [] := List.length_eq_zero_iff.mp (by omega)
  have hsame : a.session = s.sessions := by
    rw [he]
    change s.sessions + _ = _
    rw [hnone, List.length_nil, Nat.add_zero]
  exact (hcount hsame).trans (record_grows hnone s.delivered)

theorem Ledger.isSome_slot (h : Ledger i s) (k : ℕ) :
    (s.slots[k]?).join.isSome = (s.queue.get k).isSome := by
  rw [join_isSome_eq, h.shape, ← join_isSome_eq, FrameQueue.get]

theorem Ledger.free_slot (h : Ledger i s) (k : ℕ) : s.slots[k]? = some none ↔
    s.queue.frames[k]? = some none := by
  rw [getElem?_free_iff, h.shape, ← getElem?_free_iff]

theorem Ledger.free_below (h : Ledger i s) (hlow : ∀ j < k, s.queue.get j = none) :
    ∀ j < k, (s.slots[j]?).join = none := by
  intro j hj
  have hsome := h.isSome_slot j
  rw [hlow j hj, Option.isSome_none, Option.isSome_eq_false_iff, Option.isNone_iff_eq_none] at hsome
  exact hsome

theorem Ledger.length_slots (h : Ledger i s) : s.slots.length = s.queue.capacity := by
  have hlen := congrArg List.length h.shape
  rwa [List.length_map, List.length_map] at hlen

theorem Ledger.place (h : Ledger i s) (hk : s.queue.get k = some frame) :
    ∃ n a, (s.slots[k]?).join = some n ∧ s.accepted[n]? = some a ∧ a.frame = frame := by
  have hsome := h.isSome_slot k
  rw [hk] at hsome
  obtain ⟨n, hn⟩ := Option.isSome_iff_exists.mp hsome
  obtain ⟨a, ha, hframe⟩ := h.contents k n hn
  rw [hk] at hframe
  exact ⟨n, a, hn, ha, (Option.some.inj hframe).symm⟩

theorem Ledger.keep (h : Ledger i s) (ht : Delivery.Tracked i (s.toDelivery.next i m))
    (he : (s.fd.move m).frames.sQueue = s.queue) : Ledger i (s.next i m) := by
  rw [next_keep he]
  refine ⟨ht, ?_, ?_, fun a ha ↦ h.older m ha, h.ascending, h.numbers⟩
  · change s.slots.map _ = (s.fd.move m).frames.sQueue.frames.map _
    rw [he]
    exact h.shape
  · intro k n hk
    change ∃ a, s.accepted[n]? = some a ∧ (s.fd.move m).frames.sQueue.get k = some a.frame
    rw [he]
    exact h.contents k n hk

theorem Ledger.put (h : Ledger i s) (ht : Delivery.Tracked i (s.toDelivery.next i m))
    (ha : s.queue.Allocated (s.fd.move m).frames.sQueue frame k)
    (hs : frame.frameType = .sFrame → concerns s.fd m = some i →
      (frame.header.control >>> 5) &&& seqBitsMask = seq (s.toDelivery.next i m).delivered.length) :
    Ledger i (s.next i m) := by
  rw [next_put ha]
  refine ⟨ht, ?_, ?_, ?_, ?_, ?_⟩
  · change (s.slots.set k _).map _ = (s.fd.move m).frames.sQueue.frames.map _
    rw [ha.frames, List.map_set, List.map_set, h.shape]
    rfl
  · intro j n hj
    change ∃ a, (s.accepted ++ _)[n]? = some a ∧ (s.fd.move m).frames.sQueue.get j = some a.frame
    change ((s.slots.set k _)[j]?).join = some n at hj
    by_cases hjk : j = k
    · subst hjk
      have hlt : j < s.slots.length := h.length_slots ▸ (List.getElem?_eq_some_iff.mp ha.free).1
      rw [List.getElem?_set_self hlt, Option.join_some, Option.some.injEq] at hj
      refine ⟨⟨frame, concerns s.fd m, s.sessions + (connects (s.fd.callsFor i m)).length,
        (s.toDelivery.next i m).delivered.length⟩, ?_, ha.get.2⟩
      rw [← hj, List.getElem?_concat_length]
    · rw [List.getElem?_set_ne (Ne.symm hjk)] at hj
      obtain ⟨a, hacc, hget⟩ := h.contents j n hj
      refine ⟨a, ?_, ?_⟩
      · rw [List.getElem?_append_left (List.getElem?_eq_some_iff.mp hacc).1]
        exact hacc
      · rw [ha.get_ne hjk]
        exact hget
  · intro a hmem
    rcases List.mem_append.mp hmem with hmem | hmem
    · exact h.older m hmem
    · obtain rfl := List.mem_singleton.mp hmem
      exact ⟨le_rfl, fun _ ↦ le_rfl⟩
  · refine List.pairwise_append.mpr ⟨h.ascending, List.pairwise_singleton .., ?_⟩
    intro a hmem b hb
    obtain rfl := List.mem_singleton.mp hb
    exact (h.older m hmem).2
  · intro a hmem
    rcases List.mem_append.mp hmem with hmem | hmem
    · exact h.numbers a hmem
    · obtain rfl := List.mem_singleton.mp hmem
      exact hs

theorem Ledger.send (h : Ledger i s) (ht : Delivery.Tracked i (s.toDelivery.next i m))
    (hk : s.queue.get k = some frame) (he : (s.fd.move m).frames.sQueue = s.queue.free k) :
    Ledger i (s.next i m) := by
  rw [next_send hk he]
  refine ⟨ht, ?_, ?_, fun a ha ↦ h.older m ha, h.ascending, h.numbers⟩
  · change (s.slots.set k _).map _ = (s.fd.move m).frames.sQueue.frames.map _
    rw [he, FrameQueue.free, List.map_set, List.map_set, h.shape]
    rfl
  · intro j n hj
    change ∃ a, s.accepted[n]? = some a ∧ (s.fd.move m).frames.sQueue.get j = some a.frame
    change ((s.slots.set k _)[j]?).join = some n at hj
    by_cases hjk : j = k
    · rw [hjk, join_set_none] at hj
      cases hj
    · rw [List.getElem?_set_ne (Ne.symm hjk)] at hj
      rw [he, FrameQueue.get_free_ne hjk]
      exact h.contents j n hj

theorem ledger_next (h : Ledger i s) (hm : Legal s.fd m) : Ledger i (s.next i m) := by
  have ht := Delivery.tracked_next h.tracked hm
  rcases serviced_move h.tracked.wf m with he | ⟨frame, k, ha, -⟩ | ⟨-, k, frame, -, hk, -, he, -⟩
  · exact h.keep ht he
  · refine h.put ht ha ?_
    intro htype hi
    obtain ⟨p, hp, -, hnr⟩ := (Delivery.acknowledges h.tracked hm).service frame k ha htype
    exact hnr (Option.some.inj (hp.symm.trans hi))
  · exact h.send ht hk he

/-- The frames that wait stand in the order in which they entered the queue. -/
structure InTurn (s : Service) : Prop where
  order : s.handed = List.range s.handed.length
  le : s.handed.length ≤ s.accepted.length
  ring : Ring s.slots s.queue.lookupIndex
    (List.range' s.handed.length (s.accepted.length - s.handed.length))
  lookup : s.queue.lookupIndex < s.queue.capacity

theorem filterMap_range {α : Type} (l : List α) (n : ℕ) :
    (List.range n).filterMap (l[·]?) = l.take n := by
  induction n with
  | zero => rfl
  | succ n ih =>
    rw [List.range_succ, List.filterMap_append, ih, List.take_add_one]
    cases h : l[n]? <;> simp [h]

theorem InTurn.fifo (h : InTurn s) (hl : Ledger i s) : Fifo i s := by
  have hacks : (s.acks i).Sublist s.accepted := by
    rw [acks, h.order, filterMap_range]
    exact List.filter_sublist.trans (List.take_sublist ..)
  refine ⟨h.order, ?_, hl.ascending.sublist hacks⟩
  intro a ha
  have hkind := List.of_mem_filter ha
  rw [decide_eq_true_eq] at hkind
  exact hl.numbers a (hacks.subset ha) hkind.1 hkind.2

theorem InTurn.keep (h : InTurn s) (he : (s.fd.move m).frames.sQueue = s.queue) :
    InTurn (s.next i m) := by
  rw [next_keep he]
  refine ⟨h.order, h.le, ?_, ?_⟩
  · change Ring s.slots (s.fd.move m).frames.sQueue.lookupIndex _
    rw [he]
    exact h.ring
  · change (s.fd.move m).frames.sQueue.lookupIndex < (s.fd.move m).frames.sQueue.capacity
    rw [he]
    exact h.lookup

theorem InTurn.put (h : InTurn s) (hl : Ledger i s)
    (ha : s.queue.Allocated (s.fd.move m).frames.sQueue frame k) : InTurn (s.next i m) := by
  have hstart : s.queue.lookupIndex < s.slots.length := hl.length_slots ▸ h.lookup
  have hroom := h.ring.room hstart (List.mem_of_getElem? ((hl.free_slot k).mpr ha.free))
  have hat : k = s.queue.lookupIndex := by
    rw [← Nat.mod_eq_of_lt h.lookup]
    refine ha.turn ?_
    rw [Nat.mod_eq_of_lt h.lookup]
    exact (hl.free_slot _).mp hroom
  have hlookup : (s.fd.move m).frames.sQueue.lookupIndex = (s.queue.lookupIndex + 1) %
      s.slots.length := by
    rw [ha.lookup, hat, hl.length_slots]
  rw [next_put ha]
  refine ⟨h.order, ?_, ?_, ?_⟩
  · change s.handed.length ≤ (s.accepted ++ _).length
    rw [List.length_append]
    exact h.le.trans (Nat.le_add_right ..)
  · change Ring (s.slots.set k _) (s.fd.move m).frames.sQueue.lookupIndex
      (List.range' s.handed.length ((s.accepted ++ [_]).length - s.handed.length))
    rw [hlookup, hat, List.length_append, List.length_singleton, Nat.sub_add_comm h.le,
      List.range'_1_concat, Nat.add_sub_cancel' h.le]
    exact h.ring.push hstart hroom s.accepted.length
  · change (s.fd.move m).frames.sQueue.lookupIndex < (s.fd.move m).frames.sQueue.capacity
    rw [hlookup, ha.capacity, hl.length_slots]
    exact Nat.mod_lt _ (Nat.zero_lt_of_lt h.lookup)

theorem InTurn.head (h : InTurn s) {n : ℕ} (hn : (s.slots[k]?).join = some n) :
    ∃ d, s.accepted.length - s.handed.length = d + 1 := by
  refine Nat.exists_eq_succ_of_ne_zero ?_
  intro hz
  have hring := h.ring
  rw [hz] at hring
  cases hring.none_of_nil (List.mem_of_getElem? (Option.join_eq_some_iff.mp hn))

theorem InTurn.send (h : InTurn s) (hl : Ledger i s)
    (horder : InOrder s.queue.frames s.queue.lookupIndex) (hk : s.queue.get k = some frame)
    (hlow : ∀ j < k, s.queue.get j = none) (he : (s.fd.move m).frames.sQueue = s.queue.free k) :
    InTurn (s.next i m) := by
  obtain ⟨n, -, hn, -, -⟩ := hl.place hk
  obtain ⟨d, hd⟩ := h.head hn
  have hring := h.ring
  rw [hd, List.range'_succ] at hring
  obtain ⟨rfl, hpop⟩ := hring.pop ((inOrder_congr hl.shape).mpr horder) hn (hl.free_below hlow)
  rw [next_send hk he, hn, Option.toList_some]
  refine ⟨?_, ?_, ?_, ?_⟩
  · change s.handed ++ [_] = List.range (s.handed ++ [_]).length
    rw [List.length_append, List.length_singleton, List.range_succ, ← h.order]
  · change (s.handed ++ [_]).length ≤ s.accepted.length
    rw [List.length_append, List.length_singleton]
    omega
  · change Ring (s.slots.set k none) (s.fd.move m).frames.sQueue.lookupIndex
      (List.range' (s.handed ++ [_]).length (s.accepted.length - (s.handed ++ [_]).length))
    rw [he, List.length_append, List.length_singleton, ← Nat.sub_sub, hd, Nat.add_sub_cancel]
    exact hpop
  · change (s.fd.move m).frames.sQueue.lookupIndex < (s.fd.move m).frames.sQueue.capacity
    rw [he, FrameQueue.capacity_free]
    exact h.lookup

theorem inTurn_next (h : InTurn s) (hl : Ledger i s) (hc : Unturned s m) : InTurn (s.next i m) := by
  rcases serviced_move hl.tracked.wf m with he | ⟨frame, k, ha, -⟩ | ⟨now, k, frame, rfl,
    hk, hlow, he, hh⟩
  · exact h.keep he
  · exact h.put hl ha
  · refine h.send hl (hc ?_) hk hlow he
    by_contra hbusy
    rw [TinyFd.handed, if_neg hbusy] at hh
    cases hh

theorem not_fifo_of_turned (h : InTurn s) (hl : Ledger i s) (hc : ¬ Unturned s m) :
    ∃ s', s.step i m = some s' ∧ ¬ Fifo i s' := by
  cases m with
  | generateTxFrames now =>
    obtain ⟨hidle, horder⟩ := Classical.not_imp.mp hc
    have hempty : ¬ ∀ k, s.queue.get k = none := by
      intro hnone
      refine horder (.inr fun slot hmem ↦ ?_)
      obtain ⟨k, hslot⟩ := List.mem_iff_getElem?.mp (List.mem_of_mem_drop hmem)
      have hk := hnone k
      rw [FrameQueue.get, hslot] at hk
      exact hk
    rcases s.fd.generateTxFrames_cases now with ⟨hbusy, -⟩ | ⟨-, k, frame, hk, hlow, he⟩ | ⟨-,
      hnone, -⟩ | ⟨-, hnone, -⟩
    · exact absurd hidle hbusy
    · obtain ⟨n, -, hn, -, -⟩ := hl.place hk
      obtain ⟨d, hd⟩ := h.head hn
      have hring := h.ring
      rw [hd, List.range'_succ] at hring
      have hbehind := hring.behind (mt (inOrder_congr hl.shape).mp horder) hn (hl.free_below hlow)
      have hmove : (s.fd.move (.generateTxFrames now)).frames.sQueue = s.queue.free k := by
        rw [move, he]
        rfl
      refine ⟨_, rfl, ?_⟩
      intro hf
      have hh := hf.order
      rw [next_send hk hmove, hn, Option.toList_some] at hh
      change s.handed ++ [_] = List.range (s.handed ++ [_]).length at hh
      rw [List.length_append, List.length_singleton, List.range_succ, ← h.order] at hh
      have hne : n = s.handed.length := (List.cons.inj (List.append_cancel_left hh)).1
      have hlt := (List.mem_range'_1.mp hbehind).1
      omega
    · exact absurd hnone hempty
    · exact absurd hnone hempty
  | sendPacket | disconnect | onFrameReceived | checkTimeout | framing => exact absurd trivial hc

theorem recorded (h : Ledger i s) : Recorded i s m := by
  refine ⟨?_, ?_⟩
  · intro frame k ha
    rw [next_put ha, List.map_append, List.map_singleton]
  · rintro now data rfl hd hI
    rcases s.fd.generateTxFrames_cases now with ⟨hbusy, he⟩ | ⟨hidle, k, frame, hk, -, he⟩ |
      ⟨hidle, -, p, frame, hp, -, he⟩ | ⟨hidle, -, -, he⟩
    · rw [TinyFd.handed, if_neg hbusy] at hd
      cases hd
    · rw [TinyFd.handed, if_pos hidle, move, he] at hd
      obtain ⟨n, a, hn, ha, hframe⟩ := h.place hk
      have hmove : (s.fd.move (.generateTxFrames now)).frames.sQueue = s.queue.free k := by
        rw [move, he]
        rfl
      refine ⟨n, a, ?_, ha, ?_⟩
      · rw [next_send hk hmove, hn]
        rfl
      · rw [hframe]
        exact Option.some.inj hd
    · rw [TinyFd.handed, if_pos hidle, move, he] at hd
      obtain rfl := Option.some.inj hd
      obtain ⟨ns, hns⟩ := exists_seq_of_lt (h.tracked.wf.counters p hp).next
      obtain ⟨nr, hnr⟩ := exists_seq_of_lt (h.tracked.wf.counters p hp).recv
      refine absurd ?_ hI
      rw [sendIData_eq, hns, hnr]
      exact isI_iControl ns nr
    · rw [TinyFd.handed, if_pos hidle, move, he, hidle] at hd
      cases hd

theorem ledger_start {config : TinyFdConfig} {now : Instant} {fd : TinyFd}
    (hnew : TinyFd.new config now = .ok fd) (hi : i < fd.peerMgr.peers.length) :
    Ledger i (start fd) ∧ InTurn (start fd) := by
  obtain ⟨mtu, hframes⟩ := (initial_new hnew).frames
  have hqueue : (start fd).queue = .new uQueueMaxSize mtu := congrArg FramesQueue.sQueue hframes
  have hslots : (start fd).slots = List.replicate uQueueMaxSize none := by
    change List.replicate (start fd).queue.capacity none = _
    rw [hqueue]
    rfl
  refine ⟨⟨Delivery.tracked_new hnew hi, ?_, ?_, ?_, .nil, ?_⟩, ⟨rfl, le_rfl, ?_, ?_⟩⟩
  · rw [hslots, hqueue]
    rfl
  · intro k n hn
    rw [hslots, List.getElem?_replicate] at hn
    split at hn <;> cases hn
  · exact fun a ha ↦ absurd ha List.not_mem_nil
  · exact fun a ha ↦ absurd ha List.not_mem_nil
  · rw [hslots]
    exact ring_of_none fun _ ↦ List.eq_of_mem_replicate
  · rw [hqueue]
    exact Nat.succ_pos _

theorem fd_step (i : ℕ) (s : Service) (m : Move) (s' : Service) (h : step i s m = some s') :
    s'.fd = s.fd.move m := by
  obtain rfl := Option.some.inj h
  rw [toDelivery_next]
  rfl

/-- Service frames leave in the order they were queued just as long as none is handed
over while the filled slots go round the end. -/
theorem service_fifo_iff {config : TinyFdConfig} {now : Instant} {fd : TinyFd}
    (hnew : TinyFd.new config now = .ok fd) (ops : List Op) (hi : i < fd.peerMgr.peers.length) :
    run TinyFd.step fd ops = some ((fd.runMoves ops).foldl TinyFd.move fd) ∧
      EachStep (step i) (Recorded i) (start fd) (fd.runMoves ops) ∧
      (EachState (step i) (Fifo i) (start fd) (fd.runMoves ops) ↔
        EachStep (step i) Unturned (start fd) (fd.runMoves ops)) := by
  have hwf := wellFormed_new hnew
  have hlegal := legal_watched (fd_step i) (start fd) hwf ops
  obtain ⟨hledger, hturn⟩ := ledger_start hnew hi
  refine ⟨run_runMoves hwf ops, ?_, ?_⟩
  · have hall : EachState (step i) (Ledger i) (start fd) (fd.runMoves ops) := by
      refine eachState_of_eachStep ?_ hledger hlegal
      intro s m s' h hm hs
      obtain rfl := Option.some.inj hs
      exact ledger_next h hm
    exact (hall.eachStep hlegal).mono fun s m h ↦ recorded h.1
  · refine eachState_iff_eachStep (I := fun s ↦ Ledger i s ∧ InTurn s) ?_ ?_ ?_
      ⟨hledger, hturn⟩ hlegal
    · exact fun s h ↦ h.2.fifo h.1
    · intro s m s' h hm hc hs
      obtain rfl := Option.some.inj hs
      exact ⟨ledger_next h.1 hm, inTurn_next h.2 h.1 hc⟩
    · exact fun s m h _ hc ↦ not_fifo_of_turned h.2 h.1 hc

def backlogOps : List Op :=
  [.onRxData 1 [0x7E, 0x05, 0x3F, 0x7E], .getTxData 2 9 0, .onRxData 3 [0x7E, 0x05, 0x00, 7, 0x7E],
    .getTxData 4 9 0, .onRxData 5 [0x7E, 0x05, 0x20, 8, 0x7E], .getTxData 6 9 0,
    .onRxData 7 [0x7E, 0x05, 0x40, 9, 0x7E, 0x7E, 0x05, 0x60, 10, 0x7E], .getTxData 8 9 0,
    .getTxData 9 9 0]

theorem service_fifo_before_turn :
    EachState (step 0) (Fifo 0) (start freshStation) (freshStation.runMoves (backlogOps.take 7)) ∧
      (run (step 0) (start freshStation) (freshStation.runMoves (backlogOps.take 7))).map
        (fun s ↦ (s.handed, (s.acks 0).map Accepted.count)) = some ([0, 1, 2], [1, 2]) :=
  ⟨(service_fifo_iff new_freshStation (backlogOps.take 7) (by decide +kernel : 0 < _)).2.2.mpr
    (by decide +kernel), by decide +kernel⟩

/-- The RR of the fourth payload leaves before that of the third. -/
theorem service_overtakes :
    ∃ config now fd ops, TinyFd.new config now = .ok fd ∧ 0 < fd.peerMgr.peers.length ∧
      (run (step 0) (start fd) (fd.runMoves ops)).map
        (fun s ↦ (s.handed, (s.acks 0).map Accepted.count)) =
        some ([0, 1, 2, 4, 3], [1, 2, 4, 3]) ∧
      ¬ EachState (step 0) (Fifo 0) (start fd) (fd.runMoves ops) := by
  have hlogs : (run (step 0) (start freshStation) (freshStation.runMoves backlogOps)).map
      (fun s ↦ (s.handed, (s.acks 0).map Accepted.count)) =
        some ([0, 1, 2, 4, 3], [1, 2, 4, 3]) := by
    decide +kernel
  refine ⟨_, _, freshStation, backlogOps, new_freshStation, by decide +kernel, hlogs, ?_⟩
  intro h
  obtain ⟨s, hrun, hs⟩ := Option.map_eq_some_iff.mp hlogs
  have horder := (h.of_run hrun).order
  rw [(Prod.mk.inj hs).1] at horder
  exact absurd horder (by decide)

end Service

end TinyFd

end TinyProto
