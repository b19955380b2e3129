import TinyProto.Fd.FrameQueue
import TinyProto.Lib.Slots

namespace TinyProto.FrameQueue

open Lib

variable {q : FrameQueue}

/-- The queued frames in slot order; most facts only need them up to `Perm`. -/
def held (q : FrameQueue) : List FrameInfo := q.frames.reduceOption

theorem mem_held {frame : FrameInfo} : frame ∈ q.held ↔ some frame ∈ q.frames :=
  List.reduceOption_mem_iff

theorem held_length_le (q : FrameQueue) : q.held.length ≤ q.capacity :=
  List.reduceOption_length_le _

theorem hasFreeSlots_iff (q : FrameQueue) : q.hasFreeSlots ↔ q.held.length < q.capacity :=
  any_isNone_iff q.frames

/-- What a successful `allocate` did: the first free slot from `lookup_index`
on, going round, holds the frame. -/
structure Allocated (q q' : FrameQueue) (frame : FrameInfo) (i : ℕ) : Prop where
  free : q.frames[i]? = some none
  frames : q'.frames = q.frames.set i (some frame)
  lookup : q'.lookupIndex = (i + 1) % q.capacity
  first : ∃ k < q.capacity, i = (q.lookupIndex + k) % q.capacity ∧
    ∀ j < k, q.frames[(q.lookupIndex + j) % q.capacity]? ≠ some none

theorem Allocated.perm {q' : FrameQueue} {frame : FrameInfo} {i : ℕ} (h : Allocated q q' frame i) :
    q'.held.Perm (frame :: q.held) := by
  rw [held, h.frames]
  exact fill_perm h.free frame

theorem Allocated.capacity {q' : FrameQueue} {frame : FrameInfo} {i : ℕ}
    (h : Allocated q q' frame i) :
    q'.capacity = q.capacity := by
  rw [FrameQueue.capacity, h.frames, List.length_set, FrameQueue.capacity]

theorem Allocated.get {q' : FrameQueue} {frame : FrameInfo} {i : ℕ} (h : Allocated q q' frame i) :
    q.get i = none ∧ q'.get i = some frame := by
  have hi := (List.getElem?_eq_some_iff.mp h.free).1
  constructor
  · rw [FrameQueue.get, h.free]
    rfl
  · rw [FrameQueue.get, h.frames, List.getElem?_set_self hi]
    rfl

theorem Allocated.get_ne {q' : FrameQueue} {frame : FrameInfo} {i j : ℕ}
    (h : Allocated q q' frame i) (hj : j ≠ i) : q'.get j = q.get j := by
  rw [FrameQueue.get, h.frames, List.getElem?_set_ne hj.symm, FrameQueue.get]

theorem Allocated.unique {q' : FrameQueue} {frame frame' : FrameInfo} {i j : ℕ}
    (h : Allocated q q' frame i) (h' : Allocated q q' frame' j) : j = i ∧ frame' = frame := by
  have hj : j = i := by
    by_contra hne
    have hsame := h.get_ne hne
    rw [h'.get.1, h'.get.2] at hsame
    cases hsame
  subst hj
  exact ⟨rfl, Option.some.inj (h'.get.2.symm.trans h.get.2)⟩

theorem Allocated.turn {q' : FrameQueue} {frame : FrameInfo} {i : ℕ} (h : Allocated q q' frame i)
    (hroom : q.frames[q.lookupIndex % q.capacity]? = some none) :
    i = q.lookupIndex % q.capacity := by
  obtain ⟨k, -, hk, hlow⟩ := h.first
  cases k with
  | zero => exact hk
  | succ k => exact absurd hroom (hlow 0 (Nat.succ_pos k))

theorem get_eq_none (h : ∀ i < q.capacity, q.get i = none) (i : ℕ) : q.get i = none := by
  by_cases hi : i < q.capacity
  · exact h i hi
  · rw [FrameQueue.get, List.getElem?_eq_none (Nat.not_lt.mp hi)]
    rfl

theorem get_free_ne {i j : ℕ} (hj : j ≠ i) : (q.free i).get j = q.get j := by
  rw [FrameQueue.get, free, List.getElem?_set_ne hj.symm, FrameQueue.get]

theorem get_free_self (q : FrameQueue) (i : ℕ) : (q.free i).get i = none := join_set_none q.frames i

theorem not_allocated_free {frame : FrameInfo} {i j : ℕ} : ¬ Allocated q (q.free i) frame j := by
  intro h
  obtain ⟨hnone, hsome⟩ := h.get
  by_cases hj : j = i
  · subst hj
    rw [get_free_self] at hsome
    cases hsome
  · rw [get_free_ne hj, hnone] at hsome
    cases hsome

theorem not_allocated_self {frame : FrameInfo} {i : ℕ} : ¬ Allocated q q frame i := by
  intro h
  obtain ⟨hnone, hsome⟩ := h.get
  rw [hnone] at hsome
  cases hsome

theorem join_isNone_iff {l : List (Option FrameInfo)} {i : ℕ} (hi : i < l.length) :
    (l[i]?).join.isNone ↔ l[i]? = some none := by
  rw [List.getElem?_eq_getElem hi]
  cases l[i] <;> simp

theorem allocate_spec (q : FrameQueue) (frameType : QueuedFrameType) (header : FrameHeader)
    (data : Bytes) : (∃ q' i, q.allocate frameType header data = (q', some i) ∧
      Allocated q q' ⟨frameType, header, data⟩ i ∧ q'.mtu = q.mtu) ∨
    (q.allocate frameType header data = (q, none) ∧ q.held.length = q.capacity) := by
  rw [allocate]
  rcases hf : (List.range q.frames.length).find?
      (fun i ↦ (q.frames[(q.lookupIndex + i) % q.frames.length]?).join.isNone) with _ | k
  · right
    refine ⟨rfl, Nat.le_antisymm q.held_length_le ?_⟩
    by_contra hlt
    obtain ⟨slot, hmem, hnone⟩ := List.any_eq_true.mp (q.hasFreeSlots_iff.mpr (by omega))
    obtain ⟨i, hi, rfl⟩ := List.getElem_of_mem hmem
    obtain ⟨k, hk, hki⟩ := exists_rotate hi q.lookupIndex
    have hall := List.find?_eq_none.mp hf k (List.mem_range.mpr hk)
    rw [hki, List.getElem?_eq_getElem hi] at hall
    cases hs : q.frames[i] <;> simp_all
  · left
    obtain ⟨hnone, hk, hlt⟩ := List.find?_range_eq_some.mp hf
    rw [List.mem_range] at hk
    have hpos : 0 < q.frames.length := by omega
    refine ⟨_, _, rfl, ⟨?_, rfl, rfl, k, hk, rfl, ?_⟩, rfl⟩
    · exact (join_isNone_iff (Nat.mod_lt _ hpos)).mp hnone
    · intro j hj
      have hj' := hlt j hj
      rw [FrameQueue.capacity, Ne, ← join_isNone_iff (Nat.mod_lt _ hpos)]
      simpa [Option.isSome_iff_ne_none] using hj'

def Wanted (frameType : QueuedFrameType) (address arg : UInt8) (frame : FrameInfo) : Prop :=
  frame.frameType = frameType ∧ frame.header.address = address ∧
    (frameType = .iFrame → frame.ns = arg)

theorem getNext_some {frameType : QueuedFrameType} {address arg : UInt8} {i : ℕ} {frame : FrameInfo}
    (h : q.getNext frameType address arg = some (i, frame)) :
    frame ∈ q.held ∧ Wanted frameType address arg frame := by
  obtain ⟨⟨slot, j⟩, hmem, hslot⟩ := List.exists_of_findSome?_eq_some h
  cases slot with
  | none => simp at hslot
  | some frame' =>
    simp only [Option.ite_none_right_eq_some, Option.ite_none_left_eq_some, Option.some.injEq,
      Prod.mk.injEq] at hslot
    obtain ⟨⟨htype, haddr⟩, harg, rfl, rfl⟩ := hslot
    refine ⟨mem_held.mpr ?_, htype, haddr, ?_⟩
    · exact (List.mem_zipIdx' hmem).2 ▸ List.getElem_mem _
    · intro hi
      simpa [hi] using harg

theorem getNext_none {frameType : QueuedFrameType} {address arg : UInt8}
    (h : q.getNext frameType address arg = none) {frame : FrameInfo} (hmem : frame ∈ q.held) :
    ¬ Wanted frameType address arg frame := by
  rintro ⟨htype, haddr, harg⟩
  obtain ⟨i, hi, hget⟩ := List.getElem_of_mem (mem_held.mp hmem)
  have hz := List.findSome?_eq_none_iff.mp h (some frame, i) (by
    rw [List.mem_zipIdx_iff_getElem?, List.getElem?_eq_getElem hi, hget])
  simp_all

theorem freeFirst_spec (q : FrameQueue) (p : FrameInfo → Bool) :
    (q.freeFirst p = q ∧ ∀ frame ∈ q.held, p frame = false) ∨
    ∃ frame, p frame ∧ q.held.Perm (frame :: (q.freeFirst p).held) ∧
      (q.freeFirst p).capacity = q.capacity := by
  rw [freeFirst]
  cases hf : q.frames.findIdx? fun slot ↦ slot.any p with
  | none =>
    left
    refine ⟨rfl, ?_⟩
    intro frame hmem
    simpa using List.findIdx?_eq_none_iff.mp hf (some frame) (mem_held.mp hmem)
  | some i =>
    right
    obtain ⟨hi, hp, -⟩ := List.findIdx?_eq_some_iff_getElem.mp hf
    obtain ⟨frame, hframe, hpf⟩ := (Option.any_eq_true ..).mp hp
    have hget : q.frames[i]? = some (some frame) := by rw [List.getElem?_eq_getElem hi, hframe]
    exact ⟨frame, hpf, clear_perm hget, by simp [free, capacity]⟩

theorem held_resetFor (q : FrameQueue) (address : UInt8) :
    (q.resetFor address).held = q.held.filter fun frame ↦ frame.header.address != address := by
  rw [held, held, ← reduceOption_filter]
  congr 1
  apply List.map_congr_left
  intro slot _
  cases slot with
  | none => rfl
  | some frame => by_cases h : frame.header.address = address <;> simp [Option.filter, h]

theorem capacity_resetFor (q : FrameQueue) (address : UInt8) :
    (q.resetFor address).capacity = q.capacity := by
  simp [capacity, resetFor]

theorem free_perm {i : ℕ} {frame : FrameInfo} (h : q.get i = some frame) :
    q.held.Perm (frame :: (q.free i).held) :=
  clear_perm (Option.join_eq_some_iff.mp h)

theorem capacity_free (q : FrameQueue) (i : ℕ) : (q.free i).capacity = q.capacity := by
  simp [capacity, free]

def iPairs (q : FrameQueue) (address : UInt8) : List (UInt8 × Bytes) :=
  (q.held.filter fun frame ↦ frame.frameType == .iFrame && frame.header.address == address).map
    fun frame ↦ (frame.ns, frame.payload)

theorem mem_iPairs {address : UInt8} {pair : UInt8 × Bytes} :
    pair ∈ q.iPairs address ↔ ∃ frame ∈ q.held, frame.frameType = .iFrame ∧
    frame.header.address = address ∧
      (frame.ns, frame.payload) = pair := by
  simp [iPairs, and_assoc]

theorem iPairs_length_le (q : FrameQueue) (address : UInt8) :
    (q.iPairs address).length ≤ q.capacity := by
  rw [iPairs, List.length_map]
  exact Nat.le_trans (List.length_filter_le ..) q.held_length_le

theorem iPairs_perm {q' : FrameQueue} {frame : FrameInfo} (h : q'.held.Perm (frame :: q.held))
    (hi : frame.frameType = .iFrame) :
    (q'.iPairs frame.header.address).Perm
      ((frame.ns, frame.payload) :: q.iPairs frame.header.address) := by
  have hf :=
    (h.filter fun f ↦ f.frameType == .iFrame && f.header.address == frame.header.address).map
    fun f ↦ (f.ns, f.payload)
  rwa [List.filter_cons_of_pos (by simp [hi]), List.map_cons] at hf

theorem iPairs_perm_of_ne {q' : FrameQueue} {frame : FrameInfo} (h : q'.held.Perm (frame :: q.held))
    {address : UInt8} (hne : frame.header.address ≠ address) :
    (q'.iPairs address).Perm (q.iPairs address) := by
  have hf := (h.filter fun f ↦ f.frameType == .iFrame && f.header.address == address).map
    fun f ↦ (f.ns, f.payload)
  rwa [List.filter_cons_of_neg (by simp [hne])] at hf

theorem iPairs_resetFor_ne (q : FrameQueue) {address address' : UInt8} (hne : address' ≠ address) :
    (q.resetFor address').iPairs address = q.iPairs address := by
  rw [iPairs, iPairs, held_resetFor, List.filter_filter]
  congr 1
  apply List.filter_congr
  intro frame _
  by_cases h : frame.header.address = address
  · simp [h, hne.symm]
  · simp [h]

theorem capacity_freeFirst (q : FrameQueue) (p : FrameInfo → Bool) :
    (q.freeFirst p).capacity = q.capacity := by
  rcases q.freeFirst_spec p with ⟨h, -⟩ | ⟨frame, -, -, h⟩
  · rw [h]
  · exact h

theorem iPairs_freeByNs (q : FrameQueue) (address ns : UInt8) :
    ((q.freeByNs address ns) = q ∧ ∀ pair ∈ q.iPairs address, pair.1 ≠ ns) ∨
    ∃ payload,
    (q.iPairs address).Perm ((ns, payload) :: (q.freeByNs address ns).iPairs address) := by
  rcases q.freeFirst_spec fun frame ↦
    frame.header.address == address && frame.frameType == .iFrame && frame.ns == ns with
    ⟨he, hnone⟩ | ⟨frame, hp, hperm, -⟩
  · left
    refine ⟨he, ?_⟩
    rintro pair hmem rfl
    obtain ⟨frame, hheld, htype, haddr, rfl⟩ := mem_iPairs.mp hmem
    simpa [htype, haddr] using hnone frame hheld
  · right
    simp only [Bool.and_eq_true, beq_iff_eq] at hp
    obtain ⟨⟨rfl, htype⟩, rfl⟩ := hp
    exact ⟨frame.payload, iPairs_perm hperm htype⟩

theorem iPairs_freeByNs_ne (q : FrameQueue) {address address' : UInt8} (hne : address' ≠ address)
    (ns : UInt8) : ((q.freeByNs address' ns).iPairs address).Perm (q.iPairs address) := by
  rcases q.freeFirst_spec fun frame ↦
    frame.header.address == address' && frame.frameType == .iFrame && frame.ns == ns with
    ⟨he, -⟩ | ⟨frame, hp, hperm, -⟩
  · rw [freeByNs, he]
  · simp only [Bool.and_eq_true, beq_iff_eq] at hp
    exact (iPairs_perm_of_ne hperm (by rw [hp.1.1]; exact hne)).symm

theorem held_freeFirst_subset (q : FrameQueue) (p : FrameInfo → Bool) :
    (q.freeFirst p).held ⊆ q.held := by
  rcases q.freeFirst_spec p with ⟨h, -⟩ | ⟨frame, -, h, -⟩
  · rw [h]
    exact List.Subset.refl _
  · intro f hf
    exact h.mem_iff.mpr (List.mem_cons_of_mem _ hf)

end TinyProto.FrameQueue
