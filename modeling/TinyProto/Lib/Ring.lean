import Mathlib.Data.List.Basic
import Mathlib.Data.Nat.Notation

namespace TinyProto.Lib

open List

variable {α : Type*} {slots : List (Option α)} {start k : ℕ} {a : α} {xs : List α}

/-! Slots that are filled in turn from a moving start: seen from there, the free
ones come first and the filled ones after them, oldest first. -/

def turned (slots : List (Option α)) (start : ℕ) : List (Option α) :=
  slots.drop start ++ slots.take start

/-- The slots hold `xs`, filled in this order. -/
def Ring (slots : List (Option α)) (start : ℕ) (xs : List α) : Prop :=
  ∃ k, turned slots start = replicate k none ++ xs.map some

theorem turned_length (slots : List (Option α)) (start : ℕ) :
    (turned slots start).length = slots.length := by
  rw [turned, length_append, length_drop, length_take]
  omega

theorem mem_turned {slot : Option α} : slot ∈ turned slots start ↔ slot ∈ slots := by
  rw [turned, mem_append, or_comm, ← mem_append, take_append_drop]

theorem ring_of_none (h : ∀ slot ∈ slots, slot = none) : Ring slots start [] := by
  refine ⟨slots.length, ?_⟩
  rw [map_nil, append_nil, eq_replicate_iff]
  refine ⟨turned_length slots start, ?_⟩
  intro slot hmem
  exact h slot (mem_turned.mp hmem)

theorem Ring.nil_of_none (h : Ring slots start xs) (hnone : ∀ slot ∈ slots, slot = none) :
    xs = [] := by
  obtain ⟨k, hk⟩ := h
  rw [eq_nil_iff_forall_not_mem]
  intro x hx
  have hmem : some x ∈ turned slots start := by
    rw [hk]
    exact mem_append_right _ (mem_map_of_mem hx)
  cases hnone _ (mem_turned.mp hmem)

theorem Ring.none_of_nil (h : Ring slots start ([] : List α)) {slot : Option α}
    (hmem : slot ∈ slots) : slot = none := by
  obtain ⟨k, hk⟩ := h
  rw [← mem_turned, hk, map_nil, append_nil] at hmem
  exact eq_of_mem_replicate hmem

theorem turned_set (hs : start < slots.length) (slot : Option α) :
    turned (slots.set start slot) ((start + 1) % slots.length) =
      (turned slots start).tail ++ [slot] := by
  have hdrop := drop_eq_getElem_cons hs
  have hset : slots.set start slot = slots.take start ++ slot :: slots.drop (start + 1) := by
    rw [set_eq_take_append_cons_drop, if_pos hs]
  have hlen : (slots.take start ++ [slot]).length = start + 1 := by
    rw [length_append, length_take, length_singleton]
    omega
  have hsplit : slots.take start ++ slot :: slots.drop (start + 1) =
      (slots.take start ++ [slot]) ++ slots.drop (start + 1) := by
    rw [append_assoc, singleton_append]
  rw [turned, turned, hset, hsplit, hdrop, cons_append, tail_cons]
  by_cases hend : start + 1 < slots.length
  · rw [Nat.mod_eq_of_lt hend, drop_left' hlen, take_left' hlen, append_assoc]
  · have he : start + 1 = slots.length := by omega
    rw [he, Nat.mod_self, drop_zero, take_zero, drop_length, append_nil, append_nil, nil_append]

theorem Ring.push (h : Ring slots start xs) (hs : start < slots.length)
    (hroom : slots[start]? = some none) (a : α) :
    Ring (slots.set start (some a)) ((start + 1) % slots.length) (xs ++ [a]) := by
  obtain ⟨k, hk⟩ := h
  rw [getElem?_eq_getElem hs, Option.some.injEq] at hroom
  rw [turned, drop_eq_getElem_cons hs, cons_append, hroom] at hk
  cases k with
  | zero =>
    cases xs with
    | nil => cases hk
    | cons x xs => cases hk
  | succ k =>
    refine ⟨k, ?_⟩
    rw [turned_set hs, turned, drop_eq_getElem_cons hs, cons_append, tail_cons]
    rw [replicate_succ, cons_append, cons.injEq] at hk
    rw [hk.2, map_append, map_singleton, append_assoc]

theorem Ring.room (h : Ring slots start xs) (hs : start < slots.length) (hfree : none ∈ slots) :
    slots[start]? = some none := by
  obtain ⟨k, hk⟩ := h
  cases k with
  | zero =>
    rw [← mem_turned, hk, replicate_zero, nil_append, mem_map] at hfree
    obtain ⟨x, -, hx⟩ := hfree
    cases hx
  | succ k =>
    rw [turned, drop_eq_getElem_cons hs, cons_append, replicate_succ, cons_append, cons.injEq] at hk
    rw [getElem?_eq_getElem hs, hk.1]

/-- The slots stand in the order in which they were filled. -/
def InOrder (slots : List (Option α)) (start : ℕ) : Prop := start = 0 ∨
    ∀ slot ∈ slots.drop start, slot = none

instance [DecidableEq α] (slots : List (Option α)) (start : ℕ) :
    Decidable (InOrder slots start) := by
  unfold InOrder
  infer_instance

theorem Ring.inOrder (h : Ring slots start xs) (hone : xs.length ≤ 1) : InOrder slots start := by
  obtain ⟨k, hk⟩ := h
  rcases Nat.eq_zero_or_pos start with hz | hpos
  · exact .inl hz
  right
  rcases Nat.lt_or_ge start slots.length with hs | hs
  · have hlen := congrArg List.length hk
    rw [turned_length, length_append, length_replicate, length_map] at hlen
    have hdrop : slots.drop start = replicate (slots.length - start) none := by
      have htake := congrArg (List.take (slots.length - start)) hk
      rwa [turned, take_left' length_drop,
        take_append_of_le_length (by rw [length_replicate]; omega), take_replicate,
        Nat.min_eq_left (by omega)] at htake
    intro slot hmem
    rw [hdrop] at hmem
    exact eq_of_mem_replicate hmem
  · rw [drop_eq_nil_of_le hs]
    intro slot hmem
    cases hmem

theorem lowest_eq {m : ℕ} {b : α} {rest : List (Option α)}
    (hl : slots = replicate m none ++ some a :: rest) {i : ℕ} (hi : (slots[i]?).join = some b)
    (hlow : ∀ j < i, (slots[j]?).join = none) : i = m ∧ b = a := by
  have hm : (slots[m]?).join = some a := by
    rw [hl, getElem?_append_right (Nat.le_of_eq length_replicate), length_replicate, Nat.sub_self,
      getElem?_cons_zero]
    rfl
  rcases Nat.lt_trichotomy i m with hlt | rfl | hlt
  · rw [hl, getElem?_append_left (by rwa [length_replicate]), getElem?_replicate, if_pos hlt] at hi
    cases hi
  · rw [hm, Option.some.injEq] at hi
    exact ⟨rfl, hi.symm⟩
  · rw [hlow m hlt] at hm
    cases hm

theorem clear_replicate (m : ℕ) (slot : Option α) (rest : List (Option α)) :
    (replicate m none ++ slot :: rest).set m none = replicate (m + 1) none ++ rest := by
  rw [set_append_right _ _ (Nat.le_of_eq length_replicate), length_replicate, Nat.sub_self,
    set_cons_zero, replicate_succ', append_assoc, singleton_append]

theorem split_replicate {d : ℕ} {l rest : List (Option α)}
    (h : replicate d none ++ l = replicate k none ++ some a :: rest) :
    ∃ m, k = d + m ∧ l = replicate m none ++ some a :: rest := by
  induction d generalizing k with
  | zero => exact ⟨k, (Nat.zero_add k).symm, h⟩
  | succ d ih =>
    cases k with
    | zero =>
      rw [replicate_succ, cons_append, replicate_zero, nil_append] at h
      cases h
    | succ k =>
      rw [replicate_succ, replicate_succ, cons_append, cons_append, cons.injEq] at h
      obtain ⟨m, hm, hl⟩ := ih h.2
      exact ⟨m, by omega, hl⟩

theorem Ring.pop (h : Ring slots start (a :: xs)) (horder : InOrder slots start) {i : ℕ} {b : α}
    (hi : (slots[i]?).join = some b) (hlow : ∀ j < i, (slots[j]?).join = none) :
    b = a ∧ Ring (slots.set i none) start xs := by
  obtain ⟨k, hk⟩ := h
  rw [map_cons, turned] at hk
  rcases horder with rfl | hfree
  · rw [drop_zero, take_zero, append_nil] at hk
    obtain ⟨rfl, hb⟩ := lowest_eq hk hi hlow
    refine ⟨hb, i + 1, ?_⟩
    rw [turned, drop_zero, take_zero, append_nil, hk, clear_replicate]
  · have hdrop : slots.drop start = replicate (slots.drop start).length none :=
      eq_replicate_iff.mpr ⟨rfl, hfree⟩
    rw [hdrop] at hk
    obtain ⟨m, -, htake⟩ := split_replicate hk
    have hslots : slots = replicate m none ++ some a :: (xs.map some ++ slots.drop start) := by
      conv_lhs => rw [← take_append_drop start slots, htake, append_assoc, cons_append]
    obtain ⟨rfl, hb⟩ := lowest_eq hslots hi hlow
    refine ⟨hb, (slots.drop start).length + (i + 1), ?_⟩
    have hstart : i < start := by
      have hlen := congrArg List.length htake
      rw [length_take, length_append, length_replicate, length_cons] at hlen
      omega
    rw [turned, drop_set_of_lt hstart, take_set, htake, clear_replicate, hdrop, length_replicate,
      ← append_assoc, replicate_append_replicate]

/-- Once the filled slots go round the end, the lowest one is younger than the oldest. -/
theorem Ring.behind (h : Ring slots start (a :: xs)) (horder : ¬ InOrder slots start)
    {i : ℕ} {b : α} (hi : (slots[i]?).join = some b) (hlow : ∀ j < i, (slots[j]?).join = none) :
    b ∈ xs := by
  obtain ⟨k, hk⟩ := h
  obtain ⟨hpos, hfilled⟩ := not_or.mp horder
  have hs : start < slots.length := by
    by_contra hge
    rw [drop_eq_nil_of_le (Nat.not_lt.mp hge)] at hfilled
    exact hfilled fun _ hmem ↦ absurd hmem not_mem_nil
  have hdrop : (slots.drop start).length = slots.length - start := length_drop
  have hlt : k < slots.length - start := by
    by_contra hge
    refine hfilled fun slot hmem ↦ ?_
    have htake := congrArg (List.take (slots.length - start)) hk
    rw [turned, take_left' hdrop, take_append_of_le_length (by rw [length_replicate]; omega)]
      at htake
    rw [htake] at hmem
    exact eq_of_mem_replicate (mem_of_mem_take hmem)
  obtain ⟨m, hm⟩ : ∃ m, slots.length - start = k + (m + 1) :=
    ⟨slots.length - start - k - 1, by omega⟩
  have hzero : slots[0]? = (xs[m]?).map some := by
    have hget := congrArg (·[slots.length - start]?) hk
    rw [turned, getElem?_append_right (Nat.le_of_eq hdrop), hdrop, Nat.sub_self,
      getElem?_take_of_lt (Nat.pos_of_ne_zero hpos), hm,
      getElem?_append_right (by rw [length_replicate]; omega), length_replicate,
      Nat.add_sub_cancel_left, map_cons, getElem?_cons_succ, getElem?_map] at hget
    exact hget
  rw [getElem?_eq_getElem (Nat.zero_lt_of_lt hs)] at hzero
  obtain ⟨x, hx, hslot⟩ := Option.map_eq_some_iff.mp hzero.symm
  have hfirst : (slots[0]?).join = some x := by
    rw [getElem?_eq_getElem (Nat.zero_lt_of_lt hs), ← hslot]
    rfl
  cases i with
  | zero =>
    rw [hfirst, Option.some.injEq] at hi
    exact hi ▸ mem_of_getElem? hx
  | succ i =>
    rw [hlow 0 (Nat.succ_pos i)] at hfirst
    cases hfirst

theorem inOrder_iff : InOrder slots start ↔ start = 0 ∨ ∀ b ∈ (slots.map Option.isSome).drop start,
    b = false := by
  rw [InOrder, ← map_drop, forall_mem_map]
  refine or_congr_right (forall₂_congr fun slot _ ↦ ?_)
  rw [← Option.isNone_iff_eq_none, Option.isSome_eq_false_iff]

theorem inOrder_congr {β : Type*} {slots' : List (Option β)}
    (h : slots'.map Option.isSome = slots.map Option.isSome) : InOrder slots' start ↔
    InOrder slots start := by
  rw [inOrder_iff, inOrder_iff, h]

end TinyProto.Lib
