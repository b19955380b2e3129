import Mathlib.Data.List.ReduceOption
import Mathlib.Data.List.Perm.Basic

namespace TinyProto.Lib

open List

variable {α : Type*}

/-! Arrays of optional slots, seen through the values they hold. -/

theorem split_slot {l : List α} {i : ℕ} {x : α} (h : l[i]? = some x) :
    l = l.take i ++ x :: l.drop (i + 1) := by
  obtain ⟨hi, rfl⟩ := List.getElem?_eq_some_iff.mp h
  rw [← drop_eq_getElem_cons hi, take_append_drop]

theorem fill_perm {l : List (Option α)} {i : ℕ} (h : l[i]? = some none) (a : α) :
    (l.set i (some a)).reduceOption.Perm (a :: l.reduceOption) := by
  have hi := (List.getElem?_eq_some_iff.mp h).1
  have hl : l.reduceOption = (l.take i).reduceOption ++ (l.drop (i + 1)).reduceOption := by
    conv_lhs => rw [split_slot h]
    rw [reduceOption_append, reduceOption_cons_of_none]
  rw [set_eq_take_append_cons_drop, if_pos hi, reduceOption_append, reduceOption_cons_of_some, hl]
  exact perm_middle

theorem clear_perm {l : List (Option α)} {i : ℕ} {a : α} (h : l[i]? = some (some a)) :
    l.reduceOption.Perm (a :: (l.set i none).reduceOption) := by
  have hi := (List.getElem?_eq_some_iff.mp h).1
  have hl : l.reduceOption = (l.take i).reduceOption ++ a :: (l.drop (i + 1)).reduceOption := by
    conv_lhs => rw [split_slot h]
    rw [reduceOption_append, reduceOption_cons_of_some]
  rw [set_eq_take_append_cons_drop, if_pos hi, reduceOption_append, reduceOption_cons_of_none, hl]
  exact perm_middle

theorem reduceOption_filter {l : List (Option α)} (p : α → Bool) :
    (l.map fun slot ↦ slot.filter p).reduceOption = l.reduceOption.filter p := by
  induction l with
  | nil => rfl
  | cons slot l ih =>
    cases slot with
    | none => exact ih
    | some a =>
      rw [map_cons, reduceOption_cons_of_some, filter_cons]
      by_cases hp : p a
      · rw [Option.filter_some_pos hp, reduceOption_cons_of_some, ih, if_pos hp]
      · rw [Option.filter_some_neg (by simpa using hp), reduceOption_cons_of_none, ih, if_neg hp]

theorem any_isNone_iff (l : List (Option α)) : l.any Option.isNone ↔
    l.reduceOption.length < l.length := by
  rw [reduceOption_length_lt_iff, any_eq_true]
  constructor
  · rintro ⟨slot, hmem, hnone⟩
    rwa [← Option.isNone_iff_eq_none.mp hnone]
  · intro h
    exact ⟨none, h, rfl⟩

theorem join_set_none (l : List (Option α)) (i : ℕ) : ((l.set i none)[i]?).join = none := by
  rcases Nat.lt_or_ge i l.length with hi | hi
  · rw [getElem?_set_self hi]
    rfl
  · rw [getElem?_eq_none (by rwa [length_set])]
    rfl

/-! Where the filled slots are, whatever they hold. -/

theorem getElem?_free_iff {l : List (Option α)} {i : ℕ} : l[i]? = some none ↔
    (l.map Option.isSome)[i]? = some false := by
  rw [getElem?_map]
  cases l[i]? with
  | none => simp
  | some slot => cases slot <;> simp

theorem join_isSome_eq (l : List (Option α)) (i : ℕ) :
    (l[i]?).join.isSome = ((l.map Option.isSome)[i]?).getD false := by
  rw [getElem?_map]
  cases l[i]? <;> rfl

theorem exists_rotate {n i : ℕ} (hi : i < n) (start : ℕ) : ∃ k < n, (start + k) % n = i := by
  have hs := Nat.mod_lt start (show 0 < n by omega)
  by_cases h : start % n ≤ i
  · refine ⟨i - start % n, by omega, ?_⟩
    rw [Nat.add_mod, Nat.mod_eq_of_lt (show i - start % n < n by omega), Nat.add_sub_cancel' h,
      Nat.mod_eq_of_lt hi]
  · refine ⟨i + n - start % n, by omega, ?_⟩
    rw [Nat.add_mod, Nat.mod_eq_of_lt (show i + n - start % n < n by omega),
      show start % n + (i + n - start % n) = i + n by omega, Nat.add_mod_right, Nat.mod_eq_of_lt hi]

theorem findSome?_range_eq_some {f : ℕ → Option α} {n : ℕ} {a : α}
    (h : (range n).findSome? f = some a) :
    ∃ i < n, f i = some a ∧ ∀ j < i, f j = none := by
  induction n with
  | zero => cases h
  | succ n ih =>
    rw [range_succ, findSome?_append] at h
    cases hn : (range n).findSome? f with
    | some b =>
      rw [hn] at h
      obtain ⟨i, hi, hf⟩ := ih (hn.trans h)
      exact ⟨i, by omega, hf⟩
    | none =>
      rw [hn, Option.none_or, findSome?_singleton] at h
      refine ⟨n, by omega, h, ?_⟩
      intro j hj
      exact findSome?_eq_none_iff.mp hn j (mem_range.mpr hj)

end TinyProto.Lib
