import Mathlib.Data.List.Prime
import Mathlib.Data.Nat.Prime.Basic
import Mathlib.Dynamics.PeriodicPts.Defs
import Mathlib.Tactic.NormNum.Prime
import TinyProto.Lib.Lfsr

namespace TinyProto.Lib

open Function

/-- A product of primes is the least period if leaving out one of them gives none. -/
theorem minimalPeriod_eq_prod {α : Type*} {f : α → α} {x : α} {ps : List ℕ}
    (hps : ∀ p ∈ ps, p.Prime) (h : IsPeriodicPt f ps.prod x)
    (hproper : ∀ p ∈ ps, ¬ IsPeriodicPt f (ps.prod / p) x) : minimalPeriod f x = ps.prod := by
  obtain ⟨k, hk⟩ := h.minimalPeriod_dvd
  by_contra hne
  have hk1 : k ≠ 1 := by
    rintro rfl
    rw [Nat.mul_one] at hk
    exact hne hk.symm
  obtain ⟨p, hp, j, rfl⟩ := Nat.exists_prime_and_dvd hk1
  have hmem : p ∈ ps :=
    mem_list_primes_of_dvd_prod hp.prime (fun q hq ↦ (hps q hq).prime)
      ⟨minimalPeriod f x * j, hk.trans (Nat.mul_left_comm ..)⟩
  refine hproper p hmem ?_
  rw [isPeriodicPt_iff_minimalPeriod_dvd, hk, Nat.mul_left_comm, Nat.mul_div_cancel_left _ hp.pos]
  exact ⟨j, rfl⟩

namespace Lfsr

variable {w : ℕ} (poly : BitVec w)

/-! Registers multiply as the polynomials that they stand for, with `shift` as the
multiplication by the unknown. -/

/-- A polynomial in `shift`, highest coefficient first, applied to `b`. -/
def combine (b : BitVec w) (bits : List Bool) : BitVec w :=
  bits.foldl (fun acc c ↦ shift poly acc ^^^ if c then b else 0#w) 0#w

def coefficients (a : BitVec w) : List Bool := (List.range w).map a.getLsbD

def mul (a b : BitVec w) : BitVec w := combine poly b (coefficients a)

def one : BitVec w := BitVec.twoPow w (w - 1)

/-- The power of the unknown with the exponent `bits`, highest digit first. -/
def power (bits : List Bool) : BitVec w :=
  bits.foldl (fun acc c ↦ if c then shift poly (mul poly acc acc) else mul poly acc acc) one

def number (bits : List Bool) : ℕ := bits.foldl (fun n c ↦ if c then 2 * n + 1 else 2 * n) 0

def digits : ℕ → ℕ → List Bool
  | 0, _ => []
  | k + 1, n => digits k (n / 2) ++ [n % 2 == 1]

@[simp] theorem combine_nil (b : BitVec w) : combine poly b [] = 0#w := rfl

theorem combine_concat (b : BitVec w) (bits : List Bool) (c : Bool) :
    combine poly b (bits ++ [c]) = shift poly (combine poly b bits) ^^^ if c then b
    else 0#w := List.foldl_concat ..

theorem combine_shift (b : BitVec w) (bits : List Bool) :
    combine poly (shift poly b) bits = shift poly (combine poly b bits) := by
  induction bits using List.reverseRecOn with
  | nil => exact (shift_zero poly).symm
  | append_singleton bits c ih =>
    rw [combine_concat, combine_concat, ih, shift_xor, apply_ite (shift poly), shift_zero]

theorem getLsbD_shift {s : BitVec w} (hs : s.getLsbD 0 = false) (i : ℕ) :
    (shift poly s).getLsbD i = s.getLsbD (i + 1) := by
  rw [shift, hs, if_neg Bool.false_ne_true, BitVec.xor_zero,
    BitVec.getLsbD_ushiftRight, Nat.add_comm]

theorem getLsbD_coefficient (c : Bool) (i : ℕ) :
    (if c then (one : BitVec w) else 0#w).getLsbD i = (decide (i + 1 = w) && c) := by
  cases c
  · rw [if_neg Bool.false_ne_true, BitVec.getLsbD_zero, Bool.and_false]
  · rw [if_pos rfl, one, BitVec.getLsbD_twoPow, Bool.and_true, ← Bool.decide_and, decide_eq_decide]
    omega

theorem getLsbD_combine_one (a : BitVec w) {k : ℕ} (hk : k ≤ w) (i : ℕ) :
    (combine poly one ((List.range k).map a.getLsbD)).getLsbD i =
      (decide (w - k ≤ i ∧ i < w) && a.getLsbD (i - (w - k))) := by
  induction k generalizing i with
  | zero =>
    rw [List.range_zero, List.map_nil, combine_nil, BitVec.getLsbD_zero, decide_eq_false (by omega),
      Bool.false_and]
  | succ k ih =>
    have hlow := ih (by omega) 0
    rw [decide_eq_false (by omega), Bool.false_and] at hlow
    rw [List.range_succ, List.map_append, List.map_singleton, combine_concat, BitVec.getLsbD_xor,
      getLsbD_shift poly hlow, ih (by omega), getLsbD_coefficient]
    by_cases hi : i + 1 = w
    · rw [decide_eq_false (by omega), Bool.false_and, Bool.false_xor, decide_eq_true hi,
        decide_eq_true (by omega)]
      congr 2
      omega
    · rw [decide_eq_false hi, Bool.false_and, Bool.xor_false]
      by_cases hin : w - (k + 1) ≤ i ∧ i < w
      · rw [decide_eq_true hin, decide_eq_true (by omega)]
        congr 2
        omega
      · rw [decide_eq_false hin, decide_eq_false (by omega), Bool.false_and, Bool.false_and]

theorem combine_one (a : BitVec w) : combine poly one (coefficients a) = a := by
  apply BitVec.eq_of_getLsbD_eq
  intro i hi
  rw [coefficients, getLsbD_combine_one poly a le_rfl, Nat.sub_self, Nat.sub_zero,
    decide_eq_true ⟨Nat.zero_le i, hi⟩, Bool.true_and]

theorem mul_one (a : BitVec w) : mul poly a one = a := combine_one poly a

theorem mul_iterate_shift (a b : BitVec w) (n : ℕ) :
    mul poly a ((shift poly)^[n] b) = (shift poly)^[n] (mul poly a b) := by
  induction n with
  | zero => rfl
  | succ n ih => rw [iterate_succ_apply', iterate_succ_apply', ← ih, mul, combine_shift, mul]

theorem mul_iterate (m n : ℕ) :
    mul poly ((shift poly)^[m] one) ((shift poly)^[n] one) = (shift poly)^[n + m] one := by
  rw [mul_iterate_shift, mul_one, iterate_add_apply]

theorem power_eq (bits : List Bool) : power poly bits = (shift poly)^[number bits] one := by
  induction bits using List.reverseRecOn with
  | nil => rfl
  | append_singleton bits c ih =>
    rw [power, number, List.foldl_concat, List.foldl_concat, ← power, ← number, ih, mul_iterate,
      ← Nat.two_mul]
    cases c
    · rfl
    · rw [if_pos rfl, if_pos rfl, iterate_succ_apply']

theorem number_digits {k n : ℕ} (h : n < 2 ^ k) : number (digits k n) = n := by
  induction k generalizing n with
  | zero => exact (Nat.lt_one_iff.mp h).symm
  | succ k ih =>
    rw [Nat.pow_succ] at h
    rw [digits, number, List.foldl_concat, ← number, ih (by omega)]
    rcases Nat.mod_two_eq_zero_or_one n with he | he <;> rw [he]
    · exact (show 2 * (n / 2) = n by omega)
    · exact (show 2 * (n / 2) + 1 = n by omega)

/-- A product of primes is the period if its power is one and no smaller one is. -/
theorem period_eq {ps : List ℕ} (hps : ∀ p ∈ ps, p.Prime) {k : ℕ} (hk : ps.prod < 2 ^ k)
    (hone : power poly (digits k ps.prod) = one)
    (hproper : ∀ p ∈ ps, power poly (digits k (ps.prod / p)) ≠ one) :
    minimalPeriod (shift poly) one = ps.prod := by
  have hpower : ∀ n < 2 ^ k, IsPeriodicPt (shift poly) n one ↔ power poly (digits k n) = one := by
    intro n hn
    rw [power_eq, number_digits hn]
    rfl
  refine minimalPeriod_eq_prod hps ((hpower _ hk).mpr hone) ?_
  intro p hp
  exact (hpower _ ((Nat.div_le_self ..).trans_lt hk)).not.mpr (hproper p hp)

theorem iterate_shift_one (hw : 0 < w) : (shift poly)^[w - 1] one = 1#w := by
  rw [iterate_shift_high]
  · apply BitVec.eq_of_getLsbD_eq
    intro i hi
    rw [BitVec.getLsbD_ushiftRight, one, BitVec.getLsbD_twoPow, BitVec.getLsbD_one,
      ← Bool.decide_and, ← Bool.decide_and, decide_eq_decide]
    omega
  · intro i hi
    rw [one, BitVec.getLsbD_twoPow, decide_eq_false (by omega : w - 1 ≠ i), Bool.and_false]

theorem iterate_shift_bit (hpoly : poly.getLsbD (w - 1) = true) (n : ℕ) :
    (shift poly)^[n] 1#w = 1#w ↔ minimalPeriod (shift poly) one ∣ n := by
  have hw := BitVec.lt_of_getLsbD hpoly
  rw [← isPeriodicPt_iff_minimalPeriod_dvd, ← iterate_shift_one poly (by omega),
    ← iterate_add_apply, Nat.add_comm, iterate_add_apply]
  exact ((shift_injective poly hpoly).iterate (w - 1)).eq_iff

/-! What single wrong bits leave in the register. -/

theorem eq_zeros {bits : List Bool} (h : true ∉ bits) :
    bits = List.replicate bits.length false := by
  rw [List.eq_replicate_iff]
  refine ⟨rfl, fun b hb ↦ ?_⟩
  cases b with
  | false => rfl
  | true => exact absurd hb h

theorem split_first {bits : List Bool} {i : ℕ} (hi : bits[i]? = some true)
    (hbefore : ∀ k < i, bits[k]? ≠ some true) :
    bits = List.replicate i false ++ true :: bits.drop (i + 1) := by
  induction i generalizing bits with
  | zero =>
    cases bits with
    | nil => cases hi
    | cons b bits => rw [show b = true from Option.some.inj hi]; rfl
  | succ i ih =>
    cases bits with
    | nil => cases hi
    | cons b bits =>
      have hb : b = false := by
        cases b with
        | false => rfl
        | true => exact absurd rfl (hbefore 0 (Nat.succ_pos i))
      have hrest := ih hi fun k hk ↦ hbefore (k + 1) (Nat.succ_lt_succ hk)
      rw [hb, List.replicate_succ, List.cons_append, List.drop_succ_cons]
      exact congrArg (false :: ·) hrest

theorem getElem?_first (i : ℕ) (rest : List Bool) (k : ℕ) :
    (List.replicate i false ++ true :: rest)[k]? = some true ↔ k = i ∨ i < k ∧
    rest[k - (i + 1)]? = some true := by
  rw [List.getElem?_append, List.length_replicate, List.getElem?_replicate]
  rcases Nat.lt_trichotomy k i with hk | rfl | hk
  · rw [if_pos hk, if_pos hk]
    simp only [Option.some.injEq, Bool.false_eq_true, false_iff]
    omega
  · simp
  · rw [if_neg (by omega), List.getElem?_cons, if_neg (by omega), Nat.sub_sub]
    exact ⟨fun h ↦ .inr ⟨hk, h⟩, fun h ↦ h.elim (fun h ↦ absurd h hk.ne') And.right⟩

theorem exists_first {bits : List Bool} {n : ℕ} (h : bits.count true = n + 1) :
    ∃ i rest, bits = List.replicate i false ++ true :: rest ∧ rest.count true = n := by
  induction bits with
  | nil => cases h
  | cons b bits ih =>
    cases b with
    | true =>
      rw [List.count_cons_self] at h
      exact ⟨0, bits, rfl, Nat.succ.inj h⟩
    | false =>
      rw [List.count_cons_of_ne Bool.false_ne_true] at h
      obtain ⟨i, rest, rfl, hrest⟩ := ih h
      exact ⟨i + 1, rest, rfl, hrest⟩

theorem exists_two {bits : List Bool} (h : bits.count true = 2) :
    ∃ i j, i < j ∧ j < bits.length ∧ ∀ k, bits[k]? = some true ↔ k = i ∨ k = j := by
  obtain ⟨i, rest, rfl, hone⟩ := exists_first h
  obtain ⟨d, rest, rfl, hzero⟩ := exists_first hone
  refine ⟨i, i + 1 + d, by omega, ?_, fun k ↦ ?_⟩
  · simp only [List.length_append, List.length_replicate, List.length_cons]
    omega
  · have hnone : ∀ n : ℕ, rest[n]? ≠ some true := by
      intro n hn
      exact List.count_eq_zero.mp hzero (List.mem_of_getElem? hn)
    rw [getElem?_first, getElem?_first]
    simp only [hnone, and_false, or_false]
    omega

/-- Two wrong bits leave no trace just when a whole number of periods lies between them. -/
theorem absorb_two (hpoly : poly.getLsbD (w - 1) = true) {bits : List Bool} {i j : ℕ} (hij : i < j)
    (htwo : ∀ k, bits[k]? = some true ↔ k = i ∨ k = j) :
    absorb poly 0#w bits = 0#w ↔ minimalPeriod (shift poly) one ∣ j - i := by
  obtain ⟨d, rfl⟩ := Nat.exists_eq_add_of_lt hij
  have hfirst := split_first ((htwo i).mpr (.inl rfl)) (by
    intro k hk
    rw [ne_eq, htwo]
    omega)
  have hsecond : bits.drop (i + 1) = List.replicate d false ++ true ::
      (bits.drop (i + 1)).drop (d + 1) := by
    apply split_first
    · rw [List.getElem?_drop, htwo]
      omega
    · intro k hk
      rw [List.getElem?_drop, ne_eq, htwo]
      omega
  have hrest : true ∉ (bits.drop (i + 1)).drop (d + 1) := by
    intro hmem
    obtain ⟨k, hk⟩ := List.mem_iff_getElem?.mp hmem
    rw [List.getElem?_drop, List.getElem?_drop, htwo] at hk
    omega
  have hzero : ∀ (n : ℕ) (s : BitVec w), (shift poly)^[n] s = 0#w ↔ s = 0#w := by
    intro n s
    conv_lhs => rw [← iterate_shift_zero poly n]
    exact ((shift_injective poly hpoly).iterate n).eq_iff
  rw [hfirst, hsecond, eq_zeros hrest, absorb_append, absorb_zeros, iterate_shift_zero, absorb_cons,
    absorb_append, absorb_zeros, absorb_cons, absorb_zeros, BitVec.zero_xor, bit, if_pos rfl,
    ← iterate_succ_apply, hzero, BitVec.xor_eq_zero_iff, ← iterate_succ_apply,
    iterate_shift_bit poly hpoly]
  congr! 1
  omega

def odd (bits : List Bool) : Bool := bits.foldr xor false

theorem odd_cons (b : Bool) (bits : List Bool) : odd (b :: bits) = xor b (odd bits) := rfl

theorem odd_eq (bits : List Bool) : odd bits = decide (bits.count true % 2 = 1) := by
  induction bits with
  | nil => rfl
  | cons b bits ih =>
    rw [odd_cons, ih]
    cases b with
    | false => rw [List.count_cons_of_ne Bool.false_ne_true, Bool.false_xor]
    | true =>
      rw [List.count_cons_self, Bool.true_xor, ← decide_not, decide_eq_decide]
      omega

theorem odd_map_xor (xs : List ℕ) (f g : ℕ → Bool) :
    odd (xs.map fun i ↦ xor (f i) (g i)) = xor (odd (xs.map f)) (odd (xs.map g)) := by
  induction xs with
  | nil => rfl
  | cons x xs ih =>
    rw [List.map_cons, List.map_cons, List.map_cons, odd_cons, odd_cons, odd_cons, ih,
      Bool.xor_assoc, Bool.xor_assoc, Bool.xor_left_comm (g x)]

theorem odd_xor (s t : BitVec w) :
    odd (coefficients (s ^^^ t)) = xor (odd (coefficients s)) (odd (coefficients t)) := by
  rw [coefficients, coefficients, coefficients, ← odd_map_xor]
  congr 2
  funext i
  exact BitVec.getLsbD_xor

theorem odd_ushiftRight (s : BitVec w) :
    odd (coefficients (s >>> 1)) = xor (odd (coefficients s)) (s.getLsbD 0) := by
  have hlast : odd ((List.range (w + 1)).map s.getLsbD) = odd (coefficients s) := by
    rw [odd_eq, odd_eq, List.range_succ, List.map_append, List.map_singleton,
      BitVec.getLsbD_of_ge s w le_rfl, List.count_append, coefficients]
    rfl
  have hfirst : odd ((List.range (w + 1)).map s.getLsbD) =
      xor (s.getLsbD 0) (odd (coefficients (s >>> 1))) := by
    rw [List.range_succ_eq_map, List.map_cons, List.map_map, odd_cons, coefficients]
    congr 3
    funext i
    rw [BitVec.getLsbD_ushiftRight, Nat.add_comm]
    rfl
  rw [← hlast, hfirst, Bool.xor_comm, ← Bool.xor_assoc, Bool.xor_self, Bool.false_xor]

theorem odd_zero : odd (coefficients 0#w) = false := by
  rw [odd_eq, List.count_eq_zero.mpr]
  · rfl
  · simp [coefficients]

theorem odd_shift (hpoly : odd (coefficients poly) = true) (s : BitVec w) :
    odd (coefficients (shift poly s)) = odd (coefficients s) := by
  rw [shift, odd_xor, odd_ushiftRight]
  cases s.getLsbD 0
  · rw [if_neg Bool.false_ne_true, odd_zero, Bool.xor_false, Bool.xor_false]
  · rw [if_pos rfl, hpoly, Bool.xor_assoc, Bool.xor_self, Bool.xor_false]

theorem odd_bit (hw : 0 < w) (b : Bool) : odd (coefficients (bit b : BitVec w)) = b := by
  cases b with
  | false => exact odd_zero
  | true =>
    have hout : (1#w : BitVec w) >>> 1 = 0#w := by
      apply BitVec.eq_of_getLsbD_eq
      intro i hi
      rw [BitVec.getLsbD_ushiftRight, BitVec.getLsbD_one, BitVec.getLsbD_zero,
        decide_eq_false (by omega : ¬ 1 + i = 0), Bool.and_false]
    have hodd := odd_ushiftRight (1#w : BitVec w)
    rw [hout, odd_zero, BitVec.getLsbD_one, decide_eq_true hw, decide_eq_true rfl, Bool.and_true,
      Bool.xor_true] at hodd
    rw [bit, if_pos rfl]
    exact (Bool.not_eq_false' _).mp hodd.symm

theorem odd_absorb (hpoly : odd (coefficients poly) = true) (hw : 0 < w) (s : BitVec w)
    (bits : List Bool) :
    odd (coefficients (absorb poly s bits)) = xor (odd (coefficients s)) (odd bits) := by
  induction bits generalizing s with
  | nil => exact (Bool.xor_false _).symm
  | cons b bits ih =>
    rw [absorb_cons, ih, odd_shift poly hpoly, odd_xor, odd_bit hw, odd_cons, Bool.xor_assoc]

theorem absorb_odd (hpoly : odd (coefficients poly) = true) (hw : 0 < w) {bits : List Bool}
    (h : bits.count true % 2 = 1) : absorb poly 0#w bits ≠ 0#w := by
  intro hzero
  have hodd := odd_absorb poly hpoly hw 0#w bits
  rw [hzero, odd_zero, Bool.false_xor, odd_eq, decide_eq_true h] at hodd
  cases hodd

end Lfsr

end TinyProto.Lib
