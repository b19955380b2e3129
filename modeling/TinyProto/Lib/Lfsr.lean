import Mathlib.Data.List.Basic
import Mathlib.Logic.Function.Iterate
import Mathlib.Tactic.Common

namespace TinyProto.Lib

/-! The shift register behind a reflected cyclic redundancy check. Bits come in at
the low end, and `poly` is fed back whenever a one drops out. -/

namespace Lfsr

variable {w : ℕ} (poly : BitVec w)

def shift (s : BitVec w) : BitVec w := s >>> 1 ^^^ if s.getLsbD 0 then poly else 0#w

def bit (b : Bool) : BitVec w := if b then 1#w else 0#w

def absorb (s : BitVec w) (bits : List Bool) : BitVec w :=
  bits.foldl (fun s b ↦ shift poly (s ^^^ bit b)) s

def crc (bits : List Bool) : BitVec w := absorb poly (BitVec.allOnes w) bits ^^^ BitVec.allOnes w

/-- Input bits as a number, the first one least significant. -/
def ofBits : List Bool → BitVec w
  | [] => 0#w
  | b :: bits => bit b ^^^ ofBits bits <<< 1

theorem shift_zero : shift poly 0#w = 0#w := by
  rw [shift, BitVec.getLsbD_zero, if_neg Bool.false_ne_true, BitVec.zero_ushiftRight,
    BitVec.xor_self]

theorem shift_xor (s t : BitVec w) : shift poly (s ^^^ t) = shift poly s ^^^ shift poly t := by
  have hswap : ∀ a b c d : BitVec w, a ^^^ b ^^^ (c ^^^ d) = a ^^^ c ^^^ (b ^^^ d) := by
    intro a b c d
    ac_rfl
  rw [shift, shift, shift, BitVec.ushiftRight_xor_distrib, BitVec.getLsbD_xor, hswap]
  congr 1
  cases s.getLsbD 0 <;> cases t.getLsbD 0 <;> simp

theorem iterate_shift_xor (n : ℕ) (s t : BitVec w) :
    (shift poly)^[n] (s ^^^ t) = (shift poly)^[n] s ^^^ (shift poly)^[n] t := by
  induction n generalizing s t with
  | zero => rfl
  | succ n ih =>
      rw [Function.iterate_succ_apply, Function.iterate_succ_apply, Function.iterate_succ_apply,
        shift_xor, ih]

theorem iterate_shift_zero (n : ℕ) : (shift poly)^[n] 0#w = 0#w := by
  induction n with
  | zero => rfl
  | succ n ih => rw [Function.iterate_succ_apply, shift_zero, ih]

theorem shift_injective (hpoly : poly.getLsbD (w - 1) = true) :
    Function.Injective (shift poly) := by
  have hkernel : ∀ s, shift poly s = 0#w → s = 0#w := by
    intro s hs
    rw [shift] at hs
    cases h0 : s.getLsbD 0 with
    | true =>
      rw [h0, if_pos rfl, BitVec.xor_eq_zero_iff] at hs
      rw [← hs, BitVec.getLsbD_ushiftRight] at hpoly
      have hw := BitVec.lt_of_getLsbD hpoly
      omega
    | false =>
      rw [h0, if_neg Bool.false_ne_true, BitVec.xor_zero] at hs
      apply BitVec.eq_of_getLsbD_eq
      intro i _
      cases i with
      | zero => rw [h0, BitVec.getLsbD_zero]
      | succ i =>
        have hi := congrArg (BitVec.getLsbD · i) hs
        rw [BitVec.getLsbD_ushiftRight, BitVec.getLsbD_zero, Nat.add_comm] at hi
        rw [hi, BitVec.getLsbD_zero]
  intro s t hst
  apply BitVec.xor_eq_zero_iff.mp
  apply hkernel
  rw [shift_xor, hst, BitVec.xor_self]

theorem iterate_shift_ne_zero (hpoly : poly.getLsbD (w - 1) = true) (n : ℕ) {s : BitVec w}
    (hs : s ≠ 0#w) : (shift poly)^[n] s ≠ 0#w := by
  intro h
  rw [← iterate_shift_zero poly n] at h
  exact hs ((shift_injective poly hpoly).iterate n h)

theorem iterate_shift_high (n : ℕ) {s : BitVec w} (hs : ∀ i < n, s.getLsbD i = false) :
    (shift poly)^[n] s = s >>> n := by
  induction n generalizing s with
  | zero => rw [BitVec.ushiftRight_zero]; rfl
  | succ n ih =>
    have hone : shift poly s = s >>> 1 := by
      rw [shift, hs 0 (Nat.succ_pos n), if_neg Bool.false_ne_true, BitVec.xor_zero]
    rw [Function.iterate_succ_apply, hone, ih, ← BitVec.shiftRight_add, Nat.add_comm]
    intro i hi
    rw [BitVec.getLsbD_ushiftRight]
    exact hs (1 + i) (by omega)

@[simp] theorem absorb_nil (s : BitVec w) : absorb poly s [] = s := rfl

theorem absorb_cons (s : BitVec w) (b : Bool) (bits : List Bool) :
    absorb poly s (b :: bits) = absorb poly (shift poly (s ^^^ bit b)) bits := rfl

theorem absorb_append (s : BitVec w) (xs ys : List Bool) :
    absorb poly s (xs ++ ys) = absorb poly (absorb poly s xs) ys := List.foldl_append

theorem bit_xor (b c : Bool) : (bit (xor b c) : BitVec w) = bit b ^^^ bit c := by
  cases b <;> cases c <;> simp [bit]

theorem absorb_xor (s t : BitVec w) {xs ys : List Bool} (h : xs.length = ys.length) :
    absorb poly (s ^^^ t) (List.zipWith xor xs ys) = absorb poly s xs ^^^ absorb poly t ys := by
  induction xs generalizing s t ys with
  | nil =>
    rw [List.length_eq_zero_iff.mp h.symm]
    rfl
  | cons x xs ih =>
    match ys, h with
    | y :: ys, h =>
      have hswap : s ^^^ t ^^^ (bit x ^^^ bit y) = s ^^^ bit x ^^^ (t ^^^ bit y) := by ac_rfl
      rw [List.zipWith_cons_cons, absorb_cons, absorb_cons, absorb_cons, bit_xor, hswap, shift_xor]
      exact ih _ _ (Nat.succ.inj h)

theorem absorb_zeros (s : BitVec w) (n : ℕ) :
    absorb poly s (List.replicate n false) = (shift poly)^[n] s := by
  induction n generalizing s with
  | zero => rfl
  | succ n ih =>
    rw [List.replicate_succ, absorb_cons, ih, bit, if_neg Bool.false_ne_true, BitVec.xor_zero,
      Function.iterate_succ_apply]

theorem getLsbD_ofBits (bits : List Bool) (i : ℕ) :
    (ofBits bits : BitVec w).getLsbD i = (decide (i < w) && bits.getD i false) := by
  induction bits generalizing i with
  | nil => rw [ofBits, BitVec.getLsbD_zero, List.getD_nil, Bool.and_false]
  | cons b bits ih =>
    rw [ofBits, BitVec.getLsbD_xor, BitVec.getLsbD_shiftLeft, bit]
    cases i with
    | zero => cases b <;> simp
    | succ i =>
      have hbit : (if b = true then 1#w else 0#w).getLsbD (i + 1) = false := by cases b <;> simp
      rw [hbit, Bool.false_xor, Nat.add_sub_cancel, ih, List.getD_cons_succ,
        decide_eq_false (by omega : ¬ i + 1 < 1), Bool.not_false, Bool.and_true, ← Bool.and_assoc,
        ← Bool.decide_and]
      congr 2
      simp only [eq_iff_iff]
      omega

theorem ofBits_high (bits : List Bool) (i : ℕ) (hi : bits.length ≤ i) :
    (ofBits bits : BitVec w).getLsbD i = false := by
  rw [getLsbD_ofBits, List.getD_eq_getElem?_getD, List.getElem?_eq_none hi, Option.getD_none,
    Bool.and_false]

theorem ofBits_inj {bits bits' : List Bool} (h : bits.length = w) (h' : bits'.length = w) :
    (ofBits bits : BitVec w) = ofBits bits' ↔ bits = bits' := by
  refine ⟨fun heq ↦ ?_, fun heq ↦ by rw [heq]⟩
  apply List.ext_getElem (h.trans h'.symm)
  intro i hi hi'
  have hbit := congrArg (BitVec.getLsbD · i) heq
  rw [getLsbD_ofBits, getLsbD_ofBits, decide_eq_true (by omega : i < w), Bool.true_and,
    Bool.true_and, List.getD_eq_getElem?_getD, List.getD_eq_getElem?_getD,
    List.getElem?_eq_getElem hi, List.getElem?_eq_getElem hi'] at hbit
  exact hbit

theorem shift_double {x : BitVec w} (hx : x.getLsbD (w - 1) = false) :
    shift poly (x <<< 1) = x := by
  have h0 : (x <<< 1).getLsbD 0 = false := by simp
  rw [shift, h0, if_neg Bool.false_ne_true, BitVec.xor_zero]
  apply BitVec.eq_of_getLsbD_eq
  intro i hi
  rw [BitVec.getLsbD_ushiftRight, BitVec.getLsbD_shiftLeft]
  by_cases hlast : 1 + i < w
  · simp [hlast]
  · obtain rfl : i = w - 1 := by omega
    simp [hlast, hx]

theorem absorb_ofBits (s : BitVec w) {bits : List Bool} (h : bits.length ≤ w) :
    absorb poly s bits = (shift poly)^[bits.length] (s ^^^ ofBits bits) := by
  induction bits generalizing s with
  | nil => rw [ofBits, BitVec.xor_zero]; rfl
  | cons b bits ih =>
    rw [List.length_cons] at h
    have htop : (ofBits bits : BitVec w).getLsbD (w - 1) = false := ofBits_high bits _ (by omega)
    rw [absorb_cons, ih _ (by omega), List.length_cons, Function.iterate_succ_apply, ofBits,
      ← BitVec.xor_assoc, shift_xor poly (s ^^^ bit b), shift_double poly htop]

/-- Of all fields as wide as the register only the check value itself leaves in it what
the check value always leaves. -/
theorem absorb_field_iff (hpoly : poly.getLsbD (w - 1) = true) (bits : List Bool)
    {field : List Bool} (h : field.length = w) : absorb poly (BitVec.allOnes w) (bits ++ field) =
      (shift poly)^[w] (BitVec.allOnes w) ↔ (ofBits field : BitVec w) = crc poly bits := by
  rw [absorb_append, absorb_ofBits poly _ (Nat.le_of_eq h), h,
    ((shift_injective poly hpoly).iterate w).eq_iff, crc]
  generalize absorb poly (BitVec.allOnes w) bits = s
  generalize (ofBits field : BitVec w) = t
  have hcancel : s ^^^ (s ^^^ t) = t := by rw [← BitVec.xor_assoc, BitVec.xor_self, BitVec.zero_xor]
  constructor
  · intro heq
    rw [← heq, hcancel]
  · rintro rfl
    rw [← BitVec.xor_assoc, BitVec.xor_self, BitVec.zero_xor]

theorem ofBits_ne_zero {bits : List Bool} (h : bits.length ≤ w) (hone : true ∈ bits) :
    (ofBits bits : BitVec w) ≠ 0#w := by
  induction bits with
  | nil => exact absurd hone List.not_mem_nil
  | cons b bits ih =>
    rw [List.length_cons] at h
    intro hzero
    have hfirst := congrArg (BitVec.getLsbD · 0) hzero
    have hb : b = false := by
      cases b with
      | false => rfl
      | true => simp [ofBits, bit] at hfirst; omega
    rw [hb, List.mem_cons, or_iff_right (by decide)] at hone
    rw [ofBits, hb, bit, if_neg Bool.false_ne_true, BitVec.zero_xor] at hzero
    apply ih (by omega) hone
    rw [← shift_double (0#w) (ofBits_high bits (w - 1) (by omega)), hzero, shift_zero]

/-- A burst that fits into the register leaves a trace there, however many bits
follow it. -/
theorem absorb_burst (hpoly : poly.getLsbD (w - 1) = true) {bits : List Bool} {k : ℕ}
    (hone : true ∈ bits) (hburst : ∀ i, bits[i]? = some true → k ≤ i ∧ i < k + w) :
    absorb poly 0#w bits ≠ 0#w := by
  have hbefore : bits.take k = List.replicate (bits.take k).length false := by
    rw [List.eq_replicate_iff]
    refine ⟨rfl, fun b hb ↦ ?_⟩
    obtain ⟨i, hi, hget⟩ := List.mem_iff_getElem.mp hb
    rw [List.length_take] at hi
    rw [List.getElem_take] at hget
    cases b with
    | false => rfl
    | true =>
      have hk := (hburst i (List.getElem?_eq_some_iff.mpr ⟨by omega, hget⟩)).1
      omega
  have hafter : (bits.drop k).drop w = List.replicate ((bits.drop k).drop w).length false := by
    rw [List.eq_replicate_iff]
    refine ⟨rfl, fun b hb ↦ ?_⟩
    obtain ⟨i, hi, hget⟩ := List.mem_iff_getElem.mp hb
    rw [List.length_drop, List.length_drop] at hi
    rw [List.getElem_drop, List.getElem_drop] at hget
    cases b with
    | false => rfl
    | true =>
      have hk := (hburst _ (List.getElem?_eq_some_iff.mpr ⟨by omega, hget⟩)).2
      omega
  have hcut : bits = bits.take k ++ ((bits.drop k).take w ++ (bits.drop k).drop w) := by
    rw [List.take_append_drop, List.take_append_drop]
  have hmiddle : true ∈ (bits.drop k).take w := by
    rw [hcut, List.mem_append, List.mem_append, hbefore, hafter] at hone
    rcases hone with hone | hone | hone
    · cases List.eq_of_mem_replicate hone
    · exact hone
    · cases List.eq_of_mem_replicate hone
  have hlen : ((bits.drop k).take w).length ≤ w := List.length_take_le ..
  rw [hcut, absorb_append, absorb_append, hbefore, absorb_zeros, iterate_shift_zero,
    hafter, absorb_zeros, absorb_ofBits poly _ hlen, BitVec.zero_xor]
  apply iterate_shift_ne_zero poly hpoly
  apply iterate_shift_ne_zero poly hpoly
  exact ofBits_ne_zero hlen hmiddle

def byteBits (b : BitVec 8) : List Bool := (List.range 8).map b.getLsbD

@[simp] theorem byteBits_length (b : BitVec 8) : (byteBits b).length = 8 := by
  rw [byteBits, List.length_map, List.length_range]

theorem ofBits_byteBits (b : BitVec 8) : (ofBits (byteBits b) : BitVec w) = b.setWidth w := by
  apply BitVec.eq_of_getLsbD_eq
  intro i hi
  rw [getLsbD_ofBits, BitVec.getLsbD_setWidth, byteBits, List.getD_eq_getElem?_getD,
    List.getElem?_map]
  by_cases h8 : i < 8
  · rw [List.getElem?_range h8]
    rfl
  · rw [List.getElem?_eq_none (by rw [List.length_range]; omega),
      BitVec.getLsbD_of_ge b i (by omega)]
    rfl

/-- A table of the register after each byte replaces eight single steps. -/
theorem absorb_byteBits (hw : 8 ≤ w) (s : BitVec w) (b : BitVec 8) :
    absorb poly s (byteBits b) = s >>> 8 ^^^
      (shift poly)^[8] ((s.setWidth 8 ^^^ b).setWidth w) := by
  have hhigh : ∀ i < 8, (s ^^^ (s.setWidth 8).setWidth w).getLsbD i = false := by
    intro i hi
    rw [BitVec.getLsbD_xor, BitVec.getLsbD_setWidth, BitVec.getLsbD_setWidth,
      decide_eq_true (by omega : i < w), decide_eq_true hi, Bool.true_and, Bool.true_and,
      Bool.xor_self]
  have hmoved : (s ^^^ (s.setWidth 8).setWidth w) >>> 8 = s >>> 8 := by
    apply BitVec.eq_of_getLsbD_eq
    intro i _
    rw [BitVec.getLsbD_ushiftRight, BitVec.getLsbD_ushiftRight, BitVec.getLsbD_xor,
      BitVec.getLsbD_setWidth, BitVec.getLsbD_setWidth, decide_eq_false (by omega : ¬ 8 + i < 8),
      Bool.false_and, Bool.and_false, Bool.xor_false]
  have hsplit : s ^^^ b.setWidth w = (s ^^^ (s.setWidth 8).setWidth w) ^^^
      (s.setWidth 8 ^^^ b).setWidth w := by
    rw [BitVec.setWidth_xor, BitVec.xor_assoc, ← BitVec.xor_assoc ((s.setWidth 8).setWidth w),
      BitVec.xor_self, BitVec.zero_xor]
  rw [absorb_ofBits poly s (by rw [byteBits_length]; exact hw), byteBits_length,
    ofBits_byteBits, hsplit, iterate_shift_xor, iterate_shift_high poly 8 hhigh, hmoved]

end Lfsr

end TinyProto.Lib
