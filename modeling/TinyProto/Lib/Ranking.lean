import Mathlib.Data.Prod.Lex
import Mathlib.Order.OrderIsoNat

namespace TinyProto.Lib

/-! Lexicographic ranks, compared component by component. -/

section Lex

variable {α β : Type*} [PartialOrder α] [Preorder β] {a a' : α} {b b' : β}

theorem lex_here (h : a' < a) : toLex (a', b') < toLex (a, b) :=
  Prod.Lex.toLex_lt_toLex.mpr (.inl h)

theorem lex_later (h : a' ≤ a) (hb : a' = a → b' < b) : toLex (a', b') < toLex (a, b) :=
  Prod.Lex.toLex_lt_toLex'.mpr ⟨h, hb⟩

theorem lex_le (h : a' ≤ a) (hb : b' ≤ b) : toLex (a', b') ≤ toLex (a, b) :=
  Prod.Lex.toLex_le_toLex'.mpr ⟨h, fun _ ↦ hb⟩

end Lex

/-- A sequence whose rank never rises, and falls at every busy step, is busy
only for a while. -/
theorem comes_to_rest {α : Type*} [PartialOrder α] [WellFoundedLT α] {rank : ℕ → α}
    {busy : ℕ → Prop} (hle : ∀ i, rank (i + 1) ≤ rank i)
    (hlt : ∀ i, busy i → rank (i + 1) < rank i) :
    ∃ k, ∀ i, k ≤ i → ¬ busy i := by
  obtain ⟨k, hk⟩ := WellFoundedLT.antitone_chain_condition (antitone_nat_of_succ_le hle)
  refine ⟨k, ?_⟩
  intro i hi hbusy
  have hfall := hlt i hbusy
  rw [← hk i hi, ← hk (i + 1) (by omega)] at hfall
  exact lt_irrefl _ hfall

end TinyProto.Lib
