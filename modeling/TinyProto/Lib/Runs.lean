import Mathlib.Order.Basic
import Mathlib.Data.Nat.Notation

namespace TinyProto.Lib

variable {σ ι : Type*} (step : σ → ι → Option σ)

/-! Runs of a partial step function over a list of inputs. -/

def run : σ → List ι → Option σ
  | s, [] => some s
  | s, i :: is => (step s i).bind fun s' ↦ run s' is

/-- Every step of the run is taken from a state and with an input in `R`. -/
def EachStep (R : σ → ι → Prop) : σ → List ι → Prop
  | _, [] => True
  | s, i :: is => R s i ∧ ∀ s', step s i = some s' → EachStep R s' is

/-- Every state of the run satisfies `P`, the first and the last included. -/
def EachState (P : σ → Prop) : σ → List ι → Prop
  | s, [] => P s
  | s, i :: is => P s ∧ ∀ s', step s i = some s' → EachState P s' is

/-- `P` holds along the run, up to a step in `E` if one is taken. -/
def Until (P : σ → Prop) (E : σ → ι → Prop) : σ → List ι → Prop
  | s, [] => P s
  | s, i :: is => P s ∧ ∀ s', step s i = some s' → E s i ∨ Until P E s' is

instance EachStep.decidable (R : σ → ι → Prop) [∀ s i, Decidable (R s i)] :
    ∀ s is, Decidable (EachStep step R s is)
  | _, [] => .isTrue trivial
  | s, i :: is =>
    match hs : step s i with
    | none => decidable_of_iff (R s i) ⟨fun h ↦ ⟨h, by simp [hs]⟩, fun h ↦ h.1⟩
    | some s₁ =>
      have := decidable R s₁ is
      decidable_of_iff (R s i ∧ EachStep step R s₁ is)
        ⟨fun h ↦ ⟨h.1, by simpa [hs] using h.2⟩, fun h ↦ ⟨h.1, h.2 s₁ hs⟩⟩

variable {step}

theorem run_cons {s s' : σ} {i : ι} {is : List ι} :
    run step s (i :: is) = some s' ↔ ∃ s₁, step s i = some s₁ ∧ run step s₁ is = some s' :=
  Option.bind_eq_some_iff

theorem run_append {s : σ} {is js : List ι} :
    run step s (is ++ js) = (run step s is).bind fun s' ↦ run step s' js := by
  induction is generalizing s with
  | nil => rfl
  | cons i is ih =>
    rw [List.cons_append, run, run, Option.bind_assoc]
    congr 1
    funext s₁
    exact ih

theorem EachStep.mono {R R' : σ → ι → Prop} (hR : ∀ s i, R s i → R' s i) {s : σ} {is : List ι}
    (h : EachStep step R s is) : EachStep step R' s is := by
  induction is generalizing s with
  | nil => trivial
  | cons i is ih => exact ⟨hR s i h.1, fun s' hs ↦ ih (h.2 s' hs)⟩

theorem EachStep.trivial (s : σ) (is : List ι) : EachStep step (fun _ _ ↦ True) s is := by
  induction is generalizing s with
  | nil => exact True.intro
  | cons i is ih => exact ⟨True.intro, fun s' _ ↦ ih s'⟩

theorem eachStep_of_run {s s' : σ} {is : List ι} (hrun : run step s is = some s') :
    EachStep step (fun s i ↦ (step s i).isSome) s is := by
  induction is generalizing s with
  | nil => trivial
  | cons i is ih =>
    obtain ⟨s₁, h₁, hrest⟩ := run_cons.mp hrun
    refine ⟨Option.isSome_iff_exists.mpr ⟨s₁, h₁⟩, ?_⟩
    intro s₂ h₂
    obtain rfl : s₁ = s₂ := Option.some.inj (h₁.symm.trans h₂)
    exact ih hrest

theorem eachStep_append {R : σ → ι → Prop} {s : σ} {is js : List ι} :
    EachStep step R s (is ++ js) ↔
      EachStep step R s is ∧ ∀ s', run step s is = some s' → EachStep step R s' js := by
  induction is generalizing s with
  | nil =>
    constructor
    · intro h
      exact ⟨True.intro, fun s' hrun ↦ Option.some.inj hrun ▸ h⟩
    · rintro ⟨-, h⟩
      exact h s rfl
  | cons i is ih =>
    constructor
    · rintro ⟨hR, hrest⟩
      refine ⟨⟨hR, fun s' hs ↦ (ih.mp (hrest s' hs)).1⟩, ?_⟩
      intro s' hrun
      obtain ⟨s₁, h₁, hrun⟩ := run_cons.mp hrun
      exact (ih.mp (hrest s₁ h₁)).2 s' hrun
    · rintro ⟨⟨hR, his⟩, hjs⟩
      refine ⟨hR, fun s₁ h₁ ↦ ih.mpr ⟨his s₁ h₁, ?_⟩⟩
      intro s' hrun
      exact hjs s' (run_cons.mpr ⟨s₁, h₁, hrun⟩)

theorem EachStep.comap {τ : Type*} {step' : τ → ι → Option τ} {f : τ → σ}
    (hf : ∀ t i t', step' t i = some t' → step (f t) i = some (f t')) {R : σ → ι → Prop}
    {t : τ} {is : List ι} (h : EachStep step R (f t) is) :
    EachStep step' (fun t i ↦ R (f t) i) t is := by
  induction is generalizing t with
  | nil => exact True.intro
  | cons i is ih => exact ⟨h.1, fun t' ht ↦ ih (h.2 (f t') (hf t i t' ht))⟩

theorem run_comap {τ : Type*} {step' : τ → ι → Option τ} {f : τ → σ}
    (hf : ∀ t i t', step' t i = some t' → step (f t) i = some (f t')) {t t' : τ} {is : List ι}
    (hrun : run step' t is = some t') : run step (f t) is = some (f t') := by
  induction is generalizing t with
  | nil => exact congrArg (some ∘ f) (Option.some.inj hrun)
  | cons i is ih =>
    obtain ⟨t₁, h₁, hrest⟩ := run_cons.mp hrun
    exact run_cons.mpr ⟨f t₁, hf t i t₁ h₁, ih hrest⟩

theorem EachStep.and {R R' : σ → ι → Prop} {s : σ} {is : List ι} (h : EachStep step R s is)
    (h' : EachStep step R' s is) : EachStep step (fun s i ↦ R s i ∧ R' s i) s is := by
  induction is generalizing s with
  | nil => exact True.intro
  | cons i is ih => exact ⟨⟨h.1, h'.1⟩, fun s' hs ↦ ih (h.2 s' hs) (h'.2 s' hs)⟩

theorem EachState.of_run {P : σ → Prop} {s s' : σ} {is : List ι} (h : EachState step P s is)
    (hrun : run step s is = some s') : P s' := by
  induction is generalizing s with
  | nil => exact Option.some.inj hrun ▸ h
  | cons i is ih =>
    obtain ⟨s₁, h₁, hrest⟩ := run_cons.mp hrun
    exact ih (h.2 s₁ h₁) hrest

/-- What the allowed steps preserve holds at the end of a run of allowed steps. -/
theorem run_invariant {P : σ → Prop} {R : σ → ι → Prop}
    (hstep : ∀ s i s', P s → R s i → step s i = some s' → P s') {s s' : σ} {is : List ι} (h : P s)
    (hR : EachStep step R s is) (hrun : run step s is = some s') : P s' := by
  induction is generalizing s with
  | nil => exact Option.some.inj hrun ▸ h
  | cons i is ih =>
    obtain ⟨s₁, h₁, hrest⟩ := run_cons.mp hrun
    exact ih (hstep s i s₁ h hR.1 h₁) (hR.2 s₁ h₁) hrest

/-- What the allowed steps preserve holds in every state of a run of allowed steps. -/
theorem eachState_of_eachStep {P : σ → Prop} {R : σ → ι → Prop}
    (hstep : ∀ s i s', P s → R s i → step s i = some s' → P s') {s : σ} {is : List ι} (h : P s)
    (hR : EachStep step R s is) : EachState step P s is := by
  induction is generalizing s with
  | nil => exact h
  | cons i is ih => exact ⟨h, fun s' hs ↦ ih (hstep s i s' h hR.1 hs) (hR.2 s' hs)⟩

theorem until_of_step {P : σ → Prop} {E : σ → ι → Prop}
    (hstep : ∀ s i s', P s → step s i = some s' → E s i ∨ P s') {s : σ} (h : P s) (is : List ι) :
    Until step P E s is := by
  induction is generalizing s with
  | nil => exact h
  | cons i is ih => exact ⟨h, fun s' hs ↦ (hstep s i s' h hs).imp_right ih⟩

theorem EachState.mono {P Q : σ → Prop} (hPQ : ∀ s, P s → Q s) {s : σ} {is : List ι}
    (h : EachState step P s is) : EachState step Q s is := by
  induction is generalizing s with
  | nil => exact hPQ s h
  | cons i is ih => exact ⟨hPQ s h.1, fun s' hs ↦ ih (h.2 s' hs)⟩

theorem EachState.eachStep {P : σ → Prop} {R : σ → ι → Prop} {s : σ} {is : List ι}
    (h : EachState step P s is) (hR : EachStep step R s is) :
    EachStep step (fun s i ↦ P s ∧ R s i) s is := by
  induction is generalizing s with
  | nil => exact True.intro
  | cons i is ih => exact ⟨⟨h.1, hR.1⟩, fun s' hs ↦ ih (h.2 s' hs) (hR.2 s' hs)⟩

theorem EachStep.and_mem {R : σ → ι → Prop} {C : ι → Prop} {s : σ} {is : List ι}
    (h : EachStep step R s is) (hC : ∀ i ∈ is, C i) :
    EachStep step (fun s i ↦ C i ∧ R s i) s is := by
  induction is generalizing s with
  | nil => trivial
  | cons i is ih =>
    exact ⟨⟨hC i (List.mem_cons_self ..), h.1⟩, fun s' hs ↦
      ih (h.2 s' hs) fun j hj ↦ hC j (List.mem_cons_of_mem i hj)⟩

/-- Where a step in `R` keeps the invariant `I` exactly when it meets `C`, and a
step that does not leads to a bad state, the good runs are those of steps in `C`. -/
theorem eachState_iff_eachStep {I P : σ → Prop} {R C : σ → ι → Prop} (hgood : ∀ s, I s → P s)
    (hkeep : ∀ s i s', I s → R s i → C s i → step s i = some s' → I s')
    (hbad : ∀ s i, I s → R s i → ¬ C s i → ∃ s', step s i = some s' ∧ ¬ P s') {s : σ} {is : List ι}
    (h : I s) (hR : EachStep step R s is) : EachState step P s is ↔ EachStep step C s is := by
  induction is generalizing s with
  | nil => exact iff_of_true (hgood s h) trivial
  | cons i is ih =>
    by_cases hC : C s i
    · constructor
      · rintro ⟨-, hrest⟩
        exact ⟨hC, fun s' hs ↦ (ih (hkeep s i s' h hR.1 hC hs) (hR.2 s' hs)).mp (hrest s' hs)⟩
      · rintro ⟨-, hrest⟩
        exact ⟨hgood s h, fun s' hs ↦ (ih (hkeep s i s' h hR.1 hC hs) (hR.2 s' hs)).mpr
          (hrest s' hs)⟩
    · obtain ⟨s', hs, hbad⟩ := hbad s i h hR.1 hC
      refine iff_of_false ?_ fun hall ↦ hC hall.1
      rintro ⟨-, hrest⟩
      cases is with
      | nil => exact hbad (hrest s' hs)
      | cons _ _ => exact hbad (hrest s' hs).1

/-- Where a step in `C` keeps `I`, and one that is not leads to `D`, which no step
leaves, the end of a run tells whether all its steps were in `C`. -/
theorem end_of_eachStep {I D : σ → Prop} {R C : σ → ι → Prop}
    (hkeep : ∀ s i s', I s → R s i → C s i → step s i = some s' → I s')
    (hturn : ∀ s i s', I s → R s i → ¬ C s i → step s i = some s' → D s')
    (hstay : ∀ s i s', D s → R s i → step s i = some s' → D s') {s s' : σ} {is : List ι} (h : I s)
    (hR : EachStep step R s is) (hrun : run step s is = some s') :
    EachStep step C s is ∧ I s' ∨ ¬ EachStep step C s is ∧ D s' := by
  induction is generalizing s with
  | nil => exact .inl ⟨trivial, Option.some.inj hrun ▸ h⟩
  | cons i is ih =>
    obtain ⟨s₁, h₁, hrest⟩ := run_cons.mp hrun
    by_cases hC : C s i
    · rcases ih (hkeep s i s₁ h hR.1 hC h₁) (hR.2 s₁ h₁) hrest with ⟨hall, hI⟩ | ⟨hnot, hD⟩
      · refine .inl ⟨⟨hC, ?_⟩, hI⟩
        intro s₂ h₂
        obtain rfl := Option.some.inj (h₁.symm.trans h₂)
        exact hall
      · exact .inr ⟨fun hall ↦ hnot (hall.2 s₁ h₁), hD⟩
    · refine .inr ⟨fun hall ↦ hC hall.1, ?_⟩
      exact run_invariant hstay (hturn s i s₁ h hR.1 hC h₁) (hR.2 s₁ h₁) hrest

end TinyProto.Lib
