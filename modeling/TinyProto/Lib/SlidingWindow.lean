import Mathlib.Data.List.Basic
import Mathlib.Logic.Relation
import Mathlib.Order.Nat

namespace TinyProto.Lib

/-! One direction of a sliding-window protocol over channels that keep order:
the counts are unbounded, and the receiver compares them modulo `M`. -/

/-- `flight` holds the indices of the payloads on their way to the receiver, and
`acks` the counts on their way back. -/
structure Stream (α : Type*) where
  accepted : List α
  confirmed : ℕ
  delivered : List α
  flight : List ℕ
  acks : List ℕ

namespace Stream

variable {α : Type*}

def start : Stream α := ⟨[], 0, [], [], []⟩

/-- The steps with a window of `W` payloads. A payload may be sent any number of
times, and what is sent, or reported, may get lost. -/
inductive Step (W M : ℕ) (s : Stream α) : Stream α → Prop
  | accept (x : α) : s.accepted.length < s.confirmed + W →
      Step W M s { s with accepted := s.accepted ++ [x] }
  | send (n : ℕ) : s.confirmed ≤ n → n < s.accepted.length →
      Step W M s { s with flight := s.flight ++ [n] }
  | deliver {n : ℕ} {rest : List ℕ} {x : α} : s.flight = n :: rest →
      n % M = s.delivered.length % M →
      s.accepted[n]? = some x →
      Step W M s { s with flight := rest, delivered := s.delivered ++ [x] }
  | discard {n : ℕ} {rest : List ℕ} : s.flight = n :: rest → Step W M s { s with flight := rest }
  | report : Step W M s { s with acks := s.acks ++ [s.delivered.length] }
  | lose {acks : List ℕ} : acks.Sublist s.acks → Step W M s { s with acks := acks }
  | confirm {a : ℕ} {rest : List ℕ} : s.acks = a :: rest →
      Step W M s { s with confirmed := a, acks := rest }

/-- What holds at every moment, with a window of `W` payloads. -/
structure Safe (W : ℕ) (s : Stream α) : Prop where
  delivered : s.delivered <+: s.accepted
  window : s.accepted.length ≤ s.confirmed + W
  confirmed : s.confirmed ≤ s.delivered.length
  acks : ∀ a ∈ s.acks, s.confirmed ≤ a ∧ a ≤ s.delivered.length
  acksOrder : s.acks.Pairwise (· ≤ ·)
  flight : ∀ n ∈ s.flight, n < s.accepted.length ∧ s.delivered.length ≤ n + W
  flightOrder : s.flight.Pairwise fun m n ↦ m < n + W

theorem safe_start (W : ℕ) : Safe W (start : Stream α) := by
  constructor <;> simp [start]

variable {W M : ℕ} {s s' : Stream α}

/-- A window smaller than the modulus leaves no doubt about a number. -/
theorem Safe.index_eq (h : Safe W s) (hWM : W < M) {n : ℕ} (hn : n ∈ s.flight)
    (hmod : n % M = s.delivered.length % M) : n = s.delivered.length := by
  obtain ⟨hlt, hge⟩ := h.flight n hn
  have hwindow := h.window
  have hconfirmed := h.confirmed
  rcases Nat.le_total n s.delivered.length with hle | hle
  · have hz := Nat.sub_mod_eq_zero_of_mod_eq hmod.symm
    rw [Nat.mod_eq_of_lt (by omega)] at hz
    omega
  · have hz := Nat.sub_mod_eq_zero_of_mod_eq hmod
    rw [Nat.mod_eq_of_lt (by omega)] at hz
    omega

theorem safe_step (h : Safe W s) (hWM : W < M) (hs : Step W M s s') : Safe W s' := by
  have hwindow := h.window
  have hconfirmed := h.confirmed
  have hle := h.delivered.length_le
  cases hs with
  | accept x hroom =>
    refine ⟨h.delivered.trans (List.prefix_append _ _), ?_, hconfirmed, h.acks, h.acksOrder, ?_,
      h.flightOrder⟩
    · rw [List.length_append]
      exact hroom
    · intro n hn
      rw [List.length_append]
      exact ⟨(h.flight n hn).1.trans_le (Nat.le_add_right _ _), (h.flight n hn).2⟩
  | send n hge hlt =>
    refine ⟨h.delivered, hwindow, hconfirmed, h.acks, h.acksOrder, ?_, ?_⟩
    · intro m hm
      rcases List.mem_append.mp hm with hm | hm
      · exact h.flight m hm
      · obtain rfl := List.mem_singleton.mp hm
        exact ⟨hlt, by dsimp only; omega⟩
    · rw [List.pairwise_append]
      refine ⟨h.flightOrder, List.pairwise_singleton _ _, ?_⟩
      intro m hm k hk
      obtain rfl := List.mem_singleton.mp hk
      have hm' := (h.flight m hm).1
      omega
  | @deliver n rest x hflight hmod hx =>
    have hn := h.index_eq hWM (by rw [hflight]; exact List.mem_cons_self ..) hmod
    have horder := h.flightOrder
    rw [hflight, List.pairwise_cons] at horder
    refine ⟨?_, hwindow, ?_, ?_, h.acksOrder, ?_, horder.2⟩
    · obtain ⟨tail, ht⟩ := h.delivered
      rw [hn, ← ht, List.getElem?_append_right le_rfl, Nat.sub_self] at hx
      cases tail with
      | nil => cases hx
      | cons y tail =>
        rw [List.getElem?_cons_zero, Option.some.injEq] at hx
        refine ⟨tail, ?_⟩
        rw [← ht, ← hx, List.append_assoc, List.singleton_append]
    · rw [List.length_append]
      exact hconfirmed.trans (Nat.le_add_right _ _)
    · intro a ha
      rw [List.length_append]
      exact ⟨(h.acks a ha).1, (h.acks a ha).2.trans (Nat.le_add_right _ _)⟩
    · intro m hm
      have hafter := horder.1 m hm
      have hm' := h.flight m (by rw [hflight]; exact List.mem_cons_of_mem _ hm)
      rw [List.length_append, List.length_singleton]
      exact ⟨hm'.1, by omega⟩
  | @discard n rest hflight =>
    have horder := h.flightOrder
    rw [hflight, List.pairwise_cons] at horder
    refine ⟨h.delivered, hwindow, hconfirmed, h.acks, h.acksOrder, ?_, horder.2⟩
    intro m hm
    exact h.flight m (by rw [hflight]; exact List.mem_cons_of_mem _ hm)
  | report =>
    refine ⟨h.delivered, hwindow, hconfirmed, ?_, ?_, h.flight, h.flightOrder⟩
    · intro a ha
      rcases List.mem_append.mp ha with ha | ha
      · exact h.acks a ha
      · obtain rfl := List.mem_singleton.mp ha
        exact ⟨hconfirmed, le_rfl⟩
    · rw [List.pairwise_append]
      refine ⟨h.acksOrder, List.pairwise_singleton _ _, ?_⟩
      intro a ha b hb
      obtain rfl := List.mem_singleton.mp hb
      exact (h.acks a ha).2
  | lose hsub =>
    exact ⟨h.delivered, hwindow, hconfirmed, fun a ha ↦ h.acks a (hsub.subset ha),
      h.acksOrder.sublist hsub, h.flight, h.flightOrder⟩
  | @confirm a rest hacks =>
    have ha := h.acks a (by rw [hacks]; exact List.mem_cons_self ..)
    have horder := h.acksOrder
    rw [hacks, List.pairwise_cons] at horder
    refine ⟨h.delivered, ?_, ha.2, ?_, horder.2, h.flight, h.flightOrder⟩
    · dsimp only
      omega
    · intro b hb
      exact ⟨horder.1 b hb, (h.acks b (by rw [hacks]; exact List.mem_cons_of_mem _ hb)).2⟩

theorem safe_steps (h : Safe W s) (hWM : W < M) (hs : Relation.ReflTransGen (Step W M) s s') :
    Safe W s' := by
  induction hs with
  | refl => exact h
  | tail _ hs ih => exact safe_step ih hWM hs

end Stream

end TinyProto.Lib
