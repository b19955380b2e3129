import Mathlib.Data.List.Basic
import Mathlib.Tactic.Common

namespace TinyProto.Lib

variable {α : Type*} [DecidableEq α]

/-- A byte-stuffing scheme: `flag` delimits frames, and an occurrence of `flag`
or `esc` inside a frame travels as `esc` followed by its masked value. -/
structure Stuffing (α : Type*) where
  flag : α
  esc : α
  mask : α → α
  mask_mask : ∀ b, mask (mask b) = b
  esc_ne_flag : esc ≠ flag
  mask_flag_ne : mask flag ≠ flag ∧ mask flag ≠ esc
  mask_esc_ne : mask esc ≠ flag ∧ mask esc ≠ esc

namespace Stuffing

variable (S : Stuffing α)

def special (b : α) : Bool := b == S.flag || b == S.esc

def stuffByte (b : α) : List α := if S.special b then [S.esc, S.mask b] else [b]

def stuff (body : List α) : List α := body.flatMap S.stuffByte

@[simp] theorem stuff_nil : S.stuff [] = [] := rfl

@[simp] theorem stuff_cons (b : α) (body : List α) :
    S.stuff (b :: body) = S.stuffByte b ++ S.stuff body := rfl

@[simp] theorem stuff_append (xs ys : List α) : S.stuff (xs ++ ys) = S.stuff xs ++ S.stuff ys :=
  List.flatMap_append

theorem special_iff (b : α) : S.special b = true ↔ b = S.flag ∨ b = S.esc := by
  simp [special]

theorem mask_ne_flag {b : α} (h : S.special b = true) : S.mask b ≠ S.flag := by
  rcases (S.special_iff b).mp h with rfl | rfl
  · exact S.mask_flag_ne.1
  · exact S.mask_esc_ne.1

theorem mask_ne_esc {b : α} (h : S.special b = true) : S.mask b ≠ S.esc := by
  rcases (S.special_iff b).mp h with rfl | rfl
  · exact S.mask_flag_ne.2
  · exact S.mask_esc_ne.2

theorem flag_not_mem_stuffByte (b : α) : S.flag ∉ S.stuffByte b := by
  unfold stuffByte
  split
  · rename_i h
    simp [S.esc_ne_flag.symm, (S.mask_ne_flag h).symm]
  · rename_i h
    have hb : b ≠ S.flag := fun hb ↦ h ((S.special_iff b).mpr (.inl hb))
    simpa using hb.symm

theorem flag_not_mem_stuff (body : List α) : S.flag ∉ S.stuff body := by
  simp only [stuff, List.mem_flatMap, not_exists, not_and]
  exact fun b _ ↦ S.flag_not_mem_stuffByte b

theorem stuff_plain {body : List α} (h : ∀ b ∈ body, S.special b = false) :
    S.stuff body = body := by
  induction body with
  | nil => rfl
  | cons b body ih =>
    have hb : S.stuffByte b = [b] := by simp [stuffByte, h b (by simp)]
    rw [stuff_cons, hb, ih fun x hx ↦ h x (by simp [hx]), List.singleton_append]

theorem stuff_length_le (body : List α) : (S.stuff body).length ≤ 2 * body.length := by
  induction body with
  | nil => simp
  | cons b body ih =>
    have hb : (S.stuffByte b).length ≤ 2 := by unfold stuffByte; split <;> simp
    simp only [stuff_cons, List.length_append, List.length_cons]
    omega

/-- A complete frame on the wire. -/
def frame (body : List α) : List α := S.flag :: (S.stuff body ++ [S.flag])

theorem frame_length_le (body : List α) : (S.frame body).length ≤ 2 * body.length + 2 := by
  have h := S.stuff_length_le body
  simp only [frame, List.length_cons, List.length_append, List.length_nil]
  omega

end Stuffing

/-- The receiver of a stuffed stream hunts for a flag, then collects a body;
`pending` records an escape whose byte has not arrived. -/
inductive Phase (α : Type*)
  | hunt
  | collect (pending : Bool) (body : List α)
  deriving DecidableEq

namespace Phase

/-- No byte of a body has been collected: the next flag opens a frame. -/
def Aligned : Phase α → Prop
  | .hunt => True
  | .collect _ body => body = []

instance (p : Phase α) : Decidable p.Aligned := by
  cases p <;> unfold Aligned <;> infer_instance

end Phase

namespace Stuffing

variable (S : Stuffing α) (cap : ℕ)

/-- One byte into a receiver that keeps at most `cap` bytes of a body. The
second component is the body that the byte completes. -/
def receive : Phase α → α → Phase α × List (List α)
  | .hunt, b => (if b = S.flag then .collect false [] else .hunt, [])
  | .collect pending body, b =>
    if b = S.flag then
      (if body = [] then .collect false [] else .hunt, if body = [] then [] else [body])
    else if b = S.esc then (.collect true body, [])
    else
      (.collect false (if body.length < cap then body ++ [if pending then S.mask b else b]
        else body), [])

def receiveAll : Phase α → List α → Phase α × List (List α)
  | p, [] => (p, [])
  | p, b :: bs =>
    let r := S.receive cap p b
    let rest := receiveAll r.1 bs
    (rest.1, r.2 ++ rest.2)

theorem receive_length (p : Phase α) (b : α) : (S.receive cap p b).2.length ≤ 1 := by
  cases p with
  | hunt => exact Nat.zero_le 1
  | collect pending body =>
    rw [receive]
    by_cases hflag : b = S.flag
    · rw [if_pos hflag]
      dsimp only
      split
      · exact Nat.zero_le 1
      · exact Nat.le_refl 1
    · rw [if_neg hflag]
      split <;> exact Nat.zero_le 1

@[simp] theorem receiveAll_nil (p : Phase α) : S.receiveAll cap p [] = (p, []) := rfl

theorem receiveAll_cons (p : Phase α) (b : α) (bs : List α) :
    S.receiveAll cap p (b :: bs) =
      ((S.receiveAll cap (S.receive cap p b).1 bs).1,
        (S.receive cap p b).2 ++ (S.receiveAll cap (S.receive cap p b).1 bs).2) := rfl

theorem receiveAll_append (p : Phase α) (xs ys : List α) :
    S.receiveAll cap p (xs ++ ys) =
      ((S.receiveAll cap (S.receiveAll cap p xs).1 ys).1,
        (S.receiveAll cap p xs).2 ++ (S.receiveAll cap (S.receiveAll cap p xs).1 ys).2) := by
  induction xs generalizing p with
  | nil => simp
  | cons x xs ih => simp only [List.cons_append, receiveAll_cons, ih, List.append_assoc]

theorem receiveAll_quiet {p : Phase α} {xs ys : List α}
    (h : (S.receiveAll cap p (xs ++ ys)).2 = []) : (S.receiveAll cap p xs).2 = [] := by
  rw [receiveAll_append] at h
  exact (List.append_eq_nil_iff.mp h).1

theorem receiveAll_hunt {bs : List α} (h : S.flag ∉ bs) :
    S.receiveAll cap .hunt bs = (.hunt, []) := by
  induction bs with
  | nil => rfl
  | cons b bs ih =>
    simp only [List.mem_cons, not_or] at h
    have hr : S.receive cap .hunt b = (.hunt, []) := by simp [receive, Ne.symm h.1]
    simp only [receiveAll_cons, hr, ih h.2, List.append_nil]

theorem receiveAll_stuffByte (body : List α) (b : α) :
    S.receiveAll cap (.collect false body) (S.stuffByte b) =
      (.collect false (if body.length < cap then body ++ [b] else body), []) := by
  unfold stuffByte
  cases hb : S.special b
  · have hn : b ≠ S.flag ∧ b ≠ S.esc := by
      constructor <;> rintro rfl <;> simp [special] at hb
    simp [receiveAll_cons, receive, hn.1, hn.2]
  · have hf := S.mask_ne_flag hb
    have he := S.mask_ne_esc hb
    simp [receiveAll_cons, receive, S.esc_ne_flag, hf, he, S.mask_mask]

theorem receiveAll_stuff (body xs : List α) :
    S.receiveAll cap (.collect false body) (S.stuff xs) =
      (.collect false (body ++ xs.take (cap - body.length)), []) := by
  induction xs generalizing body with
  | nil => simp
  | cons x xs ih =>
    simp only [stuff_cons, receiveAll_append, receiveAll_stuffByte, List.nil_append]
    by_cases h : body.length < cap
    · have hc : cap - body.length = (cap - (body.length + 1)) + 1 := by omega
      simp only [h, if_true, ih, List.length_append, List.length_cons,
        List.length_nil, Nat.zero_add,
        hc, List.take_succ_cons, List.append_assoc, List.singleton_append]
    · have hc : cap - body.length = 0 := by omega
      simp only [h, if_false, ih, hc, List.take_zero]

theorem receive_flag_aligned {p : Phase α} (hp : p.Aligned) :
    S.receive cap p S.flag = (.collect false [], []) := by
  cases p with
  | hunt => simp [receive]
  | collect pending body =>
    have hb : body = [] := hp
    simp [receive, hb]

/-- An aligned receiver takes a whole frame: it reports the body, clipped to
the capacity, and hunts again. -/
theorem receiveAll_frame {p : Phase α} (hp : p.Aligned) (hcap : 0 < cap) {body : List α}
    (hb : body ≠ []) : S.receiveAll cap p (S.frame body) = (.hunt, [body.take cap]) := by
  have ht : body.take cap ≠ [] := by
    simpa using ⟨by omega, hb⟩
  simp only [frame, receiveAll_cons, receive_flag_aligned S cap hp, receiveAll_append,
    receiveAll_stuff, List.nil_append, List.length_nil, Nat.sub_zero]
  simp [receive, receiveAll, ht]

theorem receiveAll_part {body pre post : List α} (h : pre ++ post = S.frame body)
    (hpost : post ≠ []) : (S.receiveAll cap .hunt pre).2 = [] := by
  obtain ⟨init, last, rfl⟩ : ∃ init last, post = init ++ [last] :=
    ⟨_, _, (List.dropLast_concat_getLast hpost).symm⟩
  have hframe : pre ++ init ++ [last] = S.flag :: S.stuff body ++ [S.flag] := by
    rw [List.append_assoc]
    exact h
  have hopen : S.receive cap .hunt S.flag = (.collect false [], []) := by rw [receive, if_pos rfl]
  apply @receiveAll_quiet _ _ S cap _ _ init
  rw [(List.append_inj' hframe rfl).1, receiveAll_cons, hopen]
  dsimp only
  rw [receiveAll_stuff]
  rfl

/-- A misaligned receiver is realigned by any whole frame: the opening flag
closes what was collected, and the closing flag opens an empty body. -/
theorem receiveAll_frame_misaligned (pending : Bool) {old : List α} (ho : old ≠ [])
    (body : List α) :
    S.receiveAll cap (.collect pending old) (S.frame body) = (.collect false [], [old]) := by
  have h := S.receiveAll_hunt cap (S.flag_not_mem_stuff body)
  simp only [frame, receiveAll_cons, receiveAll_append]
  simp [receive, ho, h, receiveAll]

end Stuffing

end TinyProto.Lib
