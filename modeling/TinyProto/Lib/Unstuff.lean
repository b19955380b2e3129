import Mathlib.Data.List.Induction
import Mathlib.Order.Nat
import TinyProto.Lib.Framing

namespace TinyProto.Lib

variable {α : Type*} [DecidableEq α]

namespace Phase

/-- The state of a receiver that has kept at most `cap` bytes of the body. -/
def clip (cap : ℕ) : Phase α → Phase α
  | .hunt => .hunt
  | .collect pending body => .collect pending (body.take cap)

def size : Phase α → ℕ
  | .hunt => 0
  | .collect _ body => body.length

end Phase

namespace Stuffing

variable (S : Stuffing α)

/-- The inverse of stuffing, on any bytes: an escape masks the byte after it,
several in a row count once, and one at the end is void. -/
def unstuff : Bool → List α → List α
  | _, [] => []
  | pending, b :: bs =>
    if b = S.esc then unstuff true bs else (if pending then S.mask b else b) :: unstuff false bs

def dangling : Bool → List α → Bool
  | pending, [] => pending
  | _, b :: bs => dangling (decide (b = S.esc)) bs

theorem unstuff_length_le (pending : Bool) (bs : List α) :
    (S.unstuff pending bs).length ≤ bs.length := by
  induction bs generalizing pending with
  | nil => exact le_rfl
  | cons b bs ih =>
    rw [unstuff]
    split
    · exact (ih true).trans (Nat.le_succ _)
    · exact Nat.succ_le_succ (ih false)

theorem unstuff_append (pending : Bool) (xs ys : List α) :
    S.unstuff pending (xs ++ ys) = S.unstuff pending xs ++
      S.unstuff (S.dangling pending xs) ys := by
  induction xs generalizing pending with
  | nil => rfl
  | cons x xs ih =>
    rw [List.cons_append, unstuff, unstuff, dangling]
    by_cases hx : x = S.esc
    · rw [if_pos hx, if_pos hx, ih, decide_eq_true hx]
    · rw [if_neg hx, if_neg hx, ih, decide_eq_false hx, List.cons_append]

theorem dangling_append (pending : Bool) (xs ys : List α) :
    S.dangling pending (xs ++ ys) = S.dangling (S.dangling pending xs) ys := by
  induction xs generalizing pending with
  | nil => rfl
  | cons x xs ih => exact ih _

theorem unstuff_stuff (body : List α) : S.unstuff false (S.stuff body) = body ∧
    S.dangling false (S.stuff body) = false := by
  induction body with
  | nil => exact ⟨rfl, rfl⟩
  | cons b body ih =>
    have hb : S.unstuff false (S.stuffByte b) = [b] ∧ S.dangling false (S.stuffByte b) = false := by
      rw [stuffByte]
      split
      · rename_i h
        simp [unstuff, dangling, S.mask_ne_esc h, S.mask_mask]
      · rename_i h
        have hne : b ≠ S.esc := fun he ↦ h ((S.special_iff b).mpr (.inr he))
        simp [unstuff, dangling, hne]
    rw [stuff_cons, unstuff_append, dangling_append, hb.1, hb.2, ih.1, ih.2]
    exact ⟨rfl, rfl⟩

theorem frame_inj {body body' : List α} : S.frame body = S.frame body' ↔ body = body' := by
  refine ⟨fun h ↦ ?_, fun h ↦ by rw [h]⟩
  have hstuff : S.stuff body = S.stuff body' := List.append_cancel_right (List.cons.inj h).2
  rw [← (S.unstuff_stuff body).1, hstuff, (S.unstuff_stuff body').1]

variable {cap cap' : ℕ}

/-- Between two flags, and with room enough, a receiver collects what the bytes
un-escape to. -/
theorem receiveAll_unstuff {bs : List α} (h : S.flag ∉ bs) (pending : Bool) (body : List α)
    (hfit : body.length + (S.unstuff pending bs).length ≤ cap) :
    S.receiveAll cap (.collect pending body) bs =
      (.collect (S.dangling pending bs) (body ++ S.unstuff pending bs), []) := by
  induction bs generalizing pending body with
  | nil => rw [unstuff, List.append_nil]; rfl
  | cons b bs ih =>
    rw [List.mem_cons, not_or] at h
    rw [unstuff] at hfit ⊢
    rw [receiveAll_cons, receive, if_neg (Ne.symm h.1), dangling]
    by_cases hb : b = S.esc
    · rw [if_pos hb] at hfit
      rw [if_pos hb, if_pos hb, ih h.2 true body hfit, decide_eq_true hb]
      rfl
    · rw [if_neg hb, List.length_cons] at hfit
      have hlt : body.length < cap := by omega
      rw [if_neg hb, if_neg hb, if_pos hlt,
        ih h.2 false _ (by rw [List.length_append, List.length_singleton]; omega),
        decide_eq_false hb, List.append_assoc, List.singleton_append]
      rfl

theorem receiveAll_opened {bs : List α} (h : S.flag ∉ bs)
    (hfit : (S.unstuff false bs).length ≤ cap) :
    S.receiveAll cap .hunt (S.flag :: bs) =
      (.collect (S.dangling false bs) (S.unstuff false bs), []) := by
  have hopen : S.receive cap .hunt S.flag = (.collect false [], []) := by rw [receive, if_pos rfl]
  rw [receiveAll_cons, hopen]
  dsimp only
  rw [S.receiveAll_unstuff h false [] (by rw [List.length_nil, Nat.zero_add]; exact hfit)]
  rfl

theorem receiveAll_framed {bs : List α} (h : S.flag ∉ bs) (hne : S.unstuff false bs ≠ [])
    (hfit : (S.unstuff false bs).length ≤ cap) :
    S.receiveAll cap .hunt (S.flag :: bs ++ [S.flag]) = (.hunt, [S.unstuff false bs]) := by
  rw [receiveAll_append, S.receiveAll_opened h hfit]
  dsimp only
  rw [receiveAll_cons, receive, if_pos rfl, if_neg hne, if_neg hne]
  rfl

theorem receive_clip (hcap : 0 < cap) {p : Phase α} (hp : p.size < cap') (b : α) :
    S.receive cap (p.clip cap) b =
      ((S.receive cap' p b).1.clip cap, (S.receive cap' p b).2.map (List.take cap)) := by
  cases p with
  | hunt =>
    rw [Phase.clip, receive, receive]
    split
    · rw [Phase.clip, List.take_nil]; rfl
    · rfl
  | collect pending body =>
    have hnil : body.take cap = [] ↔ body = [] := by
      rw [List.take_eq_nil_iff]
      exact or_iff_right (by omega)
    rw [Phase.size] at hp
    rw [Phase.clip, receive, receive]
    by_cases hflag : b = S.flag
    · rw [if_pos hflag, if_pos hflag]
      by_cases hb : body = []
      · rw [if_pos (hnil.mpr hb), if_pos (hnil.mpr hb), if_pos hb, if_pos hb, Phase.clip,
          List.take_nil]
        rfl
      · rw [if_neg (hnil.not.mpr hb), if_neg (hnil.not.mpr hb), if_neg hb, if_neg hb]
        rfl
    · rw [if_neg hflag, if_neg hflag]
      by_cases hesc : b = S.esc
      · rw [if_pos hesc, if_pos hesc]
        rfl
      · rw [if_neg hesc, if_neg hesc, if_pos hp, Phase.clip, List.map_nil]
        rcases Nat.lt_or_ge body.length cap with hlt | hge
        · rw [List.take_of_length_le (Nat.le_of_lt hlt), if_pos hlt, List.take_of_length_le]
          rw [List.length_append, List.length_singleton]
          exact hlt
        · rw [List.length_take, Nat.min_eq_left hge, if_neg (Nat.lt_irrefl cap),
            List.take_append_of_le_length hge]

theorem receive_size (p : Phase α) (b : α) : (S.receive cap p b).1.size ≤ p.size + 1 := by
  cases p with
  | hunt =>
    rw [receive]
    split <;> exact Nat.zero_le _
  | collect pending body =>
    rw [receive, Phase.size]
    by_cases hflag : b = S.flag
    · rw [if_pos hflag]
      dsimp only
      split <;> exact Nat.zero_le _
    · rw [if_neg hflag]
      split
      · exact Nat.le_succ _
      · rw [Phase.size]
        split
        · exact (List.length_append ..).le
        · exact Nat.le_succ _

theorem receiveAll_clip (hcap : 0 < cap) (bs : List α) {p : Phase α}
    (hp : p.size + bs.length ≤ cap') :
    S.receiveAll cap (p.clip cap) bs =
      ((S.receiveAll cap' p bs).1.clip cap, (S.receiveAll cap' p bs).2.map (List.take cap)) := by
  induction bs generalizing p with
  | nil => rfl
  | cons b bs ih =>
    rw [List.length_cons] at hp
    have hsize : (S.receive cap' p b).1.size ≤ p.size + 1 := S.receive_size p b
    rw [receiveAll_cons, receiveAll_cons, S.receive_clip hcap (by omega : p.size < cap'),
      ih (by omega), List.map_append]

/-- The bodies that a stream holds, nothing dropped. -/
def bodies (bs : List α) : List (List α) := (S.receiveAll bs.length .hunt bs).2

/-- A receiver of limited capacity finds the bodies of the stream, clipped. -/
theorem receiveAll_bodies (hcap : 0 < cap) (bs : List α) :
    (S.receiveAll cap .hunt bs).2 = (S.bodies bs).map (List.take cap) := by
  have hroom : (Phase.hunt : Phase α).size + bs.length ≤ bs.length := (Nat.zero_add _).le
  exact congrArg Prod.snd (S.receiveAll_clip hcap bs hroom)

/-- `body` is all that stands between two flags of the stream. -/
def Between (bs body : List α) : Prop :=
  ∃ pre mid post, bs = pre ++ S.flag :: (mid ++ S.flag :: post) ∧ S.flag ∉ mid ∧
    S.unstuff false mid = body

theorem Between.append {bs body : List α} (h : S.Between bs body) (more : List α) :
    S.Between (bs ++ more) body := by
  obtain ⟨pre, mid, post, rfl, hmid, hbody⟩ := h
  refine ⟨pre, mid, post ++ more, ?_, hmid, hbody⟩
  rw [List.append_assoc, List.cons_append, List.append_assoc, List.cons_append]

/-- Where a receiver with room enough stands after `bs`: it hunts, or it has
collected all the bytes since the last flag. -/
theorem receiveAll_stands (bs : List α) (h : bs.length ≤ cap) :
    ((S.receiveAll cap .hunt bs).1 = .hunt ∨ ∃ pre mid, bs = pre ++ S.flag :: mid ∧ S.flag ∉ mid ∧
      (S.receiveAll cap .hunt bs).1 = .collect (S.dangling false mid) (S.unstuff false mid)) ∧
    ∀ body ∈ (S.receiveAll cap .hunt bs).2, body ≠ [] ∧ S.Between bs body := by
  induction bs using List.reverseRecOn with
  | nil => exact ⟨.inl rfl, fun body hbody ↦ absurd hbody List.not_mem_nil⟩
  | append_singleton bs b ih =>
    rw [List.length_append, List.length_singleton] at h
    obtain ⟨hstands, hbodies⟩ := ih (by omega)
    rw [receiveAll_append]
    dsimp only
    have hone : ∀ p : Phase α, S.receiveAll cap p [b] = S.receive cap p b := by
      intro p
      rw [receiveAll_cons, receiveAll_nil, List.append_nil]
    rw [hone]
    have hold : ∀ body ∈ (S.receiveAll cap .hunt bs).2, body ≠ [] ∧ S.Between (bs ++ [b]) body :=
      fun body hbody ↦
      ⟨(hbodies body hbody).1, (hbodies body hbody).2.append S [b]⟩
    rcases hstands with hp | ⟨pre, mid, rfl, hmid, hp⟩ <;> rw [hp, receive]
    · rw [List.append_nil]
      refine ⟨?_, hold⟩
      by_cases hb : b = S.flag
      · rw [if_pos hb]
        exact .inr ⟨bs, [], by rw [hb], List.not_mem_nil, rfl⟩
      · exact .inl (if_neg hb)
    · by_cases hb : b = S.flag
      · rw [if_pos hb]
        subst hb
        dsimp only
        by_cases hnil : S.unstuff false mid = []
        · rw [if_pos hnil, if_pos hnil, List.append_nil]
          exact ⟨.inr ⟨pre ++ S.flag :: mid, [], rfl, List.not_mem_nil, rfl⟩, hold⟩
        · rw [if_neg hnil, if_neg hnil]
          refine ⟨.inl rfl, fun body hbody ↦ ?_⟩
          rcases List.mem_append.mp hbody with hbody | hbody
          · exact hold body hbody
          · rw [List.mem_singleton.mp hbody]
            exact ⟨hnil, pre, mid, [], by rw [List.append_assoc, List.cons_append], hmid, rfl⟩
      · rw [if_neg hb]
        have hmem : S.flag ∉ mid ++ [b] := by
          rw [List.mem_append, List.mem_singleton, not_or]
          exact ⟨hmid, Ne.symm hb⟩
        have hbs : pre ++ S.flag :: mid ++ [b] = pre ++ S.flag :: (mid ++ [b]) := by
          rw [List.append_assoc, List.cons_append]
        by_cases hesc : b = S.esc
        · rw [if_pos hesc, List.append_nil]
          refine ⟨.inr ⟨pre, mid ++ [b], hbs, hmem, ?_⟩, hold⟩
          rw [dangling_append, unstuff_append, unstuff, if_pos hesc, unstuff, List.append_nil,
            dangling, dangling, decide_eq_true hesc]
        · have hlen := S.unstuff_length_le false mid
          rw [List.length_append, List.length_cons] at h
          rw [if_neg hesc, List.append_nil, if_pos (by omega)]
          refine ⟨.inr ⟨pre, mid ++ [b], hbs, hmem, ?_⟩, hold⟩
          rw [dangling_append, unstuff_append, unstuff, if_neg hesc, unstuff, dangling, dangling,
            decide_eq_false hesc]

/-- Each body of a stream is all that stands between two of its flags. -/
theorem mem_bodies {bs body : List α} (h : body ∈ S.bodies bs) : body ≠ [] ∧ S.Between bs body :=
  (S.receiveAll_stands bs le_rfl).2 body h

def closed (bodies : List (List α)) : List α := bodies.flatMap fun body ↦ S.stuff body ++ [S.flag]

end Stuffing

def everySecond {β : Type*} : List β → List β
  | [] => []
  | [x] => [x]
  | x :: _ :: xs => x :: everySecond xs

theorem length_everySecond {β : Type*} (xs : List β) :
    (everySecond xs).length = (xs.length + 1) / 2 := by
  induction xs using everySecond.induct with
  | case1 => simp [everySecond]
  | case2 x => simp [everySecond]
  | case3 x y xs ih =>
    rw [everySecond, List.length_cons, ih, List.length_cons, List.length_cons]
    omega

theorem mem_everySecond {β : Type*} {xs : List β} {x : β} (h : x ∈ everySecond xs) : x ∈ xs := by
  induction xs using everySecond.induct with
  | case1 => exact h
  | case2 y => exact h
  | case3 y z xs ih =>
    rcases List.mem_cons.mp h with rfl | h
    · exact List.mem_cons_self
    · exact List.mem_cons_of_mem y (List.mem_cons_of_mem z (ih h))

theorem everySecond_eq {β : Type*} {xs : List β} : everySecond xs = xs ↔ xs.length ≤ 1 := by
  constructor
  · intro h
    have hlen := length_everySecond xs
    rw [h] at hlen
    omega
  · intro h
    match xs, h with
    | [], _ => rfl
    | [x], _ => rfl

theorem everySecond_map {β γ : Type*} (f : β → γ) (xs : List β) :
    everySecond (xs.map f) = (everySecond xs).map f := by
  induction xs using everySecond.induct with
  | case1 => rfl
  | case2 x => rfl
  | case3 x y xs ih =>
    rw [List.map_cons, List.map_cons, everySecond, everySecond, List.map_cons, ih]

namespace Stuffing

variable (S : Stuffing α) {cap : ℕ}

theorem receiveAll_closing (hcap : 0 < cap) {body : List α} (hb : body ≠ []) :
    S.receiveAll cap (.collect false []) (S.stuff body ++ [S.flag]) = (.hunt, [body.take cap]) := by
  have ht : body.take cap ≠ [] := fun h ↦ (List.take_eq_nil_iff.mp h).elim (by omega) hb
  rw [receiveAll_append, receiveAll_stuff, List.nil_append, List.length_nil, Nat.sub_zero]
  dsimp only
  rw [receiveAll_cons, receive, if_pos rfl, if_neg ht, if_neg ht]
  rfl

theorem receiveAll_skipping (body : List α) :
    S.receiveAll cap .hunt (S.stuff body ++ [S.flag]) = (.collect false [], []) := by
  rw [receiveAll_append, S.receiveAll_hunt cap (S.flag_not_mem_stuff body)]
  dsimp only
  rw [receiveAll_cons, receive, if_pos rfl]
  rfl

/-- A receiver does not take the flag that closes a body for the one that opens
the next: it misses every second body. -/
theorem receiveAll_closed (hcap : 0 < cap) {bodies : List (List α)}
    (hne : ∀ body ∈ bodies, body ≠ []) :
    (S.receiveAll cap (.collect false []) (S.closed bodies)).2 = (everySecond bodies).map
      (List.take cap) := by
  induction bodies using everySecond.induct with
  | case1 => rfl
  | case2 body =>
    rw [closed, List.flatMap_singleton, S.receiveAll_closing hcap (hne body List.mem_cons_self)]
    rfl
  | case3 body skipped bodies ih =>
    have hrest : S.closed (body :: skipped :: bodies) =
        (S.stuff body ++ [S.flag]) ++ ((S.stuff skipped ++ [S.flag]) ++ S.closed bodies) := by
      rw [closed, List.flatMap_cons, List.flatMap_cons]
      rfl
    rw [hrest, receiveAll_append, S.receiveAll_closing hcap (hne body List.mem_cons_self)]
    dsimp only
    rw [receiveAll_append, S.receiveAll_skipping]
    dsimp only
    rw [ih fun b hb ↦ hne b (List.mem_cons_of_mem body (List.mem_cons_of_mem skipped hb))]
    rfl

end Stuffing

end TinyProto.Lib
