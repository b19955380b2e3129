import Mathlib.Data.List.TakeWhile
import TinyProto.Lib.Framing

namespace TinyProto.Lib

variable {α β : Type*}

/-- What a listener is given at a time: a symbol or none, and whether its patience ends. -/
structure Arrival (α : Type*) where
  symbol : Option α
  late : Bool
  deriving DecidableEq

namespace Arrival

def symbols (as : List (Arrival α)) : List α := as.filterMap symbol

/-- The arrivals before the one that brings symbol number `n`. -/
def before : ℕ → List (Arrival α) → List (Arrival α)
  | _, [] => []
  | n, a :: as =>
    match a.symbol, n with
    | none, n => a :: before n as
    | some _, 0 => []
    | some _, n + 1 => a :: before n as

variable {a : Arrival α} {as : List (Arrival α)}

@[simp] theorem symbols_nil : symbols ([] : List (Arrival α)) = [] := rfl

theorem symbols_cons (a : Arrival α) (as : List (Arrival α)) :
    symbols (a :: as) = a.symbol.toList ++ symbols as := by
  rw [symbols, List.filterMap_cons]
  cases a.symbol <;> rfl

@[simp] theorem symbols_append (as bs : List (Arrival α)) :
    symbols (as ++ bs) = symbols as ++ symbols bs :=
  List.filterMap_append

theorem before_none (n : ℕ) (ha : a.symbol = none) : before n (a :: as) = a :: before n as := by
  simp only [before, ha]

theorem before_some (n : ℕ) {x : α} (ha : a.symbol = some x) :
    before (n + 1) (a :: as) = a :: before n as := by
  simp only [before, ha]

theorem before_all {n : ℕ} (h : (symbols as).length ≤ n) : before n as = as := by
  induction as generalizing n with
  | nil => rfl
  | cons a as ih =>
    rw [symbols_cons, List.length_append] at h
    cases ha : a.symbol with
    | none =>
      rw [before_none n ha, ih (by omega)]
    | some x =>
      rw [ha, Option.toList_some, List.length_singleton] at h
      obtain ⟨n, rfl⟩ := Nat.exists_eq_succ_of_ne_zero (show n ≠ 0 by omega)
      rw [before_some n ha, ih (by omega)]

theorem before_cut {xs ys : List α} {y : α} (h : symbols as = xs ++ y :: ys) :
    ∃ a later, as = before xs.length as ++ a :: later ∧ symbols (before xs.length as) = xs ∧
    a.symbol = some y ∧
      symbols later = ys := by
  induction as generalizing xs with
  | nil => exact absurd h (List.append_ne_nil_of_right_ne_nil xs (List.cons_ne_nil y ys)).symm
  | cons b as ih =>
    rw [symbols_cons] at h
    cases hb : b.symbol with
    | none =>
      rw [hb, Option.toList_none, List.nil_append] at h
      obtain ⟨a, later, has, hxs, ha, hlater⟩ := ih h
      rw [before_none _ hb, symbols_cons, hb, Option.toList_none, List.nil_append]
      exact ⟨a, later, congrArg (b :: ·) has, hxs, ha, hlater⟩
    | some x =>
      rw [hb, Option.toList_some, List.singleton_append] at h
      cases xs with
      | nil =>
        rw [List.nil_append, List.cons.injEq] at h
        have hnone : before 0 (b :: as) = [] := by simp only [before, hb]
        rw [List.length_nil, hnone]
        exact ⟨b, as, rfl, rfl, hb.trans (congrArg some h.1), h.2⟩
      | cons x' xs =>
        rw [List.cons_append, List.cons.injEq] at h
        obtain ⟨rfl, h⟩ := h
        obtain ⟨a, later, has, hxs, ha, hlater⟩ := ih h
        rw [List.length_cons, before_some _ hb, symbols_cons, hb, Option.toList_some,
          List.singleton_append, hxs]
        exact ⟨a, later, congrArg (b :: ·) has, rfl, ha, hlater⟩

theorem symbols_takeWhile (as : List (Arrival α)) :
    symbols (as.takeWhile fun a ↦ a.symbol.isNone) = [] := by
  rw [symbols, List.filterMap_eq_nil_iff]
  intro a ha
  have hnone := List.mem_takeWhile_imp ha
  exact Option.isNone_iff_eq_none.mp hnone

theorem symbol_of_dropWhile {later : List (Arrival α)}
    (h : (as.dropWhile fun a ↦ a.symbol.isNone) = a :: later) :
    ∃ x, a.symbol = some x := by
  have hhead := List.head?_dropWhile_not (fun a : Arrival α ↦ a.symbol.isNone) as
  rw [h] at hhead
  exact Option.ne_none_iff_exists'.mp fun hnone ↦ by simp [hnone] at hhead

end Arrival

def Phase.held : Phase α → List α
  | .hunt => []
  | .collect _ body => body

theorem Phase.aligned_iff {p : Phase α} : p.Aligned ↔ p.held = [] := by
  cases p with
  | hunt => exact iff_of_true trivial rfl
  | collect pending body => exact Iff.rfl

namespace Stuffing

open Arrival

variable [DecidableEq α] (S : Stuffing α) (cap : ℕ) (accept : List α → Option β)

/-- A listener that starts over, and hunts for a flag again, when its patience ends
without a frame. -/
def listen : Phase α → List (Arrival α) → Phase α × List β
  | p, [] => (p, [])
  | p, a :: as =>
    let r := S.receiveAll cap p a.symbol.toList
    let heard := r.2.filterMap accept
    let rest := listen (if a.late && heard.isEmpty then .hunt else r.1) as
    (rest.1, heard ++ rest.2)

/-- What a listener makes of passages, each of a frame or the beginning of one. `old` is
the part of a body that it holds from a frame that did not come to its end. -/
def fate : List α → List (List α × List (Arrival α)) → List β
  | _, [] => []
  | old, (body, as) :: passages =>
    let rest := as.dropWhile fun a ↦ a.symbol.isNone
    let held := if (as.takeWhile fun a ↦ a.symbol.isNone).any Arrival.late then [] else old
    if rest = [] then fate held passages
    -- the opening flag is taken for the one that closes the old frame
    else if held ≠ [] then [held].filterMap accept ++ fate [] passages
    else if (before ((S.frame body).length - 1) rest).any Arrival.late then fate [] passages
    else if symbols rest = S.frame body then [body.take cap].filterMap accept ++ fate [] passages
    else fate (S.receiveAll cap .hunt (symbols rest)).1.held passages

theorem listen_cons (p : Phase α) (a : Arrival α) (as : List (Arrival α)) :
    S.listen cap accept p (a :: as) =
      ((S.listen cap accept (S.listen cap accept p [a]).1 as).1,
        (S.listen cap accept p [a]).2 ++
          (S.listen cap accept (S.listen cap accept p [a]).1 as).2) := by
  simp only [listen, List.append_nil]

theorem listen_append (p : Phase α) (as bs : List (Arrival α)) :
    S.listen cap accept p (as ++ bs) =
      ((S.listen cap accept (S.listen cap accept p as).1 bs).1,
        (S.listen cap accept p as).2 ++
          (S.listen cap accept (S.listen cap accept p as).1 bs).2) := by
  induction as generalizing p with
  | nil => rfl
  | cons a as ih =>
    rw [List.cons_append, listen_cons, ih, listen_cons S cap accept p a as]
    dsimp only
    rw [List.append_assoc]

theorem listen_flag {a : Arrival α} (ha : a.symbol = some S.flag) {p : Phase α} (hp : p.Aligned) :
    S.listen cap accept p [a] = (if a.late then .hunt else .collect false [], []) := by
  have hr : S.receiveAll cap p a.symbol.toList = (.collect false [], []) := by
    rw [ha, Option.toList_some, receiveAll_cons, receive_flag_aligned S cap hp]
    rfl
  rw [listen, hr]
  cases a.late <;> rfl

theorem listen_closing {a : Arrival α} (ha : a.symbol = some S.flag) (pending : Bool) {old : List α}
    (hold : old ≠ []) : S.listen cap accept (.collect pending old) [a] =
      (.hunt, [old].filterMap accept) := by
  have hr : S.receiveAll cap (.collect pending old) a.symbol.toList = (.hunt, [old]) := by
    rw [ha, Option.toList_some, receiveAll_cons, receive, if_pos rfl, if_neg hold, if_neg hold]
    rfl
  rw [listen, hr]
  simp only [listen, ite_self, List.append_nil]

theorem receive_plain {b : α} (hb : b ≠ S.flag) (p : Phase α) : (S.receive cap p b).2 = [] := by
  cases p with
  | hunt => rfl
  | collect pending body =>
    rw [receive, if_neg hb]
    split <;> rfl

theorem listen_plain {as : List (Arrival α)} (h : S.flag ∉ symbols as) (p : Phase α) :
    S.listen cap accept p as =
      (if as.any Arrival.late then .hunt else (S.receiveAll cap p (symbols as)).1, []) := by
  induction as generalizing p with
  | nil => rfl
  | cons a as ih =>
    rw [symbols_cons, List.mem_append, not_or] at h
    have hr : (S.receiveAll cap p a.symbol.toList).2 = [] := by
      cases ha : a.symbol with
      | none => rfl
      | some b =>
        rw [ha, Option.toList_some, List.mem_singleton] at h
        rw [Option.toList_some, receiveAll_cons, S.receive_plain cap (Ne.symm h.1)]
        rfl
    rw [listen, hr, ih h.2, symbols_cons, receiveAll_append, List.any_cons]
    cases a.late with
    | false => rfl
    | true =>
      have hhunt :
          (if as.any Arrival.late
            then .hunt else (S.receiveAll cap .hunt (symbols as)).1 : Phase α) = .hunt := by
        rw [S.receiveAll_hunt cap h.2, ite_self]
      exact congrArg (·, []) hhunt

theorem listen_flags {as : List (Arrival α)} (h : ∀ b ∈ symbols as, b = S.flag) {p : Phase α}
    (hp : p.Aligned) : (S.listen cap accept p as).1.Aligned ∧
    (S.listen cap accept p as).2 = [] := by
  induction as generalizing p with
  | nil => exact ⟨hp, rfl⟩
  | cons a as ih =>
    rw [symbols_cons] at h
    have hlater : ∀ b ∈ symbols as, b = S.flag := fun b hb ↦ h b (List.mem_append_right _ hb)
    have hone : (S.listen cap accept p [a]).1.Aligned ∧ (S.listen cap accept p [a]).2 = [] := by
      cases ha : a.symbol with
      | none =>
        have hnone : S.flag ∉ symbols [a] := by
          rw [symbols_cons, ha]
          exact List.not_mem_nil
        rw [listen_plain S cap accept hnone, symbols_cons, ha]
        split
        · exact ⟨trivial, rfl⟩
        · exact ⟨hp, rfl⟩
      | some b =>
        rw [ha] at h
        obtain rfl := h b (List.mem_append_left _ (List.mem_singleton_self b))
        rw [listen_flag S cap accept ha hp]
        split
        · exact ⟨trivial, rfl⟩
        · exact ⟨rfl, rfl⟩
    rw [listen_cons]
    dsimp only
    rw [hone.2, List.nil_append]
    exact ih hlater hone.1

section Passage

variable {p : Phase α} {a : Arrival α} {as : List (Arrival α)}

theorem listen_begun (hp : p.Aligned) (ha : a.symbol = some S.flag) (has : S.flag ∉ symbols as) :
    S.listen cap accept p (a :: as) =
      (if (a :: as).any Arrival.late then .hunt else (S.receiveAll cap .hunt (symbols (a :: as))).1,
        []) := by
  have hopen : S.receive cap .hunt S.flag = (.collect false [], []) := by rw [receive, if_pos rfl]
  rw [listen_cons, listen_flag S cap accept ha hp, listen_plain S cap accept has, symbols_cons, ha,
    Option.toList_some, List.singleton_append, receiveAll_cons, hopen, List.any_cons]
  cases a.late with
  | false => rfl
  | true =>
    have hhunt :
        (if as.any Arrival.late then .hunt else (S.receiveAll cap .hunt (symbols as)).1 : Phase α) =
          .hunt := by
      rw [S.receiveAll_hunt cap has, ite_self]
    exact congrArg (·, []) hhunt

theorem listen_end (hcap : 0 < cap) {body : List α} (hbody : body ≠ []) {close : Arrival α}
    {after : List (Arrival α)} (hclose : close.symbol = some S.flag) (hafter : symbols after = []) :
    (S.listen cap accept (.collect false (body.take cap)) (close :: after)).1.Aligned ∧
      (S.listen cap accept (.collect false (body.take cap)) (close :: after)).2 =
        [body.take cap].filterMap accept := by
  have hne : body.take cap ≠ [] := by simpa using ⟨by omega, hbody⟩
  have hquiet : ∀ b ∈ symbols after, b = S.flag := by
    rw [hafter]
    exact fun b hb ↦ absurd hb List.not_mem_nil
  obtain ⟨haligned, hnone⟩ := listen_flags S cap accept hquiet (p := .hunt) trivial
  rw [listen_cons, listen_closing S cap accept hclose false hne]
  exact ⟨haligned, by rw [hnone, List.append_nil]⟩

theorem passage_cut {body : List α} {x : α} (ha : a.symbol = some x)
    (h : symbols (a :: as) <+: S.frame body) :
    x = S.flag ∧
    ((symbols (a :: as) = S.frame body ∧ ∃ inside close after, as = inside ++ close :: after ∧
        before ((S.frame body).length - 1) (a :: as) = a :: inside ∧ symbols inside = S.stuff body ∧
        close.symbol = some S.flag ∧ symbols after = []) ∨
      (symbols (a :: as) ≠ S.frame body ∧ before ((S.frame body).length - 1) (a :: as) = a :: as ∧
        S.flag ∉ symbols as)) := by
  have hsymbols : symbols (a :: as) = x :: symbols as := by
    rw [symbols_cons, ha]
    rfl
  have hlen : (S.frame body).length - 1 = (S.stuff body).length + 1 := by
    rw [frame, List.length_cons, List.length_append, List.length_singleton]
    omega
  rw [hsymbols, frame, List.cons_prefix_cons] at h
  obtain ⟨rfl, h⟩ := h
  refine ⟨rfl, ?_⟩
  rw [hlen, before_some _ ha, hsymbols, frame]
  rcases List.prefix_concat_iff.mp h with hwhole | hpart
  · left
    obtain ⟨close, after, hcut, hinside, hclose, hafter⟩ := before_cut hwhole
    exact ⟨congrArg _ hwhole, _, close, after, hcut, rfl, hinside, hclose, hafter⟩
  · right
    have hle := hpart.length_le
    refine ⟨?_, congrArg _ (before_all hle),
      fun hmem ↦ S.flag_not_mem_stuff body (hpart.subset hmem)⟩
    intro he
    have hall := congrArg List.length (List.cons.inj he).2
    rw [List.length_append, List.length_singleton] at hall
    omega

theorem listen_missed {inside : List (Arrival α)} (hinside : S.flag ∉ symbols inside)
    {later : List (Arrival α)} (hlater : ∀ b ∈ symbols later, b = S.flag) :
    (S.listen cap accept .hunt (inside ++ later)).1.Aligned ∧
    (S.listen cap accept .hunt (inside ++ later)).2 = [] := by
  have hhunt : S.listen cap accept .hunt inside = (.hunt, []) := by
    rw [listen_plain S cap accept hinside, S.receiveAll_hunt cap hinside, ite_self]
  rw [listen_append, hhunt]
  exact listen_flags S cap accept hlater trivial

theorem phase_begun {body : List α} (ha : a.symbol = some S.flag)
    (has : symbols as = S.stuff body) :
    (S.receiveAll cap .hunt (symbols (a :: as))).1 = .collect false (body.take cap) := by
  have hopen : S.receive cap .hunt S.flag = (.collect false [], []) := by rw [receive, if_pos rfl]
  rw [symbols_cons, ha, Option.toList_some, List.singleton_append, receiveAll_cons, hopen, has]
  dsimp only
  rw [receiveAll_stuff]
  rfl

theorem listen_whole (hcap : 0 < cap) (hp : p.Aligned) {body : List α} (hbody : body ≠ [])
    (ha : a.symbol = some S.flag) (has : symbols as = S.stuff body) {close : Arrival α}
    {after : List (Arrival α)} (hclose : close.symbol = some S.flag) (hafter : symbols after = []) :
    (S.listen cap accept p (a :: as ++ close :: after)).1.Aligned ∧
      (S.listen cap accept p (a :: as ++ close :: after)).2 =
        if (a :: as).any Arrival.late then [] else [body.take cap].filterMap accept := by
  have hplain : S.flag ∉ symbols as := has ▸ S.flag_not_mem_stuff body
  rw [listen_append, listen_begun S cap accept hp ha hplain]
  dsimp only
  rw [List.nil_append]
  split
  · refine listen_flags S cap accept ?_ trivial
    rw [symbols_cons, hclose, hafter]
    exact fun b hb ↦ List.mem_singleton.mp hb
  · rw [phase_begun S cap ha has]
    exact listen_end S cap accept hcap hbody hclose hafter

theorem listen_over {body : List α} (ha : a.symbol = some S.flag)
    (h : symbols (a :: as) <+: S.frame body) (hp : p.held ≠ []) :
    (S.listen cap accept p (a :: as)).1.Aligned ∧
      (S.listen cap accept p (a :: as)).2 = [p.held].filterMap accept := by
  obtain ⟨pending, hq⟩ : ∃ pending, p = .collect pending p.held := by
    cases p with
    | hunt => exact absurd rfl hp
    | collect pending old => exact ⟨pending, rfl⟩
  have hmissed : (S.listen cap accept .hunt as).1.Aligned ∧
      (S.listen cap accept .hunt as).2 = [] := by
    rcases (S.passage_cut ha h).2 with ⟨-, inside, close, after, rfl, -, hinside, hclose,
      hafter⟩ | ⟨-, -, hplain⟩
    · refine listen_missed S cap accept ?_ ?_
      · rw [hinside]
        exact S.flag_not_mem_stuff body
      · rw [symbols_cons, hclose, hafter]
        exact fun b hb ↦ List.mem_singleton.mp hb
    · rw [← List.append_nil as]
      exact listen_missed S cap accept hplain fun b hb ↦ absurd hb List.not_mem_nil
  have hclosing := listen_closing S cap accept ha pending hp
  rw [listen_cons, hq, hclosing, ← hq]
  dsimp only
  rw [hmissed.2, List.append_nil]
  exact ⟨hmissed.1, rfl⟩

end Passage

/-- What a listener hears of frames and of beginnings of frames, whenever its patience
ends. -/
theorem listen_fate (hcap : 0 < cap) (passages : List (List α × List (Arrival α)))
    (hbody : ∀ x ∈ passages, x.1 ≠ []) (hsent : ∀ x ∈ passages, symbols x.2 <+: S.frame x.1)
    (p : Phase α) : (S.listen cap accept p (passages.flatMap Prod.snd)).2 =
      S.fate cap accept p.held passages := by
  induction passages generalizing p with
  | nil => rfl
  | cons passage passages ih =>
    obtain ⟨body, as⟩ := passage
    have hne := hbody _ List.mem_cons_self
    have hframe := hsent _ List.mem_cons_self
    replace ih :=
      ih (fun x hx ↦ hbody x (List.mem_cons_of_mem _ hx))
        (fun x hx ↦ hsent x (List.mem_cons_of_mem _ hx))
    have halign : ∀ {q : Phase α}, q.Aligned →
        (S.listen cap accept q (passages.flatMap Prod.snd)).2 =
        S.fate cap accept [] passages := by
      intro q hq
      rw [ih q, Phase.aligned_iff.mp hq]
    rw [fate, List.flatMap_cons]
    dsimp only at hne hframe ⊢
    have hsplit := @List.takeWhile_append_dropWhile _ (fun a : Arrival α ↦ a.symbol.isNone) as
    have hwait := symbols_takeWhile as
    have hhead := fun a later ↦ @symbol_of_dropWhile _ a as later
    generalize (as.takeWhile fun a ↦ a.symbol.isNone) = wait at hsplit hwait ⊢
    generalize (as.dropWhile fun a ↦ a.symbol.isNone) = rest at hsplit hhead ⊢
    have hquiet : S.flag ∉ symbols wait := by
      rw [hwait]
      exact List.not_mem_nil
    have hsame : (if wait.any Arrival.late then .hunt else p : Phase α).held =
        if wait.any Arrival.late then [] else p.held := by
      split <;> rfl
    rw [← hsplit, symbols_append, hwait, List.nil_append] at hframe
    rw [← hsplit, List.append_assoc, listen_append, listen_plain S cap accept hquiet,
      hwait, ← hsame]
    dsimp only [receiveAll_nil]
    generalize (if wait.any Arrival.late then .hunt else p : Phase α) = q
    rw [List.nil_append, listen_append]
    dsimp only
    cases rest with
    | nil =>
      rw [if_pos rfl]
      exact ih q
    | cons a later =>
      obtain ⟨x, ha⟩ := hhead a later rfl
      obtain ⟨rfl, hcut⟩ := S.passage_cut ha hframe
      rw [if_neg (List.cons_ne_nil a later)]
      by_cases hold : q.held = []
      · have hq := Phase.aligned_iff.mpr hold
        rw [if_neg (not_not.mpr hold)]
        rcases hcut with ⟨hwhole, inside, close, after, rfl, hduring, hinside, hclose,
          hafter⟩ | ⟨hpart, hduring, hplain⟩
        · obtain ⟨haligned, hheard⟩ :=
            listen_whole S cap accept hcap hq hne ha hinside hclose hafter
          rw [← List.cons_append] at hduring hwhole ⊢
          rw [hduring, if_pos hwhole, hheard, halign haligned]
          split <;> rfl
        · rw [hduring, if_neg hpart, listen_begun S cap accept hq ha hplain]
          split
          · exact halign trivial
          · exact ih _
      · obtain ⟨haligned, hheard⟩ := listen_over S cap accept ha hframe hold
        rw [if_pos hold, hheard, halign haligned]

end Stuffing

end TinyProto.Lib
