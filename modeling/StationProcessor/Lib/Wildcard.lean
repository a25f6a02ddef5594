import Mathlib.Data.List.Forall2
import Mathlib.Tactic

/-!
# Wildcard patterns

A star of a pattern matches any part of the target, every other symbol one element that it
accepts. A machine reads the target once and keeps the positions of the pattern that are still
open: within a round it goes through the open positions in order, a star opens the position after
it in the same round, and what is kept are the open positions of the next round.
-/

/-- Which symbols of a pattern are stars, and which elements the other ones accept. -/
structure Wildcard (α β : Type*) where
  star : β → Bool
  accepts : β → α → Bool

namespace Wildcard

variable {α β : Type*} (w : Wildcard α β)

/-- The symbol matches the part of the target. -/
def MatchesPart (b : β) (part : List α) : Prop :=
  if w.star b then True else ∃ a, part = [a] ∧ w.accepts b a

/-- The target splits into parts that the symbols of the pattern match one by one. -/
def Matches (pattern : List β) (target : List α) : Prop :=
  ∃ parts, List.Forall₂ w.MatchesPart pattern parts ∧ parts.flatten = target

variable {w} {pattern pattern' : List β} {target rest : List α} {a : α} {b : β} {p : ℕ}

/-! ### The definition by the structure of the pattern -/

@[simp] lemma matches_nil : w.Matches [] target ↔ target = [] := by
  simp [Matches, eq_comm]

lemma matches_cons : w.Matches (b :: pattern) target ↔
    ∃ part rest, target = part ++ rest ∧ w.MatchesPart b part ∧ w.Matches pattern rest := by
  constructor
  · rintro ⟨parts, hparts, rfl⟩
    obtain ⟨part, more, hpart, hmore, rfl⟩ := List.forall₂_cons_left_iff.mp hparts
    exact ⟨part, more.flatten, rfl, hpart, more, hmore, rfl⟩
  · rintro ⟨part, _, rfl, hpart, more, hmore, rfl⟩
    exact ⟨part :: more, .cons hpart hmore, rfl⟩

lemma matches_append : w.Matches (pattern ++ pattern') target ↔
    ∃ t t', target = t ++ t' ∧ w.Matches pattern t ∧ w.Matches pattern' t' := by
  induction pattern generalizing target with
  | nil => simp
  | cons b pattern ih =>
    rw [List.cons_append, matches_cons]
    constructor
    · rintro ⟨part, _, rfl, hpart, hrest⟩
      obtain ⟨t, t', rfl, ht, ht'⟩ := ih.mp hrest
      exact ⟨part ++ t, t', (List.append_assoc ..).symm, matches_cons.mpr ⟨part, t, rfl, hpart, ht⟩,
        ht'⟩
    · rintro ⟨_, t', rfl, ht, ht'⟩
      obtain ⟨part, t, rfl, hpart, ht⟩ := matches_cons.mp ht
      exact ⟨part, t ++ t', List.append_assoc .., hpart, ih.mpr ⟨t, t', rfl, ht, ht'⟩⟩

lemma matches_singleton : w.Matches [b] target ↔ w.MatchesPart b target := by
  simp [matches_cons]

lemma matchesPart_star (hstar : w.star b = true) (part : List α) : w.MatchesPart b part := by
  simp [MatchesPart, hstar]

lemma matchesPart_iff (hstar : w.star b = false) {part : List α} :
    w.MatchesPart b part ↔ ∃ a, part = [a] ∧ w.accepts b a := by
  simp [MatchesPart, hstar]

/-- A star takes nothing, or one more element. -/
lemma matches_star_cons (hstar : w.star b = true) : w.Matches (b :: pattern) (a :: target) ↔
    w.Matches pattern (a :: target) ∨ w.Matches (b :: pattern) target := by
  simp only [matches_cons]
  constructor
  · rintro ⟨part, rest, htarget, -, hrest⟩
    rcases List.cons_eq_append_iff.mp htarget with ⟨rfl, rfl⟩ | ⟨part', rfl, rfl⟩
    · exact Or.inl hrest
    · exact Or.inr ⟨part', rest, rfl, matchesPart_star hstar part', hrest⟩
  · rintro (hrest | ⟨part, rest, rfl, -, hrest⟩)
    · exact ⟨[], a :: target, rfl, matchesPart_star hstar [], hrest⟩
    · exact ⟨a :: part, rest, rfl, matchesPart_star hstar _, hrest⟩

lemma matches_cons_cons (hstar : w.star b = false) : w.Matches (b :: pattern) (a :: target) ↔
    w.accepts b a = true ∧ w.Matches pattern target := by
  simp only [matches_cons, matchesPart_iff hstar]
  constructor
  · rintro ⟨_, rest, htarget, ⟨a', rfl, ha⟩, hrest⟩
    obtain ⟨rfl, rfl⟩ := List.cons.inj htarget
    exact ⟨ha, hrest⟩
  · rintro ⟨ha, hrest⟩
    exact ⟨[a], target, rfl, ⟨a, rfl, ha⟩, hrest⟩

lemma matches_cons_nil :
    w.Matches (b :: pattern) [] ↔ w.star b = true ∧ w.Matches pattern [] := by
  rw [matches_cons]
  constructor
  · rintro ⟨part, rest, htarget, hpart, hrest⟩
    obtain ⟨rfl, rfl⟩ := List.append_eq_nil_iff.mp htarget.symm
    cases hstar : w.star b with
    | true => exact ⟨rfl, hrest⟩
    | false =>
      obtain ⟨a, ha, -⟩ := (matchesPart_iff hstar).mp hpart
      cases ha
  · rintro ⟨hstar, hrest⟩
    exact ⟨[], [], rfl, matchesPart_star hstar [], hrest⟩

/-- Symbols that match the same elements may replace those of a pattern. -/
lemma matches_map {f : β → β} (hstar : ∀ b, w.star (f b) = w.star b)
    (haccepts : ∀ b a, w.accepts (f b) a = w.accepts b a) :
    w.Matches (pattern.map f) target ↔ w.Matches pattern target := by
  have hpart : ∀ b part, w.MatchesPart (f b) part ↔ w.MatchesPart b part := by
    intro b part
    simp only [MatchesPart, hstar, haccepts]
  simp only [Matches, List.forall₂_map_left_iff, hpart]

/-- Computes whether the pattern matches. -/
def check (w : Wildcard α β) : List β → List α → Bool
  | [], target => target.isEmpty
  | b :: pattern, target =>
    if w.star b then target.tails.any (w.check pattern)
    else target.head?.any (w.accepts b) && w.check pattern target.tail

lemma check_iff : w.check pattern target = true ↔ w.Matches pattern target := by
  induction pattern generalizing target with
  | nil => simp [check]
  | cons b pattern ih =>
    rw [check]
    cases hstar : w.star b with
    | true =>
      simp only [if_true, List.any_eq_true, List.mem_tails, ih, matches_cons]
      constructor
      · rintro ⟨rest, ⟨part, hpart⟩, hrest⟩
        exact ⟨part, rest, hpart.symm, matchesPart_star hstar part, hrest⟩
      · rintro ⟨part, rest, hpart, -, hrest⟩
        exact ⟨rest, ⟨part, hpart.symm⟩, hrest⟩
    | false =>
      cases target with
      | nil => simp [matches_cons_nil, hstar]
      | cons a target => simp [matches_cons_cons hstar, ih]

instance (pattern : List β) (target : List α) : Decidable (w.Matches pattern target) :=
  decidable_of_iff _ check_iff

/-! ### One position -/

/-- What an open position does with the next element of the target. -/
inductive Move
  | stay
  | next
  | drop
deriving DecidableEq

/-- A star stays open, a symbol that accepts the element gives way to the next one, and any other
one, or the end of the pattern, drops out. -/
def move (w : Wildcard α β) (a : α) : Option β → Move
  | none => .drop
  | some b => if w.star b then .stay else if w.accepts b a then .next else .drop

/-- The pattern from the position on matches. -/
def From (w : Wildcard α β) (pattern : List β) (p : ℕ) (target : List α) : Prop :=
  w.Matches (pattern.drop p) target

lemma from_of_getElem? (h : pattern[p]? = some b) :
    w.From pattern p target ↔ w.Matches (b :: pattern.drop (p + 1)) target := by
  obtain ⟨hp, rfl⟩ := List.getElem?_eq_some_iff.mp h
  rw [From, List.drop_eq_getElem_cons hp]

lemma from_of_length_le (h : pattern.length ≤ p) : w.From pattern p target ↔ target = [] := by
  rw [From, List.drop_eq_nil_of_le h, matches_nil]

lemma move_eq_stay {o : Option β} : w.move a o = .stay ↔ ∃ b, o = some b ∧ w.star b = true := by
  cases o with
  | none => simp [move]
  | some b =>
    cases hstar : w.star b with
    | true => simp [move, hstar]
    | false => cases haccepts : w.accepts b a <;> simp [move, hstar, haccepts]

lemma move_eq_next {o : Option β} :
    w.move a o = .next ↔ ∃ b, o = some b ∧ w.star b = false ∧ w.accepts b a = true := by
  cases o with
  | none => simp [move]
  | some b => cases hstar : w.star b <;> simp [move, hstar]

lemma from_stay (h : w.move a pattern[p]? = .stay) : w.From pattern p (a :: rest) ↔
    w.From pattern (p + 1) (a :: rest) ∨ w.From pattern p rest := by
  obtain ⟨b, hb, hstar⟩ := move_eq_stay.mp h
  rw [from_of_getElem? hb, from_of_getElem? hb, matches_star_cons hstar, From]

lemma from_next (h : w.move a pattern[p]? = .next) :
    w.From pattern p (a :: rest) ↔ w.From pattern (p + 1) rest := by
  obtain ⟨b, hb, hstar, ha⟩ := move_eq_next.mp h
  rw [from_of_getElem? hb, matches_cons_cons hstar, From]
  simp [ha]

lemma not_from_drop (h : w.move a pattern[p]? = .drop) : ¬ w.From pattern p (a :: rest) := by
  cases hb : pattern[p]? with
  | none =>
    rw [from_of_length_le (List.getElem?_eq_none_iff.mp hb)]
    simp
  | some b =>
    rw [hb] at h
    cases hstar : w.star b with
    | true => simp [move, hstar] at h
    | false =>
      rw [from_of_getElem? hb, matches_cons_cons hstar]
      intro hmatch
      simp [move, hstar, hmatch.1] at h

/-- Where the rest of a pattern matches nothing, it is a star. -/
lemma from_nil_of_lt (h : w.From pattern p []) (hp : p < pattern.length) (a : α) :
    w.move a pattern[p]? = .stay ∧ w.From pattern (p + 1) [] := by
  have hb : pattern[p]? = some pattern[p] := List.getElem?_eq_getElem hp
  obtain ⟨hstar, hrest⟩ := matches_cons_nil.mp ((from_of_getElem? hb).mp h)
  exact ⟨move_eq_stay.mpr ⟨_, hb, hstar⟩, hrest⟩

/-- What matches nothing matches nothing from a later position on. -/
lemma from_nil_mono (h : w.From pattern p []) {q : ℕ} (hpq : p ≤ q) : w.From pattern q [] := by
  induction hpq with
  | refl => exact h
  | @step q _ ih =>
    rcases lt_or_ge q pattern.length with hq | hq
    · have hb : pattern[q]? = some pattern[q] := List.getElem?_eq_getElem hq
      exact (matches_cons_nil.mp ((from_of_getElem? hb).mp ih)).2
    · exact (from_of_length_le (hq.trans (Nat.le_succ q))).mpr rfl

/-! ### Positions that are reached -/

/-- The target so far leaves the position open: the pattern before it matches, or it is a star and
the pattern up to it does. -/
def Reached (w : Wildcard α β) (pattern : List β) (p : ℕ) (target : List α) : Prop :=
  p ≤ pattern.length ∧ (w.Matches (pattern.take p) target ∨
    (∃ b, pattern[p]? = some b ∧ w.star b = true) ∧ w.Matches (pattern.take (p + 1)) target)

lemma matches_take_succ (h : pattern[p]? = some b) : w.Matches (pattern.take (p + 1)) target ↔
    ∃ t t', target = t ++ t' ∧ w.Matches (pattern.take p) t ∧ w.MatchesPart b t' := by
  rw [List.take_add_one, h, Option.toList_some, matches_append]
  simp only [matches_singleton]

lemma lt_of_getElem?_eq (h : pattern[p]? = some b) : p < pattern.length :=
  (List.getElem?_eq_some_iff.mp h).1

lemma Reached.exists_take (h : w.Reached pattern p target) :
    ∃ t t', target = t ++ t' ∧ w.Matches (pattern.take p) t := by
  rcases h.2 with h | ⟨⟨b, hb, -⟩, h⟩
  · exact ⟨target, [], (List.append_nil target).symm, h⟩
  · obtain ⟨t, t', htarget, ht, -⟩ := (matches_take_succ hb).mp h
    exact ⟨t, t', htarget, ht⟩

lemma Reached.stay_succ (h : w.Reached pattern p target) (hmove : w.move a pattern[p]? = .stay) :
    w.Reached pattern (p + 1) target := by
  obtain ⟨b, hb, hstar⟩ := move_eq_stay.mp hmove
  obtain ⟨t, t', htarget, ht⟩ := h.exists_take
  exact ⟨lt_of_getElem?_eq hb,
    Or.inl ((matches_take_succ hb).mpr ⟨t, t', htarget, ht, matchesPart_star hstar t'⟩)⟩

lemma Reached.stay (h : w.Reached pattern p target) (hmove : w.move a pattern[p]? = .stay)
    (more : List α) : w.Reached pattern p (target ++ more) := by
  obtain ⟨b, hb, hstar⟩ := move_eq_stay.mp hmove
  obtain ⟨t, t', rfl, ht⟩ := h.exists_take
  refine ⟨h.1, Or.inr ⟨⟨b, hb, hstar⟩, (matches_take_succ hb).mpr ⟨t, t' ++ more, ?_, ht, ?_⟩⟩⟩
  · simp
  · exact matchesPart_star hstar _

lemma Reached.next (h : w.Reached pattern p target) (hmove : w.move a pattern[p]? = .next) :
    w.Reached pattern (p + 1) (target ++ [a]) := by
  obtain ⟨b, hb, hstar, ha⟩ := move_eq_next.mp hmove
  refine ⟨lt_of_getElem?_eq hb, ?_⟩
  rcases h.2 with h | ⟨⟨b', hb', hstar'⟩, -⟩
  · exact Or.inl ((matches_take_succ hb).mpr
      ⟨target, [a], rfl, h, (matchesPart_iff hstar).mpr ⟨a, rfl, ha⟩⟩)
  · rw [hb] at hb'
    cases hb'
    rw [hstar] at hstar'
    cases hstar'

/-! ### A round -/

/-- Puts a position in front, unless it is there. -/
def pushFront (p : ℕ) (l : List ℕ) : List ℕ := if l.head? = some p then l else p :: l

/-- Puts a position at the end, unless it is there. -/
def pushBack (l : List ℕ) (p : ℕ) : List ℕ := if l.getLast? = some p then l else l ++ [p]

@[simp] lemma mem_pushFront {q : ℕ} {l : List ℕ} : q ∈ pushFront p l ↔ q = p ∨ q ∈ l := by
  rw [pushFront]
  split
  · next h =>
    have hp := List.mem_of_head? h
    constructor
    · exact Or.inr
    · rintro (rfl | hq)
      · exact hp
      · exact hq
  · exact List.mem_cons

@[simp] lemma mem_pushBack {q : ℕ} {l : List ℕ} : q ∈ pushBack l p ↔ q = p ∨ q ∈ l := by
  rw [pushBack]
  split
  · next h =>
    have hp := List.mem_of_getLast? h
    constructor
    · exact Or.inr
    · rintro (rfl | hq)
      · exact hp
      · exact hq
  · rw [List.mem_append, List.mem_singleton, or_comm]

/-- The open positions that a round has still to go through, and those it has kept for the next
one. -/
structure Round where
  pending : List ℕ
  kept : List ℕ

/-- The round goes on by one position. -/
def Round.advance (look : ℕ → Move) : Round → Round
  | ⟨[], kept⟩ => ⟨[], kept⟩
  | ⟨here :: rest, kept⟩ =>
    match look here with
    | .stay => ⟨pushFront (here + 1) rest, pushBack kept here⟩
    | .next => ⟨rest, pushBack kept (here + 1)⟩
    | .drop => ⟨rest, kept⟩

/-- One of the positions leads to the end of the pattern and the target: a kept one with the rest
of the target, one that is still pending with the element that is read too. -/
def Round.Accepts (w : Wildcard α β) (pattern : List β) (a : α) (rest : List α) (r : Round) :
    Prop :=
  (∃ p ∈ r.pending, w.From pattern p (a :: rest)) ∨ ∃ q ∈ r.kept, w.From pattern q rest

/-- Every position is reached. -/
structure Round.IsReached (w : Wildcard α β) (pattern : List β) (target : List α) (a : α)
    (r : Round) : Prop where
  pending : ∀ p ∈ r.pending, w.Reached pattern p target
  kept : ∀ q ∈ r.kept, w.Reached pattern q (target ++ [a])

variable {look : ℕ → Move} {r : Round}

lemma Round.accepts_advance (hlook : ∀ p ∈ r.pending, look p = w.move a pattern[p]?) :
    (r.advance look).Accepts w pattern a rest ↔ r.Accepts w pattern a rest := by
  obtain ⟨_ | ⟨here, pending⟩, kept⟩ := r
  · rfl
  have hhere := hlook here (by simp)
  simp only [advance, Accepts]
  cases hmove : look here with
  | stay =>
    simp only [mem_pushFront, mem_pushBack, List.mem_cons, or_and_right, exists_or, exists_eq_left,
      from_stay (hhere.symm.trans hmove)]
    rw [or_or_or_comm]
    exact or_assoc.symm
  | next =>
    simp only [mem_pushBack, List.mem_cons, or_and_right, exists_or, exists_eq_left,
      from_next (hhere.symm.trans hmove)]
    rw [or_left_comm]
    exact or_assoc.symm
  | drop =>
    simp only [List.mem_cons, or_and_right, exists_or, exists_eq_left,
      not_from_drop (hhere.symm.trans hmove), false_or]

lemma Round.IsReached.advance (h : r.IsReached w pattern target a)
    (hlook : ∀ p ∈ r.pending, look p = w.move a pattern[p]?) :
    (r.advance look).IsReached w pattern target a := by
  obtain ⟨_ | ⟨here, pending⟩, kept⟩ := r
  · exact h
  have hhere := hlook here (by simp)
  have hreached := h.pending here (by simp)
  have hpending : ∀ p ∈ pending, w.Reached pattern p target := fun p hp =>
    h.pending p (List.mem_cons_of_mem _ hp)
  simp only [Round.advance]
  cases hmove : look here with
  | stay =>
    refine ⟨?_, ?_⟩
    · simp only [mem_pushFront, forall_eq_or_imp]
      exact ⟨hreached.stay_succ (hhere.symm.trans hmove), hpending⟩
    · simp only [mem_pushBack, forall_eq_or_imp]
      exact ⟨hreached.stay (hhere.symm.trans hmove) _, h.kept⟩
  | next =>
    refine ⟨hpending, ?_⟩
    simp only [mem_pushBack, forall_eq_or_imp]
    exact ⟨hreached.next (hhere.symm.trans hmove), h.kept⟩
  | drop => exact ⟨hpending, h.kept⟩

/-- A pending position from which the rest of the pattern matches nothing stays pending, one star
further each time, until it is past the pattern. -/
lemma Round.ends_advance (h : ∃ p ∈ r.pending, w.From pattern p [])
    (hlook : ∀ p ∈ r.pending, look p = w.move a pattern[p]?)
    (hlt : ∀ p ∈ r.pending, p < pattern.length) :
    ∃ p ∈ (r.advance look).pending, w.From pattern p [] := by
  obtain ⟨_ | ⟨here, pending⟩, kept⟩ := r
  · exact h
  have hhere := hlook here (by simp)
  obtain ⟨p, hp, hends⟩ := h
  simp only [Round.advance]
  rcases List.mem_cons.mp hp with rfl | hp
  · obtain ⟨hstay, hnext⟩ := from_nil_of_lt hends (hlt p (by simp)) a
    rw [hhere.trans hstay]
    exact ⟨p + 1, by simp, hnext⟩
  · cases look here with
    | stay => exact ⟨p, by simp [hp], hends⟩
    | next => exact ⟨p, hp, hends⟩
    | drop => exact ⟨p, hp, hends⟩

/-! ### The order of the positions -/

/-- Both lists are in order, and no kept position is after a pending one. -/
structure Round.IsOrdered (r : Round) : Prop where
  pending : r.pending.Pairwise (· < ·)
  kept : r.kept.Pairwise (· < ·)
  le : ∀ q ∈ r.kept, ∀ p ∈ r.pending, q ≤ p

lemma pushFront_sorted {l : List ℕ} (h : l.Pairwise (· < ·)) (hp : ∀ q ∈ l, p ≤ q) :
    (pushFront p l).Pairwise (· < ·) := by
  rw [pushFront]
  split
  · exact h
  · next hhead =>
    refine List.pairwise_cons.mpr ⟨fun q hq => (hp q hq).lt_of_ne ?_, h⟩
    rintro rfl
    cases l with
    | nil => cases hq
    | cons head l =>
      rcases List.mem_cons.mp hq with rfl | hq
      · exact hhead rfl
      · exact (hp head (by simp)).not_gt ((List.pairwise_cons.mp h).1 p hq)

lemma pushBack_sorted {l : List ℕ} (h : l.Pairwise (· < ·)) (hp : ∀ q ∈ l, q ≤ p) :
    (pushBack l p).Pairwise (· < ·) := by
  rw [pushBack]
  split
  · exact h
  · next hlast =>
    refine List.pairwise_append.mpr ⟨h, List.pairwise_singleton _ _, fun q hq q' hq' => ?_⟩
    rw [List.mem_singleton.mp hq']
    refine (hp q hq).lt_of_ne ?_
    rintro rfl
    rcases List.eq_nil_or_concat' l with rfl | ⟨front, last, rfl⟩
    · cases hq
    · rcases List.mem_append.mp hq with hfront | hmem
      · have hlt := (List.pairwise_append.mp h).2.2 q hfront last (by simp)
        exact (hp last (by simp)).not_gt hlt
      · rw [List.mem_singleton.mp hmem] at hlast
        exact hlast (by simp)

lemma Round.IsOrdered.advance (h : r.IsOrdered) : (r.advance look).IsOrdered := by
  obtain ⟨_ | ⟨here, pending⟩, kept⟩ := r
  · exact h
  obtain ⟨hlt, hpending⟩ := List.pairwise_cons.mp h.pending
  have hle : ∀ q ∈ kept, q ≤ here := fun q hq => h.le q hq here (by simp)
  simp only [Round.advance]
  cases look here with
  | stay =>
    refine ⟨pushFront_sorted hpending hlt, pushBack_sorted h.kept hle, ?_⟩
    simp only [mem_pushFront, mem_pushBack]
    rintro q (rfl | hq) p (rfl | hp)
    · exact Nat.le_succ _
    · exact (hlt p hp).le
    · exact (hle q hq).trans (Nat.le_succ _)
    · exact (hle q hq).trans (hlt p hp).le
  | next =>
    refine ⟨hpending, pushBack_sorted h.kept fun q hq => (hle q hq).trans (Nat.le_succ _), ?_⟩
    simp only [mem_pushBack]
    rintro q (rfl | hq) p hp
    · exact hlt p hp
    · exact (hle q hq).trans (hlt p hp).le
  | drop => exact ⟨hpending, h.kept, fun q hq p hp => (hle q hq).trans (hlt p hp).le⟩

/-- The positions that are still pending are after the one the round was at. -/
lemma Round.IsOrdered.lt_of_mem_advance {here q : ℕ} {pending kept : List ℕ}
    (h : IsOrdered ⟨here :: pending, kept⟩)
    (hq : q ∈ (Round.advance look ⟨here :: pending, kept⟩).pending) : here < q := by
  have hlt := (List.pairwise_cons.mp h.pending).1
  simp only [Round.advance] at hq
  cases hmove : look here with
  | stay =>
    rw [hmove] at hq
    rcases mem_pushFront.mp hq with rfl | hq
    · exact Nat.lt_succ_self here
    · exact hlt q hq
  | next =>
    rw [hmove] at hq
    exact hlt q hq
  | drop =>
    rw [hmove] at hq
    exact hlt q hq

/-- The kept positions are less than `n`, or `n` where the symbol before it gave way. -/
def Round.KeptBelow (look : ℕ → Move) (n : ℕ) (r : Round) : Prop :=
  ∀ q ∈ r.kept, q < n ∨ q = n ∧ look (n - 1) = .next

lemma Round.KeptBelow.advance {n : ℕ} (h : r.KeptBelow look n) (hlt : ∀ p ∈ r.pending, p < n) :
    (r.advance look).KeptBelow look n := by
  obtain ⟨_ | ⟨here, pending⟩, kept⟩ := r
  · exact h
  have hhere : here < n := hlt here (by simp)
  simp only [Round.advance]
  cases hmove : look here with
  | stay =>
    simp only [KeptBelow, mem_pushBack, forall_eq_or_imp]
    exact ⟨Or.inl hhere, h⟩
  | next =>
    simp only [KeptBelow, mem_pushBack, forall_eq_or_imp]
    refine ⟨?_, h⟩
    rcases (Nat.succ_le_of_lt hhere).lt_or_eq with hlt | rfl
    · exact Or.inl hlt
    · exact Or.inr ⟨rfl, hmove⟩
  | drop => exact h

end Wildcard
