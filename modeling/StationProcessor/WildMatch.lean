import Mathlib.Data.List.GetD
import StationProcessor.TimePrint
import StationProcessor.Lib.Fallible
import StationProcessor.Lib.LinkedList
import StationProcessor.Lib.Wildcard

/-!
# Wildcard matching

`WildMatch` of `wildmatch.c`. It keeps the positions of the pattern to try in a linked list whose
links are an array of `MAXNAMLEN` indices on the stack.
-/

namespace StationProcessor

open Fallible LinkedList Wildcard

/-! ### The list of positions -/

/-- `MAXNAMLEN`, the length of `link`. -/
abbrev maxNamLen : ℕ := 1025

inductive WildError
  | outOfFuel
  | outOfBounds
deriving DecidableEq

/-- `link`, `first` and `last`. -/
structure Links where
  link : ℕ → ℤ
  first : ℤ
  last : ℤ

/-- Reads `link[i]`. -/
def Links.get (s : Links) (i : ℕ) : Except WildError ℤ :=
  if i < maxNamLen then .ok (s.link i) else .error .outOfBounds

/-- Writes `link[i]`. -/
def Links.set (s : Links) (i : ℕ) (v : ℤ) : Except WildError Links :=
  if i < maxNamLen then .ok { s with link := Function.update s.link i v } else .error .outOfBounds

/-- "try match at here+1 this round". -/
def Links.tryThisRound (s : Links) (here next : ℤ) : Except WildError (Links × ℤ) :=
  if next ≠ here + 1 then do
    let s ← s.set (here + 1).toNat next
    return (s, here + 1)
  else return (s, next)

/-- "try match at here value next round". -/
def Links.tryNextRound (s : Links) (here : ℤ) : Except WildError Links :=
  if s.last < 0 then return { s with first := here, last := here }
  else do
    let s ← s.set s.last.toNat here
    return { s with last := here }

/-! ### The matcher -/

/-- `pattern[i]`, up to the terminating null. -/
def patternAt (pattern : Bytes) (i : ℕ) : Except WildError UInt8 :=
  if i ≤ pattern.length then .ok (pattern.getD i 0) else .error .outOfBounds

/-- The round of one target character, from `here` on. -/
def wildRound (pattern : Bytes) (lowch : UInt8) : ℕ → Links → ℤ → Except WildError Links
  | 0, _, _ => .error .outOfFuel
  | fuel + 1, s, here =>
    if here < 0 then return s
    else do
      let next ← s.get here.toNat
      let c ← patternAt pattern here.toNat
      if c = 42 then
        let (s, next) ← s.tryThisRound here next
        let s ← s.tryNextRound here
        wildRound pattern lowch fuel s next
      else if c = 63 ∨ toLower c = lowch then
        let s ← s.tryNextRound (here + 1)
        wildRound pattern lowch fuel s next
      else wildRound pattern lowch fuel s next

/-- The loop over the target; `none` when no position is left. -/
def wildLoop (pattern : Bytes) (fuel : ℕ) : Bytes → Links → Except WildError (Option Links)
  | [], s => return some s
  | c :: target, s => do
    let s ← wildRound pattern (toLower c) fuel { s with last := -1 } s.first
    if s.last = -1 then return none
    let s ← s.set s.last.toNat (-1)
    wildLoop pattern fuel target s

/-- `WildMatch`, with what the stack holds where `link` is. -/
def wildMatch (stack : ℕ → ℤ) (fuel : ℕ) (pattern target : CString) : Except WildError Bool := do
  match ← wildLoop pattern fuel target ⟨Function.update stack 0 (-1), 0, 0⟩ with
  | none => return false
  | some s => return ((pattern.1.drop s.last.toNat).dropWhile (· == 42)).isEmpty

/-- What the characters of a pattern mean. -/
def wild : Wildcard UInt8 UInt8 where
  star c := c == 42
  accepts c t := c == 63 || toLower c == toLower t

/-! ### One position of a round -/

lemma toLower_eq_zero_iff (c : UInt8) : toLower c = 0 ↔ c = 0 := by
  rw [toLower]
  split
  · next h =>
    simp only [Bool.and_eq_true, decide_eq_true_eq, UInt8.le_iff_toNat_le] at h
    simp only [← UInt8.toNat_inj, UInt8.toNat_add, UInt8.reduceToNat] at h ⊢
    omega
  · rfl

/-- The symbol of a position, by what the position does. -/
lemma patternAt_move {pattern : Bytes} {p : ℕ} {t : UInt8} (hp : p ≤ pattern.length) (ht : t ≠ 0) :
    ∃ c, patternAt pattern p = .ok c ∧
      match wild.move t pattern[p]? with
      | .stay => c = 42
      | .next => c ≠ 42 ∧ (c = 63 ∨ toLower c = toLower t)
      | .drop => c ≠ 42 ∧ ¬ (c = 63 ∨ toLower c = toLower t) := by
  refine ⟨pattern.getD p 0, if_pos hp, ?_⟩
  rcases hp.lt_or_eq with hlt | rfl
  · rw [List.getElem?_eq_getElem hlt, List.getD_eq_getElem _ _ hlt]
    by_cases hstar : pattern[p] = 42
    · simp [move, wild, hstar]
    · by_cases haccepts : pattern[p] = 63 ∨ toLower pattern[p] = toLower t
      · simp [move, wild, hstar, haccepts]
      · simp [move, wild, hstar, haccepts]
  · have hzero : toLower t ≠ 0 := (toLower_eq_zero_iff t).not.mpr ht
    rw [List.getElem?_eq_none le_rfl, List.getD_eq_default _ _ le_rfl]
    exact ⟨by decide, by rintro (h | h); exacts [absurd h (by decide), hzero h.symm]⟩

lemma wildRound_end (pattern : Bytes) (lowch : UInt8) (fuel : ℕ) (s : Links) :
    wildRound pattern lowch (fuel + 1) s (-1) = .ok s := rfl

/-- One position of a round, by what it does. -/
lemma wildRound_here {pattern : Bytes} {p : ℕ} {t : UInt8} (hp : p ≤ pattern.length) (ht : t ≠ 0)
    (hbelow : p < maxNamLen) (fuel : ℕ) (s : Links) :
    wildRound pattern (toLower t) (fuel + 1) s p =
      match wild.move t pattern[p]? with
      | .stay => s.tryThisRound p (s.link p) >>= fun r => r.1.tryNextRound p >>= fun s' =>
          wildRound pattern (toLower t) fuel s' r.2
      | .next => s.tryNextRound (p + 1) >>= fun s' =>
          wildRound pattern (toLower t) fuel s' (s.link p)
      | .drop => wildRound pattern (toLower t) fuel s (s.link p) := by
  obtain ⟨c, hc, hmove⟩ := patternAt_move hp ht
  have hget : s.get p = .ok (s.link p) := if_pos hbelow
  rw [wildRound, if_neg (Int.natCast_nonneg p).not_gt]
  simp only [Int.toNat_natCast, hget, hc, ok_bind]
  split at hmove
  · rw [if_pos hmove]
  · rw [if_neg hmove.1, if_pos hmove.2]
  · rw [if_neg hmove.1, if_neg hmove.2]

/-! ### What the list holds -/

/-- The kept positions are linked up to the last one. -/
def KeptIn (s : Links) (kept : List ℕ) : Prop :=
  kept = [] ∧ s.last = -1 ∨
    ∃ (front : List ℕ) (last : ℕ), kept = front ++ [last] ∧ s.last = last ∧
      Segment s.link s.first front last

/-- The links hold the positions of a round that is at `here`. -/
structure RoundHolds (s : Links) (here : ℤ) (r : Round) : Prop where
  ordered : r.IsOrdered
  below : ∀ p ∈ r.pending, p < maxNamLen
  pending : Segment s.link here r.pending (-1)
  kept : KeptIn s r.kept

variable {s : Links} {pending kept : List ℕ} {p x : ℕ} {next : ℤ}

lemma set_of_lt (h : p < maxNamLen) (s : Links) (v : ℤ) :
    s.set p v = .ok { s with link := Function.update s.link p v } := if_pos h

/-- A position is kept. The pending positions, which come after the kept ones, stay linked. -/
lemma KeptIn.tryNextRound (h : KeptIn s kept) (hsorted : kept.Pairwise (· < ·))
    (hbelow : ∀ q ∈ kept, q < maxNamLen) (hpending : Segment s.link next pending (-1))
    (hafter : ∀ q ∈ kept, ∀ p ∈ pending, q < p) (x : ℕ) :
    ∃ s', s.tryNextRound x = .ok s' ∧ KeptIn s' (pushBack kept x) ∧
      Segment s'.link next pending (-1) := by
  rcases h with ⟨rfl, hlast⟩ | ⟨front, last, rfl, hlast, hfront⟩
  · refine ⟨{ s with first := x, last := x }, if_pos (by rw [hlast]; decide), ?_, hpending⟩
    exact Or.inr ⟨[], x, rfl, rfl, rfl⟩
  have hlt : ∀ q ∈ front, q < last := fun q hq =>
    (List.pairwise_append.mp hsorted).2.2 q hq last (by simp)
  have hnotMem : last ∉ front := fun hmem => (hlt last hmem).false
  refine ⟨{ s with link := Function.update s.link last x, last := x }, ?_, Or.inr ?_, ?_⟩
  · have hset := set_of_lt (hbelow last (by simp)) s x
    rw [Links.tryNextRound, hlast, if_neg (Int.natCast_nonneg last).not_gt, Int.toNat_natCast, hset]
    rfl
  · by_cases heq : last = x
    · subst heq
      refine ⟨front, last, ?_, rfl, (segment_update hnotMem).mpr hfront⟩
      simp [pushBack]
    · refine ⟨front ++ [last], x, ?_, rfl, hfront.concat_update hnotMem⟩
      simp [pushBack, heq]
  · refine (segment_update ?_).mpr hpending
    intro hmem
    exact (hafter last (by simp) last hmem).false

lemma notMem_of_sorted {head : ℕ} (hsorted : pending.Pairwise (· < ·))
    (hhead : pending.head? ≠ some head) (hle : ∀ q ∈ pending, head ≤ q) : head ∉ pending := by
  intro hmem
  cases pending with
  | nil => cases hmem
  | cons q pending =>
    rcases List.mem_cons.mp hmem with rfl | hmem
    · exact hhead rfl
    · exact ((List.pairwise_cons.mp hsorted).1 head hmem).not_ge (hle q (by simp))

/-- The position after a star becomes pending, unless its link is past the array. -/
lemma KeptIn.tryThisRound (h : KeptIn s kept) (hle : ∀ q ∈ kept, q ≤ p) (hp : p < maxNamLen)
    (hpending : Segment s.link next pending (-1)) (hsorted : pending.Pairwise (· < ·))
    (hbelow : ∀ q ∈ pending, q < maxNamLen) (hafter : ∀ q ∈ pending, p < q) :
    p + 1 = maxNamLen ∧ s.tryThisRound p next = .error .outOfBounds ∨
      ∃ s' next', s.tryThisRound p next = .ok (s', next') ∧ KeptIn s' kept ∧
        Segment s'.link next' (pushFront (p + 1) pending) (-1) ∧
        ∀ q ∈ pushFront (p + 1) pending, q < maxNamLen := by
  by_cases hhead : pending.head? = some (p + 1)
  · refine Or.inr ⟨s, next, if_neg ?_, h, ?_, ?_⟩
    · rw [not_not, hpending.start_eq _ hhead]
      exact Nat.cast_succ p
    · rwa [pushFront, if_pos hhead]
    · rwa [pushFront, if_pos hhead]
  have hnext : next ≠ (p : ℤ) + 1 := by
    intro hnext
    cases pending with
    | nil => exact absurd (hnext.symm.trans hpending) (by omega)
    | cons q pending =>
      have hq : q = p + 1 := by exact_mod_cast hpending.1.symm.trans hnext
      exact hhead (by rw [hq]; rfl)
  have hstep : s.tryThisRound p next = s.set (p + 1) next >>= fun s => .ok (s, (p : ℤ) + 1) :=
    if_pos hnext
  rcases (Nat.succ_le_of_lt hp).lt_or_eq with hlt | heq
  · right
    refine ⟨_, _, by rw [hstep, set_of_lt hlt, ok_bind], ?_, ?_, ?_⟩
    · rcases h with ⟨hkept, hlast⟩ | ⟨front, last, rfl, hlast, hfront⟩
      · exact Or.inl ⟨hkept, hlast⟩
      · refine Or.inr ⟨front, last, rfl, hlast, (segment_update fun hmem => ?_).mpr hfront⟩
        exact (hle _ (List.mem_append_left _ hmem)).not_gt (Nat.lt_succ_self p)
    · rw [pushFront, if_neg hhead]
      refine ⟨(Nat.cast_succ p).symm, ?_⟩
      change Segment (Function.update s.link (p + 1) next)
        (Function.update s.link (p + 1) next (p + 1)) pending (-1)
      rw [Function.update_self, segment_update]
      · exact hpending
      · exact notMem_of_sorted hsorted hhead hafter
    · simp only [mem_pushFront, forall_eq_or_imp]
      exact ⟨hlt, hbelow⟩
  · left
    refine ⟨heq, ?_⟩
    rw [hstep, Links.set, if_neg heq.not_lt]
    rfl

/-- The links hold the round from one position to the next, unless a link past the array would be
written for a position that a star opens. -/
lemma RoundHolds.wildRound {pattern : Bytes} {t : UInt8} {here : ℤ}
    (h : RoundHolds s here ⟨p :: pending, kept⟩) (hp : p ≤ pattern.length) (ht : t ≠ 0) (fuel : ℕ) :
    wildRound pattern (toLower t) (fuel + 1) s here = .error .outOfBounds ∧
        p + 1 = maxNamLen ∧ wild.move t pattern[p]? = .stay ∨
      ∃ s' here', wildRound pattern (toLower t) (fuel + 1) s here
          = wildRound pattern (toLower t) fuel s' here' ∧
        RoundHolds s' here' (Round.advance (fun p => wild.move t pattern[p]?)
          ⟨p :: pending, kept⟩) := by
  obtain ⟨rfl, hpending⟩ := h.pending
  obtain ⟨hafter, hsorted⟩ := List.pairwise_cons.mp h.ordered.pending
  have hbelow : p < maxNamLen := h.below p (by simp)
  have hpendingBelow : ∀ q ∈ pending, q < maxNamLen := fun q hq =>
    h.below q (List.mem_cons_of_mem _ hq)
  have hle : ∀ q ∈ kept, q ≤ p := fun q hq => h.ordered.le q hq p (by simp)
  have hkeptBelow : ∀ q ∈ kept, q < maxNamLen := fun q hq => (hle q hq).trans_lt hbelow
  have hordered :
      (Round.advance (fun p => wild.move t pattern[p]?) ⟨p :: pending, kept⟩).IsOrdered :=
    h.ordered.advance
  rw [wildRound_here hp ht hbelow]
  simp only [Round.advance] at hordered ⊢
  cases hmove : wild.move t pattern[p]? with
  | stay =>
    rw [hmove] at hordered
    rcases h.kept.tryThisRound hle hbelow hpending hsorted hpendingBelow hafter with
      ⟨hmax, herror⟩ | ⟨s₁, next, hok, hkept, hsegment, hlt⟩
    · exact Or.inl ⟨by rw [herror, error_bind], hmax, rfl⟩
    · obtain ⟨s₂, hok₂, hkept₂, hsegment₂⟩ := hkept.tryNextRound h.ordered.kept hkeptBelow hsegment
        (fun q hq q' hq' => (hle q hq).trans_lt (by
          rcases mem_pushFront.mp hq' with rfl | hq'
          · exact Nat.lt_succ_self p
          · exact hafter q' hq')) p
      refine Or.inr ⟨s₂, next, ?_, hordered, hlt, hsegment₂, hkept₂⟩
      simp only [hok, hok₂, ok_bind]
  | next =>
    rw [hmove] at hordered
    obtain ⟨s₁, hok, hkept, hsegment⟩ := h.kept.tryNextRound h.ordered.kept hkeptBelow hpending
      (fun q hq q' hq' => (hle q hq).trans_lt (hafter q' hq')) (p + 1)
    rw [Nat.cast_succ] at hok
    refine Or.inr ⟨s₁, s.link p, ?_, hordered, hpendingBelow, hsegment, hkept⟩
    simp only [hok, ok_bind]
  | drop =>
    rw [hmove] at hordered
    exact Or.inr ⟨s, s.link p, rfl, hordered, hpendingBelow, hpending, h.kept⟩

/-! ### A round -/

/-- What a position of the pattern does with a target character. -/
def look (pattern : Bytes) (t : UInt8) (p : ℕ) : Move := wild.move t pattern[p]?

/-- The pattern as far as the array has links for it. -/
def linkedPart (pattern : Bytes) : Bytes := pattern.take maxNamLen

/-- A round that began at `start` behind the target `before` goes on as the pattern asks, and so
does one with the part of the pattern that has links. -/
structure RoundFollows (pattern before : Bytes) (t : UInt8) (start r : Round) : Prop where
  reached : r.IsReached wild pattern before t
  keptBelow : r.KeptBelow (look pattern t) maxNamLen
  accepts : ∀ rest, r.Accepts wild pattern t rest ↔ start.Accepts wild pattern t rest
  linked : ∀ rest, r.Accepts wild (linkedPart pattern) t rest
    ↔ start.Accepts wild (linkedPart pattern) t rest
  ends : maxNamLen ≤ pattern.length → (∃ p ∈ start.pending, wild.From (linkedPart pattern) p []) →
    ∃ p ∈ r.pending, wild.From (linkedPart pattern) p []

variable {pattern before : Bytes} {t : UInt8} {start r : Round} {here : ℤ} {fuel : ℕ}
  {front : List ℕ} {last : ℕ}

lemma RoundFollows.advance (h : RoundFollows pattern before t start r)
    (hbelow : ∀ p ∈ r.pending, p < maxNamLen) :
    RoundFollows pattern before t start (r.advance (look pattern t)) := by
  have hlook : ∀ p ∈ r.pending, look pattern t p = wild.move t pattern[p]? := fun _ _ => rfl
  have hlinked : ∀ p ∈ r.pending, look pattern t p = wild.move t (linkedPart pattern)[p]? := by
    intro p hp
    rw [linkedPart, List.getElem?_take_of_lt (hbelow p hp), look]
  refine ⟨h.reached.advance hlook, h.keptBelow.advance hbelow, fun rest => ?_, fun rest => ?_, ?_⟩
  · rw [Round.accepts_advance hlook, h.accepts]
  · rw [Round.accepts_advance hlinked, h.linked]
  · intro hlong hends
    refine Round.ends_advance (h.ends hlong hends) hlinked fun p hp => ?_
    rw [linkedPart, List.length_take, min_eq_left hlong]
    exact hbelow p hp

/-- A round with enough fuel ends, or opens a position that has no link. -/
lemma RoundFollows.wildRound (h : RoundFollows pattern before t start r) (hs : RoundHolds s here r)
    (ht : t ≠ 0)
    (hpos : 0 < fuel) (hfuel : ∀ p ∈ r.pending, maxNamLen < fuel + p) :
    wildRound pattern (toLower t) fuel s here = .error .outOfBounds ∧
        wild.Reached pattern maxNamLen before ∨
      ∃ s' kept, wildRound pattern (toLower t) fuel s here = .ok s' ∧ KeptIn s' kept ∧
        kept.Pairwise (· < ·) ∧ RoundFollows pattern before t start ⟨[], kept⟩ := by
  induction fuel generalizing s here r with
  | zero => exact absurd hpos (lt_irrefl 0)
  | succ fuel ih =>
    obtain ⟨_ | ⟨p, pending⟩, kept⟩ := r
    · obtain rfl : here = -1 := hs.pending
      exact Or.inr ⟨s, kept, wildRound_end .., hs.kept, hs.ordered.kept, h⟩
    have hp := h.reached.pending p (by simp)
    rcases hs.wildRound hp.1 ht fuel with ⟨herror, hmax, hstay⟩ | ⟨s', here', hstep, hs'⟩
    · exact Or.inl ⟨herror, hmax ▸ hp.stay_succ hstay⟩
    · rw [hstep]
      have hbelow : p < maxNamLen := hs.below p (by simp)
      have hp' : maxNamLen < fuel + 1 + p := hfuel p (by simp)
      refine ih (h.advance hs.below) hs' (by omega) fun q hq => ?_
      have hlt := hs.ordered.lt_of_mem_advance hq
      omega

/-! ### The whole target -/

/-- The pattern runs past the links: there are more characters than links, those that have links
match what the target begins with, and where the last of them is a star the target goes on. -/
def Overruns (pattern target : Bytes) : Prop :=
  maxNamLen ≤ pattern.length ∧ ∃ t t', target = t ++ t' ∧ wild.Matches (linkedPart pattern) t ∧
    (t' = [] → pattern[maxNamLen - 1]? ≠ some 42)

/-- Behind the target `before` the links hold the positions `front` and `last`. -/
structure LoopHolds (pattern before : Bytes) (s : Links) (front : List ℕ) (last : ℕ) : Prop where
  segment : Segment s.link s.first (front ++ [last]) (-1)
  last_eq : s.last = last
  sorted : (front ++ [last]).Pairwise (· < ·)
  below : ∀ p ∈ front ++ [last], p < maxNamLen
  reached : ∀ p ∈ front ++ [last], wild.Reached pattern p before
  accepts : ∀ rest, wild.Matches pattern (before ++ rest) ↔
    ∃ p ∈ front ++ [last], wild.From pattern p rest
  linked : ∀ rest, wild.Matches (linkedPart pattern) (before ++ rest) ↔
    ∃ p ∈ front ++ [last], wild.From (linkedPart pattern) p rest

/-- From `before` on the target never takes the pattern past its links. -/
def StaysLinked (pattern before target : Bytes) : Prop :=
  maxNamLen ≤ pattern.length → ∀ t t', target = t ++ t' →
    wild.Matches (linkedPart pattern) (before ++ t) → t' = [] ∧ pattern[maxNamLen - 1]? = some 42

lemma loopHolds_start (pattern : Bytes) (stack : ℕ → ℤ) :
    LoopHolds pattern [] ⟨Function.update stack 0 (-1), 0, 0⟩ [] 0 where
  segment := by simp
  last_eq := rfl
  sorted := List.pairwise_singleton _ _
  below := by simp
  reached := by simp [Reached]
  accepts := by simp [From]
  linked := by simp [From]

lemma LoopHolds.round (h : LoopHolds pattern before s front last) (t : UInt8) :
    RoundFollows pattern before t ⟨front ++ [last], []⟩ ⟨front ++ [last], []⟩ ∧
      RoundHolds { s with last := -1 } s.first ⟨front ++ [last], []⟩ := by
  refine ⟨⟨⟨h.reached, by simp⟩, by simp [Round.KeptBelow], fun _ => Iff.rfl, fun _ => Iff.rfl,
    fun _ => id⟩, ⟨h.sorted, List.Pairwise.nil, by simp⟩, h.below, h.segment, Or.inl ⟨rfl, rfl⟩⟩

lemma staysLinked_nil (h : LoopHolds pattern before s front last) :
    StaysLinked pattern before [] := by
  intro hlong t t' htarget hmatch
  obtain ⟨rfl, rfl⟩ := List.append_eq_nil_iff.mp htarget.symm
  refine ⟨rfl, ?_⟩
  obtain ⟨p, hp, hends⟩ := (h.linked []).mp hmatch
  have hlength : (linkedPart pattern).length = maxNamLen := by
    rw [linkedPart, List.length_take, min_eq_left hlong]
  have hlast := from_nil_mono hends (Nat.le_pred_of_lt (h.below p hp))
  obtain ⟨b, hb, hstar⟩ := move_eq_stay.mp
    (from_nil_of_lt hlast (by rw [hlength]; decide) 0).1
  rw [linkedPart, List.getElem?_take_of_lt (by decide)] at hb
  rw [Nat.pred_eq_sub_one] at hb
  rw [hb]
  simpa [wild] using hstar

/-- The target goes on by a character that a round has read. -/
lemma RoundFollows.staysLinked_cons
    (h : RoundFollows pattern before t ⟨front ++ [last], []⟩ ⟨[], kept⟩)
    (hloop : LoopHolds pattern before s front last) {target : Bytes}
    (hrest : StaysLinked pattern (before ++ [t]) target) :
    StaysLinked pattern before (t :: target) := by
  intro hlong u u' htarget hmatch
  cases u with
  | nil =>
    obtain ⟨p, hp, -⟩ := h.ends hlong ((hloop.linked []).mp hmatch)
    cases hp
  | cons t' u =>
    obtain ⟨rfl, rfl⟩ := List.cons.inj htarget
    exact hrest hlong u u' rfl (by simpa using hmatch)

/-- The rest of the target from the kept positions on. -/
lemma RoundFollows.kept_accepts
    (h : RoundFollows pattern before t ⟨front ++ [last], []⟩ ⟨[], kept⟩)
    (hloop : LoopHolds pattern before s front last) (rest : Bytes) :
    (wild.Matches pattern (before ++ [t] ++ rest) ↔ ∃ p ∈ kept, wild.From pattern p rest) ∧
      (wild.Matches (linkedPart pattern) (before ++ [t] ++ rest) ↔
        ∃ p ∈ kept, wild.From (linkedPart pattern) p rest) := by
  have happend : before ++ [t] ++ rest = before ++ t :: rest := by simp
  rw [happend, hloop.accepts, hloop.linked]
  have hkept : ∀ w' : Wildcard UInt8 UInt8, ∀ part,
      (Round.Accepts w' part t rest ⟨[], kept⟩ ↔ ∃ q ∈ kept, w'.From part q rest) ∧
        (Round.Accepts w' part t rest ⟨front ++ [last], []⟩ ↔
          ∃ p ∈ front ++ [last], w'.From part p (t :: rest)) := by
    simp [Round.Accepts]
  rw [← (hkept wild pattern).1, ← (hkept wild pattern).2, ← (hkept wild _).1, ← (hkept wild _).2]
  exact ⟨(h.accepts rest).symm, (h.linked rest).symm⟩

/-- What comes of the loop over the rest of the target. -/
def LoopOutcome (pattern before target : Bytes) : Except WildError (Option Links) → Prop
  | .ok (some s) => (∃ front last, LoopHolds pattern (before ++ target) s front last) ∧
      StaysLinked pattern before target
  | .ok none => ¬ wild.Matches pattern (before ++ target) ∧ StaysLinked pattern before target
  | .error .outOfBounds => Overruns pattern (before ++ target)
  | .error .outOfFuel => False

lemma RoundFollows.outcome_cons
    (h : RoundFollows pattern before t ⟨front ++ [last], []⟩ ⟨[], kept⟩)
    (hloop : LoopHolds pattern before s front last) {target : Bytes}
    {o : Except WildError (Option Links)} (ho : LoopOutcome pattern (before ++ [t]) target o) :
    LoopOutcome pattern before (t :: target) o := by
  have happend : before ++ t :: target = before ++ [t] ++ target := by simp
  match o with
  | .ok (some _) => exact ⟨happend ▸ ho.1, h.staysLinked_cons hloop ho.2⟩
  | .ok none => exact ⟨happend ▸ ho.1, h.staysLinked_cons hloop ho.2⟩
  | .error .outOfBounds =>
    rw [LoopOutcome, happend]
    exact ho
  | .error .outOfFuel => exact ho

/-- A position without a link that is reached before the target ends. -/
lemma overruns_of_reached (h : wild.Reached pattern maxNamLen before) {target : Bytes}
    (hmore : target = [] → pattern[maxNamLen - 1]? ≠ some 42) :
    Overruns pattern (before ++ target) := by
  obtain ⟨u, u', rfl, hu⟩ := h.exists_take
  refine ⟨h.1, u, u' ++ target, List.append_assoc .., hu, fun hnil => ?_⟩
  exact hmore (List.append_eq_nil_iff.mp hnil).2

lemma LoopHolds.wildLoop (h : LoopHolds pattern before s front last) {target : Bytes}
    (hnul : (0 : UInt8) ∉ target) (hfuel : maxNamLen < fuel) :
    LoopOutcome pattern before target (wildLoop pattern fuel target s) := by
  induction target generalizing before s front last with
  | nil => exact ⟨⟨front, last, by rwa [List.append_nil]⟩, staysLinked_nil h⟩
  | cons t target ih =>
    rw [List.mem_cons, not_or] at hnul
    obtain ⟨hfollows, hholds⟩ := h.round t
    rw [StationProcessor.wildLoop]
    rcases hfollows.wildRound hholds (Ne.symm hnul.1) (Nat.zero_lt_of_lt hfuel)
      (fun p _ => Nat.lt_add_right p hfuel) with
        ⟨herror, hreached⟩ | ⟨s', kept, hok, hkept, hsorted,
        hfollows'⟩
    · rw [herror, error_bind]
      exact overruns_of_reached hreached (by simp)
    rw [hok, ok_bind]
    have happend : before ++ t :: target = before ++ [t] ++ target := by simp
    rcases hkept with ⟨rfl, hlast⟩ | ⟨front', last', rfl, hlast, hsegment⟩
    · rw [if_pos hlast]
      have hnone : ∀ rest, ¬ wild.Matches pattern (before ++ [t] ++ rest) ∧
          ¬ wild.Matches (linkedPart pattern) (before ++ [t] ++ rest) := by
        intro rest
        rw [(hfollows'.kept_accepts h rest).1, (hfollows'.kept_accepts h rest).2]
        simp
      refine ⟨happend ▸ (hnone target).1, hfollows'.staysLinked_cons h ?_⟩
      exact fun _ u _ _ hmatch => absurd hmatch (hnone u).2
    have hlt : ∀ p ∈ front', p < last' := fun p hp =>
      (List.pairwise_append.mp hsorted).2.2 p hp last' (by simp)
    have hreached := hfollows'.reached.kept
    rw [hlast, if_neg (by omega), Int.toNat_natCast]
    rcases hfollows'.keptBelow last' (by simp) with hbelow | ⟨rfl, hnext⟩
    · rw [set_of_lt hbelow, ok_bind]
      have hloop : LoopHolds pattern (before ++ [t])
          { s' with link := Function.update s'.link last' (-1) } front' last' := by
        refine ⟨hsegment.concat_update fun hmem => (hlt last' hmem).false, hlast, hsorted, ?_,
          hreached, fun rest => (hfollows'.kept_accepts h rest).1,
          fun rest => (hfollows'.kept_accepts h rest).2⟩
        intro p hp
        rcases List.mem_append.mp hp with hp | hp
        · exact (hlt p hp).trans hbelow
        · rwa [List.mem_singleton.mp hp]
      exact hfollows'.outcome_cons h (ih hloop hnul.2)
    · have hset : s'.set maxNamLen (-1) = .error .outOfBounds := if_neg (lt_irrefl _)
      rw [hset, error_bind]
      change Overruns pattern (before ++ t :: target)
      rw [happend]
      refine overruns_of_reached (hreached maxNamLen (by simp)) fun _ hstar => ?_
      rw [look, hstar] at hnext
      cases hnext

/-! ### The result -/

lemma dropWhile_isEmpty_iff (part : Bytes) :
    (part.dropWhile (· == 42)).isEmpty = true ↔ wild.Matches part [] := by
  induction part with
  | nil => simp
  | cons c part ih =>
    rw [matches_cons_nil, ← ih]
    cases hstar : c == 42 with
    | true => simp [wild, hstar]
    | false => simp [wild, hstar]

/-- Every run with enough fuel ends: it gives the answer of the definition when the links are
enough, and leaves the array when they are not. -/
lemma wildMatch_spec (stack : ℕ → ℤ) (hfuel : maxNamLen < fuel) (pattern target : CString) :
    (∃ b, wildMatch stack fuel pattern target = .ok b ∧
      (b = true ↔ wild.Matches pattern.1 target.1))
        ∧ ¬ Overruns pattern.1 target.1 ∨
      wildMatch stack fuel pattern target = .error .outOfBounds ∧ Overruns pattern.1 target.1 := by
  have houtcome := (loopHolds_start pattern.1 stack).wildLoop target.2 hfuel
  have hlinked : StaysLinked pattern.1 [] target.1 → ¬ Overruns pattern.1 target.1 := by
    rintro hstays ⟨hlong, t, t', htarget, hmatch, hmore⟩
    obtain ⟨hnil, hstar⟩ := hstays hlong t t' htarget hmatch
    exact hmore hnil hstar
  rw [wildMatch]
  match hrun : wildLoop pattern.1 fuel target.1 ⟨Function.update stack 0 (-1), 0, 0⟩, houtcome with
  | .ok (some s), houtcome =>
    obtain ⟨⟨front, last, hloop⟩, hstays⟩ := houtcome
    refine Or.inl ⟨⟨_, rfl, ?_⟩, hlinked hstays⟩
    have haccepts := hloop.accepts []
    rw [List.nil_append, List.append_nil] at haccepts
    rw [dropWhile_isEmpty_iff, hloop.last_eq, Int.toNat_natCast, haccepts]
    constructor
    · exact fun hlast => ⟨last, by simp, hlast⟩
    · rintro ⟨p, hp, hends⟩
      refine from_nil_mono hends ?_
      rcases List.mem_append.mp hp with hp | hp
      · exact ((List.pairwise_append.mp hloop.sorted).2.2 p hp last (by simp)).le
      · exact (List.mem_singleton.mp hp).le
  | .ok none, houtcome =>
    exact Or.inl ⟨⟨false, rfl, by simpa using houtcome.1⟩, hlinked houtcome.2⟩
  | .error .outOfBounds, houtcome => exact Or.inr ⟨rfl, houtcome⟩
  | .error .outOfFuel, houtcome => exact houtcome.elim

/-- The answer is that of the definition exactly when the pattern does not run past the links. -/
theorem wildMatch_iff (stack : ℕ → ℤ) (fuel : ℕ) (hfuel : maxNamLen < fuel)
    (pattern target : CString) :
    (∃ b, wildMatch stack fuel pattern target = .ok b ∧
      (b = true ↔ wild.Matches pattern.1 target.1)) ↔ ¬ Overruns pattern.1 target.1 := by
  rcases wildMatch_spec stack hfuel pattern target with ⟨hanswer, hfits⟩ | ⟨herror, hover⟩
  · exact ⟨fun _ => hfits, fun _ => hanswer⟩
  · constructor
    · rintro ⟨b, hb, -⟩
      rw [herror] at hb
      cases hb
    · exact fun hfits => absurd hover hfits

theorem wildMatch_iff_star : (∃ b, wildMatch (fun _ => 0) 1026 ⟨ascii "B*", by decide⟩
    ⟨ascii "BHZ", by decide⟩ = .ok b ∧ (b = true ↔ wild.Matches (ascii "B*") (ascii "BHZ"))) ↔
    ¬ Overruns (ascii "B*") (ascii "BHZ") :=
  wildMatch_iff (fun _ => 0) 1026 (by decide) ⟨ascii "B*", by decide⟩ ⟨ascii "BHZ", by decide⟩

/-- A pattern with a link for every character is enough. -/
lemma wildMatch_of_short (stack : ℕ → ℤ) (hfuel : maxNamLen < fuel) {pattern : CString}
    (hshort : pattern.1.length < maxNamLen) (target : CString) :
    ∃ b, wildMatch stack fuel pattern target = .ok b ∧
      (b = true ↔ wild.Matches pattern.1 target.1) := by
  rcases wildMatch_spec stack hfuel pattern target with ⟨hanswer, -⟩ | ⟨-, hover⟩
  · exact hanswer
  · exact absurd hover.1 hshort.not_ge

lemma wildMatch_eq_check (stack : ℕ → ℤ) {pattern : CString}
    (hshort : pattern.1.length < maxNamLen) (target : CString) :
    wildMatch stack (maxNamLen + 1) pattern target = .ok (wild.check pattern.1 target.1) := by
  obtain ⟨b, hb, hmatch⟩ := wildMatch_of_short stack (Nat.lt_succ_self maxNamLen) hshort target
  rw [hb, Bool.eq_iff_iff.mpr (hmatch.trans check_iff.symm)]

/-- A text of one character over and over. -/
def repeated (n : ℕ) (c : UInt8) (hc : c ≠ 0) : CString :=
  ⟨List.replicate n c, fun h => hc (List.eq_of_mem_replicate h).symm⟩

lemma matches_repeated (n : ℕ) (c : UInt8) :
    wild.Matches (List.replicate n 63) (List.replicate n c) := by
  induction n with
  | zero => exact matches_nil.mpr rfl
  | succ n ih => exact (matches_cons_cons rfl).mpr ⟨rfl, ih⟩

/-- 1025 question marks, which match every text of 1025 characters, write behind the array. -/
theorem wildMatch_not_question_marks :
    ¬ ∃ b, wildMatch (fun _ => 0) 1026 (repeated 1025 63 (by decide)) (repeated 1025 65 (by decide))
        = .ok b ∧
      (b = true ↔ wild.Matches (repeated 1025 63 (by decide)).1
        (repeated 1025 65 (by decide)).1) := by
  have hover : Overruns (repeated 1025 63 (by decide)).1 (repeated 1025 65 (by decide)).1 := by
    refine ⟨(List.length_replicate).ge, _, [], (List.append_nil _).symm, ?_, fun _ => ?_⟩
    · rw [linkedPart, repeated, List.take_of_length_le (List.length_replicate).le]
      exact matches_repeated 1025 65
    · rw [repeated, List.getElem?_replicate_of_lt (by decide)]
      decide
  rintro ⟨b, hb, -⟩
  rcases wildMatch_spec (fun _ => 0) (by decide : maxNamLen < 1026) (repeated 1025 63 (by decide))
    (repeated 1025 65 (by decide)) with ⟨-, hfits⟩ | ⟨herror, -⟩
  · exact hfits hover
  · rw [herror] at hb
    cases hb

end StationProcessor
