import Mathlib.Data.Prod.Lex
import StationProcessor.SeedHeader
import StationProcessor.Lib.AdjacentSwaps
import StationProcessor.Lib.Fallible
import StationProcessor.Lib.LinkedList

/-!
# The list of stations

`falconweb` keeps its stations in a list that is linked through `nextstation`, and sorts it in
place before it writes the page: a scan swaps the first two neighbours in the wrong order by
relinking them, and starts again.
-/

namespace StationProcessor

namespace Web

open Fallible LinkedList AdjacentSwaps

/-! ### The sort -/

/-- `strcmp`: the difference of the first characters that differ. -/
def strcmp : Bytes → Bytes → ℤ
  | [], [] => 0
  | [], b :: _ => -b.toNat
  | a :: _, [] => a.toNat
  | a :: as, b :: bs => if a = b then strcmp as bs else a.toNat - b.toNat

/-- The fields of `struct s_alarm` that the sort reads. -/
structure Station where
  station : CString
  level : UInt8

/-- `NULL` -/
def null : ℤ := 0

/-- The pointers the sort changes: `nextstation` of each address, and `stationlist`. -/
structure StationLinks where
  nextstation : ℕ → ℤ
  stationlist : ℤ

inductive SortError
  | outOfFuel
  | nullPointer
deriving DecidableEq

/-- The test whether two neighbours need to be switched. -/
def Switched (a b : Station) : Prop :=
  a.level < b.level ∨ a.level = b.level ∧ strcmp a.station b.station > 0

instance (a b : Station) : Decidable (Switched a b) := inferInstanceAs (Decidable (_ ∨ _))

/-- What the `if` does: the neighbours `alarmptr` and `ptr` change places. -/
def switchStations (s : StationLinks) (previous : ℤ) (alarm : ℕ) :
    Except SortError StationLinks :=
  let ptr := (s.nextstation alarm).toNat
  let next := Function.update s.nextstation alarm (s.nextstation ptr)
  let next := Function.update next ptr alarm
  if (alarm : ℤ) = s.stationlist then .ok ⟨next, ptr⟩
  else if previous = null then .error .nullPointer
  else .ok ⟨Function.update next previous.toNat ptr, s.stationlist⟩

/-- The `for` loop: `sorted` after it, and the pointers. -/
def scanStations (node : ℕ → Station) (s : StationLinks) :
    ℕ → (previous alarmptr : ℤ) → Except SortError (Bool × StationLinks)
  | 0, _, _ => .error .outOfFuel
  | fuel + 1, previous, alarmptr =>
    if alarmptr = null then .ok (true, s)
    else
      let next := s.nextstation alarmptr.toNat
      if next ≠ null ∧ Switched (node alarmptr.toNat) (node next.toNat) then
        (switchStations s previous alarmptr.toNat).bind fun s => .ok (false, s)
      else scanStations node s fuel alarmptr next

/-- The `while` loop around it. -/
def sortStations (node : ℕ → Station) : ℕ → StationLinks → Except SortError StationLinks
  | 0, _ => .error .outOfFuel
  | fuel + 1, s =>
    (scanStations node s (fuel + 1) null s.stationlist).bind fun (sorted, s) =>
      if sorted then .ok s else sortStations node fuel s

/-! ### The order of the stations -/

/-- The name of a station as the numbers of its characters. -/
def Station.name (a : Station) : List ℕ := a.station.1.map UInt8.toNat

/-- The key of a station: a higher level stands before a lower one, then the names decide. -/
def Station.key (a : Station) : ℕᵒᵈ ×ₗ List ℕ := toLex (OrderDual.toDual a.level.toNat, a.name)

/-- The higher level first, and within one level the smaller name. -/
def Station.Before (a b : Station) : Prop :=
  b.level < a.level ∨ a.level = b.level ∧ a.name ≤ b.name

lemma strcmp_pos_iff {a b : Bytes} (ha : 0 ∉ a) :
    strcmp a b > 0 ↔ b.map UInt8.toNat < a.map UInt8.toNat := by
  induction a generalizing b with
  | nil =>
    cases b with
    | nil => simp [strcmp]
    | cons b bs => simp [strcmp]
  | cons a as ih =>
    rw [List.mem_cons, not_or] at ha
    have hpos : 0 < a.toNat := by
      refine Nat.pos_of_ne_zero fun h => ha.1 ?_
      rw [← UInt8.toNat_inj, h]
      rfl
    cases b with
    | nil => simpa [strcmp] using hpos
    | cons b bs =>
      simp only [strcmp, List.map_cons, List.cons_lt_cons_iff]
      by_cases heq : a = b
      · simp [heq, ih ha.2]
      · have hne : b.toNat ≠ a.toNat := fun h => heq (UInt8.toNat_inj.mp h).symm
        simp [heq, hne]

lemma switched_iff (a b : Station) : Switched a b ↔ b.key < a.key := by
  rw [Switched, Station.key, Station.key, Prod.Lex.toLex_lt_toLex, strcmp_pos_iff a.station.2,
    OrderDual.toDual_lt_toDual, OrderDual.toDual_inj, UInt8.lt_iff_toNat_lt, UInt8.toNat_inj,
    eq_comm (a := b.level)]
  rfl

lemma before_iff (a b : Station) : a.Before b ↔ a.key ≤ b.key := by
  rw [Station.Before, Station.key, Station.key, Prod.Lex.toLex_le_toLex,
    OrderDual.toDual_lt_toDual, OrderDual.toDual_inj, UInt8.lt_iff_toNat_lt, UInt8.toNat_inj]

/-! ### One switch -/

/-- The stations of the list, in its order. -/
structure StationLinks.Lists (s : StationLinks) (cells : List ℕ) : Prop where
  linked : Segment s.nextstation s.stationlist cells null
  nonnull : 0 ∉ cells

namespace StationLinks.Lists

variable {s : StationLinks} {cells front rest : List ℕ} {a b : ℕ}

lemma null_ne (h : s.Lists cells) : ∀ c ∈ cells, null ≠ c := by
  intro c hc heq
  exact h.nonnull (Int.ofNat_eq_zero.mp heq.symm ▸ hc)

/-- The list has no cycle. -/
lemma nodup (h : s.Lists cells) : cells.Nodup := h.linked.nodup h.null_ne

/-- Two neighbours change places, and no other station is touched. -/
lemma switchStations (h : s.Lists (front ++ a :: b :: rest)) {previous : ℤ}
    (hprevious : ∀ p ∈ front.getLast?, previous = p) :
    ∃ s', Web.switchStations s previous a = .ok s' ∧ s'.Lists (front ++ b :: a :: rest) ∧
      ∀ c ∉ front ++ a :: b :: rest, s'.nextstation c = s.nextstation c := by
  have hperm : (front ++ b :: a :: rest).Perm (front ++ a :: b :: rest) :=
    (List.Perm.swap a b rest).append_left front
  have hnonnull : 0 ∉ front ++ b :: a :: rest := fun h0 => h.nonnull (hperm.mem_iff.mp h0)
  obtain ⟨mid, hfront, hmid⟩ := segment_append.mp h.linked
  obtain rfl : mid = a := hmid.1
  obtain ⟨-, hpair, hdisjoint⟩ := List.nodup_append'.mp h.nodup
  have hnext : s.nextstation a = b := hmid.2.1
  have hswapped := hmid.swapLinks hpair
  have hother : ∀ c ∉ front ++ a :: b :: rest,
      swapLinks s.nextstation a b c = s.nextstation c := by
    intro c hc
    simp only [List.mem_append, List.mem_cons, not_or] at hc
    rw [swapLinks, Function.update_of_ne hc.2.2.1, Function.update_of_ne hc.2.1]
  have hlinks : Function.update (Function.update s.nextstation a (s.nextstation b)) b (a : ℤ)
      = swapLinks s.nextstation a b := rfl
  simp only [Web.switchStations, hnext, Int.toNat_natCast, hlinks]
  rcases List.eq_nil_or_concat' front with rfl | ⟨front, p, rfl⟩
  · have hhead : (a : ℤ) = s.stationlist := hfront.symm
    exact ⟨_, if_pos hhead, ⟨hswapped, hnonnull⟩, hother⟩
  · -- the head of the list stands in front of the two
    have hhead : (a : ℤ) ≠ s.stationlist := by
      intro heq
      cases hcells : front ++ [p] with
      | nil => simp at hcells
      | cons c cells =>
        rw [hcells] at hfront hdisjoint
        obtain rfl : a = c := Int.ofNat_inj.mp (heq.trans hfront.1)
        exact hdisjoint List.mem_cons_self List.mem_cons_self
    obtain rfl : previous = p := hprevious p (by simp)
    have hp : (p : ℤ) ≠ null := (h.null_ne p (by simp)).symm
    have hnot : ∀ c ∈ a :: b :: rest, c ∉ front ++ [p] := fun c hc hc' => hdisjoint hc' hc
    have hab := And.intro (hnot a (by simp)) (hnot b (by simp))
    rw [if_neg hhead, if_neg hp]
    refine ⟨_, rfl, ⟨segment_append.mpr ⟨b, ?_, ?_⟩, hnonnull⟩, ?_⟩
    · have hto := (segment_concat.mp hfront).1
      simp only [List.mem_append, not_or] at hab
      refine ((segment_swapLinks hab.1.1 hab.2.1).mpr hto).concat_update ?_
      have hfrontnodup := (List.nodup_append'.mp h.nodup).1
      exact fun hmem => (List.nodup_append'.mp hfrontnodup).2.2 hmem List.mem_cons_self
    · refine (segment_update ?_).mpr hswapped
      exact fun hmem => hnot p ((List.Perm.swap a b rest).mem_iff.mp hmem) (by simp)
    · intro c hc
      have hcp : c ≠ p := by
        rintro rfl
        exact hc (by simp)
      simp only [Int.toNat_natCast, Function.update_of_ne hcp]
      exact hother c hc

end StationLinks.Lists

/-! ### A scan and the whole sort -/

/-- No neighbours of the list are in the wrong order. -/
def InOrder (node : ℕ → Station) (cells : List ℕ) : Prop :=
  cells.IsChain fun a b => (node a).key ≤ (node b).key

/-- What a scan does: it finds the list in order, or two neighbours in the wrong order change
places. -/
inductive Scanned (node : ℕ → Station) (s : StationLinks) (cells : List ℕ) :
    Bool → StationLinks → Prop
  | sorted (h : InOrder node cells) : Scanned node s cells true s
  | switched {front rest : List ℕ} {a b : ℕ} {s' : StationLinks}
      (split : cells = front ++ a :: b :: rest) (wrong : (node b).key < (node a).key)
      (lists : s'.Lists (front ++ b :: a :: rest))
      (frame : ∀ c ∉ cells, s'.nextstation c = s.nextstation c) : Scanned node s cells false s'

namespace StationLinks.Lists

variable {node : ℕ → Station} {s : StationLinks} {cells front rest : List ℕ}

/-- The scan from a station on, when it found everything in order up to there. -/
lemma scanFrom (h : s.Lists (front ++ rest)) {previous alarmptr : ℤ}
    (hprevious : ∀ p ∈ front.getLast?, previous = p)
    (hrest : Segment s.nextstation alarmptr rest null)
    (horder : InOrder node (front ++ rest.head?.toList)) :
    ∃ sorted s', Scanned node s (front ++ rest) sorted s' ∧ ∀ fuel, rest.length < fuel →
      scanStations node s fuel previous alarmptr = .ok (sorted, s') := by
  induction rest generalizing front previous alarmptr with
  | nil =>
    refine ⟨true, s, .sorted (by simpa using horder), ?_⟩
    intro fuel hfuel
    obtain ⟨fuel, rfl⟩ := Nat.exists_eq_succ_of_ne_zero (Nat.ne_zero_of_lt hfuel)
    exact if_pos hrest
  | cons a rest ih =>
    obtain ⟨rfl, htail⟩ := hrest
    have ha : (a : ℤ) ≠ null := (h.null_ne a (by simp)).symm
    have hsplit : front ++ a :: rest = (front ++ [a]) ++ rest := by simp
    by_cases hswitch : s.nextstation a ≠ null ∧
        Switched (node a) (node (s.nextstation a).toNat)
    · -- there is a next station, and the two change places
      cases rest with
      | nil => exact absurd htail hswitch.1
      | cons b rest =>
        obtain ⟨s', hs', hlists, hframe⟩ := h.switchStations hprevious
        have hb : (s.nextstation a).toNat = b := by rw [htail.1, Int.toNat_natCast]
        refine ⟨false, s', .switched rfl ?_ hlists hframe, ?_⟩
        · rw [hb] at hswitch
          exact (switched_iff _ _).mp hswitch.2
        · intro fuel hfuel
          obtain ⟨fuel, rfl⟩ := Nat.exists_eq_succ_of_ne_zero (Nat.ne_zero_of_lt hfuel)
          simp only [scanStations, if_neg ha, Int.toNat_natCast, if_pos hswitch, hs', bind_ok]
    · have horder' : InOrder node ((front ++ [a]) ++ rest.head?.toList) := by
        cases rest with
        | nil => simpa using horder
        | cons b rest =>
          have hb : s.nextstation a = b := htail.1
          have hnull : (b : ℤ) ≠ null := (h.null_ne b (by simp)).symm
          rw [hb, Int.toNat_natCast, switched_iff, not_and, not_lt] at hswitch
          refine List.isChain_append.mpr ⟨horder, by simp, ?_⟩
          intro x hx y hy
          obtain rfl : a = x := by simpa using hx
          obtain rfl : b = y := by simpa using hy
          exact hswitch hnull
      rw [hsplit] at h ⊢
      have hlast : ∀ p ∈ (front ++ [a]).getLast?, (a : ℤ) = p := by simp
      obtain ⟨sorted, s', hscanned, hrun⟩ := ih h hlast htail horder'
      refine ⟨sorted, s', hscanned, ?_⟩
      intro fuel hfuel
      obtain ⟨fuel, rfl⟩ := Nat.exists_eq_succ_of_ne_zero (Nat.ne_zero_of_lt hfuel)
      simp only [scanStations, if_neg ha, Int.toNat_natCast, if_neg hswitch]
      exact hrun fuel (Nat.lt_of_succ_lt_succ hfuel)

lemma scan (h : s.Lists cells) (node : ℕ → Station) :
    ∃ sorted s', Scanned node s cells sorted s' ∧ ∀ fuel, cells.length < fuel →
      scanStations node s fuel null s.stationlist = .ok (sorted, s') := by
  refine @scanFrom node s [] cells h null s.stationlist (by simp) h.linked ?_
  cases cells with
  | nil => exact List.isChain_nil
  | cons a cells => exact List.isChain_singleton _

/-- The sort ends after as many scans as there are inversions, and one more. -/
lemma sort (h : s.Lists cells) (node : ℕ → Station) :
    ∃ s' cells', s'.Lists cells' ∧ cells'.Perm cells ∧ InOrder node cells' ∧
      (∀ c ∉ cells, s'.nextstation c = s.nextstation c) ∧
      ∀ fuel, inversions (fun a => (node a).key) cells + cells.length < fuel →
        sortStations node fuel s = .ok s' := by
  induction hn : inversions (fun a => (node a).key) cells using Nat.strong_induction_on
    generalizing s cells with
  | _ n ih =>
    obtain ⟨sorted, s', hscanned, hscan⟩ := h.scan node
    cases hscanned with
    | sorted horder =>
      refine ⟨s, cells, h, .refl cells, horder, fun _ _ => rfl, ?_⟩
      intro fuel hfuel
      obtain ⟨fuel, rfl⟩ := Nat.exists_eq_succ_of_ne_zero (Nat.ne_zero_of_lt hfuel)
      have hlength : cells.length < fuel + 1 := (Nat.le_add_left _ _).trans_lt hfuel
      simp only [sortStations, hscan (fuel + 1) hlength, bind_ok, if_true]
    | @switched front rest a b s' split wrong lists frame =>
      subst split
      have hless : inversions (fun a => (node a).key) (front ++ b :: a :: rest) + 1
          = inversions (fun a => (node a).key) (front ++ a :: b :: rest) :=
        inversions_swap front rest wrong
      have hperm : (front ++ b :: a :: rest).Perm (front ++ a :: b :: rest) :=
        (List.Perm.swap a b rest).append_left front
      obtain ⟨t, cells', hlists, hperm', horder, hframe, hsort⟩ := ih _ (by omega) lists rfl
      refine ⟨t, cells', hlists, hperm'.trans hperm, horder, ?_, ?_⟩
      · intro c hc
        rw [hframe c fun hmem => hc (hperm.mem_iff.mp hmem), frame c hc]
      · intro fuel hfuel
        obtain ⟨fuel, rfl⟩ := Nat.exists_eq_succ_of_ne_zero (Nat.ne_zero_of_lt hfuel)
        have hlength := hperm.length_eq
        simp only [sortStations, hscan (fuel + 1) (by omega), bind_ok, Bool.false_eq_true, if_false]
        exact hsort fuel (by omega)

end StationLinks.Lists

/-- The sort comes to an end on every list, and leaves a list of the same stations in which each
stands once, those of a higher level first and within a level by name; no pointer outside of the
list is changed. -/
theorem sortStations_sorts (node : ℕ → Station) {s : StationLinks} {cells : List ℕ}
    (h : s.Lists cells) :
    ∃ s' cells', (∃ bound, ∀ fuel, bound < fuel → sortStations node fuel s = .ok s') ∧
      s'.Lists cells' ∧ cells'.Perm cells ∧ cells'.Nodup ∧
      cells'.Pairwise (fun a b => (node a).Before (node b)) ∧
      ∀ c ∉ cells, s'.nextstation c = s.nextstation c := by
  obtain ⟨s', cells', hlists, hperm, horder, hframe, hsort⟩ := h.sort node
  refine ⟨s', cells', ⟨_, hsort⟩, hlists, hperm, hlists.nodup, ?_, hframe⟩
  exact (pairwise_of_isChain horder).imp fun {a b} hab => (before_iff (node a) (node b)).mpr hab

/-- Two stations of one level. -/
def twoStations (address : ℕ) : Station :=
  if address = 1 then ⟨⟨ascii "SJG", by decide⟩, 3⟩ else ⟨⟨ascii "HKT", by decide⟩, 3⟩

/-- The station at 1 stands in front of that at 2. -/
def twoLinks : StationLinks := ⟨fun address => if address = 1 then 2 else null, 1⟩

theorem sortStations_sorts_two :
    ∃ s' cells', (∃ bound, ∀ fuel, bound < fuel → sortStations twoStations fuel twoLinks = .ok s') ∧
      s'.Lists cells' ∧ cells'.Perm [1, 2] ∧ cells'.Nodup ∧
      cells'.Pairwise (fun a b => (twoStations a).Before (twoStations b)) ∧
      ∀ c ∉ [1, 2], s'.nextstation c = twoLinks.nextstation c :=
  sortStations_sorts twoStations ⟨by simp [twoLinks, null], by decide⟩

/-- They change places. -/
example : (sortStations twoStations 5 twoLinks).toOption.map
    (fun s => (s.stationlist, s.nextstation 2, s.nextstation 1)) = some (2, 1, null) := by decide

end Web

end StationProcessor
