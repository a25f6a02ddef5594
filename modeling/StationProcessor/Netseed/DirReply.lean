import StationProcessor.Netseed.ChannelFiles

/-!
# Replies to directory requests

When `cmd_DIRREQ` lists the channels that a request asks for, with the start of the first and the
end of the last record of its interval. Without a location the pattern for the channel is not set;
a date can be taken for the day after; and an end is rounded up to a second 60.
-/

namespace StationProcessor.Netseed

open Gregorian Wildcard

variable {n : ℕ}

/-! ### What a request asks for -/

/-- The whole second in which a moment is. -/
structure StartSecond (t : CalTime) (p : ℤ) : Prop where
  valid : t.Valid
  le : t.place ≤ p
  lt : p < t.place + 10000

/-- The first whole second that is not before a moment. -/
structure EndSecond (t : CalTime) (p : ℤ) : Prop where
  valid : t.Valid
  lt : t.place - 10000 < p
  le : p ≤ t.place

/-- The line of a channel with these records. -/
structure ChanInfo.Describes (info : ChanInfo) (b : ChannelBuffer n) (hits : List ℕ) : Prop where
  location : info.location = b.location
  channel : info.channel = b.channel
  start : StartSecond info.start (headerStart (b.record (hits.headD 0))).place
  finish : EndSecond info.finish ((headerStart (b.record (hits.getLastD 0))).place
    + recordSpan (b.record (hits.getLastD 0)))
  count : info.count = hits.length

/-- A location matches a pattern, and is blank where there is none. -/
def LocationMatches : Option Bytes → Bytes → Prop
  | none, location => location = ascii "  "
  | some loc, location => wild.Matches loc location

instance : (pattern : Option Bytes) → (location : Bytes) →
    Decidable (LocationMatches pattern location)
  | none, _ => inferInstanceAs (Decidable (_ = _))
  | some loc, _ => inferInstanceAs (Decidable (wild.Matches loc _))

namespace DirRequest

variable (r : DirRequest)

/-- The location and the channel match the pattern. -/
def Names (b : ChannelBuffer n) : Prop :=
  LocationMatches r.location b.location ∧ wild.Matches r.channel b.channel

instance (b : ChannelBuffer n) : Decidable (r.Names b) := inferInstanceAs (Decidable (_ ∧ _))

/-- The records of the interval. -/
def asked (b : ChannelBuffer n) : List ℕ := b.hits r.askedStart r.askedFinish

/-- The records of the interval that is searched. -/
def searched (b : ChannelBuffer n) : List ℕ := b.hits r.searchedStart r.searchedFinish

/-- The channels to list. -/
def expected (dir : ChannelDirectory n) : List (ChannelBuffer n) :=
  dir.buffers.filter fun b => r.Names b ∧ r.asked b ≠ []

/-- Each channel to list has its line, and there are no others. -/
def ListsRight (dir : ChannelDirectory n) (chaninfo : List ChanInfo) : Prop :=
  List.Forall₂ (fun b info => ChanInfo.Describes info b (r.asked b)) (r.expected dir) chaninfo

end DirRequest

/-- The span of a record fits an `int`, and its end is not rounded up to a second 60. -/
def EndFits (r : Bytes) : Prop :=
  recordSpan r < 2 ^ 31 ∧ ((headerStart r).place + recordSpan r) % 600000 ≤ 590000

/-- Whether a directory is listed right: with a location in the request, where the late dates
change nothing for the channels that match, and the last of their records fit; without, where
no channel with a blank location has a record to list or to leave out. -/
def DirRequest.RightFor (r : DirRequest) (dir : ChannelDirectory n) : Prop :=
  match r.location with
  | none => ∀ b ∈ dir.buffers, b.location = ascii "  " →
      r.searched b = [] ∧ (r.Names b → r.asked b = [])
  | some _ => ∀ b ∈ dir.buffers, r.Names b →
      r.searched b = r.asked b ∧ ∀ i ∈ (r.asked b).getLast?, EndFits (b.record i)

/-! ### Times of a line -/

variable {t : StdTime2}

lemma place_fraction (ht : t.Valid) : t.place % 10000 = t.tenthMsec ∧
    t.place % 600000 = t.second * 10000 + t.tenthMsec := by
  have hsecond := ht.second
  have htenth := ht.tenth
  simp only [StdTime2.place, StdTime2.timeOfDay]
  omega

/-- The date of a valid time, and its time of day to the second. -/
lemma exists_calTime (ht : t.Valid) (hfirst : 1901 ≤ t.year)
    (hlast : t.place < yearPlace 2100 + 59 * 864000000) :
    ∃ m e, IsMonthDay t.year m e ∧ dayOfYear t.year m e = t.day ∧ ∀ second tenthMsec,
      calTime { t with second, tenthMsec } = ⟨t.year, m, e, t.hour, t.minute, second⟩ := by
  obtain ⟨m, e, hdate, hday, hcal⟩ := ht.exists_date hfirst hlast
  refine ⟨m, e, hdate, hday, fun second tenthMsec => ?_⟩
  simp only [calTime, hcal]

/-- The start that is printed. -/
lemma startSecond_calTime (ht : t.Valid) (hfirst : 1901 ≤ t.year)
    (hlast : t.place < yearPlace 2100 + 59 * 864000000) : StartSecond (calTime t) t.place := by
  obtain ⟨m, e, hdate, hday, hcal⟩ := exists_calTime ht hfirst hlast
  have htenth := ht.tenth
  have hplace : (calTime t).place = t.place - t.tenthMsec := by
    rw [hcal t.second t.tenthMsec]
    simp only [CalTime.place, StdTime2.place, StdTime2.timeOfDay, hday]
    ring
  refine ⟨?_, by linarith, by linarith⟩
  rw [hcal t.second t.tenthMsec]
  exact ⟨hdate, ht.hour, ht.minute, ht.second⟩

/-- The end that is printed is less than a second late, and valid with a second below 60. -/
lemma calTime_roundedUp (ht : t.Valid) (hfirst : 1901 ≤ t.year)
    (hlast : t.place < yearPlace 2100 + 59 * 864000000) :
    t.place ≤ (calTime (roundedUp t)).place ∧ (calTime (roundedUp t)).place < t.place + 10000 ∧
      ((calTime (roundedUp t)).Valid ↔ t.place % 600000 ≤ 590000) := by
  obtain ⟨m, e, hdate, hday, hcal⟩ := exists_calTime ht hfirst hlast
  have htenth := ht.tenth
  have hsecond := ht.second
  have hrest := (place_fraction ht).2
  have hplace : ∀ second, CalTime.place ⟨t.year, m, e, t.hour, t.minute, second⟩
      = t.place - t.tenthMsec + (second - t.second) * 10000 := by
    intro second
    simp only [CalTime.place, StdTime2.place, StdTime2.timeOfDay, hday]
    ring
  have hvalid : ∀ second, CalTime.Valid ⟨t.year, m, e, t.hour, t.minute, second⟩ ↔
      0 ≤ second ∧ second < 60 :=
    fun second => ⟨fun h => h.second, fun h => ⟨hdate, ht.hour, ht.minute, h⟩⟩
  unfold roundedUp
  by_cases hfraction : t.tenthMsec > 0
  · rw [if_pos hfraction, hcal, hplace, hvalid, hrest]
    refine ⟨by linarith, by linarith, ?_⟩
    omega
  · rw [if_neg hfraction, hcal t.second t.tenthMsec, hplace, hvalid, hrest]
    refine ⟨by linarith, by linarith, ?_⟩
    omega

/-- The end of a record is right in a line exactly where it fits. -/
lemma endSecond_iff {plat : Platform}
    (hhuge : ∀ x, -2 ^ 31 ≤ plat.intOfHuge x ∧ plat.intOfHuge x < 0) {r : Bytes}
    (hv : (headerStart r).Valid) (hyear : 1950 ≤ (headerStart r).year ∧
      (headerStart r).year ≤ 2099) :
    EndSecond (calTime (roundedUp (endOfSpan (headerStart r) (spanTenthMsec plat (ntohsAt r 30)
      (sampleRateFactor r) (sampleRateMultiplier r))))) ((headerStart r).place + recordSpan r) ↔
      EndFits r := by
  have hcentury : (headerStart r).InCentury := ⟨by linarith, hyear.2⟩
  have hnonneg : 0 ≤ recordSpan r := exactSpan_nonneg (ntohsAt_nonneg r 30) _ _
  have hlow := (hv.year_lt_iff 1950).not.mp (not_lt.mpr hyear.1)
  have hhigh := (hv.year_lt_iff 2100).mp (by linarith)
  have hspan : spanTenthMsec plat (ntohsAt r 30) (sampleRateFactor r) (sampleRateMultiplier r)
      = if recordSpan r < 2 ^ 31 then recordSpan r else plat.intOfHuge (recordSpan r) :=
    spanTenthMsec_eq plat (ntohsAt_nonneg r 30) _ _
  have hyears : yearPlace 1901 + 2 ^ 31 ≤ yearPlace 1950 := by decide
  rw [hspan]
  have hcases : ∀ span : ℤ, -2 ^ 31 ≤ span → span < 2 ^ 31 →
      (endOfSpan (headerStart r) span).Valid ∧
      (endOfSpan (headerStart r) span).place = (headerStart r).place + span ∧
      1901 ≤ (endOfSpan (headerStart r) span).year ∧
      (endOfSpan (headerStart r) span).place < yearPlace 2100 + 59 * 864000000 := by
    intro span hmin hmax
    obtain ⟨hvalid, hplace⟩ := endOfSpan_spec hv hcentury hmax
    have hyear' := (hvalid.year_lt_iff 1901).not.mpr (by rw [hplace]; linarith)
    exact ⟨hvalid, hplace, not_lt.mp hyear', by rw [hplace]; linarith⟩
  by_cases hfits : recordSpan r < 2 ^ 31
  · rw [if_pos hfits]
    obtain ⟨hvalid, hplace, hfirst, hlast⟩ := hcases _ (by linarith) hfits
    obtain ⟨hle, hlt, hiff⟩ := calTime_roundedUp hvalid hfirst hlast
    rw [hplace] at hle hlt hiff
    constructor
    · intro h
      exact ⟨hfits, hiff.mp h.valid⟩
    · intro h
      exact ⟨hiff.mpr h.2, by linarith, hle⟩
  · rw [if_neg hfits]
    obtain ⟨hmin, hneg⟩ := hhuge (recordSpan r)
    obtain ⟨hvalid, hplace, hfirst, hlast⟩ := hcases _ hmin (by linarith)
    obtain ⟨-, hlt, -⟩ := calTime_roundedUp hvalid hfirst hlast
    rw [hplace] at hlt
    constructor
    · intro h
      have hle := h.le
      linarith
    · exact fun h => absurd h.1 hfits

/-! ### Patterns -/

lemma toNat_toLower (c : UInt8) :
    (toLower c).toNat = if 65 ≤ c.toNat ∧ c.toNat ≤ 90 then c.toNat + 32 else c.toNat := by
  unfold toLower
  simp only [Bool.and_eq_true, decide_eq_true_eq, UInt8.le_iff_toNat_le, UInt8.reduceToNat]
  split_ifs
  · rw [UInt8.toNat_add]
    simp only [UInt8.reduceToNat]
    omega
  · rfl

lemma toLower_toUpper (c : UInt8) : toLower (toUpper c) = toLower c := by
  refine UInt8.toNat_inj.mp ?_
  rw [toNat_toLower, toNat_toLower, toNat_toUpper]
  split_ifs <;> omega

/-- Upper case does not change what a pattern matches. -/
lemma matches_toUpper (pattern target : Bytes) :
    wild.Matches (pattern.map toUpper) target ↔ wild.Matches pattern target := by
  have hkey : ∀ k : UInt8, k.toNat < 65 → ∀ c, (toUpper c == k) = (c == k) := by
    intro k hk c
    rw [Bool.eq_iff_iff, beq_iff_eq, beq_iff_eq]
    exact toUpper_eq_iff hk c
  refine matches_map (hkey 42 (by decide)) fun c t => ?_
  simp only [wild, hkey 63 (by decide) c, toLower_toUpper]

/-- A blank pattern is for a blank location. -/
lemma matches_blank (b : ChannelBuffer n) :
    wild.Matches (ascii "  ") b.location ↔ b.location = ascii "  " := by
  constructor
  · intro h
    refine b.hlocation.resolve_right ?_
    rintro ⟨hlength, halnum⟩
    obtain ⟨p, q, hpq⟩ := List.length_eq_two.mp hlength
    have hp := (isAlnum_iff p).mp (halnum p (by simp [hpq]))
    rw [hpq, show ascii "  " = [32, 32] by decide, matches_cons_cons (by decide)] at h
    have heq : toLower 32 = toLower p := by simpa [wild] using h.1
    have hnat := congrArg UInt8.toNat heq
    rw [toNat_toLower, toNat_toLower] at hnat
    simp only [UInt8.reduceToNat] at hnat
    split_ifs at hnat <;> omega
  · intro h
    rw [h]
    decide

section Search

variable (r : DirRequest) (source : DirSource) (stale : Bytes) (b : ChannelBuffer n)

lemma found_search : (r.search source stale).found b = r.searched b := by
  rw [DirSearch.found, DirRequest.searched, ← r.searchedStart_eq, ← r.searchedFinish_eq]
  rfl

/-- With a location in the request, the channels that match are those it names. -/
lemma selects_search_some {loc : Bytes} (hloc : r.location = some loc) :
    (r.search source stale).selects b = true ↔ r.Names b := by
  simp only [DirSearch.selects, DirRequest.search, DirRequest.Names, LocationMatches, hloc,
    Option.elim_some, Option.isNone_some, Bool.false_eq_true, if_false, Bool.and_eq_true,
    check_iff, matches_toUpper]

/-- Without one, they have a blank location and match what the pattern held before. -/
lemma selects_search_none (hloc : r.location = none) :
    (r.search source stale).selects b = true ↔
      b.location = ascii "  " ∧ wild.Matches stale b.channel := by
  simp only [DirSearch.selects, DirRequest.search, hloc, Option.elim_none, Option.isNone_none,
    if_true, Bool.and_eq_true, check_iff, matches_blank]

end Search

/-! ### Late dates -/

/-- A start is late only in a century year without leap day. -/
lemma yearPlace_le_of_late {r : DirRequest} (h : isLate [r.start] r.start = true) :
    yearPlace 2100 ≤ r.askedStart := by
  obtain ⟨t, ht, hlate⟩ := (Option.any_eq_true _ _).mp h
  obtain ⟨-, hleap, hseen⟩ := of_decide_eq_true hlate
  have hfour : t.year.value % 4 = 0 := by simpa [leapDaySeen, ht] using hseen
  have hyear := t.hyear
  have hlater : 2100 ≤ t.year.value := by
    simp only [IsLeap] at hleap
    omega
  have hdate := t.hvalid.date.isDate.one_le
  have hhour := t.hvalid.hour.1
  have hminute := t.hvalid.minute.1
  have hsecond := t.hvalid.second.1
  simp only at hdate hhour hminute hsecond
  refine (yearPlace_strictMono.monotone hlater).trans ?_
  rw [DirRequest.askedStart, ht]
  simp only [limitPlace, CalTime.place, DateText.time, yearPlace, dayNumber]
  linarith

lemma filter_sublist_filter {α : Type*} {p q : α → Bool} {l : List α}
    (h : ∀ a ∈ l, p a = true → q a = true) : (l.filter p).Sublist (l.filter q) := by
  have hboth : l.filter p = (l.filter q).filter p := by
    rw [List.filter_filter]
    refine List.filter_congr fun a ha => ?_
    cases hp : p a with
    | false => rfl
    | true => rw [h a ha hp, Bool.and_self]
  rw [hboth]
  exact List.filter_sublist

lemma valid_record {b : ChannelBuffer n} {i : ℕ} (hi : i < b.slots.length) :
    (headerStart (b.record i)).Valid ∧ 1950 ≤ (headerStart (b.record i)).year ∧
      (headerStart (b.record i)).year ≤ 2099 := by
  rw [record_eq hi]
  exact b.hrecords _ (List.getElem_mem hi)

/-- The records of one of the two intervals are among those of the other. -/
lemma searched_eq_iff (r : DirRequest) (b : ChannelBuffer n) :
    r.searched b = r.asked b ↔ (r.searched b).length = (r.asked b).length := by
  refine ⟨congrArg List.length, fun hlength => ?_⟩
  have hlater : r.askedFinish ≤ r.searchedFinish ∧
      r.searchedFinish ≤ r.askedFinish + 864000000 := by
    unfold DirRequest.searchedFinish
    split_ifs <;> constructor <;> linarith
  by_cases hlate : isLate [r.start] r.start = true
  · -- all records start before the interval
    have hafter := yearPlace_le_of_late hlate
    have hstart : r.searchedStart = r.askedStart + 864000000 := by
      rw [DirRequest.searchedStart, if_pos hlate]
    have hsub : (r.searched b).Sublist (r.asked b) := by
      refine filter_sublist_filter fun i hmem hin => decide_eq_true ?_
      obtain ⟨hle, -, hend⟩ := of_decide_eq_true hin
      have hi : i < b.slots.length := by simpa [ChannelBuffer.order] using hmem
      obtain ⟨hvalid, -, hyear⟩ := valid_record hi
      have hbefore := (hvalid.year_lt_iff 2100).mp (by linarith)
      exact ⟨by linarith, by linarith, by linarith⟩
    exact hsub.eq_of_length hlength
  · have hstart : r.searchedStart = r.askedStart := by
      rw [DirRequest.searchedStart, if_neg hlate, add_zero]
    have hsub : (r.asked b).Sublist (r.searched b) := by
      refine filter_sublist_filter fun i _ hin => decide_eq_true ?_
      obtain ⟨hle, hbegin, hend⟩ := of_decide_eq_true hin
      rw [hstart]
      exact ⟨by linarith, by linarith, hend⟩
    exact (hsub.eq_of_length hlength.symm).symm

/-! ### When the reply is right -/

/-- The line that is listed for a channel describes the records that are searched for exactly
where the end of the last one fits. -/
lemma describes_iff {plat : Platform}
    (hhuge : ∀ x, -2 ^ 31 ≤ plat.intOfHuge x ∧ plat.intOfHuge x < 0)
    {b : ChannelBuffer n} {a c : ℤ} (hsome : b.hits a c ≠ []) :
    (b.info plat (b.hits a c)).Describes b (b.hits a c) ↔
      ∀ i ∈ (b.hits a c).getLast?, EndFits (b.record i) := by
  have hhead : (b.hits a c).headD 0 ∈ b.hits a c := by
    rw [List.headD_eq_head?_getD, List.head?_eq_some_head hsome]
    exact List.head_mem hsome
  have hlast : (b.hits a c).getLast? = some ((b.hits a c).getLastD 0) := by
    rw [List.getLastD_eq_getLast?, List.getLast?_eq_some_getLast hsome]
    rfl
  obtain ⟨hvalid, hfirst, hyear⟩ := valid_record (lt_of_mem_hits hhead)
  obtain ⟨hvalid', hfirst', hyear'⟩ :=
    valid_record (lt_of_mem_hits (List.mem_of_getLast? hlast))
  have hbefore := (hvalid.year_lt_iff 2100).mp (by linarith)
  have hfinish := endSecond_iff hhuge hvalid' ⟨hfirst', hyear'⟩
  have hstart : StartSecond (b.info plat (b.hits a c)).start _ :=
    startSecond_calTime hvalid (by linarith) (by linarith)
  constructor
  · intro h i hi
    rw [hlast, Option.mem_some_iff] at hi
    exact hi ▸ hfinish.mp h.finish
  · intro h
    exact ⟨rfl, rfl, hstart, hfinish.mpr (h _ hlast), rfl⟩

/-- Two selections of a list with distinct keys, of which one is mapped to results that tell the
key: they correspond where they select the same. -/
lemma forall₂_filter_iff {α β κ : Type*} {key : α → κ} {keyOf : β → κ} {R : α → β → Prop}
    {f : α → β} (hR : ∀ a c, R a c → keyOf c = key a) (hf : ∀ a, keyOf (f a) = key a)
    {p q : α → Bool} {l : List α} (hnodup : (l.map key).Nodup) :
    List.Forall₂ R (l.filter p) ((l.filter q).map f) ↔
      ∀ a ∈ l, p a = q a ∧ (p a = true → R a (f a)) := by
  induction l with
  | nil => simp
  | cons a l ih =>
    rw [List.map_cons, List.nodup_cons] at hnodup
    have hother : ∀ a' ∈ l, key a' ≠ key a :=
      fun a' ha' heq => hnodup.1 (heq ▸ List.mem_map_of_mem ha')
    rw [List.forall_mem_cons, ← ih hnodup.2]
    cases hp : p a with
    | true =>
      cases hq : q a with
      | true => simp [hp, hq]
      | false =>
        rw [List.filter_cons_of_pos hp, List.filter_cons_of_neg (by simp [hq])]
        refine iff_of_false (fun h => ?_) (by simp)
        obtain ⟨c, _, hc, -, heq⟩ := List.forall₂_cons_left_iff.mp h
        have hmem : c ∈ (l.filter q).map f := heq ▸ List.mem_cons_self
        obtain ⟨a', ha', rfl⟩ := List.mem_map.mp hmem
        exact hother a' (List.mem_filter.mp ha').1 ((hf a').symm.trans (hR a _ hc))
    | false =>
      cases hq : q a with
      | true =>
        rw [List.filter_cons_of_neg (by simp [hp]), List.filter_cons_of_pos hq, List.map_cons]
        refine iff_of_false (fun h => ?_) (by simp)
        obtain ⟨a', _, hc, -, heq⟩ := List.forall₂_cons_right_iff.mp h
        have hmem : a' ∈ l.filter p := heq ▸ List.mem_cons_self
        exact hother a' (List.mem_filter.mp hmem).1 ((hR a' _ hc).symm.trans (hf a))
      | false => simp [hp, hq]

/-- What `cmd_DIRREQ` finds when it is asked: a directory of disk loops, and a `GetRecordRange`
that is right about them. A number of tenth-milliseconds that fits no `int` becomes negative. -/
structure Serves (source : DirSource) (r : DirRequest) (dir : ChannelDirectory n) : Prop where
  header : sizeofSeedHeader ≤ n
  recordSize : source.recordSize = n
  opened : source.opendir r.stationId = some (dir.items.map DirItem.entry)
  ranges : RangesRight source.getRecordRange r.stationId dir
  huge : ∀ x, -2 ^ 31 ≤ source.plat.intOfHuge x ∧ source.plat.intOfHuge x < 0

namespace Serves

variable {source : DirSource} {r : DirRequest} {dir : ChannelDirectory n}

/-- The lines of the reply. -/
lemma listed_eq (h : Serves source r dir) (stale : Bytes) :
    listed (cmdDirreq source stale r.text) = ((dir.buffers.filter fun b =>
      (r.search source stale).selects b ∧ r.searched b ≠ []).map
        fun b => b.info source.plat (r.searched b)).take maxChan := by
  rw [cmdDirreq_text r h.opened stale, listed_listChannels h.header h.recordSize h.ranges]
  simp only [DirSearch.shown, found_search]
  rfl

/-- A channel that matches has the right line, or rightly none, exactly where the late dates change
nothing for it and the end fits. -/
lemma line_iff (h : Serves source r dir) (b : ChannelBuffer n) :
    ((r.asked b ≠ [] ↔ r.searched b ≠ []) ∧
      (r.asked b ≠ [] → (b.info source.plat (r.searched b)).Describes b (r.asked b))) ↔
      r.searched b = r.asked b ∧ ∀ i ∈ (r.asked b).getLast?, EndFits (b.record i) := by
  constructor
  · rintro ⟨hsame, hline⟩
    by_cases hnone : r.asked b = []
    · have hnone' : r.searched b = [] := by
        by_contra hsome
        exact hsame.mpr hsome hnone
      exact ⟨hnone'.trans hnone.symm, by simp [hnone]⟩
    · have hdescribes := hline hnone
      have hlength : (r.searched b).length = (r.asked b).length :=
        Int.natCast_inj.mp hdescribes.count
      have heq := (searched_eq_iff r b).mpr hlength
      rw [heq] at hdescribes
      exact ⟨heq, (describes_iff h.huge hnone).mp hdescribes⟩
  · rintro ⟨heq, hfits⟩
    rw [heq]
    exact ⟨Iff.rfl, fun hsome => (describes_iff h.huge hsome).mpr hfits⟩

/-- With a location in the request. -/
lemma listsRight_some (h : Serves source r dir) {loc : Bytes} (hloc : r.location = some loc)
    (hfew : (dir.buffers.filter fun b => r.Names b).length < maxChan) (stale : Bytes) :
    r.ListsRight dir (listed (cmdDirreq source stale r.text)) ↔ ∀ b ∈ dir.buffers, r.Names b →
      r.searched b = r.asked b ∧ ∀ i ∈ (r.asked b).getLast?, EndFits (b.record i) := by
  have hshort : ((dir.buffers.filter fun b => (r.search source stale).selects b ∧
      r.searched b ≠ []).map fun b => b.info source.plat (r.searched b)).length ≤ maxChan := by
    rw [List.length_map]
    refine le_trans (List.Sublist.length_le (filter_sublist_filter fun b _ hb => ?_)) hfew.le
    exact decide_eq_true ((selects_search_some r source stale b hloc).mp (of_decide_eq_true hb).1)
  have hdistinct : (dir.buffers.map fun b => (b.location, b.channel)).Nodup := dir.distinct
  have hkey : ∀ (b : ChannelBuffer n) (info : ChanInfo), info.Describes b (r.asked b) →
      (info.location, info.channel) = (b.location, b.channel) :=
    fun b info hd => by rw [hd.location, hd.channel]
  rw [DirRequest.ListsRight, h.listed_eq stale, List.take_of_length_le hshort, DirRequest.expected,
    forall₂_filter_iff hkey (fun _ => rfl) hdistinct]
  refine forall₂_congr fun b _ => ?_
  rw [← h.line_iff b, decide_eq_decide, selects_search_some r source stale b hloc,
    decide_eq_true_eq]
  tauto

/-- Without one, for whatever the pattern held before. -/
lemma listsRight_none (h : Serves source r dir) (hloc : r.location = none) :
    (∀ stale, r.ListsRight dir (listed (cmdDirreq source stale r.text))) ↔
      ∀ b ∈ dir.buffers, b.location = ascii "  " →
        r.searched b = [] ∧ (r.Names b → r.asked b = []) := by
  have hblank : ∀ b : ChannelBuffer n, r.Names b → b.location = ascii "  " := by
    intro b hb
    rw [DirRequest.Names, hloc] at hb
    exact hb.1
  simp only [DirRequest.ListsRight, h.listed_eq]
  constructor
  · intro hright
    -- an empty pattern matches no channel, and a star every one
    have hempty := hright []
    have hstar := hright (ascii "*")
    have hunselected : dir.buffers.filter (fun b => (r.search source []).selects b ∧
        r.searched b ≠ []) = [] := by
      refine List.filter_eq_nil_iff.mpr fun b _ hsel => ?_
      have hmatch := ((selects_search_none r source [] b hloc).mp (of_decide_eq_true hsel).1).2
      have hlength := b.hchannel.1
      rw [matches_nil.mp hmatch] at hlength
      cases hlength
    rw [hunselected, List.map_nil, List.take_nil, List.forall₂_nil_right_iff] at hempty
    rw [hempty, List.forall₂_nil_left_iff, List.take_eq_nil_iff, List.map_eq_nil_iff] at hstar
    have hselected := List.filter_eq_nil_iff.mp (hstar.resolve_left (by decide))
    intro b hb hlocation
    constructor
    · by_contra hsome
      have hmatch : wild.Matches (ascii "*") b.channel :=
        matches_singleton.mpr (matchesPart_star (by decide) b.channel)
      exact hselected b hb (decide_eq_true
        ⟨(selects_search_none r source _ b hloc).mpr ⟨hlocation, hmatch⟩, hsome⟩)
    · intro hnames
      by_contra hsome
      exact List.filter_eq_nil_iff.mp hempty b hb (decide_eq_true ⟨hnames, hsome⟩)
  · intro hall stale
    have hshown : dir.buffers.filter (fun b => (r.search source stale).selects b ∧
        r.searched b ≠ []) = [] := by
      refine List.filter_eq_nil_iff.mpr fun b hb hsel => ?_
      obtain ⟨hselects, hsome⟩ := of_decide_eq_true hsel
      have hlocation := ((selects_search_none r source stale b hloc).mp hselects).1
      exact hsome (hall b hb hlocation).1
    have hnone : r.expected dir = [] := by
      refine List.filter_eq_nil_iff.mpr fun b hb hask => ?_
      obtain ⟨hnames, hsome⟩ := of_decide_eq_true hask
      exact hsome ((hall b hb (hblank b hnames)).2 hnames)
    rw [hshown, hnone]
    exact .nil

end Serves

/-- Whatever request was handled before, the reply lists exactly the channels of the request,
with the start of their first and the end of their last record in its interval, when the
directory is one that is listed right. -/
theorem cmdDirreq_listsRight_iff {source : DirSource} {r : DirRequest} {dir : ChannelDirectory n}
    (h : Serves source r dir) (hfew : (dir.buffers.filter fun b => r.Names b).length < maxChan) :
    (∀ stale, r.ListsRight dir (listed (cmdDirreq source stale r.text))) ↔ r.RightFor dir := by
  unfold DirRequest.RightFor
  cases hloc : r.location with
  | none => exact h.listsRight_none hloc
  | some loc =>
    simp only [h.listsRight_some hloc hfew]
    exact ⟨fun hall => hall [], fun hall _ => hall⟩

/-! ### A directory with one record -/

/-- One record of the year 2000, of a channel with a blank location. -/
def blankBuffer : ChannelBuffer 512 where
  location := ascii "  "
  channel := ascii "BHZ"
  slots := [logRecord 0 10]
  newest := 0
  hlocation := .inl rfl
  hchannel := ⟨rfl, List.all_eq_true.mp (by decide)⟩
  hrecords := by
    intro record hrecord
    rw [List.mem_singleton.mp hrecord]
    have hstart : headerStart (logRecord 0 10).1 = ⟨2000, 1, 0, 0, 10, 0⟩ := by decide +kernel
    rw [hstart]
    refine ⟨⟨⟨by decide, by decide⟩, ?_, ?_, ?_, ?_⟩, ?_, ?_⟩ <;> decide
  hoffsets := by decide

def blankDirectory : ChannelDirectory 512 where
  items := [.buffer blankBuffer]
  distinct := List.nodup_singleton _

/-- A `GetRecordRange` that is right about one channel. -/
def exactRange (b : ChannelBuffer n) (a c : ℤ) : RecordRange where
  iFirst := ((b.hits a c).head?.map Int.ofNat).getD (-1)
  iLast := ((b.hits a c).getLast?.map Int.ofNat).getD (-1)
  iCount := (b.hits a c).length
  iLoopSize := b.slots.length

def blankSource : DirSource where
  plat := ⟨32, fun _ => -2 ^ 31, fun _ => 0⟩
  recordSize := 512
  opendir := fun _ => some (blankDirectory.items.map DirItem.entry)
  getRecordRange := fun _ _ _ t u => .ok (exactRange blankBuffer t.place u.place)

lemma blankSource_serves (r : DirRequest) : Serves blankSource r blankDirectory where
  header := by decide
  recordSize := rfl
  opened := rfl
  ranges := by
    intro b hb t u
    rw [List.mem_singleton.mp hb]
    exact ⟨rfl, rfl, rfl⟩
  huge := fun _ => ⟨le_rfl, by norm_num [blankSource]⟩

/-- `ANMO.BHZ * *`, with or without a location. -/
def allOfBhz (location : Option Bytes) (h : location = none ∨ location = some (ascii "*")) :
    DirRequest where
  station := ascii "ANMO"
  location := location
  channel := ascii "BHZ"
  start := none
  finish := none
  hstation := ⟨by decide, by decide⟩
  hlocation := by
    rintro loc hloc
    rcases h with rfl | rfl
    · cases hloc
    · cases hloc
      exact ⟨by decide, by decide, by decide⟩
  hchannel := ⟨by decide, by decide, fun _ => by decide⟩
  hlength := by rcases h with rfl | rfl <;> decide

lemma blankDirectory_few (r : DirRequest) :
    (blankDirectory.buffers.filter fun b => r.Names b).length < maxChan :=
  (List.length_filter_le _ _).trans_lt (by decide)

theorem cmdDirreq_listsRight_iff_star :
    (∀ stale, (allOfBhz _ (.inr rfl)).ListsRight blankDirectory
      (listed (cmdDirreq blankSource stale (allOfBhz _ (.inr rfl)).text))) ↔
      (allOfBhz _ (.inr rfl)).RightFor blankDirectory :=
  cmdDirreq_listsRight_iff (blankSource_serves _) (blankDirectory_few _)

/-- Without a location the record is not listed where the pattern held nothing before. -/
theorem cmdDirreq_not_listsRight :
    ¬ ∀ (source : DirSource) (r : DirRequest) (dir : ChannelDirectory 512), Serves source r dir →
      (dir.buffers.filter fun b => r.Names b).length < maxChan →
        ∀ stale, r.ListsRight dir (listed (cmdDirreq source stale r.text)) := by
  intro hall
  have hright := hall blankSource (allOfBhz none (.inl rfl)) blankDirectory (blankSource_serves _)
    (blankDirectory_few _) []
  have hunselected : blankDirectory.buffers.filter (fun b =>
      ((allOfBhz none (.inl rfl)).search blankSource []).selects b ∧
        (allOfBhz none (.inl rfl)).searched b ≠ []) = [] := by decide +kernel
  have hasked : blankBuffer ∈ (allOfBhz none (.inl rfl)).expected blankDirectory := by
    refine List.mem_filter.mpr ⟨List.mem_singleton.mpr rfl, ?_⟩
    decide +kernel
  rw [DirRequest.ListsRight, (blankSource_serves _).listed_eq, hunselected, List.map_nil,
    List.take_nil, List.forall₂_nil_right_iff] at hright
  rw [hright] at hasked
  cases hasked

end StationProcessor.Netseed
