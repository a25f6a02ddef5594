import StationProcessor.Lib.Rotated
import StationProcessor.Diskloop.Locate

/-!
# What the search by time finds

`adl_locate_index` is compared with the linear definition in its own comments. Its bisection
is the one of a rotated increasing sequence, so it ends next to where the sought time belongs;
the record it chooses is the best of those around that place, which need not be the best of
all. `SearchReaches` is the condition under which it is.
-/

namespace StationProcessor

variable {n : ℕ}

/-! ### Records on the time axis -/

/-- The start of a record. -/
def startOf (cfg : Config n) (r : Record n) : ℤ :=
  (parseSeedHeader cfg.plat r.toList).recStart.instant

/-- The end of a record. -/
def endOf (cfg : Config n) (r : Record n) : ℤ := (parseSeedHeader cfg.plat r.toList).recEnd.instant

/-- The start of the record in a slot. -/
def startAt (cfg : Config n) (slots : List (Record n)) (i : ℕ) : ℤ :=
  (slots[i]?.map (startOf cfg)).getD 0

/-- The end of the record in a slot. -/
def endAt (cfg : Config n) (slots : List (Record n)) (i : ℕ) : ℤ :=
  (slots[i]?.map (endOf cfg)).getD 0

/-- The records of an open loop: the complete ones in its file, all within its capacity. -/
structure Loads (ctx : DiskloopContext n) (slots : List (Record n)) : Prop where
  holds : Blocks.Holds ctx.loopFp.data slots
  fits : (slots.length : ℤ) ≤ ctx.capacity

variable {cfg : Config n} {ctx : DiskloopContext n} {slots : List (Record n)}

lemma startAt_eq {i : ℕ} (hi : i < slots.length) :
    startAt cfg slots i = startOf cfg slots[i] := by
  rw [startAt, List.getElem?_eq_getElem hi, Option.map_some, Option.getD_some]

lemma endAt_eq {i : ℕ} (hi : i < slots.length) : endAt cfg slots i = endOf cfg slots[i] := by
  rw [endAt, List.getElem?_eq_getElem hi, Option.map_some, Option.getD_some]

/-- Every slot in use can be read. -/
lemma adlRead_of_loads (h : Loads ctx slots) {i : ℕ} (hi : i < slots.length) :
    adlRead ctx i = .ok slots[i] := by
  have hcap : ¬ (i : ℤ) ≥ ctx.capacity := by
    have := h.fits
    omega
  have hseek : ¬ (i : ℤ) * n < 0 := not_lt.mpr (by positivity)
  unfold adlRead
  simp only [if_neg (show ¬ (i : ℤ) < 0 by omega), if_neg hcap, if_neg hseek, Int.toNat_natCast,
    h.holds.read hi]

lemma readInfo_of_loads (h : Loads ctx slots) {i : ℕ} (hi : i < slots.length)
    (message : String) :
    readInfo cfg ctx i message = .ok (prepareRecordInfo cfg slots[i] i) := by
  rw [readInfo, adlRead_of_loads h hi]

/-! ### The bisection -/

/-- The information of the record in a slot. -/
def InfoAt (cfg : Config n) (slots : List (Record n)) (i : ℕ) (info : RecordInfo n) : Prop :=
  ∃ hi : i < slots.length, info = prepareRecordInfo cfg slots[i] i

lemma InfoAt.index {i : ℕ} {info : RecordInfo n} (h : InfoAt cfg slots i info) :
    info.index = i := by
  obtain ⟨_, rfl⟩ := h
  rfl

lemma InfoAt.start {i : ℕ} {info : RecordInfo n} (h : InfoAt cfg slots i info) :
    info.header.recStart.instant = startAt cfg slots i := by
  obtain ⟨hi, rfl⟩ := h
  exact (startAt_eq hi).symm

lemma InfoAt.end {i : ℕ} {info : RecordInfo n} (h : InfoAt cfg slots i info) :
    info.header.recEnd.instant = endAt cfg slots i := by
  obtain ⟨hi, rfl⟩ := h
  exact (endAt_eq hi).symm

lemma readInfo_infoAt (cfg : Config n) (h : Loads ctx slots) {i : ℕ} (hi : i < slots.length)
    (message : String) :
    ∃ info, readInfo cfg ctx i message = .ok info ∧ InfoAt cfg slots i info :=
  ⟨_, readInfo_of_loads h hi message, hi, rfl⟩

section Bisection

variable {first last : StdTime2} {L : ℕ} (hsign : TrueSign cfg.plat.longBits)
  (hload : Loads ctx slots) (hL : slots.length = L + 1)
  (hfirst : first.instant = startAt cfg slots 0) (hlast : last.instant = startAt cfg slots L)

include hsign hload hL hfirst hlast

/-- One step of the search follows the direction test of a rotated sequence. -/
lemma searchStep_eq (time : StdTime2) (s : Search n) (hle : s.minIndex ≤ s.maxIndex)
    (hmax : s.maxIndex ≤ L) :
    ∃ info, InfoAt cfg slots (s.minIndex + (s.maxIndex - s.minIndex) / 2) info ∧
      searchStep cfg ctx time first last s = .ok
        (match Rotated.dir (startAt cfg slots) L time.instant
            (s.minIndex + (s.maxIndex - s.minIndex) / 2) with
        | .lt => ⟨s.minIndex + (s.maxIndex - s.minIndex) / 2, s.maxIndex,
            s.minIndex + (s.maxIndex - s.minIndex) / 2, info⟩
        | .gt => ⟨s.minIndex, s.minIndex + (s.maxIndex - s.minIndex) / 2,
            s.minIndex + (s.maxIndex - s.minIndex) / 2, info⟩
        | .eq => ⟨s.minIndex + (s.maxIndex - s.minIndex) / 2,
            s.minIndex + (s.maxIndex - s.minIndex) / 2,
            s.minIndex + (s.maxIndex - s.minIndex) / 2, info⟩) := by
  unfold searchStep
  have hmid : s.minIndex + (s.maxIndex - s.minIndex) / 2 < slots.length := by omega
  generalize s.minIndex + (s.maxIndex - s.minIndex) / 2 = mid at hmid ⊢
  obtain ⟨info, hread, hinfo⟩ := readInfo_infoAt cfg hload hmid
    ("adl_locate_index: Could not read record at index " ++ toString mid ++ " from "
      ++ ctx.loopName)
  refine ⟨info, hinfo, ?_⟩
  simp only [hread, bind, Except.bind, pure, Except.pure, hinfo.start, hfirst, hlast,
    (hsign _ _).1, (hsign _ _).2, Rotated.dir]
  split_ifs <;> rfl

/-- The search loop probes like the bisection, and keeps the record of its last probe. -/
lemma searchLoop_eq (time : StdTime2) (fuel : ℕ) (s : Search n) (hle : s.minIndex ≤ s.maxIndex)
    (hmax : s.maxIndex ≤ L)
    (hthis : 1 < s.maxIndex - s.minIndex ∧ 0 < fuel ∨ InfoAt cfg slots s.pivotIndex s.thisRecord) :
    ∃ s', searchLoop cfg ctx time first last fuel s = .ok s' ∧
      s'.pivotIndex = Bisect.loop (Rotated.dir (startAt cfg slots) L time.instant) fuel
        s.minIndex s.maxIndex s.pivotIndex ∧
      InfoAt cfg slots s'.pivotIndex s'.thisRecord := by
  induction fuel generalizing s with
  | zero => exact ⟨s, rfl, rfl, hthis.resolve_left (by omega)⟩
  | succ fuel ih =>
    simp only [searchLoop, Bisect.loop]
    split_ifs with hgap
    · obtain ⟨info, hinfo, hstep⟩ :=
        searchStep_eq hsign hload hL hfirst hlast time s hle hmax
      rw [hstep]
      have hmid : s.minIndex ≤ s.minIndex + (s.maxIndex - s.minIndex) / 2 ∧
          s.minIndex + (s.maxIndex - s.minIndex) / 2 ≤ s.maxIndex := by omega
      generalize s.minIndex + (s.maxIndex - s.minIndex) / 2 = mid at hinfo hmid ⊢
      cases Rotated.dir (startAt cfg slots) L time.instant mid with
      | lt => exact ih ⟨mid, s.maxIndex, mid, info⟩ hmid.2 hmax (Or.inr hinfo)
      | gt => exact ih ⟨s.minIndex, mid, mid, info⟩ hmid.1 (hmid.2.trans hmax) (Or.inr hinfo)
      | eq =>
        -- the range is empty now, so the loop is left
        have hstop : searchLoop cfg ctx time first last fuel ⟨mid, mid, mid, info⟩
            = .ok ⟨mid, mid, mid, info⟩ := by
          cases fuel with
          | zero => rfl
          | succ fuel => simp [searchLoop]
        exact ⟨⟨mid, mid, mid, info⟩, hstop, rfl, hinfo⟩
    · exact ⟨s, rfl, rfl, hthis.resolve_left (by omega)⟩

end Bisection

/-- What `adl_locate_index` examines last in a file of `L + 1 ≥ 2` records: with two records the
loop does not run, and both neighbours of the pivot are the last slot, as is the record read
before the loop. -/
def examined (L p : ℕ) : List ℕ := if L = 1 then [1, 1, 1] else [p - 1, p, p + 1]

@[simp] lemma examined_one (p : ℕ) : examined 1 p = [1, 1, 1] := rfl

lemma examined_of_two_le {L : ℕ} (hL : 2 ≤ L) (p : ℕ) : examined L p = [p - 1, p, p + 1] :=
  if_neg (by omega)

lemma mem_examined_iff {L : ℕ} (hL : 2 ≤ L) {p i : ℕ} :
    i ∈ examined L p ↔ i = p - 1 ∨ i = p ∨ i = p + 1 := by
  simp [examined_of_two_le hL]

/-- On a loop without records there is nothing to report. -/
lemma adlLocateIndex_of_empty (hload : Loads ctx slots) (hlen : slots.length = 0)
    (time : StdTime2) (whence : Whence) (index : ℤ) :
    (adlLocateIndex cfg ctx time whence index).2 = -1 := by
  have hsize := hload.holds.length_bounds
  rw [hlen] at hsize
  have hres : locateIndex cfg ctx time whence = .ok (-1) := if_pos (by omega)
  simp only [adlLocateIndex, hres]

/-- A single record is reported without a look at it. -/
lemma adlLocateIndex_of_single (hload : Loads ctx slots) (hlen : slots.length = 1)
    (time : StdTime2) (whence : Whence) (index : ℤ) :
    (adlLocateIndex cfg ctx time whence index).2 = 0 := by
  have hsize := hload.holds.length_bounds
  rw [hlen] at hsize
  have hres : locateIndex cfg ctx time whence = .ok 0 := by
    unfold locateIndex
    rw [if_neg (by omega), if_pos (by omega)]
  simp only [adlLocateIndex, hres]

/-- With at least two records the search chooses among the records around its last probe. -/
lemma locateIndex_eq (hsign : TrueSign cfg.plat.longBits) (hload : Loads ctx slots) {L : ℕ}
    (hL : slots.length = L + 1) (hL1 : 1 ≤ L) (time : StdTime2) (whence : Whence) {κ : ℤ}
    (hp : Bisect.loop (Rotated.dir (startAt cfg slots) L time.instant) L 0 L 0
      = Bisect.lastProbe L κ) :
    ∃ before this after, locateIndex cfg ctx time whence
        = selectIndex cfg time (Bisect.lastProbe L κ) before this after whence ∧
      List.Forall₂ (InfoAt cfg slots) (examined L (Bisect.lastProbe L κ))
        [before, this, after] := by
  have hp0 : 2 ≤ L → 0 < Bisect.lastProbe L κ ∧ Bisect.lastProbe L κ < L :=
    Bisect.lastProbe_inside κ
  generalize Bisect.lastProbe L κ = p at hp hp0 ⊢
  have hlen := hload.holds.length_bounds
  have hdiv := hload.holds.length_div
  have hsize : ¬ ctx.loopFp.data.length < n ∧ ¬ ctx.loopFp.data.length < n * 2 := by
    have : 2 * n ≤ slots.length * n := Nat.mul_le_mul_right n (by omega)
    omega
  unfold locateIndex
  simp only [if_neg hsize.1, if_neg hsize.2, hdiv, hL, Nat.add_sub_cancel]
  obtain ⟨first, hread0, hinfo0⟩ := readInfo_infoAt cfg hload (i := 0) (by omega)
    ("adl_locate_index: Could not read first (start of file) record from " ++ ctx.loopName)
  obtain ⟨last, hreadL, hinfoL⟩ := readInfo_infoAt cfg hload (i := L) (by omega)
    ("adl_locate_index: Could not read last (end of file) record from " ++ ctx.loopName)
  simp only [hread0, hreadL, bind, Except.bind]
  rcases hL1.eq_or_lt with rfl | hL2
  · -- two records: the range is never narrowed
    have hp1 : p = 0 := hp.symm
    have hloop : searchLoop cfg ctx time first.header.recStart last.header.recStart 1
        ⟨0, 1, 0, last⟩ = .ok ⟨0, 1, 0, last⟩ := rfl
    obtain ⟨before, hb, hinfob⟩ := readInfo_infoAt cfg hload (i := 1) (by omega)
      ("adl_locate_index: Could not record before selected (" ++ toString 0
        ++ " - 1 = " ++ toString 1 ++ ") from " ++ ctx.loopName)
    obtain ⟨after, ha, hinfoa⟩ := readInfo_infoAt cfg hload (i := 1) (by omega)
      ("adl_locate_index: Could not record after selected (" ++ toString 0
        ++ " + 1 = " ++ toString 1 ++ ") from " ++ ctx.loopName)
    simp only [hloop, if_neg (lt_irrefl 0), if_pos Nat.one_pos, Nat.zero_add, hb, ha]
    refine ⟨before, last, after, by rw [hp1], ?_⟩
    rw [examined_one]
    exact .cons hinfob (.cons hinfoL (.cons hinfoa .nil))
  · obtain ⟨h0, hpL⟩ := hp0 hL2
    obtain ⟨s', hloop, hpivot, hthis⟩ := searchLoop_eq hsign hload hL hinfo0.start hinfoL.start
      time L ⟨0, L, 0, last⟩ (Nat.zero_le L) le_rfl (Or.inl ⟨by simpa, by omega⟩)
    rw [hp] at hpivot
    simp only [hloop, hpivot, if_pos h0, if_pos hpL]
    obtain ⟨before, hb, hinfob⟩ := readInfo_infoAt cfg hload (i := p - 1) (by omega)
      ("adl_locate_index: Could not record before selected (" ++ toString p
        ++ " - 1 = " ++ toString (p - 1) ++ ") from " ++ ctx.loopName)
    obtain ⟨after, ha, hinfoa⟩ := readInfo_infoAt cfg hload (i := p + 1) (by omega)
      ("adl_locate_index: Could not record after selected (" ++ toString p
        ++ " + 1 = " ++ toString (p + 1) ++ ") from " ++ ctx.loopName)
    simp only [hb, ha]
    refine ⟨before, s'.thisRecord, after, rfl, ?_⟩
    rw [examined_of_two_le hL2]
    exact .cons hinfob (.cons (hpivot ▸ hthis) (.cons hinfoa .nil))

/-! ### The linear definition -/

/-- Whether the record in a slot stands in the relation `whence` to the time `t`. -/
def Qualifies (cfg : Config n) (slots : List (Record n)) (t : ℤ) : Whence → ℕ → Prop
  | .beforeExclusive, i => endAt cfg slots i < t
  | .beforeInclusive, i => startAt cfg slots i ≤ t
  | .within, i => startAt cfg slots i ≤ t ∧ t ≤ endAt cfg slots i
  | .afterInclusive, i => t ≤ endAt cfg slots i
  | .afterExclusive, i => t < startAt cfg slots i
  | .other _, _ => False

instance (cfg : Config n) (slots : List (Record n)) (t : ℤ) :
    (whence : Whence) → DecidablePred (Qualifies cfg slots t whence)
  | .beforeExclusive => fun _ => inferInstanceAs (Decidable (_ < _))
  | .beforeInclusive => fun _ => inferInstanceAs (Decidable (_ ≤ _))
  | .within => fun _ => inferInstanceAs (Decidable (_ ∧ _))
  | .afterInclusive => fun _ => inferInstanceAs (Decidable (_ ≤ _))
  | .afterExclusive => fun _ => inferInstanceAs (Decidable (_ < _))
  | .other _ => fun _ => inferInstanceAs (Decidable False)

/-- Which of two qualifying slots `whence` prefers: the newer one, or the older one. -/
def Preferred (b : ℕ) : Whence → ℕ → ℕ → Prop
  | .beforeExclusive, i, j => Rotated.Older b j i
  | .beforeInclusive, i, j => Rotated.Older b j i
  | .afterInclusive, i, j => Rotated.Older b i j
  | .afterExclusive, i, j => Rotated.Older b i j
  | .within, _, _ => True
  | .other _, _, _ => True

/-- The result of a scan of all slots: the preferred one among those that qualify, `-1` when
none does. -/
def IsAnswer (cfg : Config n) (slots : List (Record n)) (b : ℕ) (t : ℤ) (whence : Whence)
    (result : ℤ) : Prop :=
  (result = -1 ∧ ∀ i < slots.length, ¬ Qualifies cfg slots t whence i) ∨
    ∃ i : ℕ, result = i ∧
      Bisect.IsBest (Qualifies cfg slots t whence) (Preferred b whence) slots.length i

/-- A record starts later than another and not before its end. -/
def Follows (cfg : Config n) (r r' : Record n) : Prop :=
  startOf cfg r < startOf cfg r' ∧ endOf cfg r ≤ startOf cfg r'

/-- The records of a loop from the oldest to the newest: none ends before it starts, and each
follows the one before it. -/
structure InTimeOrder (cfg : Config n) (records : List (Record n)) : Prop where
  span : ∀ r ∈ records, startOf cfg r ≤ endOf cfg r
  next : records.IsChain (Follows cfg)

instance (cfg : Config n) : DecidableRel (Follows (n := n) cfg) :=
  fun _ _ => inferInstanceAs (Decidable (_ ∧ _))

instance (cfg : Config n) (records : List (Record n)) : Decidable (InTimeOrder cfg records) :=
  -- the scan of the list, where instance search could enumerate all blocks of `n` bytes
  have : Decidable (∀ r ∈ records, startOf cfg r ≤ endOf cfg r) := List.decidableBAll _ records
  decidable_of_iff ((∀ r ∈ records, startOf cfg r ≤ endOf cfg r) ∧ records.IsChain (Follows cfg))
    ⟨fun h => ⟨h.1, h.2⟩, fun h => ⟨h.span, h.next⟩⟩

lemma InTimeOrder.pairwise {records : List (Record n)} (h : InTimeOrder cfg records) :
    records.Pairwise (Follows cfg) := by
  -- the step over a record uses that it does not end before it starts
  let S : Record n → Record n → Prop := fun r r' =>
    Follows cfg r r' ∧ startOf cfg r' ≤ endOf cfg r'
  have htrans : Trans S S S :=
    ⟨fun h1 h2 => ⟨⟨h1.1.1.trans h2.1.1, h1.1.2.trans (h1.2.trans h2.1.2)⟩, h2.2⟩⟩
  have hchain : records.IsChain S :=
    h.next.imp_of_mem_imp fun r r' _ hr' hrel => ⟨hrel, h.span r' hr'⟩
  exact hchain.pairwise.imp fun hrel => hrel.1

/-- The times of the slots, in the order of age. -/
lemma InTimeOrder.inSlots {b : ℕ} (h : InTimeOrder cfg (slots.rotate (b + 1)))
    (hb : b < slots.length) :
    (∀ i < slots.length, startAt cfg slots i ≤ endAt cfg slots i) ∧
      ∀ i j, i < slots.length → j < slots.length → Rotated.Older b i j →
        startAt cfg slots i < startAt cfg slots j ∧ endAt cfg slots i ≤ startAt cfg slots j := by
  refine ⟨fun i hi => ?_, fun i j hi hj ho => ?_⟩
  · rw [startAt_eq hi, endAt_eq hi]
    exact h.span _ (List.mem_rotate.mpr (List.getElem_mem hi))
  · rw [startAt_eq hi, startAt_eq hj, endAt_eq hi]
    exact Rotated.of_pairwise_rotate hb h.pairwise hi hj ho

/-! ### The choice -/

/-- The index a selection stands for. -/
def indexOf : Option ℕ → ℤ
  | none => -1
  | some i => i

/-- The blocks that update `best_time` select the first best of the examined slots. -/
lemma bestIndex_eq {time : StdTime2} {timeOf : RecordInfo n → StdTime2}
    {qualifies better : ℤ → Bool} {q : ℕ → Prop} [DecidablePred q] {key : ℕ → ℤ}
    {is : List ℕ} {infos : List (RecordInfo n)}
    (hinfos : List.Forall₂ (InfoAt cfg slots) is infos)
    (hq : ∀ i info, InfoAt cfg slots i info →
      (qualifies (compareDccTimes cfg.plat.longBits (timeOf info) time) = true ↔ q i))
    (hbetter : ∀ i j info info', InfoAt cfg slots i info → InfoAt cfg slots j info' →
      (better (compareDccTimes cfg.plat.longBits (timeOf info) (timeOf info')) = true
        ↔ key j < key i)) :
    bestIndex cfg time timeOf qualifies better infos = indexOf (Bisect.firstBest q key is) := by
  -- the best time so far is that of the index selected so far
  let Same : Option (StdTime2 × ℕ) → Option ℕ → Prop := fun best sel =>
    (best = none ∧ sel = none) ∨
      ∃ i info, best = some (timeOf info, i) ∧ sel = some i ∧ InfoAt cfg slots i info
  have hstep : ∀ best sel i info, Same best sel → InfoAt cfg slots i info →
      Same (considerRecord cfg time timeOf qualifies better best info)
        (Bisect.improve q key sel i) := by
    intro best sel i info hsame hinfo
    unfold considerRecord Bisect.improve
    simp only [hq i info hinfo, hinfo.index]
    split_ifs with hqi
    · rcases hsame with ⟨rfl, rfl⟩ | ⟨j, info', rfl, rfl, hinfo'⟩
      · exact Or.inr ⟨i, info, rfl, rfl, hinfo⟩
      · simp only [hbetter i j info info' hinfo hinfo']
        split_ifs with hkey
        · exact Or.inr ⟨i, info, rfl, rfl, hinfo⟩
        · exact Or.inr ⟨j, info', rfl, rfl, hinfo'⟩
    · exact hsame
  have hfold : ∀ best sel, Same best sel →
      Same (infos.foldl (considerRecord cfg time timeOf qualifies better) best)
        (is.foldl (Bisect.improve q key) sel) := by
    induction hinfos with
    | nil => exact fun _ _ h => h
    | cons hinfo _ ih => exact fun best sel h => ih _ _ (hstep best sel _ _ h hinfo)
  unfold bestIndex Bisect.firstBest
  rcases hfold none none (Or.inl ⟨rfl, rfl⟩) with ⟨hb, hs⟩ | ⟨i, info, hb, hs, -⟩
  · rw [hb, hs]
    rfl
  · rw [hb, hs]
    rfl

/-- The time a qualifying slot is judged by, larger for a preferred one. -/
def searchKey (cfg : Config n) (slots : List (Record n)) : Whence → ℕ → ℤ
  | .beforeExclusive, i => endAt cfg slots i
  | .beforeInclusive, i => startAt cfg slots i
  | .within, i => startAt cfg slots i
  | .afterInclusive, i => -endAt cfg slots i
  | .afterExclusive, i => -startAt cfg slots i
  | .other _, i => i

/-- The four cases of the `switch` that look for the best record. -/
lemma selectIndex_eq (hsign : TrueSign cfg.plat.longBits) {time : StdTime2} {p : ℕ}
    {is : List ℕ} {before this after : RecordInfo n}
    (hinfos : List.Forall₂ (InfoAt cfg slots) is [before, this, after]) {whence : Whence}
    (hw : whence ≠ .within) (hw' : ∀ code, whence ≠ .other code) :
    selectIndex cfg time p before this after whence = .ok (indexOf (Bisect.firstBest
      (Qualifies cfg slots time.instant whence) (searchKey cfg slots whence) is)) := by
  have hsign' : ∀ a b, (compareDccTimes cfg.plat.longBits a b ≤ 0 ↔ a.instant ≤ b.instant) ∧
      (0 ≤ compareDccTimes cfg.plat.longBits a b ↔ b.instant ≤ a.instant) := by
    intro a b
    have := hsign a b
    omega
  cases whence with
  | beforeExclusive =>
    refine congrArg Except.ok
      (bestIndex_eq hinfos (fun i info hi => ?_) fun i j info info' hi hj => ?_)
    · simp only [decide_eq_true_eq, (hsign _ _).1, hi.end, Qualifies]
    · simp only [decide_eq_true_eq, (hsign _ _).2, hi.end, hj.end, searchKey]
  | beforeInclusive =>
    refine congrArg Except.ok
      (bestIndex_eq hinfos (fun i info hi => ?_) fun i j info info' hi hj => ?_)
    · simp only [decide_eq_true_eq, (hsign' _ _).1, hi.start, Qualifies]
    · simp only [decide_eq_true_eq, (hsign _ _).2, hi.start, hj.start, searchKey]
  | within => exact absurd rfl hw
  | afterInclusive =>
    refine congrArg Except.ok
      (bestIndex_eq hinfos (fun i info hi => ?_) fun i j info info' hi hj => ?_)
    · simp only [decide_eq_true_eq, ge_iff_le, (hsign' _ _).2, hi.end, Qualifies]
    · simp only [decide_eq_true_eq, (hsign _ _).1, hi.end, hj.end, searchKey, neg_lt_neg_iff]
  | afterExclusive =>
    refine congrArg Except.ok
      (bestIndex_eq hinfos (fun i info hi => ?_) fun i j info info' hi hj => ?_)
    · simp only [decide_eq_true_eq, (hsign _ _).2, hi.start, Qualifies]
    · simp only [decide_eq_true_eq, (hsign _ _).1, hi.start, hj.start, searchKey, neg_lt_neg_iff]
  | other code => exact absurd rfl (hw' code)

/-! ### The condition under which the search is right -/

/-- The answer is found by the selection when no slot qualifies, or when the answer is among
the examined slots and no earlier one of them is judged by the same time. -/
def Reachable (cfg : Config n) (slots : List (Record n)) (b : ℕ) (t : ℤ) (whence : Whence)
    (is : List ℕ) : Prop :=
  (∀ i < slots.length, ¬ Qualifies cfg slots t whence i) ∨
    ∃ a ∈ is, Bisect.IsBest (Qualifies cfg slots t whence) (Preferred b whence) slots.length a ∧
      ∀ c ∈ is, c < a → Qualifies cfg slots t whence c →
        searchKey cfg slots whence c ≠ searchKey cfg slots whence a

/-- When the search of a loop with newest slot `b` gives the linear answer. A single record is
not looked at; of two records only the second is, and `within` then reports the first; of more
records only those around the place where the bisection for the time ends. -/
def SearchReaches (cfg : Config n) (slots : List (Record n)) (b : ℕ) (t : ℤ) (whence : Whence) :
    Prop :=
  match slots.length with
  | 0 => True
  | 1 => Qualifies cfg slots t whence 0
  | L + 2 =>
    if L = 0 ∧ whence = .within then
      (Qualifies cfg slots t .within 0 ↔ Qualifies cfg slots t .within 1)
    else
      ∃ κ, Rotated.Position (startAt cfg slots) (L + 1) b t κ ∧
        Reachable cfg slots b t whence (examined (L + 1) (Bisect.lastProbe (L + 1) κ))

lemma indexOf_eq_natCast {sel : Option ℕ} {i : ℕ} : indexOf sel = i ↔ sel = some i := by
  cases sel with
  | none => simp [indexOf]
  | some j => simp [indexOf]

lemma indexOf_eq_neg {sel : Option ℕ} : indexOf sel = -1 ↔ sel = none := by
  cases sel with
  | none => simp [indexOf]
  | some j => simp [indexOf]

lemma isAnswer_indexOf_iff {b : ℕ} {t : ℤ} {whence : Whence} {is : List ℕ}
    (hsorted : is.Pairwise (· ≤ ·)) (hlt : ∀ c ∈ is, c < slots.length)
    (hkey : ∀ i j, i < slots.length → j < slots.length → Qualifies cfg slots t whence i →
      Qualifies cfg slots t whence j → Preferred b whence i j →
      searchKey cfg slots whence j ≤ searchKey cfg slots whence i) :
    IsAnswer cfg slots b t whence (indexOf (Bisect.firstBest (Qualifies cfg slots t whence)
      (searchKey cfg slots whence) is)) ↔ Reachable cfg slots b t whence is := by
  constructor
  · rintro (⟨-, hno⟩ | ⟨i, hres, hbest⟩)
    · exact Or.inl hno
    · rw [indexOf_eq_natCast, Bisect.firstBest_isBest_iff hsorted hlt hkey hbest] at hres
      exact Or.inr ⟨i, hres.1, hbest, hres.2⟩
  · rintro (hno | ⟨a, ha, hbest, hfirst⟩)
    · refine Or.inl ⟨?_, hno⟩
      rw [indexOf_eq_neg, Bisect.firstBest_eq_none_iff hsorted]
      exact fun c hc => hno c (hlt c hc)
    · refine Or.inr ⟨a, ?_, hbest⟩
      rw [indexOf_eq_natCast, Bisect.firstBest_isBest_iff hsorted hlt hkey hbest]
      exact ⟨ha, hfirst⟩

section Answer

variable {b L p : ℕ}

/-- The examined slots are in order, -/
lemma examined_sorted (κ : ℤ) (hL1 : 1 ≤ L) :
    (examined L (Bisect.lastProbe L κ)).Pairwise (· ≤ ·) := by
  rcases hL1.eq_or_lt with rfl | hL2
  · simp
  · obtain ⟨h0, hpL⟩ := Bisect.lastProbe_inside κ hL2
    rw [examined_of_two_le hL2]
    simp only [List.pairwise_cons, List.mem_cons, List.not_mem_nil, or_false, forall_eq_or_imp,
      forall_eq, List.Pairwise.nil, false_imp_iff, implies_true, and_true]
    omega

/-- and each is a slot of the file. -/
lemma lt_of_mem_examined {κ : ℤ} (hL : slots.length = L + 1) (hL1 : 1 ≤ L) {i : ℕ}
    (hi : i ∈ examined L (Bisect.lastProbe L κ)) : i < slots.length := by
  rcases hL1.eq_or_lt with rfl | hL2
  · simp at hi
    omega
  · obtain ⟨h0, hpL⟩ := Bisect.lastProbe_inside κ hL2
    rw [mem_examined_iff hL2] at hi
    omega

/-- A preferred slot is not judged by a worse time. -/
lemma searchKey_le (hspan : ∀ i < slots.length, startAt cfg slots i ≤ endAt cfg slots i)
    (hord : ∀ i j, i < slots.length → j < slots.length → Rotated.Older b i j →
      startAt cfg slots i < startAt cfg slots j ∧ endAt cfg slots i ≤ startAt cfg slots j)
    {whence : Whence} (hw : whence ≠ .within) (hw' : ∀ code, whence ≠ .other code) {i j : ℕ}
    (hi : i < slots.length) (hj : j < slots.length) (hpref : Preferred b whence i j) :
    searchKey cfg slots whence j ≤ searchKey cfg slots whence i := by
  cases whence with
  | beforeExclusive => exact (hord j i hj hi hpref).2.trans (hspan i hi)
  | beforeInclusive => exact (hord j i hj hi hpref).1.le
  | within => exact absurd rfl hw
  | afterInclusive => exact neg_le_neg ((hord i j hi hj hpref).2.trans (hspan j hj))
  | afterExclusive => exact neg_le_neg (hord i j hi hj hpref).1.le
  | other code => exact absurd rfl (hw' code)

lemma spansTime_iff (hsign : TrueSign cfg.plat.longBits) (time : StdTime2) {i : ℕ}
    {info : RecordInfo n} (h : InfoAt cfg slots i info) :
    spansTime cfg time info = true ↔ Qualifies cfg slots time.instant .within i := by
  have hstart := hsign info.header.recStart time
  have hend := hsign info.header.recEnd time
  simp only [spansTime, Bool.and_eq_true, decide_eq_true_eq, Qualifies, ← h.start, ← h.end]
  omega

/-- `within` reports the pivot, or the slot of a neighbour, that contains the time. -/
lemma selectIndex_within (hsign : TrueSign cfg.plat.longBits) {time : StdTime2} {i j k : ℕ}
    {before this after : RecordInfo n}
    (hinfos : List.Forall₂ (InfoAt cfg slots) [i, j, k] [before, this, after]) :
    selectIndex cfg time p before this after .within = .ok
      (if Qualifies cfg slots time.instant .within j then (p : ℤ)
      else if Qualifies cfg slots time.instant .within i then (i : ℤ)
      else if Qualifies cfg slots time.instant .within k then (k : ℤ) else -1) := by
  simp only [List.forall₂_cons, List.forall₂_nil_left_iff, and_true] at hinfos
  obtain ⟨hi, hj, hk⟩ := hinfos
  simp only [selectIndex, spansTime_iff hsign time hi, spansTime_iff hsign time hj,
    spansTime_iff hsign time hk, hi.index, hk.index]

/-- With three examined slots around the pivot, `within` is right when one of them contains
the time or none of all slots does. -/
lemma isAnswer_within_iff {t : ℤ} (hp0 : 0 < p) (hpL : p + 1 < slots.length)
    (hinj : ∀ i j, i < slots.length → j < slots.length →
      startAt cfg slots i = startAt cfg slots j → i = j) :
    IsAnswer cfg slots b t .within
        (if Qualifies cfg slots t .within p then (p : ℤ)
        else if Qualifies cfg slots t .within (p - 1) then ((p - 1 : ℕ) : ℤ)
        else if Qualifies cfg slots t .within (p + 1) then ((p + 1 : ℕ) : ℤ) else -1)
      ↔ Reachable cfg slots b t .within [p - 1, p, p + 1] := by
  have hbest : ∀ i, i < slots.length → Qualifies cfg slots t .within i →
      Bisect.IsBest (Qualifies cfg slots t .within) (Preferred b .within) slots.length i :=
    fun i hi hq => ⟨hi, hq, fun _ _ _ => Or.inr trivial⟩
  have found : ∀ a ∈ [p - 1, p, p + 1], Qualifies cfg slots t .within a →
      Reachable cfg slots b t .within [p - 1, p, p + 1] := by
    intro a ha hq
    have hlt : ∀ c ∈ [p - 1, p, p + 1], c < slots.length := by
      simp only [List.mem_cons, List.not_mem_nil, or_false]
      omega
    exact Or.inr ⟨a, ha, hbest a (hlt a ha) hq,
      fun c hc hca _ heq => hca.ne (hinj c a (hlt c hc) (hlt a ha) heq)⟩
  split_ifs with h1 h2 h3
  · exact ⟨fun _ => found p (by simp) h1, fun _ => Or.inr ⟨p, rfl, hbest p (by omega) h1⟩⟩
  · exact ⟨fun _ => found _ (by simp) h2, fun _ => Or.inr ⟨_, rfl, hbest _ (by omega) h2⟩⟩
  · exact ⟨fun _ => found _ (by simp) h3, fun _ => Or.inr ⟨_, rfl, hbest _ hpL h3⟩⟩
  · constructor
    · rintro (⟨-, hno⟩ | ⟨i, hi, -⟩)
      · exact Or.inl hno
      · omega
    · rintro (hno | ⟨a, ha, hbest', -⟩)
      · exact Or.inl ⟨rfl, hno⟩
      · simp only [List.mem_cons, List.not_mem_nil, or_false] at ha
        rcases ha with rfl | rfl | rfl
        · exact absurd hbest'.qualifies h2
        · exact absurd hbest'.qualifies h1
        · exact absurd hbest'.qualifies h3

/-- Of two records `within` looks at the second one and reports the first. -/
lemma isAnswer_within_two_iff {t : ℤ} (hlen : slots.length = 2) :
    IsAnswer cfg slots b t .within (if Qualifies cfg slots t .within 1 then 0 else -1)
      ↔ (Qualifies cfg slots t .within 0 ↔ Qualifies cfg slots t .within 1) := by
  split_ifs with h1
  · constructor
    · rintro (⟨h, -⟩ | ⟨i, hi, hbest⟩)
      · omega
      · obtain rfl : i = 0 := by omega
        exact ⟨fun _ => h1, fun _ => hbest.qualifies⟩
    · intro h
      exact Or.inr ⟨0, rfl, by omega, h.mpr h1, fun _ _ _ => Or.inr trivial⟩
  · constructor
    · rintro (⟨-, hno⟩ | ⟨i, hi, -⟩)
      · exact ⟨fun h0 => absurd h0 (hno 0 (by omega)), fun h => absurd h h1⟩
      · omega
    · intro h
      refine Or.inl ⟨rfl, fun i hi => ?_⟩
      rcases (show i = 0 ∨ i = 1 by omega) with rfl | rfl
      · exact fun h0 => h1 (h.mp h0)
      · exact h1

lemma isAnswer_of_empty (hlen : slots.length = 0) (t : ℤ) (whence : Whence) :
    IsAnswer cfg slots b t whence (-1) := by
  refine Or.inl ⟨rfl, fun i hi => ?_⟩
  rw [hlen] at hi
  exact absurd hi (Nat.not_lt_zero i)

lemma isAnswer_of_single_iff (hlen : slots.length = 1) {t : ℤ} {whence : Whence} :
    IsAnswer cfg slots b t whence 0 ↔ Qualifies cfg slots t whence 0 := by
  constructor
  · rintro (⟨h, -⟩ | ⟨i, hi, hbest⟩)
    · omega
    · obtain rfl : i = 0 := by omega
      exact hbest.qualifies
  · intro hq
    refine Or.inr ⟨0, rfl, by omega, hq, fun j hj _ => Or.inl ?_⟩
    rw [hlen] at hj
    omega

/-- What the search for the best record reports, in a loop whose starts increase with age. -/
lemma adlLocateIndex_eq (hsign : TrueSign cfg.plat.longBits) (hload : Loads ctx slots)
    (hL : slots.length = L + 1) (hL1 : 1 ≤ L) (hb : b ≤ L)
    (hincr : Rotated.Increasing (startAt cfg slots) L b) {time : StdTime2} {κ : ℤ}
    (hκ : Rotated.Position (startAt cfg slots) L b time.instant κ) {whence : Whence}
    (hw : whence ≠ .within) (hw' : ∀ code, whence ≠ .other code) (index : ℤ) :
    (adlLocateIndex cfg ctx time whence index).2 = indexOf (Bisect.firstBest
      (Qualifies cfg slots time.instant whence) (searchKey cfg slots whence)
      (examined L (Bisect.lastProbe L κ))) := by
  obtain ⟨before, this, after, hres, hinfos⟩ := locateIndex_eq hsign hload hL hL1 time whence
    (Rotated.loop_dir hincr hb hκ)
  simp only [adlLocateIndex, hres.trans (selectIndex_eq hsign hinfos hw hw')]

/-- `within` in such a loop of two records, and of more. -/
lemma adlLocateIndex_within_iff (hsign : TrueSign cfg.plat.longBits) (hload : Loads ctx slots)
    (hL : slots.length = L + 1) (hL1 : 1 ≤ L) (hb : b ≤ L)
    (hincr : Rotated.Increasing (startAt cfg slots) L b) {time : StdTime2} {κ : ℤ}
    (hκ : Rotated.Position (startAt cfg slots) L b time.instant κ) (index : ℤ) :
    IsAnswer cfg slots b time.instant .within (adlLocateIndex cfg ctx time .within index).2 ↔
      if L = 1 then
        (Qualifies cfg slots time.instant .within 0 ↔ Qualifies cfg slots time.instant .within 1)
      else Reachable cfg slots b time.instant .within (examined L (Bisect.lastProbe L κ)) := by
  obtain ⟨before, this, after, hres, hinfos⟩ := locateIndex_eq hsign hload hL hL1 time .within
    (Rotated.loop_dir hincr hb hκ)
  rcases hL1.eq_or_lt with rfl | hL2
  · rw [examined_one] at hinfos
    rw [if_pos rfl, ← isAnswer_within_two_iff (b := b) hL]
    simp only [adlLocateIndex, hres.trans (selectIndex_within hsign hinfos)]
    split_ifs <;> rfl
  · obtain ⟨hp0, hpL⟩ := Bisect.lastProbe_inside κ hL2
    rw [examined_of_two_le hL2] at hinfos
    rw [if_neg (by omega), examined_of_two_le hL2]
    simp only [adlLocateIndex, hres.trans (selectIndex_within hsign hinfos)]
    exact isAnswer_within_iff hp0 (by omega)
      fun i j hi hj => hincr.injective (by omega) (by omega)

end Answer

/-- **The search by time.** For a loop of any number of records in ring order, any time and any
of the five relations, `adl_locate_index` reports the linear answer exactly when its search
reaches it. -/
theorem adlLocateIndex_isAnswer_iff (hsign : TrueSign cfg.plat.longBits)
    (hload : Loads ctx slots) {b : ℕ} (hb : slots ≠ [] → b < slots.length)
    (horder : InTimeOrder cfg (slots.rotate (b + 1))) (time : StdTime2) (whence : Whence)
    (hw : ∀ code, whence ≠ .other code) (index : ℤ) :
    IsAnswer cfg slots b time.instant whence (adlLocateIndex cfg ctx time whence index).2
      ↔ SearchReaches cfg slots b time.instant whence := by
  rcases hlen : slots.length with _ | _ | L
  · simp only [adlLocateIndex_of_empty hload hlen, SearchReaches, hlen, iff_true]
    exact isAnswer_of_empty hlen _ _
  · simp only [adlLocateIndex_of_single hload hlen, SearchReaches, hlen]
    exact isAnswer_of_single_iff hlen
  · have hbL : b < slots.length := hb (by rintro rfl; simp at hlen)
    obtain ⟨hspan, hord⟩ := horder.inSlots hbL
    have hincr : Rotated.Increasing (startAt cfg slots) (L + 1) b :=
      fun i j hi hj ho => (hord i j (by omega) (by omega) ho).1
    obtain ⟨κ, hκ⟩ := Rotated.exists_position (s := startAt cfg slots)
      (show b ≤ L + 1 by omega) time.instant
    have hreach : (∃ κ', Rotated.Position (startAt cfg slots) (L + 1) b time.instant κ' ∧
        Reachable cfg slots b time.instant whence
          (examined (L + 1) (Bisect.lastProbe (L + 1) κ')))
        ↔ Reachable cfg slots b time.instant whence
          (examined (L + 1) (Bisect.lastProbe (L + 1) κ)) :=
      ⟨fun ⟨κ', hκ', hr⟩ => Rotated.lastProbe_eq hincr (by omega) hκ' hκ ▸ hr,
        fun h => ⟨κ, hκ, h⟩⟩
    simp only [SearchReaches, hlen, hreach]
    by_cases hwithin : whence = .within
    · subst hwithin
      simp only [adlLocateIndex_within_iff hsign hload hlen (by omega) (by omega) hincr hκ,
        Nat.add_eq_right, and_true]
    · rw [adlLocateIndex_eq hsign hload hlen (by omega) (by omega) hincr hκ hwithin hw,
        if_neg fun h => hwithin h.2]
      exact isAnswer_indexOf_iff (examined_sorted κ (by omega))
        (fun i hi => lt_of_mem_examined hlen (by omega) hi)
        fun i j hi hj _ _ => searchKey_le hspan hord hwithin hw hi hj

/-- Four records, the newest in slot 1. -/
def wrappedSlots : List (Record 512) :=
  [logRecord 0 30, logRecord 0 40, logRecord 0 10, logRecord 0 20]

lemma loads_sampleLoop (hn : 0 < n) {slots : List (Record n)} {capacity : ℤ}
    (hcap : slots.length ≤ capacity) : Loads (sampleLoop capacity slots) slots :=
  ⟨Blocks.holds_layout hn slots, hcap⟩

lemma length_wrappedSlots : wrappedSlots.length = 4 := rfl

lemma length_wrappedSlots_le : (wrappedSlots.length : ℤ) ≤ 4 := by
  rw [length_wrappedSlots]
  rfl

lemma loads_wrappedSlots : Loads (sampleLoop 4 wrappedSlots) wrappedSlots :=
  loads_sampleLoop (by omega) length_wrappedSlots_le

lemma inTimeOrder_wrappedSlots : InTimeOrder hostConfig (wrappedSlots.rotate (1 + 1)) := by
  decide +kernel

/-- A time between the last and the first slot. -/
def seamTime : StdTime2 := ⟨2000, 1, 0, 0, 25, 0⟩

theorem adlLocateIndex_isAnswer_iff_wrapped :
    IsAnswer hostConfig wrappedSlots 1 seamTime.instant .beforeInclusive
        (adlLocateIndex hostConfig (sampleLoop 4 wrappedSlots) seamTime .beforeInclusive 0).2
      ↔ SearchReaches hostConfig wrappedSlots 1 seamTime.instant .beforeInclusive :=
  adlLocateIndex_isAnswer_iff trueSign_hostConfig loads_wrappedSlots
    (fun _ => length_wrappedSlots ▸ (by omega : 1 < 4)) inTimeOrder_wrappedSlots seamTime
    .beforeInclusive (fun _ h => Whence.noConfusion h) 0

/-- The oldest record that ends at or after that time is in slot 0; the search reports slot 1. -/
theorem adlLocateIndex_misses_seam :
    Loads (sampleLoop 4 wrappedSlots) wrappedSlots ∧
      InTimeOrder hostConfig (wrappedSlots.rotate (1 + 1)) ∧
      (adlLocateIndex hostConfig (sampleLoop 4 wrappedSlots) seamTime .afterInclusive 0).2 = 1 ∧
      ¬ IsAnswer hostConfig wrappedSlots 1 seamTime.instant .afterInclusive 1 := by
  refine ⟨loads_wrappedSlots, inTimeOrder_wrappedSlots, by decide +kernel, ?_⟩
  rintro (⟨h, -⟩ | ⟨i, hi, hbest⟩)
  · omega
  · obtain rfl : i = 1 := by omega
    have h0 : Qualifies hostConfig wrappedSlots seamTime.instant .afterInclusive 0 := by
      decide +kernel
    rcases hbest.best 0 (length_wrappedSlots ▸ (by omega : 0 < 4)) h0 with h | h
    · omega
    · exact absurd h (by unfold Preferred; decide)

end StationProcessor
