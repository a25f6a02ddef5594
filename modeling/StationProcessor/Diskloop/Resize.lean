import StationProcessor.Diskloop.Reopen

/-!
# Resizing a disk loop

`dlresize` on one pair of index and buffer files, with the number of records the configuration
gives the channel. It changes the capacity in the index file, cuts the buffer file behind the
newest record, or leaves both files alone. A valid loop stays one unless its newest record is in
the last slot of the new size while others are behind it, or, truncating, in the slot after.
-/

namespace StationProcessor

variable {n c : ℕ}

/-! ### The program -/

/-- `iMaxLoopSize`, the most records `ParseDiskLoopConfig` accepts for a loop. -/
def maxLoopSize (n : ℕ) : ℤ := 2147483647 / n - 2

/-- `truncate`, which fails on a negative length and fills a file that is too short. -/
def truncateFile (file : Bytes) (length : ℤ) : Option Bytes :=
  if length < 0 then none
  else some ((file.rightpad length.toNat 0).take length.toNat)

/-- The three index lines over the start of the index file. -/
def rewriteIndex (idx : Bytes) (index capacity : ℤ) : Bytes :=
  indexImage index capacity ++ idx.drop 93

/-- `dlresize` on the files of one channel; an error is the message before `exit(1)`, without
the place in the source. -/
def resizeLoop (cfg : Config n) (ch : Channel) (bTruncate : Bool) (configNumrecords : ℤ)
    (files : ChannelFiles) : Except String ChannelFiles :=
  match files.idx with
  | none => .error ("fopen(" ++ ch.indexName ++ ") call failed!")
  | some idx =>
    match parseIndexInfo cfg.plat idx with
    | .error err => .error ("ParseIndexInfo() call failed: " ++ err)
    | .ok (iIndexRecord, idxNumrecords) =>
      if idxNumrecords = configNumrecords then .ok files
      else
        match files.buf with
        | none => .error ("fopen(" ++ ch.loopName ++ ") call failed!")
        | some buf =>
          let bufNumrecords : ℤ := buf.length / n
          if (bufNumrecords < idxNumrecords ∧ configNumrecords ≥ bufNumrecords) ∨
              iIndexRecord = configNumrecords - 1 then
            .ok ⟨some buf, some (rewriteIndex idx iIndexRecord configNumrecords)⟩
          else if bTruncate then
            let configNumrecords :=
              if iIndexRecord > configNumrecords then iIndexRecord + 1 else configNumrecords
            match truncateFile buf ((iIndexRecord + 1) * n) with
            | none => .error ("truncate(" ++ ch.loopName ++ ") call failed!")
            | some buf =>
              .ok ⟨some buf, some (rewriteIndex idx iIndexRecord configNumrecords)⟩
          else .ok files

/-! ### Valid results -/

/-- The files hold a ring of some capacity, with the newest values of the given one in their
order. -/
def KeepsNewest (plat : Platform) (ring : SlotRing (Record n) c) (files : ChannelFiles) : Prop :=
  ∃ (capacity : ℕ) (kept : SlotRing (Record n) capacity) (idx : Bytes),
    files = ⟨some (Blocks.layout kept.slots), some idx⟩ ∧
      parseIndexInfo plat idx = .ok ((kept.newest : ℤ), (capacity : ℤ)) ∧
      kept.toList <:+ ring.toList

/-- `dlresize` runs to its end and leaves a pair of files that is unchanged or valid. -/
def ResizedRight (cfg : Config n) (ch : Channel) (ring : SlotRing (Record n) c) (bTruncate : Bool)
    (configNumrecords : ℤ) : Prop :=
  let files := loopFiles ring.slots ring.newest c
  ∃ files', resizeLoop cfg ch bTruncate configNumrecords files = .ok files' ∧
    (files' = files ∨ KeepsNewest cfg.plat ring files')

/-! ### On the files of a closed loop -/

variable {cfg : Config n} {ch : Channel} {ring : SlotRing (Record n) c} {bTruncate : Bool}

lemma maxLoopSize_lt (n : ℕ) : maxLoopSize n < 2147483647 := by
  have hdiv : (2147483647 : ℤ) / n ≤ 2147483647 := Int.ediv_le_self _ (by norm_num)
  rw [maxLoopSize]
  linarith

/-- The file is cut behind a slot. -/
lemma truncateFile_layout (slots : List (Record n)) {i : ℕ} (hi : i < slots.length) :
    truncateFile (Blocks.layout slots) (((i : ℤ) + 1) * n)
      = some (Blocks.layout (slots.take (i + 1))) := by
  have hlength : ((i : ℤ) + 1) * n = ((i + 1) * n : ℕ) := by push_cast; ring
  have hle : (i + 1) * n ≤ (Blocks.layout slots).length := by
    rw [Blocks.length_layout]
    exact Nat.mul_le_mul_right n hi
  have hcut : Blocks.layout slots
      = Blocks.layout (slots.take (i + 1)) ++ Blocks.layout (slots.drop (i + 1)) := by
    rw [← Blocks.layout_append, List.take_append_drop]
  rw [truncateFile, if_neg (by rw [hlength]; exact not_lt.mpr (Int.natCast_nonneg _)), hlength,
    Int.toNat_natCast, List.rightpad, Nat.sub_eq_zero_of_le hle, List.replicate_zero,
    List.append_nil, hcut, Blocks.take_append_of_length (Blocks.length_layout_take slots hi)]

/-- What `dlresize` makes of the files of a closed loop. -/
lemma resizeLoop_loopFiles (cfg : Config n) (ch : Channel) (ring : SlotRing (Record n) c)
    (bTruncate : Bool) (hc : (c : ℤ) ≤ maxLoopSize n) {k : ℕ} (hne : k ≠ c) :
    resizeLoop cfg ch bTruncate k (loopFiles ring.slots ring.newest c)
      = if (ring.slots.length < c ∧ ring.slots.length ≤ k) ∨ ring.newest + 1 = k then
          .ok ⟨some (Blocks.layout ring.slots), some (indexImage ring.newest k)⟩
        else if bTruncate then
          .ok ⟨some (Blocks.layout (ring.slots.take (ring.newest + 1))),
            some (indexImage ring.newest (if k < ring.newest then ring.newest + 1 else k))⟩
        else .ok (loopFiles ring.slots ring.newest c) := by
  have hmax := maxLoopSize_lt n
  have hnewest := ring.newest_lt
  have hle := ring.length_le
  have hparse : parseIndexInfo cfg.plat (indexImage ring.newest c)
      = .ok ((ring.newest : ℤ), (c : ℤ)) :=
    parseIndexInfo_indexImage cfg.plat (by omega) (by omega) (by omega)
  have hrewrite : ∀ index capacity : ℤ,
      rewriteIndex (indexImage ring.newest c) index capacity = indexImage index capacity := by
    intro index capacity
    rw [rewriteIndex, List.drop_eq_nil_of_le (length_indexImage _ _).le, List.append_nil]
  have hcase : ((ring.slots.length : ℤ) < c ∧ (k : ℤ) ≥ ring.slots.length) ∨
      (ring.newest : ℤ) = k - 1 ↔
        (ring.slots.length < c ∧ ring.slots.length ≤ k) ∨ ring.newest + 1 = k := by
    omega
  simp only [resizeLoop, loopFiles, hparse, Blocks.length_layout_ediv cfg.recordSize_pos,
    truncateFile_layout ring.slots hnewest, hrewrite, hcase]
  rw [if_neg (by exact_mod_cast hne.symm)]
  simp only [gt_iff_lt, Nat.cast_lt]

/-! ### The cases -/

/-- A kept ring fits the capacity of the index file, newest slot and all. -/
lemma KeepsNewest.fits {index capacity : ℤ} {slots : List (Record n)} (hn : 0 < n)
    {plat : Platform} (h0 : -1 ≤ index) (hindex : index < 2147483648) (hcap0 : -1 ≤ capacity)
    (hcap : capacity < 2147483648)
    (h : KeepsNewest plat ring
      ⟨some (Blocks.layout slots), some (indexImage index capacity)⟩) :
    (slots.length : ℤ) ≤ capacity ∧ index < capacity := by
  obtain ⟨capacity', kept, idx, hfiles, hparse, -⟩ := h
  obtain ⟨hbuf, hidx⟩ := ChannelFiles.mk.inj hfiles
  have hread := parseIndexInfo_of_fits plat h0 hindex hcap0 hcap []
  rw [List.append_nil, Option.some.inj hidx, hparse] at hread
  obtain ⟨hnewest, hcapacity⟩ := Prod.mk.inj (Except.ok.inj hread)
  have hlength := congrArg List.length (Option.some.inj hbuf)
  rw [Blocks.length_layout, Blocks.length_layout] at hlength
  have hslots : slots.length = kept.slots.length := Nat.eq_of_mul_eq_mul_right hn hlength
  have hle := kept.length_le
  have hlt := kept.newest_lt
  constructor
  · rw [hslots, ← hcapacity]
    exact_mod_cast hle
  · rw [← hnewest, ← hcapacity]
    exact_mod_cast hlt.trans_le hle

/-- The untouched files hold the ring itself. -/
lemma keepsNewest_loopFiles (ring : SlotRing (Record n) c) (hc : (c : ℤ) ≤ maxLoopSize n)
    (plat : Platform) :
    KeepsNewest plat ring (loopFiles ring.slots ring.newest c) := by
  have hmax := maxLoopSize_lt n
  have hlt := ring.newest_lt.trans_le ring.length_le
  refine ⟨c, ring, _, rfl, ?_, List.suffix_rfl⟩
  exact parseIndexInfo_indexImage plat (by omega) (by omega) (by omega)

/-- Files that `dlresize` leaves in a right pair fit the new capacity. -/
lemma ResizedRight.fits {configNumrecords index capacity : ℤ} {slots : List (Record n)}
    (hc : (c : ℤ) ≤ maxLoopSize n) (h : ResizedRight cfg ch ring bTruncate configNumrecords)
    (hresize : resizeLoop cfg ch bTruncate configNumrecords
      (loopFiles ring.slots ring.newest c) = .ok ⟨some (Blocks.layout slots),
        some (indexImage index capacity)⟩)
    (h0 : -1 ≤ index) (hindex : index < 2147483648) (hcap0 : -1 ≤ capacity)
    (hcap : capacity < 2147483648) : (slots.length : ℤ) ≤ capacity ∧ index < capacity := by
  obtain ⟨files', hresize', hright⟩ := h
  rw [hresize] at hresize'
  cases hresize'
  have hkeeps : KeepsNewest cfg.plat ring
      ⟨some (Blocks.layout slots), some (indexImage index capacity)⟩ := by
    rcases hright with hsame | hkeeps
    · have hself := keepsNewest_loopFiles ring hc cfg.plat
      rwa [← hsame] at hself
    · exact hkeeps
  exact hkeeps.fits cfg.recordSize_pos h0 hindex hcap0 hcap

/-- A capacity below the stored records breaks the loop. -/
lemma not_resizedRight_of_short (hc : (c : ℤ) ≤ maxLoopSize n) {k : ℕ}
    (hlast : ring.newest + 1 = k) (hshort : k < ring.slots.length) :
    ¬ResizedRight cfg ch ring bTruncate k := by
  have hle := ring.length_le
  have hmax := maxLoopSize_lt n
  intro hright
  have hresize := resizeLoop_loopFiles cfg ch ring bTruncate hc (show k ≠ c by omega)
  rw [if_pos (Or.inr hlast)] at hresize
  have hfits := hright.fits hc hresize (by omega) (by omega) (by omega) (by omega)
  omega

/-- Truncating at the new size breaks the loop when the newest record is right behind it. -/
lemma not_resizedRight_of_behind (hc : (c : ℤ) ≤ maxLoopSize n) {k : ℕ}
    (hbehind : ring.newest = k) : ¬ResizedRight cfg ch ring true k := by
  have hle := ring.length_le
  have hlt := ring.newest_lt
  have hmax := maxLoopSize_lt n
  intro hright
  have hresize := resizeLoop_loopFiles cfg ch ring true hc (show k ≠ c by omega)
  rw [if_neg (by omega), if_pos rfl, if_neg (by omega)] at hresize
  have hfits := hright.fits hc hresize (by omega) (by omega) (by omega) (by omega)
  omega

/-- Any other size keeps it valid. -/
lemma resizedRight_of_apart (hc : (c : ℤ) ≤ maxLoopSize n) {k : ℕ} (hk : (k : ℤ) ≤ maxLoopSize n)
    (hne : k ≠ c) (hlast : ring.newest + 1 = k → ring.slots.length ≤ k)
    (hbehind : bTruncate = true → ring.newest ≠ k) : ResizedRight cfg ch ring bTruncate k := by
  have hle := ring.length_le
  have hlt := ring.newest_lt
  have hfilling := ring.filling
  have hmax := maxLoopSize_lt n
  have hresize := resizeLoop_loopFiles cfg ch ring bTruncate hc hne
  by_cases hgrow : (ring.slots.length < c ∧ ring.slots.length ≤ k) ∨ ring.newest + 1 = k
  · -- all records are kept, in a loop that never wrapped
    rw [if_pos hgrow] at hresize
    have hfill : ring.slots.length < c := by omega
    have hfits : ring.slots.length ≤ k := by omega
    refine ⟨_, hresize, Or.inr ⟨k, ring.resized hfill hfits, _, rfl, ?_, ?_⟩⟩
    · exact parseIndexInfo_indexImage cfg.plat (by omega) (by omega) (by omega)
    · rw [ring.toList_resized]
  rw [if_neg hgrow] at hresize
  by_cases htruncate : bTruncate = true
  · -- the records up to the newest one are kept
    have hapart := hbehind htruncate
    obtain ⟨k', hk', hcast⟩ : ∃ k' : ℕ, ring.newest < k' ∧
        (if k < ring.newest then (ring.newest : ℤ) + 1 else k) = k' ∧ k' ≤ max c k := by
      split_ifs
      · exact ⟨ring.newest + 1, by omega, by push_cast; rfl, by omega⟩
      · exact ⟨k, by omega, rfl, by omega⟩
    rw [if_pos htruncate, hcast.1] at hresize
    refine ⟨_, hresize, Or.inr ⟨k', ring.upToNewest hk', _, rfl, ?_, ?_⟩⟩
    · have hlt' : (ring.newest : ℤ) < k' := by exact_mod_cast hk'
      exact parseIndexInfo_indexImage cfg.plat (by omega) hlt' (by omega)
    · exact ring.toList_upToNewest_suffix hk'
  · rw [if_neg htruncate] at hresize
    exact ⟨_, hresize, Or.inl rfl⟩

/-- **Resizing.** With and without the truncate option, `dlresize` leaves the files of a closed
loop unchanged or valid, with the newest records in their order, exactly when the newest record is
not in the last slot of a new size that is smaller than the number of stored records, and, when it
truncates, not in the slot after the last. -/
theorem dlresize_keeps_iff (cfg : Config n) (ch : Channel) (ring : SlotRing (Record n) c)
    (hc : (c : ℤ) ≤ maxLoopSize n) (bTruncate : Bool) {k : ℕ} (hk : (k : ℤ) ≤ maxLoopSize n)
    (hne : k ≠ c) :
    ResizedRight cfg ch ring bTruncate k ↔
      ¬(ring.newest + 1 = k ∧ k < ring.slots.length) ∧ ¬(bTruncate = true ∧ ring.newest = k) := by
  constructor
  · intro hright
    constructor
    · rintro ⟨hlast, hshort⟩
      exact not_resizedRight_of_short hc hlast hshort hright
    · rintro ⟨rfl, hbehind⟩
      exact not_resizedRight_of_behind hc hbehind hright
  · rintro ⟨hlast, hbehind⟩
    apply resizedRight_of_apart hc hk hne
    · intro h
      exact not_lt.mp fun hshort => hlast ⟨h, hshort⟩
    · exact fun h hk => hbehind ⟨h, hk⟩

/-- A loop of five records whose newest record is in the fourth slot. -/
def fiveRing : SlotRing (Record 512) 5 where
  slots := [logRecord 0 20, logRecord 0 30, logRecord 0 40, logRecord 0 50, logRecord 0 10]
  newest := 3
  newest_lt := by simp
  length_le := by simp
  filling h := absurd h (by simp)

/-- Enlarging the loop by truncation keeps the four newest records. -/
theorem dlresize_keeps_iff_enlarged :
    ResizedRight hostConfig (sampleChannel 5) fiveRing true (9 : ℕ) := by
  apply (dlresize_keeps_iff hostConfig (sampleChannel 5) fiveRing (by decide) true (by decide)
    (by decide)).mpr
  decide

/-- With four records the capacity is less than what is stored. Truncating a loop to three slots,
the index is that of a fourth. -/
theorem dlresize_breaks :
    ¬ResizedRight hostConfig (sampleChannel 5) fiveRing false (4 : ℕ) ∧
      ¬ResizedRight hostConfig (sampleChannel 5) fiveRing true (3 : ℕ) :=
  ⟨not_resizedRight_of_short (by decide) rfl (by decide), not_resizedRight_of_behind (by decide)
    rfl⟩

end StationProcessor
