import StationProcessor.Diskloop.Open

/-!
# Torn reads of the index file

`adl_write_index` writes the three lines of an index file over the old ones, and another process
may read the file in between. `ParseIndexInfo` should then return what was in the file before or
what is being written to it.
-/

namespace StationProcessor

open Decimal

/-- The file after the first `k` bytes of the new lines are written over the old ones. -/
def tornImage (old new : ℤ × ℤ) (k : ℕ) : Bytes :=
  (indexImage new.1 new.2).take k ++ (indexImage old.1 old.2).drop k

/-- An index and a capacity that `adl_open` accepts. -/
structure ValidIndex (p : ℤ × ℤ) : Prop where
  index : -1 ≤ p.1
  lt : p.1 < p.2
  capacity : p.2 < 2147483648

/-- The digits of the two numbers a line spells that is torn after `k` bytes, which depend on the
numbers of the new and of the old line that the cut falls into or between. Where the line spells
only one number, the other is the first of the old line after it. -/
def tornTexts (old new : ℤ × ℤ) (k : ℕ) : Bytes × Bytes :=
  let index := printInt new.1
  let capacity := printInt new.2
  let oldIndex := printInt old.1
  let oldCapacity := printInt old.2
  if k ≤ index.length then
    if k ≤ oldIndex.length then (index.take k ++ oldIndex.drop k, oldCapacity)
    else (index.take k ++ oldCapacity.drop (k - oldIndex.length - 1), oldIndex)
  else if index.length + 1 + capacity.length < k then (index, capacity)
  else
    let cut := capacity.take (k - index.length - 1)
    if k ≤ oldIndex.length then
      (index, if cut ++ oldIndex.drop k = [] then oldCapacity else cut ++ oldIndex.drop k)
    else
      let rest := oldCapacity.drop (k - oldIndex.length - 1)
      (index, if cut ++ rest = [] then oldIndex else cut ++ rest)

/-- The numbers of that line. -/
def tornPair (plat : Platform) (old new : ℤ × ℤ) (k : ℕ) : Option (ℤ × ℤ) := do
  let flip ← readInt (tornTexts old new k).1
  let max ← readInt (tornTexts old new k).2
  return (intOfScan plat flip, intOfScan plat max)

/-- A cut in the first line makes a pair there that agrees in no number with the old line, or is
the old or the new pair; a cut in the second line does not leave a sign without digits there. -/
structure SafeCut (plat : Platform) (old new : ℤ × ℤ) (k : ℕ) : Prop where
  first : 0 < k → k < 31 → ∃ p ∈ tornPair plat old new k,
    p.1 ≠ old.1 ∧ p.2 ≠ old.2 ∨ p = old ∨ p = new
  second : 31 < k → k < 62 → (tornTexts old new (k - 31)).1 ≠ [45]

variable {plat : Platform} {old new : ℤ × ℤ}

/-! ### Texts of numbers and blanks -/

lemma noDigit_of_blank {ws : Bytes} (hne : ws ≠ []) (hws : ∀ b ∈ ws, isSpace b = true)
    (rest : Bytes) : NoDigit (ws ++ rest) := by
  obtain ⟨b, ws, rfl⟩ := List.exists_cons_of_ne_nil hne
  intro x hx
  obtain rfl : b = x := by simpa using hx
  by_contra hdigit
  have hspace := hws b List.mem_cons_self
  rw [isSpace_of_isDigit (by simpa using hdigit)] at hspace
  cases hspace

/-- Two numbers with blanks between them are scanned. -/
lemma scanPair_of_readInt {t u ws rest : Bytes} {x y : ℤ} (ht : readInt t = some x)
    (hu : readInt u = some y) (hne : ws ≠ []) (hws : ∀ b ∈ ws, isSpace b = true)
    (hrest : NoDigit rest) (hzero : ∀ b ∈ t ++ ws ++ u ++ rest, b ≠ 0) :
    scanPair plat (t ++ ws ++ u ++ rest) = some (intOfScan plat x, intOfScan plat y) := by
  have hfirst : scanInt (t ++ ws ++ u ++ rest) = some (x, ws ++ u ++ rest) := by
    have := scanInt_of_readInt ht (List.forall_mem_nil fun b => isSpace b = true)
      (noDigit_of_blank hne hws (u ++ rest))
    simpa [List.append_assoc] using this
  have hsecond := scanInt_of_readInt hu hws hrest
  rw [scanPair, cString_of_ne_zero hzero, hfirst]
  simp only [bind, Option.bind, hsecond, pure]

/-- A sign before a blank is not. -/
lemma scanPair_of_sign {ws rest : Bytes} (hne : ws ≠ []) (hws : ∀ b ∈ ws, isSpace b = true)
    (hzero : ∀ b ∈ [45] ++ ws ++ rest, b ≠ 0) : scanPair plat ([45] ++ ws ++ rest) = none := by
  have hnodigit : (ws ++ rest).takeWhile isDigit = [] := by
    obtain ⟨b, ws, rfl⟩ := List.exists_cons_of_ne_nil hne
    have := noDigit_of_blank hne hws rest b (by simp)
    simp [this]
  have hfirst : scanInt ([45] ++ ws ++ rest) = none := by
    unfold scanInt
    rw [List.append_assoc, List.singleton_append, List.dropWhile_cons_of_neg (by decide)]
    simp [hnodigit]
  rw [scanPair, cString_of_ne_zero hzero, hfirst]
  rfl

/-- Digits, after a sign or not. -/
def Signed (t : Bytes) : Prop :=
  ∃ b ds, t = b :: ds ∧ (isDigit b = true ∨ b = 45) ∧ ∀ x ∈ ds, isDigit x = true

lemma signed_printInt (a : ℤ) : Signed (printInt a) := by
  have hds : ∀ b ∈ natToDecimal a.natAbs, isDigit b = true :=
    fun b hb => isDigit_of_mem_natToDecimal hb
  unfold printInt
  split_ifs
  · exact ⟨45, _, rfl, Or.inr rfl, hds⟩
  · obtain ⟨d, ds, h⟩ := List.exists_cons_of_ne_nil (natToDecimal_ne_nil a.natAbs)
    rw [h] at hds ⊢
    exact ⟨d, ds, rfl, Or.inl (hds d List.mem_cons_self),
      fun x hx => hds x (List.mem_cons_of_mem d hx)⟩

/-- The digits after the first character. -/
lemma Signed.isDigit_of_mem_drop {t : Bytes} (h : Signed t) {k : ℕ} (hk : 0 < k) :
    ∀ b ∈ t.drop k, isDigit b = true := by
  obtain ⟨b, ds, rfl, -, hds⟩ := h
  obtain ⟨k, rfl⟩ := Nat.exists_eq_add_of_lt hk
  intro x hx
  rw [Nat.zero_add, List.drop_succ_cons] at hx
  exact hds x (List.mem_of_mem_drop hx)

/-- A part of it with digits after it. -/
lemma Signed.take_append {t : Bytes} (h : Signed t) {k : ℕ} (hk : 0 < k) {ds : Bytes}
    (hds : ∀ b ∈ ds, isDigit b = true) : Signed (t.take k ++ ds) := by
  obtain ⟨b, es, rfl, hb, hes⟩ := h
  obtain ⟨k, rfl⟩ := Nat.exists_eq_add_of_lt hk
  refine ⟨b, es.take k ++ ds, by rw [Nat.zero_add, List.take_succ_cons, List.cons_append], hb, ?_⟩
  intro x hx
  rcases List.mem_append.mp hx with hx | hx
  · exact hes x (List.mem_of_mem_take hx)
  · exact hds x hx

/-- Such a text is a number, or a sign alone. -/
lemma Signed.readInt_eq_none_iff {t : Bytes} (h : Signed t) : readInt t = none ↔ t = [45] := by
  refine ⟨fun hnone => ?_, fun heq => by rw [heq]; decide⟩
  obtain ⟨b, ds, rfl, hb | rfl, hds⟩ := h
  · rw [readInt_digits (List.cons_ne_nil b ds)] at hnone
    · cases hnone
    · intro x hx
      rcases List.mem_cons.mp hx with rfl | hx
      · exact hb
      · exact hds x hx
  · by_contra hne
    rw [readInt_neg (fun hnil => hne (by rw [hnil])) hds] at hnone
    cases hnone

lemma isDigit_of_mem_printInt {a : ℤ} (h : 0 ≤ a) : ∀ b ∈ printInt a, isDigit b = true := by
  intro b hb
  rw [printInt, if_neg (by omega)] at hb
  exact isDigit_of_mem_natToDecimal hb

/-! ### The torn line -/

/-- A line: the numbers with a blank between them, and blanks after them. -/
lemma ValidIndex.exists_line {p : ℤ × ℤ} (hp : ValidIndex p) :
    ∃ blanks, indexLine p.1 p.2 = printInt p.1 ++ 32 :: (printInt p.2 ++ blanks) ∧
      blanks ≠ [] ∧ (∀ b ∈ blanks, isSpace b = true) ∧
      (printInt p.1).length + 1 + (printInt p.2).length + blanks.length = 31 := by
  obtain ⟨k, hline⟩ := indexLine_eq (length_printInt_le hp.index (hp.lt.trans hp.capacity))
    (length_printInt_le (hp.index.trans hp.lt.le) hp.capacity)
  refine ⟨_, hline, by simp, ?_, ?_⟩
  · intro b hb
    rcases List.mem_append.mp hb with hb | hb
    · rw [List.eq_of_mem_replicate hb]
      decide
    · rw [List.mem_singleton.mp hb]
      decide
  · have hlength := congrArg List.length hline
    rw [length_indexLine] at hlength
    simp only [List.length_append, List.length_cons] at hlength ⊢
    omega

/-- The old line and a cut of the new one before it: two texts with blanks between them. -/
lemma tornLine_eq (hold : ValidIndex old) (hnew : ValidIndex new) {k : ℕ} (hk : k < 31)
    (tail : Bytes) : ∃ ws rest,
      (indexLine new.1 new.2).take k ++ (indexLine old.1 old.2).drop k
          ++ (indexLine old.1 old.2 ++ tail)
        = (tornTexts old new k).1 ++ ws ++ (tornTexts old new k).2 ++ rest ∧
      ws ≠ [] ∧ (∀ b ∈ ws, isSpace b = true) ∧ NoDigit rest := by
  obtain ⟨P, hlineNew, -, hP, hlengthNew⟩ := hnew.exists_line
  obtain ⟨Q, hlineOld, hQne, hQ, hlengthOld⟩ := hold.exists_line
  rw [hlineNew, hlineOld]
  unfold tornTexts
  generalize printInt new.1 = index at *
  generalize printInt new.2 = capacity at *
  generalize printInt old.1 = oldIndex at *
  generalize printInt old.2 = oldCapacity at *
  have hQpos := List.length_pos_iff.mpr hQne
  have hblank : ∀ b ∈ [(32 : UInt8)], isSpace b = true := List.forall_mem_singleton.mpr rfl
  have hdigit : ∀ t : Bytes, NoDigit (32 :: t) := noDigit_of_blank (by simp) hblank
  -- the rest of the old line, where the cut is in it
  have hrest : k ≤ oldIndex.length → (oldIndex ++ 32 :: (oldCapacity ++ Q)).drop k
      = oldIndex.drop k ++ 32 :: (oldCapacity ++ Q) := List.drop_append_of_le_length
  have hrest' : oldIndex.length < k → ∃ R, R ≠ [] ∧ (∀ b ∈ R, isSpace b = true) ∧
      (oldIndex ++ 32 :: (oldCapacity ++ Q)).drop k
        = oldCapacity.drop (k - oldIndex.length - 1) ++ R := by
    intro hlt
    refine ⟨Q.drop (k - oldIndex.length - 1 - oldCapacity.length), ?_,
      fun b hb => hQ b (List.mem_of_mem_drop hb), ?_⟩
    · rw [ne_eq, List.drop_eq_nil_iff]
      omega
    · rw [List.drop_append, List.drop_eq_nil_of_le hlt.le, List.nil_append,
        show k - oldIndex.length = (k - oldIndex.length - 1) + 1 by omega, List.drop_succ_cons,
        List.drop_append]
      simp only [Nat.add_sub_cancel]
  rcases le_or_gt k index.length with hindex | hindex
  · rw [if_pos hindex, List.take_append_of_le_length hindex]
    rcases le_or_gt k oldIndex.length with hj | hj
    · rw [if_pos hj, hrest hj]
      exact ⟨[32], Q ++ (oldIndex ++ 32 :: (oldCapacity ++ Q) ++ tail), by simp, by simp, hblank,
        noDigit_of_blank hQne hQ _⟩
    · obtain ⟨R, hRne, hR, hdrop⟩ := hrest' hj
      rw [if_neg hj.not_ge, hdrop]
      exact ⟨R, 32 :: (oldCapacity ++ Q ++ tail), by simp, hRne, hR, hdigit _⟩
  rw [if_neg hindex.not_ge]
  rcases lt_or_ge (index.length + 1 + capacity.length) k with hwhole | hcut
  · -- the new capacity is whole
    have htake : (index ++ 32 :: (capacity ++ P)).take k
        = index ++ 32 :: (capacity ++ P.take (k - index.length - 1 - capacity.length)) := by
      rw [List.take_append, List.take_of_length_le hindex.le,
        show k - index.length = (k - index.length - 1) + 1 by omega, List.take_succ_cons,
        List.take_append, List.take_of_length_le (by omega : capacity.length ≤ _)]
      simp only [Nat.add_sub_cancel]
    have hPne : P.take (k - index.length - 1 - capacity.length) ≠ [] := by
      rw [← List.length_pos_iff, List.length_take]
      omega
    rw [if_pos hwhole, htake]
    refine ⟨[32], P.take (k - index.length - 1 - capacity.length)
      ++ ((oldIndex ++ 32 :: (oldCapacity ++ Q)).drop k
        ++ (oldIndex ++ 32 :: (oldCapacity ++ Q) ++ tail)), by simp, by simp, hblank,
      noDigit_of_blank hPne (fun b hb => hP b (List.mem_of_mem_take hb)) _⟩
  · have htake : (index ++ 32 :: (capacity ++ P)).take k
        = index ++ 32 :: capacity.take (k - index.length - 1) := by
      rw [List.take_append, List.take_of_length_le hindex.le,
        show k - index.length = (k - index.length - 1) + 1 by omega, List.take_succ_cons,
        List.take_append_of_le_length (by omega)]
      simp only [Nat.add_sub_cancel]
    rw [if_neg hcut.not_gt, htake]
    dsimp only
    rcases le_or_gt k oldIndex.length with hj | hj
    · rw [if_pos hj, hrest hj]
      split_ifs with hnil
      · rw [List.append_eq_nil_iff] at hnil
        rw [hnil.1, hnil.2]
        exact ⟨[32, 32], Q ++ (oldIndex ++ 32 :: (oldCapacity ++ Q) ++ tail), by simp, by simp,
          List.forall_mem_cons.mpr ⟨rfl, hblank⟩, noDigit_of_blank hQne hQ _⟩
      · exact ⟨[32], 32 :: (oldCapacity ++ Q ++ (oldIndex ++ 32 :: (oldCapacity ++ Q) ++ tail)),
          by simp, by simp, hblank, hdigit _⟩
    · obtain ⟨R, hRne, hR, hdrop⟩ := hrest' hj
      rw [if_neg hj.not_ge, hdrop]
      split_ifs with hnil
      · rw [List.append_eq_nil_iff] at hnil
        rw [hnil.1, hnil.2]
        refine ⟨32 :: R, 32 :: (oldCapacity ++ Q ++ tail), by simp, by simp, ?_, hdigit _⟩
        exact List.forall_mem_cons.mpr ⟨by decide, hR⟩
      · exact ⟨[32], R ++ (oldIndex ++ 32 :: (oldCapacity ++ Q) ++ tail), by simp, by simp, hblank,
          noDigit_of_blank hRne hR _⟩

/-- The texts of a torn line are numbers, but for a sign alone in the place of the index. -/
lemma tornTexts_signed (hold : ValidIndex old) (hnew : ValidIndex new) {k : ℕ} (hk : 0 < k) :
    Signed (tornTexts old new k).1 ∧ (readInt (tornTexts old new k).2).isSome = true := by
  have hindex := signed_printInt new.1
  have holdIndex := signed_printInt old.1
  have hcapacity : ∀ b ∈ printInt new.2, isDigit b = true :=
    isDigit_of_mem_printInt (by have := hnew.index; have := hnew.lt; omega)
  have holdCapacity : ∀ b ∈ printInt old.2, isDigit b = true :=
    isDigit_of_mem_printInt (by have := hold.index; have := hold.lt; omega)
  -- a text in the place of the capacity is digits
  have hcut : ∀ {m : ℕ} {ds : Bytes}, (printInt new.2).take m ++ ds ≠ [] →
      (∀ b ∈ ds, isDigit b = true) →
      (readInt ((printInt new.2).take m ++ ds)).isSome = true := by
    intro m ds hne hds
    rw [readInt_digits hne fun b hb => ?_]
    · rfl
    · rcases List.mem_append.mp hb with hb | hb
      · exact hcapacity b (List.mem_of_mem_take hb)
      · exact hds b hb
  have hsome : ∀ a : ℤ, (readInt (printInt a)).isSome = true := fun a => by
    rw [readInt_printInt]
    rfl
  unfold tornTexts
  dsimp only
  split_ifs with _ _ _ _ hnil hnil
  · exact ⟨hindex.take_append hk (holdIndex.isDigit_of_mem_drop hk), hsome _⟩
  · exact ⟨hindex.take_append hk fun b hb => holdCapacity b (List.mem_of_mem_drop hb), hsome _⟩
  · exact ⟨hindex, hsome _⟩
  · exact ⟨hindex, hsome _⟩
  · exact ⟨hindex, hcut hnil (holdIndex.isDigit_of_mem_drop hk)⟩
  · exact ⟨hindex, hsome _⟩
  · exact ⟨hindex, hcut hnil fun b hb => holdCapacity b (List.mem_of_mem_drop hb)⟩

/-- Scanning a torn line gives its pair. -/
lemma scanPair_tornLine (plat : Platform) (hold : ValidIndex old) (hnew : ValidIndex new) {k : ℕ}
    (hk : 0 < k) (hk' : k < 31) (tail : Bytes)
    (hzero : ∀ b ∈ (indexLine new.1 new.2).take k ++ (indexLine old.1 old.2).drop k
      ++ (indexLine old.1 old.2 ++ tail), b ≠ 0) :
    scanPair plat ((indexLine new.1 new.2).take k ++ (indexLine old.1 old.2).drop k
      ++ (indexLine old.1 old.2 ++ tail)) = tornPair plat old new k := by
  obtain ⟨ws, rest, heq, hne, hws, hrest⟩ := tornLine_eq hold hnew hk' tail
  obtain ⟨hsigned, hsecond⟩ := tornTexts_signed hold hnew hk
  rw [heq] at hzero ⊢
  obtain ⟨y, hy⟩ := Option.isSome_iff_exists.mp hsecond
  cases hx : readInt (tornTexts old new k).1 with
  | none =>
    rw [hsigned.readInt_eq_none_iff.mp hx, List.append_assoc _ _ rest] at hzero ⊢
    rw [scanPair_of_sign hne hws hzero, tornPair, hx]
    rfl
  | some x =>
    rw [scanPair_of_readInt hx hy hne hws hrest hzero, tornPair, hx, hy]
    rfl

/-! ### The torn file -/

lemma tornImage_ne_zero (hold : ValidIndex old) (hnew : ValidIndex new) (k : ℕ) :
    ∀ b ∈ tornImage old new k, b ≠ 0 := by
  have hline : ∀ p : ℤ × ℤ, ValidIndex p → ∀ b ∈ indexImage p.1 p.2, b ≠ 0 := by
    intro p hp b hb
    have hne := indexLine_ne_zero p.1 p.2 (length_printInt_le hp.index (hp.lt.trans hp.capacity))
      (length_printInt_le (hp.index.trans hp.lt.le) hp.capacity)
    simp only [indexImage, List.mem_append, or_self] at hb
    exact hne b hb
  intro b hb
  rcases List.mem_append.mp hb with hb | hb
  · exact hline new hnew b (List.mem_of_mem_take hb)
  · exact hline old hold b (List.mem_of_mem_drop hb)

/-- The lines of a torn file, by the line the cut is in. -/
lemma tornImage_first (old new : ℤ × ℤ) {k : ℕ} (hk : k ≤ 31) : tornImage old new k
    = (indexLine new.1 new.2).take k ++ (indexLine old.1 old.2).drop k
      ++ (indexLine old.1 old.2 ++ indexLine old.1 old.2) := by
  have hlength := length_indexLine new.1 new.2
  have hlength' := length_indexLine old.1 old.2
  unfold tornImage indexImage
  rw [List.append_assoc, List.append_assoc, List.take_append_of_le_length (by omega),
    List.drop_append_of_le_length (by omega), List.append_assoc]

lemma tornImage_second (old new : ℤ × ℤ) {k : ℕ} (hk : k ≤ 31) : tornImage old new (31 + k)
    = indexLine new.1 new.2 ++ ((indexLine new.1 new.2).take k ++ (indexLine old.1 old.2).drop k
      ++ indexLine old.1 old.2) := by
  have hlength := length_indexLine new.1 new.2
  have hlength' := length_indexLine old.1 old.2
  have htake : (indexImage new.1 new.2).take (31 + k)
      = indexLine new.1 new.2 ++ (indexLine new.1 new.2).take k := by
    rw [indexImage, List.append_assoc, ← hlength, List.take_length_add_append,
      List.take_append_of_le_length (by omega)]
  have hdrop : (indexImage old.1 old.2).drop (31 + k)
      = (indexLine old.1 old.2).drop k ++ indexLine old.1 old.2 := by
    rw [indexImage, List.append_assoc, ← hlength', List.drop_length_add_append,
      List.drop_append_of_le_length (by omega)]
  rw [tornImage, htake, hdrop]
  simp only [List.append_assoc]

lemma tornImage_third (old new : ℤ × ℤ) (k : ℕ) : ∃ rest, tornImage old new (62 + k)
    = indexLine new.1 new.2 ++ (indexLine new.1 new.2 ++ rest) := by
  have hlength := length_indexLine new.1 new.2
  refine ⟨(indexLine new.1 new.2).take k ++ (indexImage old.1 old.2).drop (62 + k), ?_⟩
  rw [tornImage, indexImage, ← List.append_assoc, ← List.append_assoc]
  congr 1
  rw [List.take_append, List.take_of_length_le (by rw [List.length_append]; omega),
    List.length_append, hlength, Nat.add_sub_cancel_left]

lemma length_tornImage (old new : ℤ × ℤ) (k : ℕ) : (tornImage old new k).length = 93 := by
  rw [tornImage, List.length_append, List.length_take, List.length_drop, length_indexImage,
    length_indexImage]
  omega

/-- `ParseIndexInfo` where the first line does not scan, or the first two do. -/
lemma parseIndexInfo_of_none {idx : Bytes} (h : idx.length = 93)
    (hfirst : scanPair plat idx = none) :
    parseIndexInfo plat idx = .error "ParseIndexInfo: format error in index file line 1" := by
  unfold parseIndexInfo
  simp only [List.take_of_length_le h.le, h, ne_eq, not_true_eq_false, if_false, hfirst]

lemma parseIndexInfo_of_some {idx : Bytes} (h : idx.length = 93) {p q r : ℤ × ℤ}
    (hfirst : scanPair plat idx = some p) (hsecond : scanPair plat (idx.drop 31) = some q)
    (hthird : ¬(p.1 = q.1 ∨ p.2 = q.2) → scanPair plat (idx.drop 62) = some r) :
    parseIndexInfo plat idx = .ok (if p.1 = q.1 ∨ p.2 = q.2 then p else r) := by
  unfold parseIndexInfo
  simp only [List.take_of_length_le h.le, h, ne_eq, not_true_eq_false, if_false, hfirst, hsecond]
  split_ifs with hagree
  · rfl
  · rw [hthird hagree]

lemma parseIndexInfo_of_second {idx : Bytes} (h : idx.length = 93) {p : ℤ × ℤ}
    (hfirst : scanPair plat idx = some p) (hsecond : scanPair plat (idx.drop 31) = none) :
    parseIndexInfo plat idx = .error "ParseIndexInfo: format error in index file line 2" := by
  unfold parseIndexInfo
  simp only [List.take_of_length_le h.le, h, ne_eq, not_true_eq_false, if_false, hfirst, hsecond]

/-- The old or the new pair is read. -/
def ReadsOldOrNew (plat : Platform) (old new : ℤ × ℤ) (k : ℕ) : Prop :=
  parseIndexInfo plat (tornImage old new k) = .ok old ∨
    parseIndexInfo plat (tornImage old new k) = .ok new

variable (hold : ValidIndex old) (hnew : ValidIndex new)

include hold in
lemma ValidIndex.scanPair_line (plat : Platform) (tail : Bytes) (htail : ∀ b ∈ tail, b ≠ 0) :
    scanPair plat (indexLine old.1 old.2 ++ tail) = some old :=
  scanPair_indexLine plat hold.index (hold.lt.trans hold.capacity)
    (hold.index.trans hold.lt.le) hold.capacity htail

include hold hnew

lemma readsOldOrNew_first {k : ℕ} (hk : 0 < k) (hk' : k < 31) : ReadsOldOrNew plat old new k ↔
    ∃ p ∈ tornPair plat old new k, p.1 ≠ old.1 ∧ p.2 ≠ old.2 ∨ p = old ∨ p = new := by
  have hzero := tornImage_ne_zero hold hnew k
  have hlength := length_tornImage old new k
  have hline := length_indexLine old.1 old.2
  have hlines := tornImage_first old new hk'.le
  have hcut : ((indexLine new.1 new.2).take k ++ (indexLine old.1 old.2).drop k).length = 31 := by
    rw [List.length_append, List.length_take, List.length_drop, hline, length_indexLine]
    omega
  rw [hlines] at hzero hlength
  have hfirst := scanPair_tornLine plat hold hnew hk hk' _ hzero
  have hold' : ∀ b ∈ indexLine old.1 old.2 ++ indexLine old.1 old.2, b ≠ 0 :=
    fun b hb => hzero b (List.mem_append_right _ hb)
  have hsecond := hold.scanPair_line plat (indexLine old.1 old.2)
    fun b hb => hold' b (List.mem_append_right _ hb)
  have hthird := hold.scanPair_line plat [] (by simp)
  rw [List.append_nil] at hthird
  unfold ReadsOldOrNew
  rw [hlines]
  cases hpair : tornPair plat old new k with
  | none =>
    rw [parseIndexInfo_of_none hlength (hfirst.trans hpair)]
    simp
  | some p =>
    rw [parseIndexInfo_of_some hlength (hfirst.trans hpair)
      (by rwa [Blocks.drop_append_of_length hcut])
      (fun _ => by rwa [show 62 = 31 + 31 by rfl, ← List.drop_drop,
        Blocks.drop_append_of_length hcut, Blocks.drop_append_of_length hline])]
    simp only [Except.ok.injEq, Option.mem_def, Option.some.injEq, exists_eq_left']
    split_ifs with hagree
    · -- the first line is taken
      refine ⟨Or.inr, fun h => h.resolve_left fun hne => ?_⟩
      exact hagree.elim hne.1 hne.2
    · -- the third line is taken
      rw [not_or] at hagree
      exact ⟨fun _ => Or.inl hagree, fun _ => Or.inl rfl⟩

lemma readsOldOrNew_second {k : ℕ} (hk : k < 31) : ReadsOldOrNew plat old new (31 + k) ↔
    (0 < k → (tornTexts old new k).1 ≠ [45]) := by
  have hzero := tornImage_ne_zero hold hnew (31 + k)
  have hlength := length_tornImage old new (31 + k)
  have hline := length_indexLine new.1 new.2
  have hlines := tornImage_second old new hk.le
  have hcut : ((indexLine new.1 new.2).take k ++ (indexLine old.1 old.2).drop k).length = 31 := by
    rw [List.length_append, List.length_take, List.length_drop, hline, length_indexLine]
    omega
  rw [hlines] at hzero hlength
  have hrest : ∀ b ∈ (indexLine new.1 new.2).take k ++ (indexLine old.1 old.2).drop k
      ++ indexLine old.1 old.2, b ≠ 0 := fun b hb => hzero b (List.mem_append_right _ hb)
  have hfirst := hnew.scanPair_line plat _ hrest
  have hthird := hold.scanPair_line plat [] (by simp)
  rw [List.append_nil] at hthird
  -- the torn line is followed by the old one
  have hsecond : scanPair plat ((indexLine new.1 new.2).take k ++ (indexLine old.1 old.2).drop k
      ++ indexLine old.1 old.2) = if 0 < k then tornPair plat old new k else some old := by
    split_ifs with hpos
    · have := scanPair_tornLine plat hold hnew hpos hk [] (by rwa [List.append_nil])
      rwa [List.append_nil] at this
    · obtain rfl : k = 0 := by omega
      rw [List.take_zero, List.drop_zero, List.nil_append] at hrest ⊢
      exact hold.scanPair_line plat _ fun b hb => hrest b (List.mem_append_right _ hb)
  unfold ReadsOldOrNew
  rw [hlines]
  cases hpair : (if 0 < k then tornPair plat old new k else some old) with
  | none =>
    rw [parseIndexInfo_of_second hlength hfirst
      (by rw [Blocks.drop_append_of_length hline]; exact hsecond.trans hpair)]
    obtain ⟨hpos, hnone⟩ : 0 < k ∧ tornPair plat old new k = none := by
      split_ifs at hpair with hpos
      exact ⟨hpos, hpair⟩
    obtain ⟨hsigned, hsome⟩ := tornTexts_signed hold hnew hpos
    have htext : readInt (tornTexts old new k).1 = none := by
      obtain ⟨y, hy⟩ := Option.isSome_iff_exists.mp hsome
      cases hx : readInt (tornTexts old new k).1 with
      | none => rfl
      | some x => simp [tornPair, hx, hy] at hnone
    simp [hpos, hsigned.readInt_eq_none_iff.mp htext]
  | some q =>
    rw [parseIndexInfo_of_some hlength hfirst
      (by rw [Blocks.drop_append_of_length hline]; exact hsecond.trans hpair)
      (fun _ => by rwa [show 62 = 31 + 31 by rfl, ← List.drop_drop,
        Blocks.drop_append_of_length hline, Blocks.drop_append_of_length hcut])]
    refine ⟨fun _ hpos hsign => ?_, fun _ => ?_⟩
    · rw [if_pos hpos, tornPair, hsign] at hpair
      cases hpair
    · split_ifs
      · exact Or.inr rfl
      · exact Or.inl rfl

lemma readsOldOrNew_third (k : ℕ) : ReadsOldOrNew plat old new (62 + k) := by
  have hzero := tornImage_ne_zero hold hnew (62 + k)
  have hlength := length_tornImage old new (62 + k)
  obtain ⟨rest, hlines⟩ := tornImage_third old new k
  rw [hlines] at hzero hlength
  have hrest : ∀ b ∈ indexLine new.1 new.2 ++ rest, b ≠ 0 :=
    fun b hb => hzero b (List.mem_append_right _ hb)
  have hfirst := hnew.scanPair_line plat _ hrest
  have hsecond := hnew.scanPair_line plat rest fun b hb => hrest b (List.mem_append_right _ hb)
  unfold ReadsOldOrNew
  rw [hlines, parseIndexInfo_of_some (r := new) hlength hfirst
    (by rwa [Blocks.drop_append_of_length (length_indexLine new.1 new.2)])
    (fun hne => absurd (Or.inl rfl) hne)]
  exact Or.inr (by rw [if_pos (Or.inl rfl)])

/-- **A torn read** returns the old or the new pair exactly for the safe cuts. -/
theorem parseIndexInfo_torn_iff (plat : Platform) (k : ℕ) :
    (parseIndexInfo plat (tornImage old new k) = .ok old ∨
      parseIndexInfo plat (tornImage old new k) = .ok new) ↔ SafeCut plat old new k := by
  show ReadsOldOrNew plat old new k ↔ _
  constructor
  · intro h
    refine ⟨fun hpos hk => (readsOldOrNew_first hold hnew hpos hk).mp h, fun hlow hhigh => ?_⟩
    obtain ⟨j, rfl⟩ := Nat.exists_eq_add_of_le hlow.le
    rw [Nat.add_sub_cancel_left]
    exact (readsOldOrNew_second hold hnew (by omega)).mp h (by omega)
  · intro h
    rcases Nat.eq_zero_or_pos k with rfl | hpos
    · refine Or.inl ?_
      rw [tornImage, List.take_zero, List.drop_zero, List.nil_append]
      exact parseIndexInfo_indexImage plat hold.index hold.lt hold.capacity
    rcases lt_or_ge k 31 with hk | hk
    · exact (readsOldOrNew_first hold hnew hpos hk).mpr (h.first hpos hk)
    rcases lt_or_ge k 62 with hk' | hk'
    · obtain ⟨j, rfl⟩ := Nat.exists_eq_add_of_le hk
      refine (readsOldOrNew_second hold hnew (by omega)).mpr fun hj => ?_
      have := h.second (by omega) hk'
      rwa [Nat.add_sub_cancel_left] at this
    · obtain ⟨j, rfl⟩ := Nat.exists_eq_add_of_le hk'
      exact readsOldOrNew_third hold hnew j

omit hold hnew

/-- A cut that joins the new index with the old capacity makes no agreement. -/
theorem parseIndexInfo_torn_iff_nine :
    parseIndexInfo hostConfig.plat (tornImage (9, 500) (10, 500) 2) = .ok (9, 500) ∨
      parseIndexInfo hostConfig.plat (tornImage (9, 500) (10, 500) 2) = .ok (10, 500) :=
  (parseIndexInfo_torn_iff ⟨by decide, by decide, by decide⟩ ⟨by decide, by decide, by decide⟩
    hostConfig.plat 2).mpr ⟨fun _ _ => ⟨(10500, 9), by decide +kernel, by decide⟩, by omega⟩

/-- One byte of the new index before the old one makes a third index, with the same capacity. -/
theorem parseIndexInfo_torn_third :
    ¬(parseIndexInfo hostConfig.plat (tornImage (19, 500) (20, 500) 1) = .ok (19, 500) ∨
      parseIndexInfo hostConfig.plat (tornImage (19, 500) (20, 500) 1) = .ok (20, 500)) := by
  decide +kernel

end StationProcessor
