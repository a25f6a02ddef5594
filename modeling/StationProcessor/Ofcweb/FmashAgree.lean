import StationProcessor.Lib.Fallible
import StationProcessor.Ofcweb.Fmash

/-!
# The two FMash decoders

Where the class `Fmash` and `fmash_msh_to_csv` make the same of a message. The class reads one
change of a minute, however many there are, and adds a row for every minute.
-/

namespace StationProcessor

namespace Ofcweb

open Fallible

/-! ### The same numbers -/

/-- What holds of the numbers below 256 holds of all bytes. -/
lemma forall_byte {p : UInt8 → Prop} (h : ∀ n : Fin 256, p (UInt8.ofNat n)) (b : UInt8) : p b := by
  simpa using h ⟨b.toNat, b.toNat_lt⟩

/-- What the class computes of a byte, against what the code in C computes of it. -/
lemma int_of_byte (b : UInt8) :
    let value := b.toInt8.toInt32
    (value >>> 2) &&& (0x1f : Int32) = ((b >>> 2) &&& 0x1f).toUInt32.toInt32 ∧
      value &&& (0x7f : Int32) = (b &&& 0x7f).toUInt32.toInt32 ∧
      value &&& (0x3f : Int32) = (b &&& 0x3f).toUInt32.toInt32 ∧
      (value &&& 0x80 ≠ 0x80 ↔ b &&& 0x80 = 0) ∧
      (value &&& 0x40 = 0x40 ↔ b &&& 0x40 ≠ 0) := by
  revert b
  exact forall_byte (by decide +kernel)

lemma extended_eq (b : UInt8) (r mask : UInt32) :
    extended b.toInt8.toInt32 r.toInt32 mask.toInt32 = (signExtend b r mask).toInt := by
  obtain ⟨-, -, -, -, hsign⟩ := int_of_byte b
  by_cases h : b &&& 0x40 ≠ 0
  · rw [extended, if_pos (hsign.mpr h), signExtend, if_pos h]
    rfl
  · rw [extended, if_neg (mt hsign.mp h), signExtend, if_neg h]

/-- A step of `_get_varint` over a byte that is not the first one. -/
lemma later_eq (b : UInt8) (r : UInt32) :
    r.toInt32 ||| ((b.toInt8.toInt32 &&& (0x7f : Int32)) <<< 5)
        = (r ||| ((b &&& 0x7f).toUInt32 <<< 5)).toInt32 ∧
      r.toInt32 ||| ((b.toInt8.toInt32 &&& (0x7f : Int32)) <<< 12)
        = (r ||| ((b &&& 0x7f).toUInt32 <<< 12)).toInt32 ∧
      r.toInt32 ||| ((b.toInt8.toInt32 &&& (0x7f : Int32)) <<< 19)
        = (r ||| ((b &&& 0x7f).toUInt32 <<< 19)).toInt32 := by
  obtain ⟨-, hvalue, -, -, -⟩ := int_of_byte b
  simp only [hvalue]
  exact ⟨rfl, rfl, rfl⟩

/-- `_get_varint` reads what `varint_to_int32` reads. -/
lemma getVarint_eq {p : Bytes} {x : Int32} {n : ℕ} (h : varintToInt32 p = some (x, n)) :
    getVarint p = .ok (x.toInt, p.drop n) := by
  rcases p with _ | ⟨p0, p⟩
  · simp [varintToInt32] at h
  obtain ⟨hvalue0, -, -, hlast0, -⟩ := int_of_byte p0
  simp only [varintToInt32] at h
  simp only [getVarint, nextByte, bind, Except.bind, pure, Except.pure, hvalue0]
  by_cases h0 : p0 &&& 0x80 = 0
  · rw [if_pos h0] at h
    rw [if_pos (hlast0.mpr h0)]
    cases h
    exact congrArg (fun v => Except.ok (v, p)) (extended_eq p0 _ 0xffffffe0)
  rw [if_neg h0] at h
  rw [if_neg (mt hlast0.mp h0)]
  rcases p with _ | ⟨p1, p⟩
  · simp at h
  obtain ⟨-, -, -, hlast1, -⟩ := int_of_byte p1
  simp only [(later_eq p1 _).1]
  by_cases h1 : p1 &&& 0x80 = 0
  · simp only [if_pos h1] at h
    rw [if_pos (hlast1.mpr h1)]
    cases h
    exact congrArg (fun v => Except.ok (v, p)) (extended_eq p1 _ 0xfffff000)
  simp only [if_neg h1] at h
  rw [if_neg (mt hlast1.mp h1)]
  rcases p with _ | ⟨p2, p⟩
  · simp at h
  obtain ⟨-, -, -, hlast2, -⟩ := int_of_byte p2
  simp only [(later_eq p2 _).2.1]
  by_cases h2 : p2 &&& 0x80 = 0
  · simp only [if_pos h2] at h
    rw [if_pos (hlast2.mpr h2)]
    cases h
    exact congrArg (fun v => Except.ok (v, p)) (extended_eq p2 _ 0xfff80000)
  simp only [if_neg h2] at h
  rw [if_neg (mt hlast2.mp h2)]
  rcases p with _ | ⟨p3, p⟩
  · simp at h
  obtain ⟨-, -, -, hlast3, -⟩ := int_of_byte p3
  simp only [(later_eq p3 _).2.2]
  by_cases h3 : p3 &&& 0x80 = 0
  · simp only [if_pos h3] at h
    rw [if_pos (hlast3.mpr h3)]
    cases h
    exact congrArg (fun v => Except.ok (v, p)) (extended_eq p3 _ 0xfc000000)
  simp only [if_neg h3] at h
  rw [if_neg (mt hlast3.mp h3)]
  rcases p with _ | ⟨p4, p⟩
  · simp at h
  obtain ⟨-, -, hvalue4, -, -⟩ := int_of_byte p4
  cases h
  simp only [hvalue4]
  rfl

/-- A varint of the encoder is read back. -/
lemma getVarint_bytes (c : Change) (rest : Bytes) :
    getVarint (c.bytes ++ rest) = .ok (c.2.toInt, rest) := by
  rw [getVarint_eq (varintToInt32_bytes c rest), List.drop_left]

lemma getValues_bytes (v : Values) (rest : Bytes) :
    getValues (valuesBytes v ++ rest)
      = .ok ((v.average.toInt, v.high.toInt, v.low.toInt), rest) := by
  simp only [getValues, valuesBytes, List.append_assoc, bind, Except.bind, getVarint_bytes]
  rfl

/-- What the class takes out of a byte of the bitmap, against what the code in C takes out. -/
lemma map_of_byte (b : UInt8) :
    let value := b.toInt8.toInt32
    (value &&& (0x07 : Int32)).toUInt32.toUInt8 = b &&& 0x07 ∧
      ((value >>> 3) &&& (0x07 : Int32)).toUInt32.toUInt8 = (b >>> 3) &&& 0x07 ∧
      ((value >>> 6) &&& (0x03 : Int32)).toUInt32.toUInt8 = (b >>> 6) &&& 0x03 ∧
      ((value <<< 2) &&& (0x04 : Int32)).toUInt32.toUInt8 = (b <<< 2) &&& 0x04 ∧
      ((value >>> 1) &&& (0x07 : Int32)).toUInt32.toUInt8 = (b >>> 1) &&& 0x07 ∧
      ((value >>> 4) &&& (0x07 : Int32)).toUInt32.toUInt8 = (b >>> 4) &&& 0x07 ∧
      ((value >>> 7) &&& (0x01 : Int32)).toUInt32.toUInt8 = (b >>> 7) &&& 0x01 ∧
      ((value <<< 1) &&& (0x06 : Int32)).toUInt32.toUInt8 = (b <<< 1) &&& 0x06 ∧
      ((value >>> 2) &&& (0x07 : Int32)).toUInt32.toUInt8 = (b >>> 2) &&& 0x07 ∧
      ((value >>> 5) &&& (0x07 : Int32)).toUInt32.toUInt8 = (b >>> 5) &&& 0x07 := by
  revert b
  exact forall_byte (by decide +kernel)

/-- A value of the bitmap is the one `map_3_get` finds. -/
lemma getMap_eq {bitmap : Bytes} {i : ℕ} (hi : i / 8 * 3 + 2 < bitmap.length) :
    getMap bitmap i = .ok (map3Get bitmap i) := by
  have hbyte (pos : ℕ) (hpos : pos < bitmap.length) :
      bitmapByte bitmap pos = .ok (bitmap.getD pos 0).toInt8.toInt32 := by
    simp [bitmapByte, hpos]
  have hsplit (x y : Int32) :
      (x ||| y).toUInt32.toUInt8 = x.toUInt32.toUInt8 ||| y.toUInt32.toUInt8 :=
    UInt32.toUInt8_or x.toUInt32 y.toUInt32
  have h0 := hbyte (i / 8 * 3) (by omega)
  have h1 := hbyte (i / 8 * 3 + 1) (by omega)
  have h2 := hbyte (i / 8 * 3 + 2) hi
  have hr : i % 8 < 8 := Nat.mod_lt _ (by norm_num)
  simp only [getMap, map3Get]
  generalize i % 8 = r at hr ⊢
  interval_cases r <;>
    simp only [h0, h1, h2, bind, Except.bind, pure, Except.pure, hsplit, map_of_byte]

lemma getMaps_eq {bitmap : Bytes} (hbitmap : bitmap.length = rowMapSize) {k i : ℕ}
    (hi : i + k ≤ 64) :
    getMaps bitmap k i = .ok ((List.range' i k).map (map3Get bitmap)) := by
  induction k generalizing i with
  | zero => rfl
  | succ k ih =>
    have hslot : i / 8 * 3 + 2 < bitmap.length := by
      rw [hbitmap, rowMapSize]
      omega
    rw [getMaps, getMap_eq hslot, ih (by omega)]
    rfl

/-! ### The rows -/

/-- A row of the class that stands for a row of the code in C. -/
structure FmashRow.Same (r : FmashRow) (row : CsvRow) : Prop where
  timestamp : r.timestamp = row.timestamp
  values : (⟨Int32.ofInt r.average, Int32.ofInt r.high, Int32.ofInt r.low⟩ : Values) = row.values

/-- The last values of the class, modulo `2 ^ 32`. -/
def RowState.values (s : RowState) : Values :=
  ⟨Int32.ofInt s.average, Int32.ofInt s.high, Int32.ofInt s.low⟩

/-- The row that the current state gives. -/
def RowState.row (s : RowState) : FmashRow := ⟨s.currentTime, s.average, s.high, s.low⟩

/-- The first change of a minute is read like one of the code in C. -/
lemma readChange_bytes {s : RowState} {c : Change} {rest : Bytes} (hc : c.1 ≠ 0)
    (hp : s.p = c.bytes ++ rest) :
    ∃ s', readChange s = .ok s' ∧ s'.values = s.values.change c ∧ s'.p = rest ∧
      s'.currentTime = s.currentTime ∧ s'.rows = s.rows := by
  obtain ⟨b, bs, hbytes, htype⟩ := setType_int32ToVarint c.2 c.1
  have hread := getVarint_bytes c rest
  rw [Change.bytes, hbytes] at hread hp
  obtain ⟨type, delta⟩ := c
  simp only [List.cons_append] at hread hp
  simp only [readChange, hp, htype, hread, RowState.values, Values.change]
  fin_cases type
  · exact absurd rfl hc
  · exact ⟨_, rfl, by simp [typeAverage, Int32.ofInt_add], rfl, rfl, rfl⟩
  · exact ⟨_, rfl, by simp [typeAverage, typeHigh, Int32.ofInt_add], rfl, rfl, rfl⟩
  · exact ⟨_, rfl, by simp [typeAverage, typeHigh, typeLow, Int32.ofInt_add], rfl, rfl, rfl⟩

/-- A row in every minute until the rows or the `k` minutes end, each with at most one change
against the row before. -/
def Steady : ℕ → ℤ → Values → List CsvRow → Prop
  | 0, _, _, _ => True
  | _ + 1, _, _, [] => True
  | k + 1, t, last, row :: rows =>
    row.timestamp = t ∧ ¬row.empty ∧ (changes last row).length ≤ 1 ∧
      Steady k (t + tmMinute) row.values rows

/-- Reading the first of several changes only misses the values of the row. -/
lemma change_ne_values {last : Values} {row : CsvRow} {c c' : Change} {cs : List Change}
    (h : changes last row = c :: c' :: cs) : last.change c ≠ row.values := by
  intro heq
  by_cases ha : row.average - last.average = 0 <;> by_cases hh : row.high - last.high = 0 <;>
    by_cases hl : row.low - last.low = 0 <;>
    simp [changes, ha, hh, hl] at h
  -- the second change is about a value that the first one leaves alone
  all_goals
    obtain ⟨rfl, -⟩ := h
    simp [Values.change, CsvRow.values, typeAverage, typeHigh] at heq
    first
      | exact hh (by rw [heq.2.1]; exact Int32.sub_self _)
      | exact hl (by rw [heq.2.2]; exact Int32.sub_self _)

variable {k : ℕ} {t : ℤ} {last : Values} {row : CsvRow} {rows : List CsvRow} {s : RowState}

lemma populateRow_noData (s : RowState) :
    populateRow s noData
      = .ok { s with rows := s.rows ++ [s.row], currentTime := s.currentTime + tmMinute } := rfl

lemma populateRow_noChange (s : RowState) :
    populateRow s 0
      = .ok { s with rows := s.rows ++ [s.row], currentTime := s.currentTime + tmMinute } := rfl

/-- A minute with changes: the first one counts. -/
lemma populateRow_changes {c : Change} {cs : List Change} {rest : Bytes}
    (hcs : changes last row = c :: cs) (hp : s.p = c.bytes ++ rest) :
    ∃ s', populateRow s (UInt8.ofNat (changes last row).length) = .ok s' ∧
      s'.values = s.values.change c ∧ s'.p = rest ∧
      s'.currentTime = s.currentTime + tmMinute ∧
      ∃ r : FmashRow, s'.rows = s.rows ++ [r] ∧ r.timestamp = s.currentTime ∧
        (⟨Int32.ofInt r.average, Int32.ofInt r.high, Int32.ofInt r.low⟩ : Values)
          = s.values.change c := by
  have hc : c.1 ≠ 0 := type_ne_zero_of_mem_changes (hcs ▸ List.mem_cons_self)
  obtain ⟨s1, hread, hvalues, hrest, htime, hrows⟩ := readChange_bytes hc hp
  have hle := length_changes_le last row
  have hmap : UInt8.ofNat (changes last row).length = 1 ∨
      UInt8.ofNat (changes last row).length = 2 ∨
      UInt8.ofNat (changes last row).length = 3 := by
    rw [hcs, List.length_cons] at hle ⊢
    have hcases : cs.length = 0 ∨ cs.length = 1 ∨ cs.length = 2 := by omega
    rcases hcases with h | h | h <;> simp [h]
  refine ⟨{ s1 with rows := s1.rows ++ [s1.row], currentTime := s1.currentTime + tmMinute },
    ?_, hvalues, hrest, by rw [htime], s1.row, by rw [hrows], htime, hvalues⟩
  rw [populateRow, if_pos hmap, hread]
  rfl

/-- Rows are only appended. -/
lemma readChange_rows {s s' : RowState} (h : readChange s = .ok s') : s'.rows = s.rows := by
  rw [readChange] at h
  split at h
  · cases h
  · split_ifs at h
    iterate 3
      obtain ⟨⟨delta, p⟩, -, h⟩ := exists_of_bind_ok h
      cases h
      rfl
    cases h
    rfl

lemma populateRow_rows {s s' : RowState} {map : UInt8} (h : populateRow s map = .ok s') :
    ∃ r, s'.rows = s.rows ++ [r] := by
  by_cases hmap : map = 1 ∨ map = 2 ∨ map = 3
  · rw [populateRow, if_pos hmap] at h
    obtain ⟨s1, hread, h⟩ := exists_of_bind_ok h
    cases h
    exact ⟨s1.row, by rw [← readChange_rows hread]; rfl⟩
  · rw [populateRow, if_neg hmap] at h
    cases h
    exact ⟨s.row, rfl⟩

lemma populateLoop_rows {maps : List UInt8} {s s' : RowState}
    (h : populateLoop maps s = .ok s') : ∃ rs, s'.rows = s.rows ++ rs := by
  induction maps generalizing s with
  | nil =>
    cases h
    exact ⟨[], (List.append_nil _).symm⟩
  | cons map maps ih =>
    obtain ⟨s1, hrow, h⟩ := exists_of_bind_ok h
    obtain ⟨r, hr⟩ := populateRow_rows hrow
    obtain ⟨rs, hrs⟩ := ih h
    exact ⟨r :: rs, by rw [hrs, hr, List.append_assoc]; rfl⟩

/-- What a message says about the minutes from `t` on, before the class. -/
structure RowState.Before (s : RowState) (t : ℤ) (last : Values) (p : Bytes) : Prop where
  currentTime : s.currentTime = t
  values : s.values = last
  p : s.p = p

/-- A minute whose row has at most one change. -/
lemma populateRow_one {rest : Bytes} (hs : s.Before row.timestamp last (rowBytes last row ++ rest))
    (hempty : ¬row.empty) (hone : (changes last row).length ≤ 1) :
    ∃ s' r, populateRow s (rowMapValue last row) = .ok s' ∧ s'.rows = s.rows ++ [r] ∧
      r.Same row ∧ s'.Before (row.timestamp + tmMinute) row.values rest := by
  have hvalue : rowMapValue last row = UInt8.ofNat (changes last row).length := by
    simp [rowMapValue, hempty]
  have hbytes : rowBytes last row = (changes last row).flatMap Change.bytes := by
    simp [rowBytes, hempty]
  have hfold := foldl_changes last row
  rw [hvalue]
  rcases hcs : changes last row with _ | ⟨c, _ | ⟨c', cs⟩⟩
  · rw [hcs] at hfold
    have hvalues : s.values = row.values := hs.values.trans hfold
    have hp : s.p = rest := by rw [hs.p, hbytes, hcs]; rfl
    exact ⟨_, s.row, populateRow_noChange s, rfl, ⟨hs.currentTime, hvalues⟩,
      ⟨by rw [hs.currentTime], hvalues, hp⟩⟩
  · rw [hcs] at hfold
    have hp : s.p = c.bytes ++ rest := by rw [hs.p, hbytes, hcs]; simp
    obtain ⟨s', hrow, hvalues, hrest, htime, r, hr, hrtime, hrvalues⟩ :=
      populateRow_changes hcs hp
    have hchange : s.values.change c = row.values := by rw [hs.values]; exact hfold
    rw [hcs] at hrow
    exact ⟨s', r, hrow, hr, ⟨hrtime.trans hs.currentTime, hrvalues.trans hchange⟩,
      ⟨by rw [htime, hs.currentTime], hvalues.trans hchange, hrest⟩⟩
  · rw [hcs] at hone
    simp at hone

/-- Minutes with a row each, and at most one change in it, are read like in C. -/
lemma populateLoop_steady (rest : Bytes) (h : OnMinutes t rows)
    (hs : s.Before t last ((minutes k t last rows).bytes ++ rest))
    (hsteady : Steady k t last rows) :
    ∃ s' rs, populateLoop (minutes k t last rows).maps s = .ok s' ∧ s'.rows = s.rows ++ rs ∧
      s'.p = rest ∧ List.Forall₂ FmashRow.Same rs (decoded (t + tmMinute * k) rows) := by
  induction k generalizing s t last rows with
  | zero =>
    refine ⟨s, [], rfl, (List.append_nil _).symm, hs.p, ?_⟩
    simp [h.decoded_eq_nil]
  | succ k ih =>
    cases rows with
    | nil => exact ⟨s, [], rfl, (List.append_nil _).symm, hs.p, List.Forall₂.nil⟩
    | cons row rows =>
      obtain ⟨rfl, hempty, hone, hsteady⟩ := hsteady
      have hlast : lastAfter last row = row.values := by rw [lastAfter_eq, if_neg hempty]
      have hstop : row.timestamp < row.timestamp + tmMinute * (k + 1 : ℕ) := by
        rw [tmMinute]
        omega
      have hbound := add_minutes_succ row.timestamp k
      simp only [minutes, if_true, hlast, List.append_assoc] at hs ⊢
      obtain ⟨s1, r, hrow, hr, hsame, hs1⟩ := populateRow_one hs hempty hone
      obtain ⟨s', rs, hloop, hrs, hp, hall⟩ := ih (h.taken rfl) hs1 hsteady
      refine ⟨s', r :: rs, ?_, ?_, hp, ?_⟩
      · rw [populateLoop, hrow]
        exact hloop
      · rw [hrs, hr, List.append_assoc]
        rfl
      · rw [decoded_cons, if_pos ⟨hstop, hempty⟩, hbound]
        exact List.Forall₂.cons hsame hall

/-- The first row that a loop adds. -/
lemma head_eq_of_populateLoop {map : UInt8} {maps : List UInt8} {s s1 s' : RowState} {r : FmashRow}
    {rs : List FmashRow} (hrow : populateRow s map = .ok s1) (hr : s1.rows = s.rows ++ [r])
    (h : populateLoop (map :: maps) s = .ok s') (hrs : s'.rows = s.rows ++ rs) :
    ∃ rs', rs = r :: rs' ∧ populateLoop maps s1 = .ok s' ∧ s'.rows = s1.rows ++ rs' := by
  rw [populateLoop, hrow] at h
  obtain ⟨rs', hrs'⟩ : ∃ rs', s'.rows = s1.rows ++ rs' := populateLoop_rows h
  refine ⟨rs', ?_, h, hrs'⟩
  rw [hrs', hr, List.append_assoc] at hrs
  exact (List.append_cancel_left hrs).symm

/-- A row for a minute without data has no counterpart. -/
lemma not_same_of_noData {stop : ℤ} {rs : List FmashRow} (h : OnMinutes (t + tmMinute) rows)
    (htime : s.currentTime = t)
    (hall : List.Forall₂ FmashRow.Same (s.row :: rs) (decoded stop rows)) : False := by
  obtain ⟨row, rows', hsame, -, hdecoded⟩ := List.forall₂_cons_left_iff.mp hall
  have hmem : row ∈ decoded stop rows := by
    rw [hdecoded]
    exact List.mem_cons_self
  have hlater := h.later row (List.mem_of_mem_filter hmem)
  have hrow : t = row.timestamp := htime.symm.trans hsame.timestamp
  rw [tmMinute] at hlater
  omega

/-- If the loop makes the rows of the code in C, every minute has a row with at most one change. -/
lemma steady_of_populateLoop {s' : RowState} {rs : List FmashRow} (rest : Bytes)
    (h : OnMinutes t rows) (hs : s.Before t last ((minutes k t last rows).bytes ++ rest))
    (hloop : populateLoop (minutes k t last rows).maps s = .ok s') (hrs : s'.rows = s.rows ++ rs)
    (hall : List.Forall₂ FmashRow.Same rs (decoded (t + tmMinute * k) rows)) :
    Steady k t last rows := by
  induction k generalizing s t last rows rs with
  | zero => exact trivial
  | succ k ih =>
    cases rows with
    | nil => exact trivial
    | cons row rows =>
      by_cases htime : t = row.timestamp
      · subst htime
        have hstop : row.timestamp < row.timestamp + tmMinute * (k + 1 : ℕ) := by
          rw [tmMinute]
          omega
        have hbound := add_minutes_succ row.timestamp k
        simp only [minutes, if_true, List.append_assoc] at hs hloop
        rw [decoded_cons] at hall
        by_cases hempty : row.empty
        · -- a row for a minute without data
          have hvalue : rowMapValue last row = noData := by simp [rowMapValue, hempty]
          rw [hvalue] at hloop
          obtain ⟨rs', rfl, -, -⟩ :=
            head_eq_of_populateLoop (populateRow_noData s) rfl hloop hrs
          rw [if_neg (fun hkeep => hkeep.2 hempty)] at hall
          exact (not_same_of_noData (h.taken rfl) hs.currentTime hall).elim
        · rw [if_pos ⟨hstop, hempty⟩, hbound] at hall
          have hlast : lastAfter last row = row.values := by rw [lastAfter_eq, if_neg hempty]
          rcases Nat.lt_or_ge 1 (changes last row).length with hmany | hone
          · -- only the first change of the row was read
            obtain ⟨c, c', cs, hcs⟩ : ∃ c c' cs, changes last row = c :: c' :: cs := by
              rcases hcs : changes last row with _ | ⟨c, _ | ⟨c', cs⟩⟩
              · simp [hcs] at hmany
              · simp [hcs] at hmany
              · exact ⟨c, c', cs, rfl⟩
            have hvalue : rowMapValue last row = UInt8.ofNat (changes last row).length := by
              simp [rowMapValue, hempty]
            have hbytes : rowBytes last row = c.bytes ++ (c' :: cs).flatMap Change.bytes := by
              simp [rowBytes, hempty, hcs]
            have hp := hs.p
            rw [hbytes, List.append_assoc] at hp
            obtain ⟨s1, hrow, -, -, -, r, hr, -, hvalues⟩ := populateRow_changes hcs hp
            rw [hvalue] at hloop
            obtain ⟨rs', rfl, -, -⟩ := head_eq_of_populateLoop hrow hr hloop hrs
            obtain ⟨hsame, -⟩ := List.forall₂_cons.mp hall
            rw [hs.values] at hvalues
            exact (change_ne_values hcs (hvalues.symm.trans hsame.values)).elim
          · rw [hlast] at hs hloop
            obtain ⟨s1, r, hrow, hr, -, hs1⟩ := populateRow_one hs hempty hone
            obtain ⟨rs', rfl, hloop', hrs'⟩ := head_eq_of_populateLoop hrow hr hloop hrs
            obtain ⟨-, hall⟩ := List.forall₂_cons.mp hall
            exact ⟨rfl, hempty, hone, ih (h.taken rfl) hs1 hloop' hrs' hall⟩
      · -- a row for a minute that is missing
        simp only [minutes, if_neg htime] at hloop
        obtain ⟨rs', rfl, -, -⟩ := head_eq_of_populateLoop (populateRow_noData s) rfl hloop hrs
        exact (not_same_of_noData (h.missing htime) hs.currentTime hall).elim

/-! ### The whole message -/

lemma slice_append {a b : Bytes} {offset count : ℕ} (ha : a.length = offset)
    (hb : b.length = count) (c : Bytes) : slice (a ++ (b ++ c)) offset count = .ok b := by
  subst ha hb
  simp [slice]

/-- The parts of a message at their offsets. -/
lemma slice_parts {version start stop channel count rowmap : Bytes} (length text values : Bytes)
    (h0 : version.length = 2) (h2 : start.length = 4) (h6 : stop.length = 4)
    (h10 : channel.length = 2) (h12 : count.length = 2) (h14 : rowmap.length = 24)
    (h38 : length.length = 1) :
    let raw := version ++ (start ++ (stop ++ (channel ++ (count ++ (rowmap ++ (length ++
      (text ++ ([0] ++ values))))))))
    slice raw 0 2 = .ok version ∧ slice raw 2 4 = .ok start ∧ slice raw 6 4 = .ok stop ∧
      slice raw 10 2 = .ok channel ∧ slice raw 12 2 = .ok count ∧ slice raw 14 24 = .ok rowmap ∧
      slice raw 38 1 = .ok length ∧ slice raw 39 text.length = .ok text ∧
      raw.drop (38 + 1 + text.length + 1) = values := by
  intro raw
  have e2 : raw = version ++ (start ++ _) := rfl
  have e6 := e2.trans (List.append_assoc version start _).symm
  have e10 := e6.trans (List.append_assoc (version ++ start) stop _).symm
  have e12 := e10.trans (List.append_assoc (version ++ start ++ stop) channel _).symm
  have e14 := e12.trans (List.append_assoc (version ++ start ++ stop ++ channel) count _).symm
  have e38 := e14.trans
    (List.append_assoc (version ++ start ++ stop ++ channel ++ count) rowmap _).symm
  have e39 := e38.trans
    (List.append_assoc (version ++ start ++ stop ++ channel ++ count ++ rowmap) length _).symm
  refine ⟨slice_append (a := []) rfl h0 _, ?_, ?_, ?_, ?_, ?_, ?_, ?_, ?_⟩
  · exact slice_append h0 h2 _
  · rw [e6]
    exact slice_append (by simp [h0, h2]) h6 _
  · rw [e10]
    exact slice_append (by simp [h0, h2, h6]) h10 _
  · rw [e12]
    exact slice_append (by simp [h0, h2, h6, h10]) h12 _
  · rw [e14]
    exact slice_append (by simp [h0, h2, h6, h10, h12]) h14 _
  · rw [e38]
    exact slice_append (by simp [h0, h2, h6, h10, h12, h14]) h38 _
  · rw [e39]
    exact slice_append (by simp [h0, h2, h6, h10, h12, h14, h38]) rfl _
  · have hlen : (version ++ start ++ stop ++ channel ++ count ++ rowmap ++ length ++ text
        ++ [0]).length = 38 + 1 + text.length + 1 := by
      simp [h0, h2, h6, h10, h12, h14, h38]
      ring
    have e40 : raw = version ++ start ++ stop ++ channel ++ count ++ rowmap ++ length ++ text
        ++ [0] ++ values := by
      simp only [raw, List.append_assoc]
    rw [e40, ← hlen, List.drop_left]

lemma getMaps_setMaps {maps : List UInt8} (hmaps : ∀ v ∈ maps, v &&& 0x07 = v)
    (hcount : maps.length ≤ 64) :
    getMaps (setMaps (List.replicate rowMapSize 0) 0 maps) maps.length 0 = .ok maps := by
  rw [getMaps_eq (by simp) (by omega)]
  congr 1
  apply List.ext_getElem
  · simp
  · intro j h1 h2
    rw [List.getElem_map, List.getElem_range', one_mul,
      map3Get_setMaps maps (List.length_replicate ..) (by omega) h2]
    exact hmaps _ (List.getElem_mem h2)

/-- The parts of a message before the rows, as the class finds them. -/
lemma fmash_message {startTime endTime : ℤ} (hstart : 0 ≤ startTime ∧ startTime < 2 ^ 32)
    (hend : 0 ≤ endTime ∧ endTime < 2 ^ 32) (channel : UInt16) {maps : List UInt8}
    (hmaps : ∀ v ∈ maps, v &&& 0x07 = v) (hcount : maps.length ≤ 60) (description : CString)
    (first : Values) (values : Bytes) :
    fmash (message startTime endTime channel.toNat maps.length
        (setMaps (List.replicate rowMapSize 0) 0 maps) description (valuesBytes first ++ values))
        true
      = if (sentDescription description).val = [] then .error .descLen
        else do
          let s ← populateLoop maps
            ⟨startTime, first.average.toInt, first.high.toInt, first.low.toInt, values, []⟩
          let _ ← getValues s.p
          return ⟨startTime, endTime, maps.length, toShort channel.toNat,
            (sentDescription description).val, s.rows⟩ := by
  have hlen : (sentDescription description).val.length
      = (descriptionLength description).toNat := by
    have hle := descriptionLength_eq description
    have hmod := Nat.mod_le description.val.length 256
    rw [sentDescription, List.length_take]
    omega
  have hrowmap : (setMaps (List.replicate rowMapSize 0) 0 maps).length = 24 := by
    simp [rowMapSize]
  obtain ⟨h0, h2, h6, h10, h12, h14, h38, h39, hdrop⟩ :=
    slice_parts [descriptionLength description] (sentDescription description).val
      (valuesBytes first ++ values) (length_htons falconVersion) (length_htonl startTime)
      (length_htonl endTime) (length_htons channel.toNat) (length_htons maps.length) hrowmap rfl
  have hmessage : message startTime endTime channel.toNat maps.length
      (setMaps (List.replicate rowMapSize 0) 0 maps) description (valuesBytes first ++ values)
      = htons falconVersion ++ (htonl startTime ++ (htonl endTime ++ (htons channel.toNat ++
        (htons maps.length ++ (setMaps (List.replicate rowMapSize 0) 0 maps ++
          ([descriptionLength description] ++ ((sentDescription description).val ++ ([0] ++
            (valuesBytes first ++ values))))))))) := by
    simp [message, descriptionField, sentDescription]
  have hversion : ¬falconVersion < uBytesToInt (htons falconVersion) (!true) % 2 ^ 15 := by decide
  have hstart' : (uBytesToInt (htonl startTime) (!true) : ℤ) = startTime :=
    decode_htonl hstart.1 hstart.2
  have hend' : (uBytesToInt (htonl endTime) (!true) : ℤ) = endTime := decode_htonl hend.1 hend.2
  have hchannel : bytesToInt (htons channel.toNat) (!true) = toShort channel.toNat :=
    congrArg (fun v : ℕ => toShort v) (decode_htons channel.toNat_lt)
  have hrows : uBytesToInt (htons maps.length) (!true) = maps.length := decode_htons (by omega)
  have hdesc : toByte (BigEndian.decode [descriptionLength description])
      = (sentDescription description).val.length := by
    have hle := descriptionLength_eq description
    rw [hlen, BigEndian.decode, BigEndian.decode, toByte]
    simp only [List.length_nil, pow_zero, mul_one, add_zero]
    exact Int.bmod_eq_of_le (by omega) (by omega)
  have hle : (sentDescription description).val.length ≤ 8 := by
    have hle := descriptionLength_eq description
    omega
  rw [← hmessage] at h0 h2 h6 h10 h12 h14 h38 h39 hdrop
  generalize message startTime endTime channel.toNat maps.length
    (setMaps (List.replicate rowMapSize 0) 0 maps) description (valuesBytes first ++ values)
    = raw at h0 h2 h6 h10 h12 h14 h38 h39 hdrop ⊢
  simp only [fmash, bind, Except.bind, h0, h2, h6, h10, h12, h14, h38, if_neg hversion, hstart',
    hend', hchannel, hrows, hdesc, Int.toNat_natCast]
  by_cases hnone : (sentDescription description).val = []
  · rw [if_pos hnone, if_pos (by simp [hnone])]
  · have hpos := List.length_pos_iff.mpr hnone
    rw [if_neg hnone, if_neg (by omega)]
    simp only [h39, hdrop, getValues_bytes, getMaps_setMaps hmaps (by omega)]

/-! ### Agreement -/

/-- A message on which both decoders give the same: `out` is what `fmash_msh_to_csv` makes of it,
`web` what the class makes of it. -/
structure Agree (out : CsvBuffer) (web : Fmash) : Prop where
  startTime : web.startTime = out.startTime
  endTime : web.endTime = out.endTime
  channel : web.channelId = out.header.channel.toNat
  description : web.description = out.header.description.val
  rows : List.Forall₂ FmashRow.Same web.rows out.list

/-- The message of `csv` is decoded to the same by both. -/
def DecodersAgree (csv : CsvBuffer) : Prop :=
  ∃ msg left out web, fmashCsvToMsh csv = some (msg, left) ∧ fmashMshToCsv msg = .ok out ∧
    fmash msg true = .ok web ∧ Agree out web

lemma toShort_toNat_iff (channel : UInt16) :
    toShort channel.toNat = channel.toNat ↔ channel.toNat < 32768 := by
  have hlt := channel.toNat_lt
  rw [toShort, Int.bmod_def]
  split_ifs <;> omega

/-- The two decoders in one: what each of them makes of the message of a list of rows. -/
lemma exists_decoded {csv : CsvBuffer} (hlist : csv.list = row :: rows)
    (hrows : Parsed csv.list) :
    let m := minutes maxRows row.timestamp row.values (row :: rows)
    ∃ msg left out, fmashCsvToMsh csv = some (msg, left) ∧ fmashMshToCsv msg = .ok out ∧
      out.startTime = row.timestamp ∧
      out.header = ⟨sentDescription csv.header.description, csv.header.channel⟩ ∧
      out.list = decoded (row.timestamp + tmMinute * maxRows) (row :: rows) ∧
      fmash msg true
        = if (sentDescription csv.header.description).val = [] then .error .descLen
          else do
            let s ← populateLoop m.maps ⟨row.timestamp, row.average.toInt, row.high.toInt,
              row.low.toInt, m.bytes ++ valuesBytes m.last, []⟩
            let _ ← getValues s.p
            return ⟨row.timestamp, out.endTime, m.maps.length,
              toShort csv.header.channel.toNat, (sentDescription csv.header.description).val,
              s.rows⟩ := by
  intro m
  have hencode := fmashCsvToMsh_eq hlist
  rw [hlist] at hrows
  have hstart := hrows.fits row List.mem_cons_self
  have hend := hrows.end_fits
  refine ⟨_, _, _, hencode, fmashMshToCsv_message hrows.onMinutes hstart hend csv.header, rfl, rfl,
    rfl, ?_⟩
  exact fmash_message hstart hend csv.header.channel (mem_maps_minutes _ _ _ _)
    (length_maps_le _ _ _ _) csv.header.description row.values _

lemma before_first (row : CsvRow) (p : Bytes) :
    RowState.Before ⟨row.timestamp, row.average.toInt, row.high.toInt, row.low.toInt, p, []⟩
      row.timestamp row.values p :=
  ⟨rfl, by simp [RowState.values, CsvRow.values], rfl⟩

lemma sentDescription_eq_nil_iff (description : CString) :
    (sentDescription description).val = [] ↔ description.val.length % 256 = 0 := by
  have hle := descriptionLength_eq description
  have hmod := Nat.mod_le description.val.length 256
  rw [← List.length_eq_zero_iff, sentDescription, List.length_take]
  omega

/-- What agreement says about the rows, the description and the channel. -/
lemma DecodersAgree.necessary {csv : CsvBuffer} (hlist : csv.list = row :: rows)
    (hrows : Parsed csv.list) (h : DecodersAgree csv) :
    Steady maxRows row.timestamp row.values (row :: rows) ∧
      csv.header.description.val.length % 256 ≠ 0 ∧ csv.header.channel.toNat < 32768 := by
  obtain ⟨msg, left, out, hencode, hdecode, hstart, hheader, hdecoded, hweb⟩ :=
    exists_decoded hlist hrows
  obtain ⟨msg', left', out', web, hencode', hdecode', hweb', hagree⟩ := h
  cases hencode.symm.trans hencode'
  cases hdecode.symm.trans hdecode'
  rw [hlist] at hrows
  rw [hweb] at hweb'
  by_cases hnone : (sentDescription csv.header.description).val = []
  · rw [if_pos hnone] at hweb'
    cases hweb'
  · rw [if_neg hnone] at hweb'
    obtain ⟨s', hloop, hweb'⟩ := exists_of_bind_ok hweb'
    obtain ⟨-, -, hweb'⟩ := exists_of_bind_ok hweb'
    cases hweb'
    have hall := hagree.rows
    rw [hdecoded] at hall
    have hchannel := hagree.channel
    simp only [hheader] at hchannel
    have hsteady := steady_of_populateLoop (k := maxRows) _ hrows.onMinutes (before_first row _)
      hloop (List.nil_append s'.rows).symm hall
    exact ⟨hsteady, mt (sentDescription_eq_nil_iff _).mpr hnone,
      (toShort_toNat_iff csv.header.channel).mp hchannel⟩

/-- The two decoders agree on a message if and only if every minute of it has a row with at most
one change, the description is not empty and the channel is not taken for a negative number. -/
theorem fmash_decoders_agree_iff {csv : CsvBuffer} (hlist : csv.list = row :: rows)
    (hrows : Parsed csv.list) :
    DecodersAgree csv ↔
      (Steady maxRows row.timestamp row.values (row :: rows) ∧
        csv.header.description.val.length % 256 ≠ 0 ∧ csv.header.channel.toNat < 32768) := by
  refine ⟨DecodersAgree.necessary hlist hrows, ?_⟩
  rintro ⟨hsteady, hlength, hchannel⟩
  obtain ⟨msg, left, out, hencode, hdecode, hstart, hheader, hdecoded, hweb⟩ :=
    exists_decoded hlist hrows
  rw [hlist] at hrows
  let m := minutes maxRows row.timestamp row.values (row :: rows)
  obtain ⟨s', rs, hloop, hrs, hp, hall⟩ := populateLoop_steady (k := maxRows)
    (valuesBytes m.last) hrows.onMinutes (before_first row _) hsteady
  have hrs : s'.rows = rs := hrs
  have hfinal := getValues_bytes m.last []
  rw [List.append_nil, ← hp] at hfinal
  rw [if_neg (mt (sentDescription_eq_nil_iff _).mp hlength), hloop, ok_bind, hfinal, ok_bind]
    at hweb
  refine ⟨msg, left, out, _, hencode, hdecode, hweb, hstart.symm, rfl, ?_, ?_, ?_⟩
  · simp only [hheader]
    exact (toShort_toNat_iff csv.header.channel).mpr hchannel
  · rw [hheader]
  · rw [hdecoded, hrs]
    exact hall

/-- A single row. -/
theorem fmash_decoders_agree_iff_one : DecodersAgree (oneRow ⟨ascii "Temp", by decide⟩) := by
  have hsteady : Steady maxRows 60 ⟨5, 9, -70000⟩ [⟨60, 5, 9, -70000, false⟩] :=
    ⟨rfl, by decide, by decide, trivial⟩
  exact (fmash_decoders_agree_iff rfl (parsed_oneRow _)).mpr ⟨hsteady, by decide, by decide⟩

/-- Two rows that differ in two values. -/
def twoChanges : CsvBuffer :=
  { oneRow ⟨ascii "Temp", by decide⟩ with
    list := [⟨60, 5, 9, -70000, false⟩, ⟨120, 6, 10, -70000, false⟩] }

/-- A second change in a minute puts the class out of step. -/
theorem fmash_decoders_disagree : ¬DecodersAgree twoChanges := by
  intro h
  have hrows : Parsed twoChanges.list :=
    ⟨by simp [twoChanges], by simp [twoChanges, tmMinute], by simp [twoChanges]⟩
  obtain ⟨⟨-, -, -, -, -, hone, -⟩, -⟩ := DecodersAgree.necessary rfl hrows h
  exact absurd hone (by decide)

end Ofcweb

end StationProcessor
