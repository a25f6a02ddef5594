import StationProcessor.TimeOrder
import StationProcessor.Diskloop.Open

/-!
# Printing and parsing times

`ST_PrintDate2` drops the trailing zeros of a fraction unless a fixed format is asked for;
`ST_ParseTime2` scans the fraction as a number of tenth-milliseconds.
-/

namespace StationProcessor

open Decimal Gregorian

/-! ### Printing -/

/-- `msprt`: the fraction without its trailing zeros. -/
def printFraction (tenthMs : ℤ) : Bytes :=
  if tenthMs = 0 then []
  else if tenthMs.tmod 1000 = 0 then 46 :: printPadded 1 (tenthMs.tdiv 1000)
  else if tenthMs.tmod 100 = 0 then 46 :: printPadded 2 (tenthMs.tdiv 100)
  else if tenthMs.tmod 10 = 0 then 46 :: printPadded 3 (tenthMs.tdiv 10)
  else 46 :: printPadded 4 tenthMs

/-- `ST_PrintDate2`. -/
def stPrintDate2 (t : StdTime2) (fixfmt : Bool) : Bytes :=
  if fixfmt then
    printPadded 4 t.year ++ 44 :: (printPadded 3 t.day ++ 44 :: (printPadded 2 t.hour ++
      58 :: (printPadded 2 t.minute ++ 58 :: (printPadded 2 t.second ++
        46 :: printPadded 4 t.tenthMsec))))
  else
    printInt t.year ++ 44 :: (printInt t.day ++ 44 :: (printInt t.hour ++
      58 :: (printPadded 2 t.minute ++ 58 :: (printPadded 2 t.second ++
        printFraction t.tenthMsec))))

/-! ### Parsing -/

/-- The flags of `_calyear`: how many digits of a year were given. -/
inductive YearDigits
  | milen
  | cent
  | decade
deriving DecidableEq

/-- `_calyear`: complete a year with few digits, with the current year where no epoch is given. -/
def calyear (currentYear : ℤ) (dy epoch : ℤ) (timflgs : YearDigits) : ℤ :=
  if dy > 1900 then dy
  else
    let epoch := if epoch < 1900 then currentYear else epoch
    let tfact : ℤ := match timflgs with
      | .cent => 1000
      | .decade => 100
      | .milen => 10
    let tyear := dy + epoch.tdiv tfact * tfact
    if tyear > epoch + 1 then tyear - tfact else tyear

/-- `ST_CleanDate2`. -/
def stCleanDate2 (currentYear : ℤ) (indate : StdTime2) (epoch : ℤ) (timflgs : YearDigits) :
    StdTime2 :=
  let s := timenorm2 { indate with
    year := calyear currentYear indate.year epoch timflgs, day := indate.day - 1 }
  { s with day := s.day + 1 }

/-- `sscanf` of numbers with the given characters between them: what it stores before the first
place where the text does not follow the format. -/
def scanNumbers (plat : Platform) : Bytes → Bytes → List ℤ
  | [], s => match scanInt s with
    | some (m, _) => [intOfScan plat m]
    | none => []
  | c :: format, s => match scanInt s with
    | some (m, b :: rest) =>
      intOfScan plat m :: if b = c then scanNumbers plat format rest else []
    | some (m, []) => [intOfScan plat m]
    | none => []

/-- `tolower`. -/
def toLower (b : UInt8) : UInt8 := if 65 ≤ b && b ≤ 90 then b + 32 else b

/-- `ST_ParseTime2`, with the scan format `"%d,%d,%d:%d:%d.%d"`. -/
def stParseTime2 (plat : Platform) (currentYear : ℤ) (inbuff : Bytes) : StdTime2 :=
  let trsbuf := (cString inbuff).map toLower
  let args := scanNumbers plat [44, 44, 58, 58, 46] trsbuf
  stCleanDate2 currentYear
    { year := toShort (args.getD 0 0)
      day := toShort (args.getD 1 0)
      hour := toByte (args.getD 2 0)
      minute := toByte (args.getD 3 0)
      second := toByte (args.getD 4 0)
      tenthMsec := toShort (args.getD 5 0) } 0 .milen

/-! ### Scanning what was printed -/

/-- A number that spells `m`, then the next character of the format. -/
lemma scanNumbers_cons (plat : Platform) {c : UInt8} (hc : isDigit c = false) (format : Bytes)
    {text rest : Bytes} {m : ℤ} (h : readInt text = some m) :
    scanNumbers plat (c :: format) (text ++ c :: rest)
      = intOfScan plat m :: scanNumbers plat format rest := by
  have hscan : scanInt (text ++ c :: rest) = some (m, c :: rest) :=
    @scanInt_of_readInt [] text (c :: rest) m h (by simp) (by simpa [NoDigit] using hc)
  simp [scanNumbers, hscan]

/-- The last number of a text. -/
lemma scanNumbers_end (plat : Platform) (format : Bytes) {text : Bytes} {m : ℤ}
    (h : readInt text = some m) : scanNumbers plat format text = [intOfScan plat m] := by
  have hscan : scanInt text = some (m, []) := by
    simpa using @scanInt_of_readInt [] text [] m h (by simp) (by simp [NoDigit])
  cases format <;> simp [scanNumbers, hscan]

/-- The characters of a printed time: digits, `,`, `-`, `.` and `:`. -/
def IsTimeChar (b : UInt8) : Prop := 44 ≤ b.toNat ∧ b.toNat ≤ 58

lemma isTimeChar_of_isDigit {b : UInt8} (h : isDigit b = true) : IsTimeChar b := by
  obtain ⟨h0, h1⟩ := (isDigit_iff b).mp h
  exact ⟨by linarith, by linarith⟩

lemma isTimeChar_printPadded {width : ℕ} {m : ℤ} {b : UInt8} (h : b ∈ printPadded width m) :
    IsTimeChar b := by
  have hpad : ∀ width : ℕ, b ∈ (natToDecimal m.natAbs).leftpad width 48 → IsTimeChar b :=
    fun width hb => isTimeChar_of_isDigit
      (isDigit_of_mem_leftpad (fun _ h => isDigit_of_mem_natToDecimal h) hb)
  unfold printPadded at h
  split_ifs at h
  · rcases List.mem_cons.mp h with rfl | hb
    · exact ⟨by decide, by decide⟩
    · exact hpad _ hb
  · exact hpad _ h

lemma isTimeChar_printInt {m : ℤ} {b : UInt8} (h : b ∈ printInt m) : IsTimeChar b := by
  unfold printInt at h
  split_ifs at h
  · rcases List.mem_cons.mp h with rfl | hb
    · exact ⟨by decide, by decide⟩
    · exact isTimeChar_of_isDigit (isDigit_of_mem_natToDecimal hb)
  · exact isTimeChar_of_isDigit (isDigit_of_mem_natToDecimal h)

lemma isTimeChar_printFraction {m : ℤ} {b : UInt8} (h : b ∈ printFraction m) :
    IsTimeChar b := by
  have hdot : ∀ width k, b ∈ 46 :: printPadded width k → IsTimeChar b := by
    intro width k hb
    rcases List.mem_cons.mp hb with rfl | hb
    · exact ⟨by decide, by decide⟩
    · exact isTimeChar_printPadded hb
  unfold printFraction at h
  split_ifs at h
  · simp at h
  all_goals exact hdot _ _ h

lemma isTimeChar_stPrintDate2 {t : StdTime2} {fixfmt : Bool} {b : UInt8}
    (h : b ∈ stPrintDate2 t fixfmt) : IsTimeChar b := by
  have hsep : IsTimeChar 44 ∧ IsTimeChar 46 ∧ IsTimeChar 58 :=
    ⟨⟨by decide, by decide⟩, ⟨by decide, by decide⟩, ⟨by decide, by decide⟩⟩
  obtain ⟨hcomma, hdot, hcolon⟩ := hsep
  unfold stPrintDate2 at h
  split_ifs at h <;> simp only [List.mem_append, List.mem_cons] at h
  · rcases h with h | rfl | h | rfl | h | rfl | h | rfl | h | rfl | h <;>
      first
        | assumption
        | exact isTimeChar_printPadded h
  · rcases h with h | rfl | h | rfl | h | rfl | h | rfl | h | h <;>
      first
        | assumption
        | exact isTimeChar_printInt h
        | exact isTimeChar_printPadded h
        | exact isTimeChar_printFraction h

/-- Lowering the case of a printed time does nothing. -/
lemma trsbuf_eq {s : Bytes} (h : ∀ b ∈ s, IsTimeChar b) : (cString s).map toLower = s := by
  have hzero : cString s = s := by
    refine List.takeWhile_eq_self_iff.mpr fun b hb => ?_
    have hlow := (h b hb).1
    rw [bne_iff_ne, ne_eq, ← UInt8.toNat_inj]
    exact fun hz => by simp [hz] at hlow
  rw [hzero]
  refine (List.map_congr_left fun b hb => ?_).trans (List.map_id s)
  have hhigh := (h b hb).2
  have hcap : ¬ (65 : UInt8) ≤ b := by
    rw [UInt8.le_iff_toNat_le]
    exact fun h65 => absurd (h65.trans hhigh) (by decide)
  simp [toLower, hcap]

/-! ### The round trip -/

/-- The fraction that is read back where trailing zeros were dropped. -/
def fractionRead (tenthMs : ℤ) : ℤ :=
  if tenthMs % 1000 = 0 then tenthMs / 1000
  else if tenthMs % 100 = 0 then tenthMs / 100
  else if tenthMs % 10 = 0 then tenthMs / 10
  else tenthMs

lemma fractionRead_mem {tenthMs : ℤ} (h0 : 0 ≤ tenthMs) (h1 : tenthMs < 10000) :
    0 ≤ fractionRead tenthMs ∧ fractionRead tenthMs < 10000 := by
  unfold fractionRead
  split_ifs <;> omega

/-- A fraction without trailing zeros is read back, any other is not. -/
lemma fractionRead_eq_iff {tenthMs : ℤ} (h0 : 0 ≤ tenthMs) :
    fractionRead tenthMs = tenthMs ↔ tenthMs = 0 ∨ tenthMs % 10 ≠ 0 := by
  unfold fractionRead
  split_ifs <;> omega

/-- Either there is no fraction or a point and the number that is read back. -/
lemma printFraction_cases {tenthMs : ℤ} (h0 : 0 ≤ tenthMs) :
    tenthMs = 0 ∧ printFraction tenthMs = [] ∨
      ∃ width, printFraction tenthMs = 46 :: printPadded width (fractionRead tenthMs) := by
  simp only [printFraction, fractionRead, Int.tmod_eq_emod_of_nonneg h0,
    Int.tdiv_eq_ediv_of_nonneg h0]
  split_ifs with hzero
  · exact Or.inl ⟨hzero, rfl⟩
  all_goals exact Or.inr ⟨_, rfl⟩

lemma StdTime2.Valid.day_mem {t : StdTime2} (hv : t.Valid) : 1 ≤ t.day ∧ t.day ≤ 366 := by
  have hle := hv.date.le_length
  rcases yearLength_cases t.year with ⟨-, h⟩ | ⟨-, h⟩
  · exact ⟨hv.date.one_le, by linarith⟩
  · exact ⟨hv.date.one_le, by linarith⟩

lemma toShort_of_small {m : ℤ} (h0 : 0 ≤ m) (h : m < 10000) : toShort m = m :=
  Int.bmod_eq_of_le_mul_two (by norm_num; linarith) (by norm_num; linarith)

lemma toByte_of_small {m : ℤ} (h0 : 0 ≤ m) (h : m < 60) : toByte m = m :=
  Int.bmod_eq_of_le_mul_two (by norm_num; linarith) (by norm_num; linarith)

section RoundTrip

variable (plat : Platform)

lemma intOfScan_of_small {m : ℤ} (h0 : 0 ≤ m) (h : m < 10000) : intOfScan plat m = m :=
  intOfScan_of_fits (by linarith) (by linarith) plat

/-- The last two numbers: the seconds, and the fraction or nothing. -/
lemma scanNumbers_printFraction {text : Bytes} {m tenthMs : ℤ} (h : readInt text = some m)
    (h0 : 0 ≤ tenthMs) (h1 : tenthMs < 10000) :
    (scanNumbers plat [46] (text ++ printFraction tenthMs)).getD 0 0 = intOfScan plat m ∧
      (scanNumbers plat [46] (text ++ printFraction tenthMs)).getD 1 0 = fractionRead tenthMs := by
  obtain ⟨hlow, hhigh⟩ := fractionRead_mem h0 h1
  rcases printFraction_cases h0 with ⟨rfl, hnone⟩ | ⟨width, hsome⟩
  · rw [hnone, List.append_nil, scanNumbers_end plat _ h]
    exact ⟨rfl, rfl⟩
  · rw [hsome, scanNumbers_cons plat (by decide) _ h,
      scanNumbers_end plat _ (readInt_printPadded _ _), intOfScan_of_small plat hlow hhigh]
    exact ⟨rfl, rfl⟩

/-- A valid time is clean. -/
lemma stCleanDate2_valid {t : StdTime2} (hv : t.Valid) (h0 : 1901 ≤ t.year) (h1 : t.year ≤ 3999)
    (currentYear epoch : ℤ) (timflgs : YearDigits) :
    stCleanDate2 currentYear t epoch timflgs = t := by
  have hyear : calyear currentYear t.year epoch timflgs = t.year := if_pos (by linarith)
  obtain ⟨s, hs, hplace, hnorm⟩ := timenorm2_spec { t with day := t.day - 1 }
  have hsame : { s with day := s.day + 1 } = t := by
    rw [hs.eq_iff hv]
    simp only [StdTime2.place, StdTime2.timeOfDay, dayNumber] at hplace ⊢
    linarith
  have hsyear : s.year = t.year := by rw [← hsame]
  rw [if_neg (by rw [hsyear]; linarith)] at hnorm
  simp only [stCleanDate2, hyear]
  rw [hnorm]
  exact hsame

/-- The numbers read from a printed time. -/
lemma scanNumbers_stPrintDate2 {t : StdTime2} (hv : t.Valid) (h0 : 1901 ≤ t.year)
    (h1 : t.year ≤ 3999) (fixfmt : Bool) :
    let args := scanNumbers plat [44, 44, 58, 58, 46] (stPrintDate2 t fixfmt)
    args.getD 0 0 = t.year ∧ args.getD 1 0 = t.day ∧ args.getD 2 0 = t.hour ∧
      args.getD 3 0 = t.minute ∧ args.getD 4 0 = t.second ∧
      args.getD 5 0 = if fixfmt then t.tenthMsec else fractionRead t.tenthMsec := by
  have hyear : intOfScan plat t.year = t.year := intOfScan_of_small plat (by linarith) (by linarith)
  have hday : intOfScan plat t.day = t.day :=
    intOfScan_of_small plat (by linarith [hv.day_mem.1]) (by linarith [hv.day_mem.2])
  have hhour : intOfScan plat t.hour = t.hour :=
    intOfScan_of_small plat hv.hour.1 (by linarith [hv.hour.2])
  have hminute : intOfScan plat t.minute = t.minute :=
    intOfScan_of_small plat hv.minute.1 (by linarith [hv.minute.2])
  have hsecond : intOfScan plat t.second = t.second :=
    intOfScan_of_small plat hv.second.1 (by linarith [hv.second.2])
  have htenth : intOfScan plat t.tenthMsec = t.tenthMsec :=
    intOfScan_of_small plat hv.tenth.1 hv.tenth.2
  have hcomma : isDigit 44 = false := by decide
  have hcolon : isDigit 58 = false := by decide
  intro args
  cases fixfmt with
  | true =>
    have hargs : args = [t.year, t.day, t.hour, t.minute, t.second, t.tenthMsec] := by
      simp only [args, stPrintDate2, if_true]
      rw [scanNumbers_cons plat hcomma _ (readInt_printPadded _ _),
        scanNumbers_cons plat hcomma _ (readInt_printPadded _ _),
        scanNumbers_cons plat hcolon _ (readInt_printPadded _ _),
        scanNumbers_cons plat hcolon _ (readInt_printPadded _ _),
        scanNumbers_cons plat (by decide) _ (readInt_printPadded _ _),
        scanNumbers_end plat _ (readInt_printPadded _ _), hyear, hday, hhour, hminute, hsecond,
        htenth]
    rw [hargs]
    exact ⟨rfl, rfl, rfl, rfl, rfl, rfl⟩
  | false =>
    obtain ⟨hlast, hfraction⟩ := scanNumbers_printFraction plat
      (readInt_printPadded 2 t.second) hv.tenth.1 hv.tenth.2
    have hargs : args = t.year :: t.day :: t.hour :: t.minute ::
        scanNumbers plat [46] (printPadded 2 t.second ++ printFraction t.tenthMsec) := by
      simp only [args, stPrintDate2, Bool.false_eq_true, if_false]
      rw [scanNumbers_cons plat hcomma _ (readInt_printInt _),
        scanNumbers_cons plat hcomma _ (readInt_printInt _),
        scanNumbers_cons plat hcolon _ (readInt_printInt _),
        scanNumbers_cons plat hcolon _ (readInt_printPadded _ _), hyear, hday, hhour, hminute]
    rw [hargs]
    exact ⟨rfl, rfl, rfl, rfl, hlast.trans hsecond, hfraction⟩

/-- What parsing a printed time returns: the time, with the fraction that was read. -/
lemma stParseTime2_stPrintDate2 {t : StdTime2} (hv : t.Valid) (h0 : 1901 ≤ t.year)
    (h1 : t.year ≤ 3999) (currentYear : ℤ) (fixfmt : Bool) :
    stParseTime2 plat currentYear (stPrintDate2 t fixfmt)
      = { t with tenthMsec := if fixfmt then t.tenthMsec else fractionRead t.tenthMsec } := by
  obtain ⟨hyear, hday, hhour, hminute, hsecond, htenth⟩ :=
    scanNumbers_stPrintDate2 plat hv h0 h1 fixfmt
  obtain ⟨hday0, hday1⟩ := hv.day_mem
  obtain ⟨hfrac0, hfrac1⟩ := fractionRead_mem hv.tenth.1 hv.tenth.2
  have hfraction : 0 ≤ (if fixfmt then t.tenthMsec else fractionRead t.tenthMsec) ∧
      (if fixfmt then t.tenthMsec else fractionRead t.tenthMsec) < 10000 := by
    cases fixfmt
    · exact ⟨hfrac0, hfrac1⟩
    · exact hv.tenth
  generalize (if fixfmt then t.tenthMsec else fractionRead t.tenthMsec) = fraction at *
  have hvalid : StdTime2.Valid { t with tenthMsec := fraction } :=
    ⟨hv.date, hv.hour, hv.minute, hv.second, hfraction⟩
  simp only [stParseTime2, trsbuf_eq fun _ => isTimeChar_stPrintDate2, hyear, hday, hhour, hminute,
    hsecond, htenth]
  rw [toShort_of_small (by linarith : 0 ≤ t.year) (by linarith),
    toShort_of_small (by linarith : 0 ≤ t.day) (by linarith),
    toByte_of_small hv.hour.1 (by linarith [hv.hour.2]),
    toByte_of_small hv.minute.1 hv.minute.2, toByte_of_small hv.second.1 hv.second.2,
    toShort_of_small hfraction.1 hfraction.2]
  exact stCleanDate2_valid hvalid h0 h1 _ _ _

/-- A printed time is read back exactly when the format is fixed or no zero of the fraction was
dropped. -/
theorem stParseTime2_stPrintDate2_iff {t : StdTime2} (hv : t.Valid) (h0 : 1901 ≤ t.year)
    (h1 : t.year ≤ 3999) (currentYear : ℤ) (fixfmt : Bool) :
    stParseTime2 plat currentYear (stPrintDate2 t fixfmt) = t ↔
      fixfmt = true ∨ t.tenthMsec = 0 ∨ t.tenthMsec % 10 ≠ 0 := by
  rw [stParseTime2_stPrintDate2 plat hv h0 h1]
  have hfields : ∀ x : ℤ, { t with tenthMsec := x } = t ↔ x = t.tenthMsec := by
    intro x
    cases t
    simp
  rw [hfields]
  cases fixfmt with
  | true => simp
  | false => simpa using fractionRead_eq_iff hv.tenth.1

end RoundTrip

theorem stParseTime2_stPrintDate2_second :
    stParseTime2 hostConfig.plat 2024 (stPrintDate2 ⟨2024, 60, 1, 2, 3, 4567⟩ false)
        = ⟨2024, 60, 1, 2, 3, 4567⟩ ↔
      false = true ∨ (4567 : ℤ) = 0 ∨ (4567 : ℤ) % 10 ≠ 0 := by
  refine stParseTime2_stPrintDate2_iff _ ⟨⟨?_, ?_⟩, ?_, ?_, ?_, ?_⟩ ?_ ?_ 2024 false <;> decide

lemma halfSecond_valid : StdTime2.Valid ⟨2024, 60, 1, 2, 3, 5000⟩ := by
  refine ⟨⟨?_, ?_⟩, ?_, ?_, ?_, ?_⟩ <;> decide

/-- Half a second is printed as `.5` and read back as half a millisecond. -/
theorem stParseTime2_halfSecond :
    stParseTime2 hostConfig.plat 2024 (stPrintDate2 ⟨2024, 60, 1, 2, 3, 5000⟩ false)
        = ⟨2024, 60, 1, 2, 3, 5⟩ ∧
      ¬ ∀ t : StdTime2, t.Valid → 1901 ≤ t.year → t.year ≤ 3999 → ∀ fixfmt,
        stParseTime2 hostConfig.plat 2024 (stPrintDate2 t fixfmt) = t := by
  have hread : stParseTime2 hostConfig.plat 2024 (stPrintDate2 ⟨2024, 60, 1, 2, 3, 5000⟩ false)
      = ⟨2024, 60, 1, 2, 3, 5⟩ := by
    rw [stParseTime2_stPrintDate2 _ halfSecond_valid (by norm_num) (by norm_num)]
    rfl
  refine ⟨hread, fun h => ?_⟩
  have heq := h _ halfSecond_valid (by norm_num) (by norm_num) false
  rw [hread] at heq
  cases heq

end StationProcessor
