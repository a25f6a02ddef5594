import StationProcessor.Falcon.Fmash

/-!
# What a message holds

The loop of `fmash_csv_to_msh`, minute by minute: for every minute a value of the row map and the
changes of its row, if it has one.
-/

namespace StationProcessor

/-! ### The changes of a row -/

/-- A change and which of the values it is about. -/
abbrev Change := Fin 4 × Int32

def Change.bytes (c : Change) : Bytes := setType (UInt8.ofNat c.1) (int32ToVarint c.2)

/-- The changes written for a row. -/
def changes (last : Values) (row : CsvRow) : List Change :=
  [(typeAverage, row.average - last.average), (typeHigh, row.high - last.high),
    (typeLow, row.low - last.low)].filter fun c => c.2 ≠ 0

/-- The value of a row in the row map. -/
def rowMapValue (last : Values) (row : CsvRow) : UInt8 :=
  if row.empty then noData else UInt8.ofNat (changes last row).length

/-- The bytes of a row. -/
def rowBytes (last : Values) (row : CsvRow) : Bytes :=
  if row.empty then [] else (changes last row).flatMap Change.bytes

/-- The bytes of three values. -/
def valuesBytes (v : Values) : Bytes :=
  Change.bytes (typeAverage, v.average) ++ Change.bytes (typeHigh, v.high) ++
    Change.bytes (typeLow, v.low)

@[simp] lemma writeVarint_ofBytes (bs : Bytes) (type : Fin 4) (x : Int32) :
    writeVarint (.ofBytes bs) type x = .ofBytes (bs ++ Change.bytes (type, x)) := by
  simp [writeVarint, Change.bytes]

@[simp] lemma writeValues_ofBytes (bs : Bytes) (v : Values) :
    writeValues (.ofBytes bs) v = .ofBytes (bs ++ valuesBytes v) := by
  simp [writeValues, valuesBytes]

lemma writeDelta_ofBytes (bs : Bytes) (updated : UInt8) (type : Fin 4) (delta : Int32) :
    writeDelta (.ofBytes bs, updated) type delta =
      if delta ≠ 0 then (.ofBytes (bs ++ Change.bytes (type, delta)), updated + 1)
      else (.ofBytes bs, updated) := by
  simp [writeDelta]

/-- A row appends its bytes. -/
@[simp] lemma writeRow_ofBytes (bs : Bytes) (last : Values) (row : CsvRow) :
    writeRow (.ofBytes bs) last row
      = (.ofBytes (bs ++ rowBytes last row), rowMapValue last row) := by
  by_cases hempty : row.empty
  · simp [writeRow, rowBytes, rowMapValue, hempty]
  · by_cases ha : row.average - last.average = 0 <;> by_cases hh : row.high - last.high = 0 <;>
      by_cases hl : row.low - last.low = 0 <;>
      simp [writeRow, writeDelta_ofBytes, rowBytes, rowMapValue, changes, noChange, hempty, ha, hh,
        hl]

/-- A row that is not empty leaves its own values. -/
lemma lastAfter_eq (last : Values) (row : CsvRow) :
    lastAfter last row = if row.empty then last else row.values := by
  have hkeep (x y : Int32) : (if x - y ≠ 0 then x else y) = x := by
    split_ifs with h
    · rfl
    · rw [Int32.sub_eq_iff_eq_add.mp (not_not.mp h), Int32.zero_add]
  simp only [lastAfter, hkeep]
  rfl

/-! ### Minute by minute -/

/-- What the minutes from `t` on add to a message: their values in the row map and their bytes; the
last values, and the rows that are left. -/
structure Minutes where
  maps : List UInt8
  bytes : Bytes
  last : Values
  rest : List CsvRow

/-- The next `k` minutes, or fewer where the rows end. -/
def minutes : ℕ → ℤ → Values → List CsvRow → Minutes
  | 0, _, last, rows => ⟨[], [], last, rows⟩
  | _ + 1, _, last, [] => ⟨[], [], last, []⟩
  | k + 1, t, last, row :: rows =>
    if t = row.timestamp then
      let m := minutes k (t + tmMinute) (lastAfter last row) rows
      { m with maps := rowMapValue last row :: m.maps, bytes := rowBytes last row ++ m.bytes }
    else
      let m := minutes k (t + tmMinute) last (row :: rows)
      { m with maps := noData :: m.maps }

/-- Fill a row map from index `i` on. -/
def setMaps : Bytes → ℕ → List UInt8 → Bytes
  | map, _, [] => map
  | map, i, v :: vs => setMaps (map3Set map i v) (i + 1) vs

/-- The rows not yet encoded. -/
def Encoder.pending (e : Encoder) : List CsvRow := e.bufferedRow.toList ++ e.list

/-- An encoder that has written `k` minutes of `m` since `e`. -/
structure Encoder.Wrote (e e' : Encoder) (head map tail : Bytes) (m : Minutes) : Prop where
  buf : e'.buf = .ofBytes (head ++ (map ++ (tail ++ m.bytes)))
  pending : e'.pending = m.rest
  last : e'.last = m.last
  firstTime : e'.firstTime = false
  startTime : e'.startTime = e.startTime
  currentTime : e'.currentTime = e.currentTime + tmMinute * m.maps.length
  rowCount : e'.rowCount = e.rowCount + m.maps.length

lemma setRowMap_ofBytes {head map tail : Bytes} {i : ℕ} (hhead : head.length = rowmapOffset)
    (hi : i / 8 * 3 + 2 < map.length) (v : UInt8) :
    setRowMap (.ofBytes (head ++ (map ++ tail))) i v
      = .ofBytes (head ++ (map3Set map i v ++ tail)) := by
  apply Buffer.ext
  · simp only [setRowMap, Buffer.content_ofBytes, ← hhead, List.take_left, List.drop_left,
      map3Set_append hi]
  · simp [setRowMap]

/-- The row a turn of the loop is about is the first pending one. -/
lemma nextRow_eq {e : Encoder} (hfirst : e.firstTime = false) :
    nextRow e = match e.pending with
      | [] => none
      | row :: rows => some (row, { e with bufferedRow := some row, list := rows }) := by
  obtain ⟨buf, list, bufferedRow, firstTime, startTime, currentTime, last, rowCount⟩ := e
  cases bufferedRow with
  | some row => rfl
  | none => cases list <;> simp_all [nextRow, Encoder.pending]

/-- A turn of the loop for a minute with a row. -/
lemma encodeMinute_row {head map tail : Bytes} (hhead : head.length = rowmapOffset) {e : Encoder}
    (hbuf : e.buf = .ofBytes (head ++ (map ++ tail))) (hfirst : e.firstTime = false) {i : ℕ}
    (hi : i / 8 * 3 + 2 < map.length) {row : CsvRow} {rows : List CsvRow}
    (hrows : e.pending = row :: rows) (htime : e.currentTime = row.timestamp) :
    encodeMinute e i = some
      { e with
        buf := .ofBytes (head ++ (map3Set map i (rowMapValue e.last row) ++
          (tail ++ rowBytes e.last row)))
        list := rows
        bufferedRow := none
        currentTime := e.currentTime + tmMinute
        last := lastAfter e.last row
        rowCount := e.rowCount + 1 } := by
  simp [encodeMinute, nextRow_eq hfirst, hrows, htime, hbuf, setRowMap_ofBytes hhead hi]

/-- A turn of the loop for a minute without one. -/
lemma encodeMinute_missing {head map tail : Bytes} (hhead : head.length = rowmapOffset)
    {e : Encoder} (hbuf : e.buf = .ofBytes (head ++ (map ++ tail))) (hfirst : e.firstTime = false)
    {i : ℕ} (hi : i / 8 * 3 + 2 < map.length) {row : CsvRow} {rows : List CsvRow}
    (hrows : e.pending = row :: rows) (htime : e.currentTime ≠ row.timestamp) :
    encodeMinute e i = some
      { e with
        buf := .ofBytes (head ++ (map3Set map i noData ++ tail))
        list := rows
        bufferedRow := some row
        currentTime := e.currentTime + tmMinute
        rowCount := e.rowCount + 1 } := by
  simp [encodeMinute, nextRow_eq hfirst, hrows, htime, hbuf, setRowMap_ofBytes hhead hi]

/-- A minute more, written before the others. -/
lemma Encoder.Wrote.cons {e e' e'' : Encoder} {head map tail tail' : Bytes} {m m' : Minutes}
    {v : UInt8} (h : e'.Wrote e'' head map tail' m) (hstart : e'.startTime = e.startTime)
    (htime : e'.currentTime = e.currentTime + tmMinute) (hcount : e'.rowCount = e.rowCount + 1)
    (hbytes : tail' ++ m.bytes = tail ++ m'.bytes) (hmaps : m'.maps = v :: m.maps := by rfl)
    (hlast : m'.last = m.last := by rfl) (hrest : m'.rest = m.rest := by rfl) :
    e.Wrote e'' head map tail m' where
  buf := by rw [h.buf, hbytes]
  pending := by rw [h.pending, hrest]
  last := by rw [h.last, hlast]
  firstTime := h.firstTime
  startTime := by rw [h.startTime, hstart]
  currentTime := by
    rw [h.currentTime, htime, hmaps, List.length_cons]
    push_cast
    ring
  rowCount := by
    rw [h.rowCount, hcount, hmaps, List.length_cons]
    ring

/-- The loop writes the minutes one after the other. -/
lemma encodeLoop_wrote {head : Bytes} (hhead : head.length = rowmapOffset) (k i : ℕ) (e : Encoder)
    {map : Bytes} (tail : Bytes) (hmap : map.length = rowMapSize) (hi : i + k ≤ 64)
    (hbuf : e.buf = .ofBytes (head ++ (map ++ tail))) (hfirst : e.firstTime = false) :
    e.Wrote (encodeLoop k i e) head
      (setMaps map i (minutes k e.currentTime e.last e.pending).maps) tail
      (minutes k e.currentTime e.last e.pending) := by
  induction k generalizing i e map tail with
  | zero =>
    refine ⟨?_, rfl, rfl, hfirst, rfl, ?_, rfl⟩
    · simpa [encodeLoop, minutes, setMaps] using hbuf
    · simp [encodeLoop, minutes]
  | succ k ih =>
    have hslot : i / 8 * 3 + 2 < map.length := by
      rw [hmap, rowMapSize]
      omega
    cases hrows : e.pending with
    | nil =>
      have hstop : encodeLoop (k + 1) i e = e := by
        simp [encodeLoop, encodeMinute, nextRow_eq hfirst, hrows]
      rw [hstop]
      refine ⟨?_, hrows, rfl, hfirst, rfl, ?_, rfl⟩
      · simpa [minutes, setMaps] using hbuf
      · simp [minutes]
    | cons row rows =>
      by_cases htime : e.currentTime = row.timestamp
      · have hstep := encodeMinute_row hhead hbuf hfirst hslot hrows htime
        have hlen := (length_map3Set map i (rowMapValue e.last row)).trans hmap
        rw [encodeLoop, hstep, minutes, if_pos htime]
        refine Encoder.Wrote.cons (ih (i + 1) _ (tail ++ rowBytes e.last row) hlen
          (by omega) rfl hfirst) rfl rfl rfl ?_
        exact List.append_assoc _ _ _
      · have hstep := encodeMinute_missing hhead hbuf hfirst hslot hrows htime
        have hlen := (length_map3Set map i noData).trans hmap
        rw [encodeLoop, hstep, minutes, if_neg htime]
        exact Encoder.Wrote.cons (ih (i + 1) _ tail hlen (by omega) rfl hfirst)
          rfl rfl rfl rfl

/-! ### Rows on whole minutes -/

/-- Rows as a parser collects them: in the order of their times, one whole minute or more apart,
the first at `t` or later. -/
structure OnMinutes (t : ℤ) (rows : List CsvRow) : Prop where
  sorted : rows.Pairwise (·.timestamp < ·.timestamp)
  later : ∀ row ∈ rows, t ≤ row.timestamp
  whole : ∀ row ∈ rows, tmMinute ∣ row.timestamp - t

variable {t : ℤ} {last : Values} {row : CsvRow} {rows : List CsvRow}

/-- The rows after one that was taken. -/
lemma OnMinutes.taken (h : OnMinutes t (row :: rows)) (htime : t = row.timestamp) :
    OnMinutes (t + tmMinute) rows := by
  obtain ⟨hrow, hsorted⟩ := List.pairwise_cons.mp h.sorted
  refine ⟨hsorted, ?_, ?_⟩
  · intro r hr
    obtain ⟨d, hd⟩ := h.whole r (List.mem_cons_of_mem _ hr)
    have hlt := hrow r hr
    rw [tmMinute] at hd ⊢
    omega
  · intro r hr
    rw [← sub_sub]
    exact (h.whole r (List.mem_cons_of_mem _ hr)).sub dvd_rfl

/-- The rows at a minute without one. -/
lemma OnMinutes.missing (h : OnMinutes t (row :: rows)) (htime : t ≠ row.timestamp) :
    OnMinutes (t + tmMinute) (row :: rows) := by
  have hfirst := h.later row List.mem_cons_self
  refine ⟨h.sorted, ?_, ?_⟩
  · intro r hr
    obtain ⟨d, hd⟩ := h.whole row List.mem_cons_self
    have hle : row.timestamp ≤ r.timestamp := by
      rcases List.mem_cons.mp hr with rfl | hr
      · exact le_rfl
      · exact (List.rel_of_pairwise_cons h.sorted hr).le
    rw [tmMinute] at hd ⊢
    omega
  · intro r hr
    rw [← sub_sub]
    exact (h.whole r hr).sub dvd_rfl

lemma add_minutes_succ (t : ℤ) (k : ℕ) :
    t + tmMinute * (k + 1 : ℕ) = t + tmMinute + tmMinute * k := by
  push_cast
  ring

/-- The rows left are those after the minutes. -/
lemma rest_minutes (k : ℕ) (h : OnMinutes t rows) :
    (minutes k t last rows).rest = rows.filter fun r => t + tmMinute * k ≤ r.timestamp := by
  induction k generalizing t last rows with
  | zero =>
    refine (List.filter_eq_self.mpr ?_).symm
    intro r hr
    simpa using h.later r hr
  | succ k ih =>
    have hbound := add_minutes_succ t k
    cases rows with
    | nil => rfl
    | cons row rows =>
      rw [hbound]
      by_cases htime : t = row.timestamp
      · have hfirst : ¬t + tmMinute + tmMinute * k ≤ row.timestamp := by
          rw [← htime, tmMinute]
          omega
        simp only [minutes, if_pos htime, ih (h.taken htime), List.filter_cons, hfirst,
          decide_false, Bool.false_eq_true, if_false]
      · simp only [minutes, if_neg htime, ih (h.missing htime)]

lemma length_maps_le (k : ℕ) (t : ℤ) (last : Values) (rows : List CsvRow) :
    (minutes k t last rows).maps.length ≤ k := by
  induction k generalizing t last rows with
  | zero => exact le_rfl
  | succ k ih =>
    cases rows with
    | nil => exact Nat.zero_le _
    | cons row rows =>
      by_cases htime : t = row.timestamp
      · simpa [minutes, htime] using ih _ _ _
      · simpa [minutes, htime] using ih _ _ _

lemma length_maps_pos (k : ℕ) (t : ℤ) (last : Values) (row : CsvRow) (rows : List CsvRow) :
    0 < (minutes (k + 1) t last (row :: rows)).maps.length := by
  by_cases htime : t = row.timestamp
  · simp [minutes, htime]
  · simp [minutes, htime]

/-- The last minute is not later than the last row. -/
lemma exists_end_le (k : ℕ) (h : OnMinutes t rows)
    (hpos : 0 < (minutes k t last rows).maps.length) :
    ∃ r ∈ rows, t + tmMinute * (minutes k t last rows).maps.length - tmMinute ≤ r.timestamp := by
  induction k generalizing t last rows with
  | zero => exact absurd hpos (lt_irrefl 0)
  | succ k ih =>
    cases rows with
    | nil => exact absurd hpos (lt_irrefl 0)
    | cons row rows =>
      have hfirst := h.later row List.mem_cons_self
      -- either this is the last minute, or a later one is
      have hcase (last' : Values) (rows' : List CsvRow) (hsub : rows' ⊆ row :: rows)
          (h' : OnMinutes (t + tmMinute) rows')
          (hlen : (minutes (k + 1) t last (row :: rows)).maps.length
            = (minutes k (t + tmMinute) last' rows').maps.length + 1) :
          ∃ r ∈ row :: rows,
            t + tmMinute * (minutes (k + 1) t last (row :: rows)).maps.length - tmMinute
              ≤ r.timestamp := by
        rw [hlen]
        push_cast
        rcases Nat.eq_zero_or_pos (minutes k (t + tmMinute) last' rows').maps.length with
          hzero | hpos
        · refine ⟨row, List.mem_cons_self, ?_⟩
          rw [hzero, tmMinute]
          omega
        · obtain ⟨r, hr, hle⟩ := ih h' hpos
          refine ⟨r, hsub hr, ?_⟩
          rw [tmMinute] at hle ⊢
          omega
      by_cases htime : t = row.timestamp
      · exact hcase (lastAfter last row) rows (List.subset_cons_self _ _) (h.taken htime)
          (by simp [minutes, htime])
      · exact hcase last (row :: rows) (List.Subset.refl _) (h.missing htime)
          (by simp [minutes, htime])

/-! ### The row map -/

lemma length_changes_le (last : Values) (row : CsvRow) : (changes last row).length ≤ 3 :=
  List.length_filter_le _ _

/-- A value of the row map counts up to three changes, or says that there is no row. -/
lemma rowMapValue_cases (last : Values) (row : CsvRow) :
    (row.empty ∧ rowMapValue last row = noData) ∨
      (¬row.empty ∧ rowMapValue last row = UInt8.ofNat (changes last row).length) := by
  by_cases hempty : row.empty
  · exact Or.inl ⟨hempty, by simp [rowMapValue, hempty]⟩
  · exact Or.inr ⟨hempty, by simp [rowMapValue, hempty]⟩

lemma mem_maps_minutes (k : ℕ) (t : ℤ) (last : Values) (rows : List CsvRow) :
    ∀ v ∈ (minutes k t last rows).maps, v &&& 0x07 = v := by
  induction k generalizing t last rows with
  | zero => simp [minutes]
  | succ k ih =>
    cases rows with
    | nil => simp [minutes]
    | cons row rows =>
      by_cases htime : t = row.timestamp
      · intro v hv
        simp only [minutes, if_pos htime, List.mem_cons] at hv
        rcases hv with rfl | hv
        · rcases rowMapValue_cases last row with ⟨-, hvalue⟩ | ⟨-, hvalue⟩
          · rw [hvalue]
            rfl
          · rw [hvalue]
            have hle := length_changes_le last row
            interval_cases (changes last row).length <;> rfl
        · exact ih _ _ _ v hv
      · intro v hv
        simp only [minutes, if_neg htime, List.mem_cons] at hv
        rcases hv with rfl | hv
        · rfl
        · exact ih _ _ _ v hv

@[simp] lemma length_setMaps (map : Bytes) (i : ℕ) (vs : List UInt8) :
    (setMaps map i vs).length = map.length := by
  induction vs generalizing map i with
  | nil => rfl
  | cons v vs ih => rw [setMaps, ih, length_map3Set]

/-- Filling a row map leaves the values before alone. -/
lemma map3Get_setMaps_of_lt {map : Bytes} {i j : ℕ} (vs : List UInt8)
    (hmap : map.length = rowMapSize) (hi : i + vs.length ≤ 64) (hj : j < i) :
    map3Get (setMaps map i vs) j = map3Get map j := by
  induction vs generalizing map i with
  | nil => rfl
  | cons v vs ih =>
    rw [List.length_cons] at hi
    have hslot : 3 * i + 2 < 8 * map.length := by
      rw [hmap, rowMapSize]
      omega
    rw [setMaps, ih ((length_map3Set map i v).trans hmap) (by omega) (by omega),
      map3Get_map3Set_of_ne hslot v (by omega)]

/-- The values a row map was filled with are read back. -/
lemma map3Get_setMaps {map : Bytes} {i j : ℕ} (vs : List UInt8) (hmap : map.length = rowMapSize)
    (hi : i + vs.length ≤ 64) (hj : j < vs.length) :
    map3Get (setMaps map i vs) (i + j) = vs[j] &&& 0x07 := by
  induction vs generalizing map i j with
  | nil => exact absurd hj (Nat.not_lt_zero j)
  | cons v vs ih =>
    rw [List.length_cons] at hi hj
    have hlen := (length_map3Set map i v).trans hmap
    have hslot : 3 * i + 2 < 8 * map.length := by
      rw [hmap, rowMapSize]
      omega
    cases j with
    | zero =>
      rw [setMaps, map3Get_setMaps_of_lt vs hlen (by omega) (by omega)]
      exact map3Get_map3Set_self hslot v
    | succ j =>
      rw [setMaps, show i + (j + 1) = i + 1 + j by ring, ih hlen (by omega) (by omega)]
      rfl

/-! ### The message -/

/-- The description in a message: its length, its characters and a null. -/
def descriptionField (description : CString) : Bytes :=
  [descriptionLength description] ++
    (description.val.take (descriptionLength description).toNat ++ [0])

/-- The parts of a message in their order. -/
def message (startTime endTime : ℤ) (channel rowCount : ℕ) (rowmap : Bytes)
    (description : CString) (values : Bytes) : Bytes :=
  htons falconVersion ++ (htonl startTime ++ (htonl endTime ++ (htons channel ++
    (htons rowCount ++ (rowmap ++ (descriptionField description ++ values))))))

@[simp] lemma length_htons (v : ℕ) : (htons v).length = 2 := rfl

@[simp] lemma length_htonl (t : ℤ) : (htonl t).length = 4 := BigEndian.length_encode 4 _

lemma reserveHeader_eq (csv : CsvBuffer) :
    reserveHeader csv = .ofBytes ((htons falconVersion ++ (htonl 0 ++ (htonl 0 ++
      (htons falconVersion ++ htons falconVersion)))) ++
        (List.replicate rowMapSize 0 ++ descriptionField csv.header.description)) := by
  simp [reserveHeader, Buffer.bufferInit_eq, descriptionField]

/-- The header replaces what was written in its place. -/
lemma writeHeader_eq (startTime endTime : ℤ) (channel rowCount : ℕ) (rest : Bytes) :
    (writeHeader (.ofBytes ((htons falconVersion ++ (htonl 0 ++ (htonl 0 ++
      (htons falconVersion ++ htons falconVersion)))) ++ rest))
        startTime endTime channel rowCount).content
      = htons falconVersion ++ (htonl startTime ++ (htonl endTime ++ (htons channel ++
        (htons rowCount ++ rest)))) := by
  have hseek := Buffer.seek_ofBytes (htons falconVersion) (htonl 0 ++ (htonl 0 ++
    (htons falconVersion ++ (htons falconVersion ++ rest)))) (length_htons falconVersion)
  simp only [List.append_assoc]
  rw [writeHeader, hseek]
  rw [Buffer.write_between _ _ (by simp), Buffer.write_between _ _ (by simp),
    Buffer.write_between _ _ (by simp), Buffer.write_between _ _ (by simp)]
  simp

/-- The locals after the first row is fetched. -/
def encodeFirst (csv : CsvBuffer) (row : CsvRow) (rows : List CsvRow) : Encoder where
  buf := writeValues (reserveHeader csv) row.values
  list := rows
  bufferedRow := some row
  firstTime := false
  startTime := row.timestamp
  currentTime := row.timestamp
  last := row.values
  rowCount := 0

/-- Fetching the first row is all that the first turn does more than the others. -/
lemma encodeLoop_start {csv : CsvBuffer} {row : CsvRow} {rows : List CsvRow}
    (hlist : csv.list = row :: rows) :
    encodeLoop maxRows 0 (encodeStart csv) = encodeLoop maxRows 0 (encodeFirst csv row rows) := by
  have hnext : nextRow (encodeStart csv) = nextRow (encodeFirst csv row rows) := by
    simp [nextRow, encodeStart, encodeFirst, hlist]
  have hturn : encodeMinute (encodeStart csv) 0 = encodeMinute (encodeFirst csv row rows) 0 := by
    rw [encodeMinute, encodeMinute, hnext]
  have hsome : ∃ e, encodeMinute (encodeFirst csv row rows) 0 = some e := ⟨_, rfl⟩
  obtain ⟨e, he⟩ := hsome
  rw [maxRows, encodeLoop, encodeLoop, hturn, he]

/-- The message of a list of rows. -/
lemma fmashCsvToMsh_eq {csv : CsvBuffer} {row : CsvRow} {rows : List CsvRow}
    (hlist : csv.list = row :: rows) :
    let m := minutes maxRows row.timestamp row.values (row :: rows)
    let endTime := row.timestamp + tmMinute * m.maps.length - tmMinute
    fmashCsvToMsh csv = some
      (message row.timestamp endTime csv.header.channel.toNat m.maps.length
        (setMaps (List.replicate rowMapSize 0) 0 m.maps) csv.header.description
        (valuesBytes row.values ++ (m.bytes ++ valuesBytes m.last)),
      { csv with list := m.rest, startTime := nextStart endTime m.rest }) := by
  intro m endTime
  let head := htons falconVersion ++ (htonl 0 ++ (htonl 0 ++
    (htons falconVersion ++ htons falconVersion)))
  let tail := descriptionField csv.header.description ++ valuesBytes row.values
  have hbuf : (encodeFirst csv row rows).buf
      = .ofBytes (head ++ (List.replicate rowMapSize 0 ++ tail)) := by
    simp [encodeFirst, reserveHeader_eq, head, tail]
  have h : (encodeFirst csv row rows).Wrote
      (encodeLoop maxRows 0 (encodeFirst csv row rows)) head
      (setMaps (List.replicate rowMapSize 0) 0 m.maps) tail m :=
    encodeLoop_wrote (by simp [head, rowmapOffset]) maxRows 0 _ tail
      (List.length_replicate ..) (by norm_num [maxRows]) hbuf rfl
  have hend : (encodeLoop maxRows 0 (encodeFirst csv row rows)).currentTime - tmMinute
      = endTime := by
    rw [h.currentTime]
    rfl
  have hcount : (encodeLoop maxRows 0 (encodeFirst csv row rows)).rowCount = m.maps.length :=
    h.rowCount.trans (Nat.zero_add _)
  have hrest : (encodeLoop maxRows 0 (encodeFirst csv row rows)).bufferedRow.toList
      ++ (encodeLoop maxRows 0 (encodeFirst csv row rows)).list = m.rest := h.pending
  simp only [fmashCsvToMsh, encodeLoop_start hlist, h.firstTime, encodeEnd, hend, hcount, hrest,
    h.last, h.startTime, h.buf, writeValues_ofBytes, Bool.false_eq_true, if_false]
  refine congrArg some (Prod.ext ?_ rfl)
  rw [List.append_assoc, writeHeader_eq]
  simp [message, tail, encodeFirst]

end StationProcessor
