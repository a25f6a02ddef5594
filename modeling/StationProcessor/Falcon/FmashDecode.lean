import StationProcessor.Falcon.FmashEncode

/-!
# Decoding undoes encoding

`fmash_msh_to_csv` of a message of `fmash_csv_to_msh`. The decoder keeps the same last values as the
encoder did, whatever minutes have no row.
-/

namespace StationProcessor

/-! ### Reading the parts of a message -/

lemma readBytes_append {count : ℕ} {a : Bytes} (ha : a.length = count) (b : Bytes) :
    readBytes count (a ++ b) = .ok (a, b) := by
  subst ha
  simp [readBytes]

/-- A varint is read back, whatever follows it. -/
lemma varintToInt32_bytes (c : Change) (rest : Bytes) :
    varintToInt32 (c.bytes ++ rest) = some (c.2, c.bytes.length) := by
  have hlen : c.bytes.length = (int32ToVarint c.2).length := by
    rw [Change.bytes]
    cases int32ToVarint c.2 <;> rfl
  rw [hlen]
  exact varintToInt32_setType c.2 c.1 rest

lemma readVarint_bytes (c : Change) (rest : Bytes) :
    readVarint (c.bytes ++ rest) = .ok (c.2, rest) := by
  rw [readVarint, varintToInt32_bytes]
  simp

lemma readValues_bytes (v : Values) (rest : Bytes) :
    readValues (valuesBytes v ++ rest) = .ok (v, rest) := by
  simp only [readValues, valuesBytes, List.append_assoc, bind, Except.bind, readVarint_bytes]
  rfl

/-- What a change does to the last values. -/
def Values.change (v : Values) (c : Change) : Values :=
  if c.1 = typeAverage then { v with average := v.average + c.2 }
  else if c.1 = typeHigh then { v with high := v.high + c.2 }
  else if c.1 = typeLow then { v with low := v.low + c.2 }
  else v

/-- A change is read back. -/
lemma readDelta_bytes (last : Values) (c : Change) (hc : c.1 ≠ 0) (rest : Bytes) :
    readDelta (last, c.bytes ++ rest) = .ok (last.change c, rest) := by
  obtain ⟨b, bs, hbytes, htype⟩ := setType_int32ToVarint c.2 c.1
  have hread := readVarint_bytes c rest
  rw [Change.bytes, hbytes] at hread ⊢
  obtain ⟨type, delta⟩ := c
  simp only [List.cons_append] at hread ⊢
  simp only [readDelta, htype, hread, Values.change]
  fin_cases type
  · exact absurd rfl hc
  · rfl
  · rfl
  · rfl

/-- The changes of a row are read back. -/
lemma readDeltas_bytes (cs : List Change) (hcs : ∀ c ∈ cs, c.1 ≠ 0) (last : Values)
    (rest : Bytes) :
    readDeltas cs.length (last, cs.flatMap Change.bytes ++ rest)
      = .ok (cs.foldl Values.change last, rest) := by
  induction cs generalizing last with
  | nil => rfl
  | cons c cs ih =>
    rw [List.length_cons, readDeltas, List.flatMap_cons, List.append_assoc,
      readDelta_bytes last c (hcs c List.mem_cons_self)]
    exact ih (fun c hc => hcs c (List.mem_cons_of_mem _ hc)) (last.change c)

lemma type_ne_zero_of_mem_changes {last : Values} {row : CsvRow} {c : Change}
    (hc : c ∈ changes last row) : c.1 ≠ 0 := by
  have hmem := List.mem_of_mem_filter hc
  simp only [List.mem_cons, List.not_mem_nil, or_false] at hmem
  rcases hmem with rfl | rfl | rfl
  · exact Fin.zero_ne_one.symm
  · show typeHigh ≠ 0
    decide
  · show typeLow ≠ 0
    decide

lemma Values.change_zero (v : Values) (type : Fin 4) : v.change (type, 0) = v := by
  simp [Values.change]

/-- The changes of a row make its values of the last ones; those left out would change nothing. -/
lemma foldl_changes (last : Values) (row : CsvRow) :
    (changes last row).foldl Values.change last = row.values := by
  have hall : (changes last row).foldl Values.change last
      = [(typeAverage, row.average - last.average), (typeHigh, row.high - last.high),
        (typeLow, row.low - last.low)].foldl Values.change last := by
    rw [changes, List.foldl_filter]
    congr 1
    funext v c
    by_cases hc : c.2 = 0
    · obtain ⟨type, delta⟩ := c
      subst hc
      simp [Values.change_zero]
    · simp [hc]
  have hcancel (x y : Int32) : x + (y - x) = y := by
    rw [Int32.add_comm, Int32.sub_add_cancel]
  rw [hall]
  simp [Values.change, typeAverage, typeHigh, typeLow, CsvRow.values, hcancel]

/-! ### The loop -/

variable {rowmap : Bytes} {d : Decoder} {i : ℕ} {t : ℤ} {last : Values} {row : CsvRow}
  {rows : List CsvRow}

lemma decodeMinute_noData (hmap : map3Get rowmap i = noData) :
    decodeMinute rowmap d i = .ok { d with currentTime := d.currentTime + tmMinute } := by
  rw [decodeMinute, hmap]
  rfl

/-- A row as it comes back from a message. -/
lemma ofValues_values (hempty : ¬row.empty) : CsvRow.ofValues row.timestamp row.values = row := by
  obtain ⟨timestamp, average, high, low, empty⟩ := row
  simp only [Bool.not_eq_true] at hempty
  subst hempty
  rfl

/-- A minute with a row that is not empty. -/
lemma decodeMinute_row (last : Values) (rest : Bytes) (list : List CsvRow) (hempty : ¬row.empty)
    (hmap : map3Get rowmap i = rowMapValue last row) :
    decodeMinute rowmap
        { currentTime := row.timestamp, last := last, p := rowBytes last row ++ rest,
          list := list } i
      = .ok
        { currentTime := row.timestamp + tmMinute, last := row.values, p := rest,
          list := list ++ [row] } := by
  have hvalue : rowMapValue last row = UInt8.ofNat (changes last row).length := by
    simp [rowMapValue, hempty]
  have hbytes : rowBytes last row = (changes last row).flatMap Change.bytes := by
    simp [rowBytes, hempty]
  have hle := length_changes_le last row
  have hcount : (UInt8.ofNat (changes last row).length).toNat = (changes last row).length :=
    UInt8.toNat_ofNat_of_lt' (hle.trans_lt (by decide))
  have hfew : UInt8.ofNat (changes last row).length ≤ 3 := by
    rw [UInt8.le_iff_toNat_le, hcount]
    exact hle
  have hread := readDeltas_bytes (changes last row) (fun c hc => type_ne_zero_of_mem_changes hc)
    last rest
  rw [foldl_changes] at hread
  simp only [decodeMinute, hmap, hvalue, hfew, if_true, hcount, hbytes, hread, bind, Except.bind,
    pure, Except.pure, ofValues_values hempty]

/-- The rows that come back: those before the end that are not empty. -/
def decoded (stop : ℤ) (rows : List CsvRow) : List CsvRow :=
  rows.filter fun row => row.timestamp < stop ∧ ¬row.empty

/-- The values of a row map from index `i` on. -/
def HoldsMaps (rowmap : Bytes) (i : ℕ) (vs : List UInt8) : Prop :=
  ∀ j (hj : j < vs.length), map3Get rowmap (i + j) = vs[j]

lemma HoldsMaps.head {v : UInt8} {vs : List UInt8} (h : HoldsMaps rowmap i (v :: vs)) :
    map3Get rowmap i = v := h 0 (Nat.succ_pos _)

lemma HoldsMaps.tail {v : UInt8} {vs : List UInt8} (h : HoldsMaps rowmap i (v :: vs)) :
    HoldsMaps rowmap (i + 1) vs := by
  intro j hj
  have hnext := h (j + 1) (Nat.succ_lt_succ hj)
  rwa [← add_assoc, add_right_comm] at hnext

lemma decoded_cons (stop : ℤ) (row : CsvRow) (rows : List CsvRow) :
    decoded stop (row :: rows)
      = if row.timestamp < stop ∧ ¬row.empty then row :: decoded stop rows
        else decoded stop rows := by
  simp only [decoded, List.filter_cons, decide_eq_true_eq]

/-- No row is decoded of no minutes. -/
lemma OnMinutes.decoded_eq_nil (h : OnMinutes t rows) : decoded t rows = [] := by
  refine List.filter_eq_nil_iff.mpr ?_
  intro r hr
  have hle := h.later r hr
  simp [hle]

/-- The loop reads the minutes one after the other. -/
lemma decodeLoop_minutes (k : ℕ) (h : OnMinutes t rows) (rest : Bytes) (list : List CsvRow)
    (hmap : HoldsMaps rowmap i (minutes k t last rows).maps) :
    decodeLoop rowmap (minutes k t last rows).maps.length i
        { currentTime := t, last := last, p := (minutes k t last rows).bytes ++ rest,
          list := list }
      = .ok
        { currentTime := t + tmMinute * (minutes k t last rows).maps.length
          last := (minutes k t last rows).last
          p := rest
          list := list ++ decoded (t + tmMinute * k) rows } := by
  induction k generalizing i t last rows list with
  | zero => simp [minutes, decodeLoop, h.decoded_eq_nil]
  | succ k ih =>
    cases rows with
    | nil => simp [minutes, decodeLoop, decoded]
    | cons row rows =>
      have htimes := add_minutes_succ t
      rw [htimes k]
      by_cases htime : t = row.timestamp
      · subst htime
        have hstop : row.timestamp < row.timestamp + tmMinute + tmMinute * k := by
          rw [tmMinute]
          omega
        simp only [minutes, if_true, List.length_cons, List.append_assoc, htimes,
          decoded_cons, hstop, true_and] at hmap ⊢
        by_cases hempty : row.empty
        · have hvalue : rowMapValue last row = noData := by simp [rowMapValue, hempty]
          have hbytes : rowBytes last row = [] := by simp [rowBytes, hempty]
          have hlast : lastAfter last row = last := by simp [lastAfter, hempty]
          rw [decodeLoop, decodeMinute_noData (hmap.head.trans hvalue)]
          simp only [hbytes, hlast, List.nil_append, hempty, not_true_eq_false, if_false] at hmap ⊢
          exact ih (h.taken rfl) list hmap.tail
        · have hlast : lastAfter last row = row.values := by
            rw [lastAfter_eq, if_neg hempty]
          rw [decodeLoop, decodeMinute_row last _ list hempty hmap.head]
          simp only [hlast, if_pos hempty] at hmap ⊢
          rw [List.append_cons list row (decoded _ _)]
          exact ih (h.taken rfl) (list ++ [row]) hmap.tail
      · simp only [minutes, if_neg htime, List.length_cons, htimes] at hmap ⊢
        rw [decodeLoop, decodeMinute_noData hmap.head]
        exact ih (h.missing htime) list hmap.tail

/-! ### The whole message -/

/-- The description a message carries. -/
def sentDescription (description : CString) : CString :=
  ⟨description.val.take (descriptionLength description).toNat,
    fun h => description.property (List.mem_of_mem_take h)⟩

lemma descriptionLength_eq (description : CString) :
    (descriptionLength description).toNat = min (description.val.length % 256) 8 := by
  have hlen : (UInt8.ofNat description.val.length).toNat = description.val.length % 256 := rfl
  have hmax : (UInt8.ofNat maxDescription).toNat = 8 := rfl
  by_cases h : UInt8.ofNat description.val.length < UInt8.ofNat maxDescription
  · have hlt := UInt8.lt_iff_toNat_lt.mp h
    rw [descriptionLength, if_pos h, hlen]
    omega
  · have hge := mt UInt8.lt_iff_toNat_lt.mpr h
    rw [descriptionLength, if_neg h, hmax]
    omega

lemma cString_val (s : CString) : cString s.val = s.val := cString_of_notMem s.property

lemma readDescription_field (description : CString) (rest : Bytes) :
    readDescription (descriptionField description ++ rest)
      = .ok (sentDescription description, rest) := by
  have hle := descriptionLength_eq description
  have hlen : (description.val.take (descriptionLength description).toNat).length
      = (descriptionLength description).toNat := by
    rw [List.length_take, hle]
    have := Nat.mod_le description.val.length 256
    omega
  have hcount : BigEndian.decode [descriptionLength description]
      = (descriptionLength description).toNat := by simp [BigEndian.decode]
  have hfits : ¬(maxDescription + 1 < (descriptionLength description).toNat ∨
      (descriptionLength description).toNat = maxDescription + 1 ∧
        (0 : UInt8) ∉ description.val.take (descriptionLength description).toNat) := by
    rw [maxDescription]
    omega
  have hone : [descriptionLength description].length = 1 := rfl
  rw [readDescription, descriptionField, List.append_assoc]
  simp only [bind, Except.bind, readBytes_append hone, hcount, List.append_assoc,
    readBytes_append hlen, if_neg hfits, pure, Except.pure]
  refine congrArg Except.ok (Prod.ext (Subtype.ext ?_) rfl)
  exact cString_val (sentDescription description)

lemma decode_htonl {time : ℤ} (hnonneg : 0 ≤ time) (hfits : time < 2 ^ 32) :
    ((BigEndian.decode (htonl time) : ℕ) : ℤ) = time := by
  have hmod : time % 2 ^ 32 = time := Int.emod_eq_of_lt hnonneg hfits
  rw [htonl, hmod, BigEndian.decode_encode_of_lt (by omega), Int.toNat_of_nonneg hnonneg]

lemma decode_htons {v : ℕ} (hv : v < 65536) : BigEndian.decode (htons v) = v := by
  have hencode : htons v = BigEndian.encode 2 v := by simp [htons]
  rw [hencode, BigEndian.decode_encode_of_lt (by simpa using hv)]

/-- A message is unpacked to the rows it was made of. -/
lemma fmashMshToCsv_message {endTime : ℤ} (h : OnMinutes row.timestamp (row :: rows))
    (hstart : 0 ≤ row.timestamp ∧ row.timestamp < 2 ^ 32) (hend : 0 ≤ endTime ∧ endTime < 2 ^ 32)
    (header : CsvHeader) :
    let m := minutes maxRows row.timestamp row.values (row :: rows)
    fmashMshToCsv (message row.timestamp endTime header.channel.toNat m.maps.length
        (setMaps (List.replicate rowMapSize 0) 0 m.maps) header.description
        (valuesBytes row.values ++ (m.bytes ++ valuesBytes m.last)))
      = .ok
        { fileName := none
          header := ⟨sentDescription header.description, header.channel⟩
          list := decoded (row.timestamp + 3600) (row :: rows)
          startTime := row.timestamp
          endTime := endTime } := by
  intro m
  have hcount : m.maps.length ≤ 60 := length_maps_le _ _ _ _
  have hrowmap : (setMaps (List.replicate rowMapSize 0) 0 m.maps).length = rowMapSize := by simp
  have hmap (rest : Bytes) :
      HoldsMaps (setMaps (List.replicate rowMapSize 0) 0 m.maps ++ rest) 0 m.maps := by
    intro j hj
    have hslot : (0 + j) / 8 * 3 + 2
        < (setMaps (List.replicate rowMapSize 0) 0 m.maps).length := by
      rw [hrowmap, rowMapSize]
      omega
    rw [map3Get_append hslot, map3Get_setMaps m.maps (List.length_replicate ..) (by omega) hj]
    exact mem_maps_minutes _ _ _ _ _ (List.getElem_mem hj)
  have hversion : ¬falconVersion < BigEndian.decode (htons falconVersion) % 2 ^ 15 := by decide
  have hrows : BigEndian.decode (htons m.maps.length) = m.maps.length := decode_htons (by omega)
  have hchannel : BigEndian.decode (htons header.channel.toNat) = header.channel.toNat :=
    decode_htons header.channel.toNat_lt
  have hfinal := readValues_bytes m.last []
  rw [List.append_nil] at hfinal
  simp only [fmashMshToCsv, message, bind, Except.bind, readBytes_append (length_htons _),
    readBytes_append (length_htonl _), readBytes_append hrowmap, readDescription_field,
    readValues_bytes, if_neg hversion, decode_htonl hstart.1 hstart.2, decode_htonl hend.1 hend.2,
    hrows, hchannel]
  rw [decodeLoop_minutes maxRows h (valuesBytes m.last) [] (hmap _)]
  simp only [hfinal, ne_eq, m, not_true_eq_false, if_false, UInt16.ofNat_toNat, List.nil_append]
  rfl

/-! ### The round trip -/

/-- Rows as `csv_parse_file` collects them: in the order of their times, which are whole minutes
and fit the four bytes of a message. -/
structure Parsed (rows : List CsvRow) : Prop where
  sorted : rows.Pairwise (·.timestamp < ·.timestamp)
  whole : ∀ row ∈ rows, tmMinute ∣ row.timestamp
  fits : ∀ row ∈ rows, 0 ≤ row.timestamp ∧ row.timestamp < 2 ^ 32

/-- A message `msg` of the rows of `csv`, what it is unpacked to and what is left of the rows. -/
structure FmashRoundTrip (csv : CsvBuffer) (first : CsvRow) (msg : Bytes) (left out : CsvBuffer) :
    Prop where
  encoded : fmashCsvToMsh csv = some (msg, left)
  unpacked : fmashMshToCsv msg = .ok out
  rows : out.list
    = csv.list.filter fun row => row.timestamp < first.timestamp + 3600 ∧ ¬row.empty
  channel : out.header.channel = csv.header.channel
  description : out.header.description.val = csv.header.description.val.take 8
  start : out.startTime = first.timestamp
  stop : out.endTime = first.timestamp + 60 * (ntohsAt msg 12 - 1)
  count : 1 ≤ ntohsAt msg 12 ∧ ntohsAt msg 12 ≤ 60
  rest : left.list = csv.list.filter fun row => first.timestamp + 3600 ≤ row.timestamp

lemma Parsed.onMinutes (h : Parsed (row :: rows)) : OnMinutes row.timestamp (row :: rows) where
  sorted := h.sorted
  later := by
    intro r hr
    rcases List.mem_cons.mp hr with rfl | hr
    · exact le_rfl
    · exact (List.rel_of_pairwise_cons h.sorted hr).le
  whole := fun r hr => (h.whole r hr).sub (h.whole row List.mem_cons_self)

lemma ntohsAt_append {a : Bytes} {k : ℕ} (ha : a.length = k) {v : ℕ} (hv : v < 65536)
    (rest : Bytes) : ntohsAt (a ++ (htons v ++ rest)) k = v := by
  subst ha
  have h0 : byteAt (a ++ (htons v ++ rest)) a.length = ((v / 256 : ℕ) : ℤ) := by
    have : v / 256 < 256 := by omega
    simp [byteAt, htons, Nat.mod_eq_of_lt this]
  have h1 : byteAt (a ++ (htons v ++ rest)) (a.length + 1) = ((v % 256 : ℕ) : ℤ) := by
    simp [byteAt, htons]
  rw [ntohsAt, h0, h1]
  omega

/-- The end time of a message fits its four bytes. -/
lemma Parsed.end_fits (h : Parsed (row :: rows)) :
    let m := minutes maxRows row.timestamp row.values (row :: rows)
    0 ≤ row.timestamp + tmMinute * m.maps.length - tmMinute ∧
      row.timestamp + tmMinute * m.maps.length - tmMinute < 2 ^ 32 := by
  intro m
  have hstart := h.fits row List.mem_cons_self
  have hpos : 0 < m.maps.length := length_maps_pos 59 _ _ _ _
  obtain ⟨r, hr, hr'⟩ := exists_end_le maxRows h.onMinutes hpos
  have hfits := h.fits r hr
  refine ⟨?_, hr'.trans_lt hfits.2⟩
  rw [tmMinute]
  omega

/-- The rows in a message. -/
def messageRows (msg : Bytes) : List CsvRow :=
  match fmashMshToCsv msg with
  | .error _ => []
  | .ok out => out.list

/-- A message takes the rows of an hour out of the buffer, and holds those that are not empty. -/
lemma exists_message {csv : CsvBuffer} (hlist : csv.list = row :: rows)
    (hrows : Parsed csv.list) :
    ∃ msg endTime,
      fmashCsvToMsh csv = some (msg,
        { csv with
          list := csv.list.filter fun r => row.timestamp + 3600 ≤ r.timestamp
          startTime := nextStart endTime
            (csv.list.filter fun r => row.timestamp + 3600 ≤ r.timestamp) }) ∧
      messageRows msg = decoded (row.timestamp + 3600) csv.list := by
  have hencode := fmashCsvToMsh_eq hlist
  rw [hlist] at hrows ⊢
  have h := hrows.onMinutes
  have hdecode := fmashMshToCsv_message h (hrows.fits row List.mem_cons_self) hrows.end_fits
    csv.header
  have hrest : (minutes maxRows row.timestamp row.values (row :: rows)).rest
      = (row :: rows).filter fun r => row.timestamp + 3600 ≤ r.timestamp :=
    rest_minutes maxRows h
  simp only [hrest] at hencode
  refine ⟨_, _, hencode, ?_⟩
  rw [messageRows, hdecode]

/-- All of the round trip that does not depend on the length of the description. -/
lemma exists_roundTrip {csv : CsvBuffer} (hlist : csv.list = row :: rows)
    (hrows : Parsed csv.list) :
    ∃ msg left out, fmashCsvToMsh csv = some (msg, left) ∧ fmashMshToCsv msg = .ok out ∧
      out.header.description = sentDescription csv.header.description ∧
      (out.header.description.val = csv.header.description.val.take 8 →
        FmashRoundTrip csv row msg left out) := by
  let m := minutes maxRows row.timestamp row.values (row :: rows)
  let endTime := row.timestamp + tmMinute * m.maps.length - tmMinute
  have hencode := fmashCsvToMsh_eq hlist
  rw [hlist] at hrows
  have h := hrows.onMinutes
  have hstart := hrows.fits row List.mem_cons_self
  have hpos : 0 < m.maps.length := length_maps_pos 59 _ _ _ _
  have hle : m.maps.length ≤ 60 := length_maps_le _ _ _ _
  have hdecode := fmashMshToCsv_message h hstart hrows.end_fits csv.header
  have hhead (startTime endTime : ℤ) (channel : ℕ) :
      (htons falconVersion ++ (htonl startTime ++ (htonl endTime ++ htons channel))).length
        = 12 := by simp
  have hcount : ntohsAt (message row.timestamp endTime csv.header.channel.toNat m.maps.length
      (setMaps (List.replicate rowMapSize 0) 0 m.maps) csv.header.description
      (valuesBytes row.values ++ (m.bytes ++ valuesBytes m.last))) 12 = m.maps.length := by
    have hat := ntohsAt_append (hhead row.timestamp endTime csv.header.channel.toNat)
      (v := m.maps.length) (by omega) (setMaps (List.replicate rowMapSize 0) 0 m.maps ++
        (descriptionField csv.header.description ++
          (valuesBytes row.values ++ (m.bytes ++ valuesBytes m.last))))
    simpa only [message, List.append_assoc] using hat
  refine ⟨_, _, _, hencode, hdecode, rfl, fun hdescription => ?_⟩
  refine ⟨hencode, hdecode, ?_, rfl, hdescription, rfl, ?_, ?_, ?_⟩
  · rw [hlist]
    rfl
  · rw [hcount]
    simp only [tmMinute]
    ring
  · rw [hcount]
    omega
  · rw [hlist]
    exact rest_minutes maxRows h

/-- The description arrives, cut to eight characters, unless its length is small modulo 256. -/
lemma sentDescription_eq_iff (description : CString) :
    (sentDescription description).val = description.val.take 8 ↔
      (description.val.length < 256 ∨ 8 ≤ description.val.length % 256) := by
  have hlen := descriptionLength_eq description
  constructor
  · intro h
    have hlengths := congrArg List.length h
    simp only [sentDescription, List.length_take] at hlengths
    omega
  · intro h
    show description.val.take (descriptionLength description).toNat = description.val.take 8
    rw [hlen]
    rcases h with h | h
    · rw [Nat.mod_eq_of_lt h]
      rcases le_total description.val.length 8 with hle | hle
      · rw [min_eq_left hle, List.take_length, List.take_of_length_le hle]
      · rw [min_eq_right hle]
    · rw [min_eq_right h]

/-- Decoding undoes encoding, except that the length of the description is counted in eight bits:
the description is lost, wholly or in part, where that count is less than the eight characters a
message has room for. -/
theorem fmash_round_trip_iff {csv : CsvBuffer} (hlist : csv.list = row :: rows)
    (hrows : Parsed csv.list) :
    (∃ msg left out, FmashRoundTrip csv row msg left out) ↔
      (csv.header.description.val.length < 256 ∨
        8 ≤ csv.header.description.val.length % 256) := by
  obtain ⟨msg, left, out, hencode, hdecode, hsent, hround⟩ := exists_roundTrip hlist hrows
  rw [← sentDescription_eq_iff, ← hsent]
  constructor
  · rintro ⟨msg', left', out', h⟩
    cases hencode.symm.trans h.encoded
    cases hdecode.symm.trans h.unpacked
    exact h.description
  · intro h
    exact ⟨msg, left, out, hround h⟩

/-- A buffer with one row. -/
def oneRow (description : CString) : CsvBuffer where
  fileName := none
  header := ⟨description, 1⟩
  list := [⟨60, 5, 9, -70000, false⟩]
  startTime := 60
  endTime := 60

lemma parsed_oneRow (description : CString) : Parsed (oneRow description).list :=
  ⟨List.pairwise_singleton _ _, by simp [oneRow, tmMinute], by simp [oneRow]⟩

/-- A short description. -/
theorem fmash_round_trip_iff_short : ∃ msg left out,
    FmashRoundTrip (oneRow ⟨ascii "Temp", by decide⟩) ⟨60, 5, 9, -70000, false⟩ msg left out :=
  (fmash_round_trip_iff rfl (parsed_oneRow _)).mpr (Or.inl (by decide))

/-- A description of 256 characters. -/
def longDescription : CString :=
  ⟨List.replicate 256 65, fun h => absurd (List.eq_of_mem_replicate h) (by decide)⟩

/-- Of a description of 256 characters no character arrives. -/
theorem fmash_round_trip_breaks : ¬∃ msg left out,
    FmashRoundTrip (oneRow longDescription) ⟨60, 5, 9, -70000, false⟩ msg left out := by
  rintro ⟨msg, left, out, h⟩
  obtain ⟨msg', left', out', hencode, hdecode, hsent, -⟩ :=
    exists_roundTrip rfl (parsed_oneRow longDescription)
  cases hencode.symm.trans h.encoded
  cases hdecode.symm.trans h.unpacked
  have hkept := h.description
  rw [hsent] at hkept
  have hcases := (sentDescription_eq_iff _).mp hkept
  have hlen : (oneRow longDescription).header.description.val.length = 256 :=
    List.length_replicate ..
  rw [hlen] at hcases
  omega

end StationProcessor
