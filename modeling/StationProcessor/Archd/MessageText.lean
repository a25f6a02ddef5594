import Mathlib.Data.List.DropRight
import StationProcessor.Archd.Messages

/-!
# Reading messages back

`SeedRecordMsg` should return the text and the codes `MakeSeedMsg` was given, and the texts of all
records that `CombineSeed` appended. It returns one character less of a full record of 8192 bytes,
and it cuts the station code at its first blank.
-/

namespace StationProcessor

variable {n : ℕ}

/-! ### Codes in blank fields -/

/-- A code without the blanks behind it. -/
def unpadded (code : Bytes) : Bytes := code.rdropWhile (· == 32)

lemma unpadded_append_blanks (code : Bytes) (k : ℕ) :
    unpadded (code ++ List.replicate k 32) = unpadded code := by
  induction k with
  | zero => simp
  | succ k ih =>
    rw [List.replicate_succ', ← List.append_assoc, unpadded, List.rdropWhile_concat_pos _ _ _ rfl]
    exact ih

/-- A code is its unpadded form and blanks. -/
lemma exists_blanks (code : Bytes) : ∃ k, code = unpadded code ++ List.replicate k 32 := by
  refine ⟨(code.rtakeWhile (· == 32)).length, ?_⟩
  have hblanks : code.rtakeWhile (· == 32)
      = List.replicate (code.rtakeWhile (· == 32)).length 32 := by
    refine List.eq_replicate_iff.mpr ⟨rfl, fun b hb => ?_⟩
    simpa using List.mem_rtakeWhile_imp hb
  rw [← hblanks]
  exact List.rdropWhile_append_rtakeWhile.symm

/-- Cut at its first blank, a code is the same but for blanks if it has no others. -/
lemma unpadded_takeWhile_iff (code : Bytes) :
    unpadded (code.takeWhile (· != 32)) = unpadded code ↔ 32 ∉ unpadded code := by
  constructor
  · intro h
    rw [← h]
    intro hmem
    have hcut := (List.rdropWhile_prefix (· == 32) _).subset hmem
    simpa using List.mem_takeWhile_imp hcut
  · intro h
    obtain ⟨k, hk⟩ := exists_blanks code
    have hcut : code.takeWhile (· != 32) = unpadded code := by
      have hall : ∀ b ∈ unpadded code, (b != 32) = true := by
        intro b hb
        simpa using fun heq : b = 32 => h (heq ▸ hb)
      conv_lhs => rw [hk, List.takeWhile_append_of_pos hall]
      cases k with
      | zero => simp
      | succ k => simp [List.replicate_succ]
    rw [hcut]
    exact List.rdropWhile_idempotent _ _

/-- The codes are as long as their fields at most. -/
structure ChannelCodes.Fit (codes : ChannelCodes) : Prop where
  station : codes.station.val.length ≤ 5
  network : codes.network.val.length ≤ 2
  channel : codes.channel.val.length ≤ 3
  location : codes.location.val.length ≤ 2

lemma nameField_eq {width : ℕ} {name : CString} (h : name.val.length ≤ width) :
    nameField width name = name.val ++ List.replicate (width - name.val.length) 32 := by
  rw [nameField, List.take_of_length_le h, List.rightpad]

lemma zero_notMem_nameField (width : ℕ) (name : CString) : 0 ∉ nameField width name := by
  intro h
  rcases List.mem_append.mp h with hname | hblank
  · exact name.property (List.mem_of_mem_take hname)
  · exact absurd (List.eq_of_mem_replicate hblank) (by decide)

/-- A field that is copied as a string is the code but for blanks. -/
lemma unpadded_field {width : ℕ} {name : CString} (h : name.val.length ≤ width) :
    unpadded (cString (nameField width name)) = unpadded name.val := by
  rw [cString_of_notMem (zero_notMem_nameField _ _), nameField_eq h, unpadded_append_blanks]

/-- The station, which is cut at its first blank. -/
lemma unpadded_station_iff {width : ℕ} {name : CString} (h : name.val.length ≤ width) :
    unpadded (cString ((nameField width name).takeWhile (· != 32))) = unpadded name.val ↔
      32 ∉ unpadded name.val := by
  have hzero : 0 ∉ (nameField width name).takeWhile (· != 32) := fun hmem =>
    zero_notMem_nameField width name (List.takeWhile_prefix _ |>.subset hmem)
  rw [cString_of_notMem hzero, ← unpadded_append_blanks name.val (width - name.val.length),
    ← nameField_eq h]
  exact unpadded_takeWhile_iff _

/-! ### Records of messages -/

lemma six_le_length_printPadded (k : ℤ) : 6 ≤ (Decimal.printPadded 6 k).length := by
  unfold Decimal.printPadded
  split_ifs
  · rw [List.length_cons, List.length_leftpad]
    omega
  · rw [List.length_leftpad]
    exact le_max_left _ _

lemma length_messageFront (seqno : ℤ) (codes : ChannelCodes) (utc : Utc) :
    (messageFront seqno codes utc).length = 30 := by
  simp [messageFront, six_le_length_printPadded, length_nameField]

/-- The codes in the header. -/
lemma messageFront_split (seqno : ℤ) (codes : ChannelCodes) (utc : Utc) :
    ∃ sequence rest : Bytes, sequence.length = 8 ∧ messageFront seqno codes utc = sequence ++
      (nameField 5 codes.station ++ (nameField 2 codes.location ++ (nameField 3 codes.channel ++
        (nameField 2 codes.network ++ rest)))) := by
  refine ⟨(Decimal.printPadded 6 (seqno.tmod 1000000)).take 6 ++ [68, 32],
    htons utc.year ++ (htons utc.day ++ ([utc.hour.toUInt8, utc.minute.toUInt8,
      utc.second.toUInt8, 0] ++ htons 0)), ?_, ?_⟩
  · simp [six_le_length_printPadded]
  · simp only [messageFront, List.append_assoc]

/-- A record of a message: its header begins with `front`, the text begins in byte 56. -/
structure Reads (front text : Bytes) (r : Record n) : Prop extends MessageRecord r where
  front : r.toList.take 30 = front
  start : firstDataByte r = 56
  text : messageText r = text

section Fields

variable {seqno : ℤ} {codes : ChannelCodes} {utc : Utc} {text : Bytes} {r : Record n}

/-- The codes of the header, where they are read. -/
lemma Reads.fields (h : Reads (messageFront seqno codes utc) text r) :
    (r.toList.drop 8).take 5 = nameField 5 codes.station ∧
      (r.toList.drop 13).take 2 = nameField 2 codes.location ∧
      (r.toList.drop 15).take 3 = nameField 3 codes.channel ∧
      (r.toList.drop 18).take 2 = nameField 2 codes.network := by
  obtain ⟨sequence, rest, hlen, hsplit⟩ := messageFront_split seqno codes utc
  have hfield : ∀ i k : ℕ, i + k ≤ 30 →
      (r.toList.drop i).take k = ((messageFront seqno codes utc).drop i).take k := by
    intro i k hik
    rw [← h.front, List.drop_take, List.take_take, min_eq_left (by omega)]
  rw [hfield 8 5 (by norm_num), hfield 13 2 (by norm_num), hfield 15 3 (by norm_num),
    hfield 18 2 (by norm_num), hsplit]
  simp [List.drop_append, length_nameField, hlen, List.drop_eq_nil_of_le]

end Fields

/-- The sizes of records. -/
def recordSizes : List ℕ := [256, 512, 1024, 2048, 4096, 8192]

lemma recordLengthCode_of_mem (hn : n ∈ recordSizes) :
    256 ≤ n ∧ n ≤ 8192 ∧ ∃ code, recordLengthCode n = some code := by
  simp only [recordSizes, List.mem_cons, List.not_mem_nil, or_false] at hn
  rcases hn with rfl | rfl | rfl | rfl | rfl | rfl
  all_goals exact ⟨by norm_num, by norm_num, _, rfl⟩

/-- The bytes of a message record in which the text is behind the blockette 1000. -/
lemma reads_of_toList {record : Record n} {front text rest : Bytes} {code : UInt8}
    (hfront : front.length = 30) (htext : text.length < 65536)
    (h : record.toList
      = front ++ (htons text.length ++ (messageBack code ++ (text ++ rest)))) :
    Reads front text record := by
  have hsamples : samplesInRecord record = text.length := by
    rw [samplesInRecord, h, ntohsAt_htons hfront, Nat.mod_eq_of_lt htext]
    exact Int.toNat_natCast _
  have hstart : firstDataByte record = 56 := by
    have h56 := ntohsAt_htons (a := front ++ (htons text.length ++ (htons 0 ++ (htons 0 ++
      [0, 0, 0, 1, 0, 0, 0, 0])))) (i := 44) (by simp [hfront]) 56
      (htons 48 ++ (htons 1000 ++ (htons 0 ++ ([1, 0, code, 0] ++ (text ++ rest)))))
    rw [firstDataByte, h]
    simp only [messageBack, List.append_assoc] at h56 ⊢
    rw [h56]
    rfl
  have hhead : (front ++ (htons text.length ++ messageBack code)).length = 56 := by
    simp [messageBack, hfront]
  have hsplit : record.toList
      = (front ++ (htons text.length ++ messageBack code)) ++ (text ++ rest) := by
    simp only [h, List.append_assoc]
  have hlen := congrArg List.length hsplit
  rw [List.Vector.toList_length, List.length_append, hhead, List.length_append] at hlen
  exact {
    data := by rw [hstart]; norm_num
    room := by rw [hstart, hsamples]; omega
    front := by rw [h, List.take_left' hfront]
    start := hstart
    text := by rw [messageText, hstart, hsamples, hsplit, List.drop_left' hhead, List.take_left] }

/-- A record that was just made has the text as far as there is room for it and its null. -/
lemma makeSeedMsg_reads (hn : n ∈ recordSizes) (msg : CString) (seqno : ℤ) (codes : ChannelCodes)
    (utc : Utc) : ∃ record : Record n, makeSeedMsg n msg seqno codes utc = some record ∧
      Reads (messageFront seqno codes utc) (msg.val.take (n - 57)) record := by
  obtain ⟨hlow, hhigh, code, hcode⟩ := recordLengthCode_of_mem hn
  rw [makeSeedMsg, hcode]
  refine ⟨_, rfl, ?_⟩
  have hfront := length_messageFront seqno codes utc
  have hsamples : min msg.val.length (n - 56 - 1) = (msg.val.take (n - 57)).length := by
    rw [List.length_take, min_comm]
    rfl
  have htake : msg.val.take (msg.val.take (n - 57)).length = msg.val.take (n - 57) := by
    rw [List.length_take, ← List.take_take, List.take_length]
  have hbound : (msg.val.take (n - 57)).length ≤ n - 57 := List.length_take_le _ _
  simp only [hsamples, htake]
  have hbytes : (overwrite (List.Vector.replicate n 0) 0 (messageFront seqno codes utc ++
      (htons (msg.val.take (n - 57)).length ++ (messageBack code ++ msg.val.take (n - 57))))).toList
      = writeAt (List.Vector.replicate n 0).toList 0 (messageFront seqno codes utc ++
        (htons (msg.val.take (n - 57)).length ++ (messageBack code ++ msg.val.take (n - 57)))) :=
    toList_overwrite _ (by simp [messageBack, hfront]; omega)
  rw [writeAt, List.take_zero, List.nil_append] at hbytes
  simp only [List.append_assoc] at hbytes
  exact reads_of_toList hfront (by omega) hbytes

/-! ### Extended records -/

/-- `CombineSeed` with one record after the other. -/
def combineAll (beyond : ℕ → UInt8) (record : Record n) (more : List (Record n)) :
    Option (Record n) :=
  more.foldlM (fun record msg => combineSeed record msg beyond) record

/-- A record to append: a message record with a text without nulls. -/
def TextRecord (r : Record n) : Prop := MessageRecord r ∧ 0 ∉ messageText r

lemma Reads.combineSeed {front text : Bytes} {r r' msg : Record n} {beyond : ℕ → UInt8}
    (h : Reads front text r) (hmsg : MessageRecord msg) (hn : n < 65536)
    (hcombine : combineSeed r msg beyond = some r') : Reads front (text ++ messageText msg) r' := by
  rw [combineSeed_eq h.toMessageRecord hmsg] at hcombine
  split_ifs at hcombine with hif
  obtain rfl := Option.some.inj hcombine
  have hroom : firstDataByte r + samplesInRecord r + (messageText msg).length ≤ n := by
    have hfits := hif.2
    unfold TextFits at hfits
    rw [hmsg.length_text]
    omega
  exact {
    toMessageRecord := h.toMessageRecord.extended hroom
    front := (take_extended h.toMessageRecord hroom).trans h.front
    start := (firstDataByte_extended h.toMessageRecord hroom).trans h.start
    text := by rw [messageText_extended h.toMessageRecord hroom (by omega), h.text] }

/-- An extended record has all texts. -/
lemma Reads.combineAll {front text : Bytes} {r r' : Record n} {beyond : ℕ → UInt8}
    {more : List (Record n)} (h : Reads front text r) (hmore : ∀ msg ∈ more, MessageRecord msg)
    (hn : n < 65536) (hcombine : combineAll beyond r more = some r') :
    Reads front (text ++ messageTexts more) r' := by
  induction more generalizing r text with
  | nil =>
    obtain rfl := Option.some.inj hcombine
    simpa [messageTexts] using h
  | cons msg more ih =>
    rw [StationProcessor.combineAll, List.foldlM_cons] at hcombine
    obtain ⟨r₁, hfirst, hrest⟩ := Option.bind_eq_some_iff.mp hcombine
    have h₁ := h.combineSeed (hmore msg List.mem_cons_self) hn hfirst
    have h₂ := ih h₁ (fun m hm => hmore m (List.mem_cons_of_mem _ hm)) hrest
    rwa [List.append_assoc] at h₂

/-! ### Reading -/

/-- The bytes that are read first. -/
lemma take_memoryFrom (r : Record n) (beyond : ℕ → UInt8) (offset : ℕ) {count k : ℕ}
    (h : count ≤ k) :
    memoryFrom r beyond offset count = (memoryFrom r beyond offset k).take count := by
  rw [memoryFrom, memoryFrom, ← List.map_take, List.take_range, min_eq_left h]

/-- What `SeedRecordMsg` returns should be the text, and the codes but for blanks behind them. -/
structure ReadsBack (codes : ChannelCodes) (text : Bytes) (m : SeedMsg) : Prop where
  message : m.message = text
  station : unpadded m.station = unpadded codes.station.val
  network : unpadded m.network = unpadded codes.network.val
  channel : unpadded m.channel = unpadded codes.channel.val
  location : unpadded m.location = unpadded codes.location.val

/-- No more than 8135 bytes of a text are read. -/
lemma Reads.message {front text : Bytes} {r : Record n} (h : Reads front text r) (hzero : 0 ∉ text)
    (beyond : ℕ → UInt8) : (seedRecordMsg r beyond).message = text.take 8135 := by
  have hlen : (messageText r).length = samplesInRecord r := h.toMessageRecord.length_text
  have hcount : min (samplesInRecord r) (8191 - min (firstDataByte r) 128)
      = min 8135 (samplesInRecord r) := by
    rw [h.start, min_comm]
    rfl
  have hread := take_memoryFrom r beyond (firstDataByte r) (min_le_right 8135 (samplesInRecord r))
  have hstart : min (firstDataByte r) 128 = firstDataByte r := by
    rw [h.start]
    rfl
  rw [memoryFrom_messageText h.toMessageRecord, h.text] at hread
  rw [h.text] at hlen
  change cString (memoryFrom r beyond (min (firstDataByte r) 128) _) = _
  rw [hcount, hstart, hread, ← List.take_take, ← hlen, List.take_length]
  exact cString_of_notMem fun hmem => hzero (List.mem_of_mem_take hmem)

/-- When a record is read back right. -/
lemma Reads.readsBack_iff {seqno : ℤ} {codes : ChannelCodes} {utc : Utc} {text : Bytes}
    {r : Record n} (h : Reads (messageFront seqno codes utc) text r) (hcodes : codes.Fit)
    (hzero : 0 ∉ text) (beyond : ℕ → UInt8) :
    ReadsBack codes text (seedRecordMsg r beyond) ↔
      32 ∉ unpadded codes.station.val ∧ text.length ≤ 8135 := by
  obtain ⟨hstation, hlocation, hchannel, hnetwork⟩ := h.fields
  have hmessage : (seedRecordMsg r beyond).message = text ↔ text.length ≤ 8135 := by
    rw [h.message hzero, List.take_eq_self_iff]
  have hcut : unpadded (seedRecordMsg r beyond).station = unpadded codes.station.val ↔
      32 ∉ unpadded codes.station.val := by
    rw [← unpadded_station_iff hcodes.station, ← hstation]
    rfl
  constructor
  · intro hback
    exact ⟨hcut.mp hback.station, hmessage.mp hback.message⟩
  · rintro ⟨hblank, hlen⟩
    refine ⟨hmessage.mpr hlen, hcut.mpr hblank, ?_, ?_, ?_⟩
    · rw [← unpadded_field hcodes.network, ← hnetwork]
      rfl
    · rw [← unpadded_field hcodes.channel, ← hchannel]
      rfl
    · rw [← unpadded_field hcodes.location, ← hlocation]
      rfl

/-- A record that `MakeSeedMsg` made, extended any number of times, is read back with all its
texts and its codes, unless it is a full one of 8192 bytes or its station has a blank before
another character. -/
theorem seedRecordMsg_iff (hn : n ∈ recordSizes) (msg : CString) (seqno : ℤ)
    {codes : ChannelCodes} (hcodes : codes.Fit) (utc : Utc) (beyond beyond' : ℕ → UInt8) :
    ∃ record : Record n, makeSeedMsg n msg seqno codes utc = some record ∧
      ∀ (more : List (Record n)) (r : Record n), (∀ m ∈ more, TextRecord m) →
        combineAll beyond record more = some r →
        (ReadsBack codes (msg.val.take (n - 57) ++ messageTexts more) (seedRecordMsg r beyond') ↔
          32 ∉ unpadded codes.station.val ∧
            ¬ (n = 8192 ∧ (msg.val.take (n - 57) ++ messageTexts more).length = 8136)) := by
  obtain ⟨record, hmake, hreads⟩ := makeSeedMsg_reads hn msg seqno codes utc
  obtain ⟨hlow, hhigh, -⟩ := recordLengthCode_of_mem hn
  refine ⟨record, hmake, fun more r hmore hcombine => ?_⟩
  have hall := hreads.combineAll (fun m hm => (hmore m hm).1) (by omega) hcombine
  have hzero : 0 ∉ msg.val.take (n - 57) ++ messageTexts more := by
    intro hmem
    rcases List.mem_append.mp hmem with htext | htexts
    · exact msg.property (List.mem_of_mem_take htext)
    · obtain ⟨m, hm, hin⟩ := List.mem_flatMap.mp htexts
      exact (hmore m hm).2 hin
  have hlen : (msg.val.take (n - 57) ++ messageTexts more).length ≤ n - 56 := by
    have hroom := hall.room
    rw [← hall.text, hall.toMessageRecord.length_text]
    have hstart := hall.start
    omega
  rw [hall.readsBack_iff hcodes hzero]
  refine and_congr_right fun _ => ?_
  simp only [recordSizes, List.mem_cons, List.not_mem_nil, or_false] at hn
  omega

/-- The codes of a channel for messages. -/
def logCodes : ChannelCodes where
  station := ⟨ascii "ANMO", zero_notMem_anmo⟩
  network := ⟨ascii "IU", zero_notMem_iu⟩
  channel := ⟨ascii "LOG", zero_notMem_log⟩
  location := ⟨[], zero_notMem_nil⟩

lemma logCodes_fit : logCodes.Fit := ⟨by decide, by decide, by decide, by decide⟩

theorem seedRecordMsg_iff_up : ∃ record : Record 256,
    makeSeedMsg 256 ⟨ascii "up", by decide⟩ 1 logCodes ⟨2020, 1, 0, 0, 0⟩ = some record ∧
      (ReadsBack logCodes ((ascii "up").take (256 - 57) ++ messageTexts ([] : List (Record 256)))
          (seedRecordMsg record fun _ => 0) ↔
        32 ∉ unpadded logCodes.station.val ∧ ¬ (256 = 8192 ∧
          ((ascii "up").take (256 - 57) ++ messageTexts ([] : List (Record 256))).length =
            8136)) := by
  obtain ⟨record, hmake, h⟩ := seedRecordMsg_iff (n := 256) (by decide) ⟨ascii "up", by decide⟩ 1
    logCodes_fit ⟨2020, 1, 0, 0, 0⟩ (fun _ => 0) (fun _ => 0)
  exact ⟨record, hmake, h [] record (by simp) rfl⟩

/-- Records with the same codes look the same. -/
lemma Reads.looksSame {front text text' : Bytes} {r s : Record n} (hr : Reads front text r)
    (hs : Reads front text' s) : LooksSame r s := by
  have hfield : ∀ i : ℕ, i + 2 ≤ 30 → sameCode r s i = true := by
    intro i hi
    have hbytes : (r.toList.drop i).take 2 = (s.toList.drop i).take 2 := by
      have hdrop := congrArg (fun bs => (bs.drop i).take 2) (hr.front.trans hs.front.symm)
      simpa only [List.drop_take, List.take_take, min_eq_left (show 2 ≤ 30 - i by omega)]
        using hdrop
    rw [sameCode, hbytes]
    exact decide_eq_true rfl
  exact ⟨hfield 13 (by norm_num), hfield 15 (by norm_num), hfield 8 (by norm_num),
    hfield 18 (by norm_num)⟩

/-- As many characters as fit into a record of 8192 bytes, or one. -/
def manyChars (count : ℕ) : CString := ⟨List.replicate count 120, by simp [List.mem_replicate]⟩

lemma length_take_manyChars {count k : ℕ} (h : count ≤ k) :
    ((manyChars count).val.take k).length = count := by
  rw [manyChars, List.length_take, List.length_replicate, min_eq_right h]

/-- With one more character the longest message fills its record, and is not read back. -/
theorem seedRecordMsg_full : ∃ record msg r : Record 8192,
    makeSeedMsg 8192 (manyChars 8135) 1 logCodes ⟨2020, 1, 0, 0, 0⟩ = some record ∧
      makeSeedMsg 8192 (manyChars 1) 1 logCodes ⟨2020, 1, 0, 0, 0⟩ = some msg ∧
      combineAll (fun _ => 0) record [msg] = some r ∧
      ¬ ReadsBack logCodes ((manyChars 8135).val.take (8192 - 57) ++ messageTexts [msg])
        (seedRecordMsg r fun _ => 0) := by
  obtain ⟨record, hrecord, hreads⟩ := makeSeedMsg_reads (n := 8192) (by decide) (manyChars 8135) 1
    logCodes ⟨2020, 1, 0, 0, 0⟩
  obtain ⟨msg, hmsg, hmore⟩ := makeSeedMsg_reads (n := 8192) (by decide) (manyChars 1) 1
    logCodes ⟨2020, 1, 0, 0, 0⟩
  have hlen : ((manyChars 8135).val.take (8192 - 57)).length = 8135 :=
    length_take_manyChars (by norm_num)
  have hone : ((manyChars 1).val.take (8192 - 57)).length = 1 := length_take_manyChars (by norm_num)
  have hfits : TextFits record msg := by
    unfold TextFits
    rw [← hreads.toMessageRecord.length_text, ← hmore.toMessageRecord.length_text, hreads.text,
      hmore.text, hreads.start, hlen, hone]
  have hcombine : combineAll (fun _ => 0) record [msg]
      = some (extended record (messageText msg)) := by
    simp [combineAll, combineSeed_eq hreads.toMessageRecord hmore.toMessageRecord,
      hreads.looksSame hmore, hfits]
  refine ⟨record, msg, _, hrecord, hmsg, hcombine, fun hback => ?_⟩
  have hall := hreads.combineAll (by simpa using hmore.toMessageRecord) (by norm_num) hcombine
  rw [messageTexts_singleton, hmore.text] at hback hall
  have hzero : 0 ∉ (manyChars 8135).val.take (8192 - 57) ++ (manyChars 1).val.take (8192 - 57) := by
    intro hmem
    rcases List.mem_append.mp hmem with hmany | hmem
    · exact (manyChars 8135).property (List.mem_of_mem_take hmany)
    · exact (manyChars 1).property (List.mem_of_mem_take hmem)
  have hread := congrArg List.length ((hall.message hzero fun _ => 0).symm.trans hback.message)
  rw [List.length_take, List.length_append, hlen, hone] at hread
  norm_num at hread

end StationProcessor
