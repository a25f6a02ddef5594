import StationProcessor.Archd.LogMessages
import StationProcessor.Falcon.OpaqueRecord

/-!
# Message records

The rest of `archd/seedmsg.c`: `MakeSeedMsg` makes a record of a text and `SeedRecordMsg` reads it
back. `CombineSeed` should append the text of another record of the same channel, and no other.
-/

namespace StationProcessor

open Decimal

variable {n : ℕ}

/-! ### `MakeSeedMsg` and `SeedRecordMsg` -/

/-- The codes of a channel, as they are given to `MakeSeedMsg`. -/
structure ChannelCodes where
  station : CString
  network : CString
  channel : CString
  location : CString
deriving DecidableEq

/-- The fixed header of a message record, up to the number of samples. The sequence number is an
`int`, and six characters of it are copied. -/
def messageFront (seqno : ℤ) (codes : ChannelCodes) (utc : Utc) : Bytes :=
  (printPadded 6 (seqno.tmod 1000000)).take 6 ++ ([68, 32] ++ (nameField 5 codes.station ++
    (nameField 2 codes.location ++ (nameField 3 codes.channel ++ (nameField 2 codes.network ++
    (htons utc.year ++ (htons utc.day ++ ([utc.hour.toUInt8, utc.minute.toUInt8,
    utc.second.toUInt8, 0] ++ htons 0))))))))

/-- The rest of the fixed header and the blockette 1000. -/
def messageBack (code : UInt8) : Bytes :=
  htons 0 ++ (htons 0 ++ ([0, 0, 0, 1, 0, 0, 0, 0] ++ (htons 56 ++ (htons 48 ++
    (htons 1000 ++ (htons 0 ++ [1, 0, code, 0]))))))

/-- `MakeSeedMsg`, with the time it reads: the record of a text, if there are records of that
size. The memory is set to zero before, so the null behind the text is there. -/
def makeSeedMsg (n : ℕ) (msg : CString) (seqno : ℤ) (codes : ChannelCodes) (utc : Utc) :
    Option (Record n) :=
  match recordLengthCode n with
  | none => none
  | some code =>
    let samples := min msg.val.length (n - 56 - 1)
    some (overwrite (List.Vector.replicate n 0) 0 (messageFront seqno codes utc ++
      (htons samples ++ (messageBack code ++ msg.val.take samples))))

/-- What `SeedRecordMsg` returns through its pointers. -/
structure SeedMsg where
  message : Bytes
  station : Bytes
  network : Bytes
  channel : Bytes
  location : Bytes
  year : ℤ
  doy : ℤ
  hour : ℤ
  minute : ℤ
  second : ℤ
deriving DecidableEq

/-- `SeedRecordMsg`, with the memory behind the record: the strings it copies, up to their first
null. -/
def seedRecordMsg (r : Record n) (beyond : ℕ → UInt8) : SeedMsg :=
  let iStart := min (firstDataByte r) 128
  let iCount := min (samplesInRecord r) (8191 - iStart)
  { message := cString (memoryFrom r beyond iStart iCount)
    station := cString (((r.toList.drop 8).take 5).takeWhile (· != 32))
    network := cString ((r.toList.drop 18).take 2)
    channel := cString ((r.toList.drop 15).take 3)
    location := cString ((r.toList.drop 13).take 2)
    year := ntohsAt r.toList 20
    doy := ntohsAt r.toList 22
    hour := toByte (byteAt r.toList 24)
    minute := toByte (byteAt r.toList 25)
    second := toByte (byteAt r.toList 26) }

/-! ### Overwriting part of a record -/

lemma length_writeAt {bs src : Bytes} {i : ℕ} (h : i + src.length ≤ bs.length) :
    (writeAt bs i src).length = bs.length := by
  simp only [writeAt, List.length_append, List.length_take, List.length_drop]
  omega

lemma toList_overwrite (r : Record n) {offset : ℕ} {bs : Bytes} (h : offset + bs.length ≤ n) :
    (overwrite r offset bs).toList = writeAt r.toList offset bs := by
  have hlen : (writeAt r.toList offset bs).length = n := by
    rw [length_writeAt (by simpa using h), List.Vector.toList_length]
  apply List.ext_getElem
  · rw [hlen, List.Vector.toList_length]
  intro i hi hi'
  rw [List.Vector.toList_length] at hi
  have hget : (overwrite r offset bs).toList[i] = (overwrite r offset bs).get ⟨i, hi⟩ := by
    rw [List.Vector.get_eq_get_toList]
    rfl
  have hmin : min offset n = offset := min_eq_left (by omega)
  have hi' : i < r.toList.length := by simpa using hi
  have hr : r.get ⟨i, hi⟩ = r.toList[i] := by
    rw [List.Vector.get_eq_get_toList]
    rfl
  rw [hget, overwrite, List.Vector.get_ofFn]
  simp only [writeAt]
  rcases lt_or_ge i offset with hlt | hge
  · rw [if_neg (by omega), hr, List.getElem_append_left (by simp; omega),
      List.getElem_append_left (by simp; omega), List.getElem_take]
  rcases lt_or_ge i (offset + bs.length) with hin | hout
  · rw [if_pos ⟨hge, hin⟩, List.getElem_append_left (by simp; omega),
      List.getElem_append_right (by simp; omega), List.getD_eq_getElem?_getD,
      List.getElem?_eq_getElem (by omega)]
    simp [hmin]
  · rw [if_neg (by omega), hr, List.getElem_append_right (by simp; omega), List.getElem_drop]
    congr 1
    simp only [List.length_append, List.length_take, List.Vector.toList_length, hmin]
    omega

/-- What lies behind the bytes that are written stays. -/
lemma drop_writeAt {bs src : Bytes} {i k : ℕ} (hi : i ≤ bs.length) (hk : i + src.length ≤ k) :
    (writeAt bs i src).drop k = bs.drop k := by
  have hlen : (bs.take i ++ src).length = i + src.length := by
    simp [min_eq_left hi]
  rw [writeAt, List.drop_append, List.drop_eq_nil_of_le (hlen.trans_le hk), hlen,
    List.nil_append, List.drop_drop]
  congr 1
  omega

lemma take_writeAt {bs src : Bytes} {i k : ℕ} (hi : i ≤ bs.length) (hk : k ≤ i) :
    (writeAt bs i src).take k = bs.take k := by
  rw [writeAt, List.append_assoc, List.take_append_of_le_length (by simpa [hi] using hk),
    List.take_take, min_eq_left hk]

/-- The bytes that are written, with some before them. -/
lemma slice_writeAt {bs src : Bytes} {i k : ℕ} (hi : i + k ≤ bs.length) :
    ((writeAt bs (i + k) src).drop i).take (k + src.length) = (bs.drop i).take k ++ src := by
  have hlen : (bs.take i).length = i := by simp; omega
  have htake : bs.take (i + k) = bs.take i ++ (bs.drop i).take k := List.take_add
  rw [writeAt, htake, List.append_assoc, List.append_assoc, List.drop_left' hlen,
    ← List.append_assoc, List.take_left']
  simp only [List.length_append, List.length_take, List.length_drop]
  omega

/-- Two bytes of a text in which they stay where they are. -/
lemma ntohsAt_congr {r s : Bytes} {i : ℕ} (h : (r.drop i).take 2 = (s.drop i).take 2) :
    ntohsAt r i = ntohsAt s i := by
  have hbyte : ∀ k < 2, byteAt r (i + k) = byteAt s (i + k) := by
    intro k hk
    have hk' := congrArg (·[k]?) h
    simp only [List.getElem?_take, if_pos hk, List.getElem?_drop] at hk'
    rw [byteAt, byteAt, List.getD_eq_getElem?_getD, List.getD_eq_getElem?_getD, hk']
  rw [ntohsAt, ntohsAt, hbyte 1 (by norm_num)]
  have h0 := hbyte 0 (by norm_num)
  rw [Nat.add_zero] at h0
  rw [h0]

lemma ntohsAt_htons {a : Bytes} {i : ℕ} (ha : a.length = i) (v : ℕ) (rest : Bytes) :
    ntohsAt (a ++ (htons v ++ rest)) i = (v % 65536 : ℕ) := by
  subst ha
  simp only [ntohsAt, byteAt, htons, List.getD_eq_getElem?_getD]
  simp
  omega

/-! ### `CombineSeed` -/

/-- A record with a text: it lies behind the fixed header and within the record. -/
structure MessageRecord (r : Record n) : Prop where
  data : 48 ≤ firstDataByte r
  room : firstDataByte r + samplesInRecord r ≤ n

lemma MessageRecord.length_text {r : Record n} (h : MessageRecord r) :
    (messageText r).length = samplesInRecord r := by
  have hroom := h.room
  simp only [messageText, List.length_take, List.length_drop, List.Vector.toList_length]
  omega

/-- The station, location, channel and network codes of two records are the same. -/
def SameChannel (r s : Record n) : Prop := (r.toList.drop 8).take 12 = (s.toList.drop 8).take 12

/-- The first two characters of each code are, which is what `CombineSeed` compares. -/
def LooksSame (r s : Record n) : Prop :=
  sameCode r s 13 ∧ sameCode r s 15 ∧ sameCode r s 8 ∧ sameCode r s 18

/-- The text of the second record fits behind that of the first. -/
def TextFits (r s : Record n) : Prop :=
  samplesInRecord r + samplesInRecord s + firstDataByte r ≤ n

instance (r s : Record n) : Decidable (SameChannel r s) := by unfold SameChannel; infer_instance

instance (r s : Record n) : Decidable (LooksSame r s) := by unfold LooksSame; infer_instance

instance (r s : Record n) : Decidable (TextFits r s) := by unfold TextFits; infer_instance

/-- What `CombineSeed` returns, and the first record afterwards. -/
def combineResult (msg1 msg2 : Record n) (beyond : ℕ → UInt8) : Bool × Record n :=
  match combineSeed msg1 msg2 beyond with
  | none => (false, msg1)
  | some msg1 => (true, msg1)

/-- The record with the number of its samples and the bytes behind its text overwritten. -/
def extended (msg1 : Record n) (text : Bytes) : Record n :=
  overwrite (overwrite msg1 (firstDataByte msg1 + samplesInRecord msg1) text) 30
    (htons (samplesInRecord msg1 + text.length))

section Extended

variable {msg1 : Record n} {text : Bytes} (h : MessageRecord msg1)
  (hroom : firstDataByte msg1 + samplesInRecord msg1 + text.length ≤ n)

include h hroom

/-- The bytes of an extended record. -/
lemma toList_extended : (extended msg1 text).toList
    = writeAt (writeAt msg1.toList (firstDataByte msg1 + samplesInRecord msg1) text) 30
        (htons (samplesInRecord msg1 + text.length)) := by
  have hdata := h.data
  rw [extended, toList_overwrite _ (by rw [length_htons]; omega), toList_overwrite _ hroom]

omit h in
lemma length_appended :
    (writeAt msg1.toList (firstDataByte msg1 + samplesInRecord msg1) text).length = n := by
  rw [length_writeAt (by simpa using hroom), List.Vector.toList_length]

/-- The header before the number of samples stays, -/
lemma take_extended : (extended msg1 text).toList.take 30 = msg1.toList.take 30 := by
  have hdata := h.data
  rw [toList_extended h hroom,
    take_writeAt (by rw [length_appended hroom]; omega) le_rfl,
    take_writeAt (by rw [List.Vector.toList_length]; omega) (by omega)]

/-- and so does what lies between it and the text, with the text. -/
lemma slice_extended {i k : ℕ} (hi : 32 ≤ i)
    (hk : i + k = firstDataByte msg1 + samplesInRecord msg1) :
    ((extended msg1 text).toList.drop i).take (k + text.length)
      = (msg1.toList.drop i).take k ++ text := by
  have hdata := h.data
  rw [toList_extended h hroom,
    drop_writeAt (by rw [length_appended hroom]; omega) (by rw [length_htons]; omega), ← hk,
    slice_writeAt (by rw [List.Vector.toList_length]; omega)]

/-- The part of it before the text. -/
lemma behind_extended {i k : ℕ} (hi : 32 ≤ i) (hk : i + k ≤ firstDataByte msg1) :
    ((extended msg1 text).toList.drop i).take k = (msg1.toList.drop i).take k := by
  have hslice := congrArg (·.take k) (slice_extended h hroom hi
    (k := firstDataByte msg1 + samplesInRecord msg1 - i) (by omega))
  simp only [List.take_take] at hslice
  rw [min_eq_left (by omega), List.take_append_of_le_length] at hslice
  · rw [hslice, List.take_take, min_eq_left (by omega)]
  · simp only [List.length_take, List.length_drop, List.Vector.toList_length]
    have hroom' := h.room
    omega

lemma firstDataByte_extended : firstDataByte (extended msg1 text) = firstDataByte msg1 := by
  have hdata := h.data
  rw [firstDataByte, firstDataByte,
    ntohsAt_congr (behind_extended h hroom (by norm_num) (by omega))]

lemma samplesInRecord_extended :
    samplesInRecord (extended msg1 text) = (samplesInRecord msg1 + text.length) % 65536 := by
  have hdata := h.data
  rw [samplesInRecord, toList_extended h hroom, writeAt, List.append_assoc, ntohsAt_htons]
  · exact Int.toNat_natCast _
  · rw [List.length_take, length_appended hroom]
    omega

/-- The text, as long as its length fits its field. -/
lemma messageText_extended (hsum : samplesInRecord msg1 + text.length < 65536) :
    messageText (extended msg1 text) = messageText msg1 ++ text := by
  have hdata := h.data
  rw [messageText, firstDataByte_extended h hroom, samplesInRecord_extended h hroom,
    Nat.mod_eq_of_lt hsum, slice_extended h hroom (by omega) rfl]
  rfl

lemma MessageRecord.extended : MessageRecord (extended msg1 text) where
  data := (firstDataByte_extended h hroom).symm ▸ h.data
  room := by
    have hmod := Nat.mod_le (samplesInRecord msg1 + text.length) 65536
    rw [firstDataByte_extended h hroom, samplesInRecord_extended h hroom]
    omega

end Extended

/-- What is copied from a message record is its text. -/
lemma memoryFrom_messageText {r : Record n} (h : MessageRecord r) (beyond : ℕ → UInt8) :
    memoryFrom r beyond (firstDataByte r) (samplesInRecord r) = messageText r := by
  have hroom := h.room
  apply List.ext_getElem
  · rw [h.length_text, memoryFrom, List.length_map, List.length_range]
  intro i hi hi'
  rw [h.length_text] at hi'
  simp only [memoryFrom, messageText, List.getElem_map, List.getElem_range, List.getElem_take,
    List.getElem_drop]
  rw [List.getD_eq_getElem?_getD, List.getElem?_eq_getElem (by simp; omega)]
  rfl

/-- What `CombineSeed` does to message records. -/
lemma combineSeed_eq {msg1 msg2 : Record n} (h1 : MessageRecord msg1) (h2 : MessageRecord msg2)
    (beyond : ℕ → UInt8) : combineSeed msg1 msg2 beyond
      = if LooksSame msg1 msg2 ∧ TextFits msg1 msg2 then some (extended msg1 (messageText msg2))
        else none := by
  have hdata := h1.data
  have hsame : TextFits msg1 msg2 →
      samplesInRecord (overwrite msg1 (firstDataByte msg1 + samplesInRecord msg1)
        (messageText msg2)) = samplesInRecord msg1 := by
    intro hfits
    have hroom : firstDataByte msg1 + samplesInRecord msg1 + (messageText msg2).length ≤ n := by
      rw [h2.length_text]
      unfold TextFits at hfits
      omega
    refine congrArg Int.toNat (ntohsAt_congr ?_)
    rw [toList_overwrite _ hroom]
    have htake : (writeAt msg1.toList (firstDataByte msg1 + samplesInRecord msg1)
        (messageText msg2)).take 32 = msg1.toList.take 32 :=
      take_writeAt (by simp; omega) (by omega)
    have hdrop := congrArg (·.drop 30) htake
    simpa only [List.drop_take] using hdrop
  unfold combineSeed
  rw [memoryFrom_messageText h2]
  by_cases hfits : TextFits msg1 msg2
  · have hnot : ¬ samplesInRecord msg1 + samplesInRecord msg2 + firstDataByte msg1 > n :=
      not_lt.mpr hfits
    simp only [hsame hfits, hfits, hnot, LooksSame, extended, h2.length_text]
    split_ifs <;> simp_all
  · have hgt : samplesInRecord msg1 + samplesInRecord msg2 + firstDataByte msg1 > n :=
      not_le.mp hfits
    simp [hfits, hgt]

/-- What is promised of `CombineSeed`: it combines only records of the same channel whose texts
fit, the result is a message record with both texts and the same header but for the number of its
samples, and a record it does not extend is unchanged. -/
def CombinesRight (msg1 msg2 : Record n) (beyond : ℕ → UInt8) : Prop :=
  match combineResult msg1 msg2 beyond with
  | (true, record) =>
    SameChannel msg1 msg2 ∧ TextFits msg1 msg2 ∧ MessageRecord record ∧
      messageText record = messageText msg1 ++ messageText msg2 ∧
      record.toList.take 30 = msg1.toList.take 30 ∧
      (record.toList.drop 32).take (firstDataByte msg1 - 32)
        = (msg1.toList.drop 32).take (firstDataByte msg1 - 32)
  | (false, record) => record = msg1

/-- Records of different channels must not be combined. -/
lemma not_combinesRight {msg1 msg2 : Record n} {beyond : ℕ → UInt8}
    (hsuccess : (combineResult msg1 msg2 beyond).1 = true) (hother : ¬ SameChannel msg1 msg2) :
    ¬ CombinesRight msg1 msg2 beyond := by
  intro h
  unfold CombinesRight at h
  split at h
  · exact hother h.1
  · rename_i hfailed
    rw [hfailed] at hsuccess
    contradiction

/-- `CombineSeed` does this exactly for the records whose codes are the same if they begin alike,
and whose texts have together a length that fits its field. -/
theorem combineSeed_right_iff {msg1 msg2 : Record n} (h1 : MessageRecord msg1)
    (h2 : MessageRecord msg2) (beyond : ℕ → UInt8) :
    CombinesRight msg1 msg2 beyond ↔ (LooksSame msg1 msg2 → TextFits msg1 msg2 →
      SameChannel msg1 msg2 ∧ samplesInRecord msg1 + samplesInRecord msg2 < 65536) := by
  unfold CombinesRight combineResult
  rw [combineSeed_eq h1 h2]
  by_cases hlooks : LooksSame msg1 msg2
  swap
  · simp [hlooks]
  by_cases hfits : TextFits msg1 msg2
  swap
  · simp [hfits]
  have hroom : firstDataByte msg1 + samplesInRecord msg1 + (messageText msg2).length ≤ n := by
    rw [h2.length_text]
    unfold TextFits at hfits
    omega
  have hdata := h1.data
  simp only [hlooks, hfits, and_self, if_true, true_and, true_implies]
  constructor
  · rintro ⟨hsame, -, htext, -, -⟩
    refine ⟨hsame, ?_⟩
    have hlen := congrArg List.length htext
    rw [(h1.extended hroom).length_text, List.length_append, h1.length_text, h2.length_text,
      samplesInRecord_extended h1 hroom, h2.length_text] at hlen
    omega
  · rintro ⟨hsame, hsum⟩
    refine ⟨hsame, h1.extended hroom, ?_, take_extended h1 hroom, ?_⟩
    · exact messageText_extended h1 hroom (by rwa [h2.length_text])
    · exact behind_extended h1 hroom le_rfl (by omega)

/-- A message of two characters of a channel of some station. -/
def shortMessage (station channel : CString) (text : Bytes) (h : 0 ∉ text) : Record 256 :=
  (makeSeedMsg 256 ⟨text, h⟩ 1 ⟨station, ⟨ascii "IU", zero_notMem_iu⟩, channel,
    ⟨[], zero_notMem_nil⟩⟩
    ⟨2020, 1, 0, 0, 0⟩).getD (List.Vector.replicate 256 0)

def anmoMessage : Record 256 :=
  shortMessage ⟨ascii "ANMO", zero_notMem_anmo⟩ ⟨ascii "LOG", zero_notMem_log⟩ (ascii "up")
    (by decide)

def antoMessage : Record 256 :=
  shortMessage ⟨ascii "ANTO", by decide⟩ ⟨ascii "LOG", zero_notMem_log⟩ (ascii "down") (by decide)

lemma anmoMessage_messageRecord : MessageRecord anmoMessage :=
  ⟨by decide +kernel, by decide +kernel⟩

theorem combineSeed_right_iff_anmo :
    CombinesRight anmoMessage anmoMessage (fun _ => 0) ↔
      (LooksSame anmoMessage anmoMessage → TextFits anmoMessage anmoMessage →
        SameChannel anmoMessage anmoMessage ∧
          samplesInRecord anmoMessage + samplesInRecord anmoMessage < 65536) :=
  combineSeed_right_iff anmoMessage_messageRecord anmoMessage_messageRecord _

/-- The message of one station is appended to that of another one. -/
theorem combineSeed_other_station : ¬ CombinesRight anmoMessage antoMessage fun _ => 0 :=
  not_combinesRight (by decide +kernel) (by decide +kernel)

end StationProcessor
