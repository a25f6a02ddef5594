import StationProcessor.Falcon.OpaqueRecord

/-!
# Readers of opaque records

The record reader of `falcon/ofadump.c` and `GetLastTimeCSV` and `GetLastTimeAlarm` of
`falcon/falcon.c`. All follow the blockettes of a record, and tell fragments of a message by bits of
its `data_flags`.
-/

namespace StationProcessor

/-! ### Blockettes of a record -/

/-- The bytes from each blockette on, from the one at an offset. `none` is a chain that has not
ended within `fuel` blockettes. -/
def blockettesFrom (record : Bytes) : ℕ → ℕ → Option (List Bytes)
  | 0, i => if i = 0 then some [] else none
  | fuel + 1, i =>
    if i = 0 then some []
    else (blockettesFrom record fuel (shortAt (record.drop i) 2)).map (record.drop i :: ·)

/-- The blockettes of a record. A chain with more of them than the record has bytes never ends. -/
def blockettes (record : Bytes) : Option (List Bytes) :=
  blockettesFrom record record.length (shortAt record 46)

/-- The blockettes 2000 of a record. -/
def opaqueBlockettes (record : Bytes) : Option (List Bytes) :=
  (blockettes record).map fun bs => bs.filter (shortAt · 0 = 2000)

/-- The blockettes 2000 of the records from the `i`-th on, each with the number of its record. -/
def numberedBlockettes : ℕ → List Bytes → Option (List (ℕ × Bytes))
  | _, [] => some []
  | i, record :: records => do
    let bs ← opaqueBlockettes record
    let rest ← numberedBlockettes (i + 1) records
    return bs.map (fun b => (i, b)) ++ rest

/-- The data of a blockette. -/
def blocketteData (b : Bytes) : Bytes := (b.drop (shortAt b 6)).take (shortAt b 4 - shortAt b 6)

/-! ### `ofadump` -/

/-- One blockette 2000 of `ofadump`, with `data_complete` before and after. The message is empty
before every blockette, also before a continuation. -/
def dumpBlockette (dataComplete : Bool) (b : Bytes) : Bool × Option Bytes :=
  let flags := b.getD 13 0
  let mshData := blocketteData b
  let dataComplete :=
    if flags &&& (0x0c : UInt8) = 0x00 then true
    else if flags &&& (0x0c : UInt8) = 0x04 then dataComplete
    else if flags &&& (0x0c : UInt8) = 0x0c then dataComplete
    else if flags &&& (0x0c : UInt8) = 0x08 then true
    else dataComplete
  if dataComplete then
    let versionType := shortAt mshData 0
    if versionType % 2 ^ 15 > falconVersion then (dataComplete, some mshData)
    else if versionType ≥ 2 ^ 15 then (dataComplete, some mshData)
    else (false, some mshData)
  else (dataComplete, none)

/-- The complete messages of some blockettes, each with the number of the record in which it was
complete. -/
def dumpMessages : Bool → List (ℕ × Bytes) → List (ℕ × Bytes)
  | _, [] => []
  | dataComplete, (i, b) :: bs =>
    let (dataComplete, message) := dumpBlockette dataComplete b
    message.toList.map (fun message => (i, message)) ++ dumpMessages dataComplete bs

/-- The complete messages of some records. -/
def dumpRecords (records : List Bytes) : Option (List (ℕ × Bytes)) :=
  (numberedBlockettes 0 records).map (dumpMessages false)

/-! ### `GetLastTimeCSV` and `GetLastTimeAlarm` -/

/-- Whether a blockette is read as the start of a message. -/
def readsHeader (b : Bytes) : Bool :=
  shortAt b 0 = 2000 ∧ ¬((b.getD 13 0) &&& (0x0c : UInt8)) >>> 2 > 1

/-- The end time in the header of a message of minute rows or of alarms, 0 where it is none. -/
def headerTime (alarm : Bool) (opaqueData : Bytes) : ℕ :=
  if shortAt opaqueData 0 % 2 ^ 15 > falconVersion then 0
  else if decide (shortAt opaqueData 0 ≥ 2 ^ 15) ≠ alarm then 0
  else BigEndian.decode ((opaqueData.drop 6).take 4)

/-- The end time in a blockette, 0 where the loop goes on. -/
def timeAt (alarm : Bool) (b : Bytes) : ℕ :=
  if ¬readsHeader b then 0 else headerTime alarm (b.drop (shortAt b 6))

/-- The loop over the blockettes of a record from offset `i` on. -/
def timeFrom (alarm : Bool) (record : Bytes) : ℕ → ℕ → Option ℕ
  | 0, _ => none
  | fuel + 1, i =>
    let b := record.drop i
    if timeAt alarm b ≠ 0 then some (timeAt alarm b)
    else if shortAt b 2 = 0 then some 0
    else timeFrom alarm record fuel (shortAt b 2)

/-- The time in a record. -/
def timeOf (alarm : Bool) (record : Bytes) : Option ℕ :=
  let offset := shortAt record 46
  let b1000 := record.drop offset
  if offset = 0 then some 0
  else if shortAt b1000 0 ≠ 1000 then some 0
  else if shortAt b1000 2 = 0 then some 0
  else timeFrom alarm record record.length (shortAt b1000 2)

/-- `max_to_check` -/
def maxToCheck : ℕ := 8

/-- The loop over the records of the disk loop, from the newest one on. -/
def lastTime (alarm : Bool) : ℕ → List Bytes → Option ℕ
  | 0, _ => some 0
  | _ + 1, [] => some 0
  | k + 1, record :: records => do
    let time ← timeOf alarm record
    if time ≠ 0 then return time
    else lastTime alarm k records

/-- `GetLastTimeAlarm`. -/
def lastTimeAlarm : List Bytes → Option ℕ := lastTime true maxToCheck

/-! ### What the readers find -/

section Packed

variable {recordSize offset fuel : ℕ} {record channel rest : Bytes} {init : List Blockette}
  {b last : Blockette}

/-- Bytes that start with a blockette. -/
def StartsWith (bs : Bytes) (b : Blockette) : Prop :=
  b.size < 65536 ∧ ∃ next rest, bs = b.toBytes next ++ rest

lemma StartsWith.type {bs : Bytes} (h : StartsWith bs b) : shortAt bs 0 = 2000 := by
  obtain ⟨-, next, rest, rfl⟩ := h
  exact b.shortAt_type next rest

lemma StartsWith.flags {bs : Bytes} (h : StartsWith bs b) : bs.getD 13 0 = b.flags := by
  obtain ⟨-, next, rest, rfl⟩ := h
  exact b.getD_flags next rest

lemma StartsWith.data {bs : Bytes} (h : StartsWith bs b) : blocketteData bs = b.data := by
  obtain ⟨hsize, next, rest, rfl⟩ := h
  rw [blocketteData, b.shortAt_dataOffset hsize, b.shortAt_size hsize, b.drop_dataOffset,
    Blockette.size, Nat.add_sub_cancel_left, List.take_left]

lemma StartsWith.size {bs : Bytes} (h : StartsWith bs b) : shortAt bs 4 = b.size := by
  obtain ⟨hsize, next, rest, rfl⟩ := h
  exact b.shortAt_size hsize next rest

lemma add_length_le_endOffset (offset : ℕ) (bs : List Blockette) :
    offset + bs.length ≤ endOffset offset bs := by
  induction bs generalizing offset with
  | nil => exact le_rfl
  | cons b bs ih =>
    have hle := le_nextOffset offset b
    have hpos : 15 ≤ b.size := (Nat.le_add_right _ _).trans b.dataOffset_le_size
    have hih := ih (nextOffset offset b)
    rw [endOffset, List.length_cons]
    omega

/-- The chain of blockettes from one on. -/
lemma blockettesFrom_linked
    (h : record.drop offset = linked offset init ++ (last.toBytes 0 ++ rest))
    (hfits : endOffset offset init + last.size < 65536) (hoffset : 0 < offset)
    (hfuel : init.length < fuel) :
    ∃ bs, blockettesFrom record fuel offset = some bs ∧
      List.Forall₂ StartsWith bs (init ++ [last]) := by
  induction init generalizing offset fuel with
  | nil =>
    obtain ⟨fuel, rfl⟩ := Nat.exists_eq_add_one_of_ne_zero hfuel.ne'
    have hsize : last.size < 65536 := (Nat.le_add_left _ _).trans_lt hfits
    have hread : record.drop offset = last.toBytes 0 ++ rest := h
    refine ⟨[record.drop offset], ?_, List.Forall₂.cons ⟨hsize, 0, rest, hread⟩ .nil⟩
    rw [blockettesFrom, if_neg hoffset.ne', hread, last.shortAt_next (by norm_num)]
    cases fuel <;> rfl
  | cons b bs ih =>
    obtain ⟨fuel, rfl⟩ := Nat.exists_eq_add_one_of_ne_zero (Nat.ne_of_gt (Nat.zero_lt_of_lt hfuel))
    have hle := le_nextOffset offset b
    have hbound : nextOffset offset b + last.size < 65536 :=
      (Nat.add_le_add_right (le_endOffset _ bs) _).trans_lt hfits
    simp only [linked, List.append_assoc] at h
    obtain ⟨ss, hss, hall⟩ := ih (drop_nextOffset h) hfits (by omega)
      (Nat.lt_of_succ_lt_succ hfuel)
    refine ⟨record.drop offset :: ss, ?_, List.Forall₂.cons ⟨by omega, _, _, h⟩ hall⟩
    rw [blockettesFrom, if_neg hoffset.ne', h, b.shortAt_next (by omega), hss]
    rfl

/-- The blockettes of a record are found. -/
lemma opaqueBlockettes_packed (h : Packed recordSize channel init last record) :
    ∃ bs, opaqueBlockettes record = some bs ∧ List.Forall₂ StartsWith bs (init ++ [last]) := by
  obtain ⟨h46, htype, hnext⟩ := h.offsets
  obtain ⟨rest, hdrop⟩ := h.drop
  have hmany := (add_length_le_endOffset 56 init).trans
    ((Nat.le_add_right _ last.size).trans h.room)
  obtain ⟨fuel, hfuel⟩ := Nat.exists_eq_add_one_of_ne_zero (show recordSize ≠ 0 by omega)
  obtain ⟨bs, hbs, hall⟩ : ∃ bs, blockettesFrom record fuel 56 = some bs ∧
      List.Forall₂ StartsWith bs (init ++ [last]) :=
    blockettesFrom_linked hdrop (h.room.trans_lt h.fits) (by norm_num) (by omega)
  have hchain : blockettes record = some (record.drop 48 :: bs) := by
    rw [blockettes, h.length, hfuel, h46, blockettesFrom, if_neg (by norm_num), hnext, hbs]
    rfl
  refine ⟨bs, ?_, hall⟩
  have hkept : bs.filter (shortAt · 0 = 2000) = bs := by
    have htypes := ((List.forall₂_and_left (p := (shortAt · 0 = 2000)) _ _).mp
      (hall.imp fun s b hb => ⟨hb.type, hb⟩)).1
    exact List.filter_eq_self.mpr fun s hs => decide_eq_true (htypes s hs)
  rw [opaqueBlockettes, hchain]
  simp [htype, hkept]

/-- The blockettes of records with one each. -/
lemma numberedBlockettes_packed {records : List Bytes} {bs : List Blockette} (k : ℕ)
    (h : List.Forall₂ (fun record b => Packed recordSize channel [] b record) records bs) :
    ∃ nbs, numberedBlockettes k records = some nbs ∧
      List.Forall₂ (fun p q => p.1 = q.2 ∧ StartsWith p.2 q.1) nbs (bs.zipIdx k) := by
  induction h generalizing k with
  | nil => exact ⟨[], rfl, .nil⟩
  | @cons record b records bs hrecord _ ih =>
    obtain ⟨nbs, hnbs, hall⟩ := ih (k + 1)
    obtain ⟨ss, hss, hstarts⟩ := opaqueBlockettes_packed hrecord
    obtain ⟨s, tail, hs, hnil, rfl⟩ := List.forall₂_cons_right_iff.mp hstarts
    cases hnil
    refine ⟨(k, s) :: nbs, ?_, List.Forall₂.cons ⟨rfl, hs⟩ hall⟩
    rw [numberedBlockettes, hss, hnbs]
    rfl

end Packed

end StationProcessor
