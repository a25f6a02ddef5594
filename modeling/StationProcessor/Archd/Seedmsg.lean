import StationProcessor.SeedHeader

/-!
# LOG message records

`CombineSeed` of `archd/seedmsg.c`, which appends the text of one message record to another in
place.
-/

namespace StationProcessor

variable {n : ℕ}

/-- `ntohs(samples_in_record)`, the length of the text of a message record. -/
def samplesInRecord (r : Record n) : ℕ := (ntohsAt r.toList 30).toNat

/-- `ntohs(first_data_byte)`. -/
def firstDataByte (r : Record n) : ℕ := (ntohsAt r.toList 44).toNat

/-- Whether `strncmp` finds the two characters at this offset equal. -/
def sameCode (r s : Record n) (offset : ℕ) : Bool :=
  cString ((r.toList.drop offset).take 2) = cString ((s.toList.drop offset).take 2)

/-- Overwrite the bytes from `offset` on. -/
def overwrite (r : Record n) (offset : ℕ) (bs : Bytes) : Record n :=
  List.Vector.ofFn fun i =>
    if offset ≤ i ∧ i < offset + bs.length then bs.getD (i - offset) 0 else r.get i

/-- `count` bytes of memory from `offset` on; `beyond` is the memory after the record. -/
def memoryFrom (r : Record n) (beyond : ℕ → UInt8) (offset count : ℕ) : Bytes :=
  (List.range count).map fun k => r.toList.getD (offset + k) (beyond (offset + k - n))

/-- `CombineSeed`: the first record with the second appended, where that succeeds. Of the
location, channel, station and network codes two characters each are compared. -/
def combineSeed (msg1 msg2 : Record n) (beyond : ℕ → UInt8) : Option (Record n) :=
  if !sameCode msg1 msg2 13 then none
  else if !sameCode msg1 msg2 15 then none
  else if !sameCode msg1 msg2 8 then none
  else if !sameCode msg1 msg2 18 then none
  else if samplesInRecord msg1 + samplesInRecord msg2 + firstDataByte msg1 > n then none
  else
    let msg1 := overwrite msg1 (firstDataByte msg1 + samplesInRecord msg1)
      (memoryFrom msg2 beyond (firstDataByte msg2) (samplesInRecord msg2))
    some (overwrite msg1 30 (htons (samplesInRecord msg1 + samplesInRecord msg2)))

/-- Where the first byte is that appending to a record can change. -/
def combineStart (msg1 : Record n) : ℕ := min 30 (firstDataByte msg1 + samplesInRecord msg1)

/-- The bytes before the place of an overwrite stay. -/
lemma take_overwrite {r : Record n} {offset k : ℕ} (hk : k ≤ offset) (bs : Bytes) :
    (overwrite r offset bs).toList.take k = r.toList.take k := by
  apply List.ext_getElem
  · rw [List.length_take, List.length_take, List.Vector.toList_length, List.Vector.toList_length]
  · intro i h1 h2
    rw [List.length_take, List.Vector.toList_length] at h1
    have hi : i < n := by omega
    have hget : (overwrite r offset bs).get ⟨i, hi⟩ = r.get ⟨i, hi⟩ := by
      rw [overwrite, List.Vector.get_ofFn, if_neg (by simp only; omega)]
    rw [List.Vector.get_eq_get_toList, List.Vector.get_eq_get_toList] at hget
    rw [List.getElem_take, List.getElem_take]
    exact hget

/-- The bytes up to the end of an overwrite. -/
lemma take_overwrite_add {r : Record n} {offset : ℕ} {bs : Bytes} (h : offset + bs.length ≤ n) :
    (overwrite r offset bs).toList.take (offset + bs.length) = r.toList.take offset ++ bs := by
  apply List.ext_getElem
  · simp only [List.length_take, List.Vector.toList_length, List.length_append]
    omega
  · intro i h1 h2
    rw [List.length_take, List.Vector.toList_length] at h1
    have hi : i < n := by omega
    have hi' : i < (overwrite r offset bs).toList.length := by simpa using hi
    have hget : (overwrite r offset bs).toList[i] = (overwrite r offset bs).get ⟨i, hi⟩ := by
      rw [List.Vector.get_eq_get_toList]
      rfl
    rw [List.getElem_take, hget, overwrite, List.Vector.get_ofFn]
    simp only
    rcases lt_or_ge i offset with hlt | hge
    · rw [if_neg (by omega), List.Vector.get_eq_get_toList,
        List.getElem_append_left (by simp; omega), List.getElem_take]
      rfl
    · rw [if_pos ⟨hge, by omega⟩, List.getElem_append_right (by simp; omega),
        List.getD_eq_getElem?_getD, List.getElem?_eq_getElem (by omega), Option.getD_some]
      simp [show min offset n = offset by omega]

/-- Appending to a record leaves alone what lies before its text and before its length. -/
lemma take_combineSeed {msg1 msg2 r : Record n} {beyond : ℕ → UInt8}
    (h : combineSeed msg1 msg2 beyond = some r) {k : ℕ} (hk : k ≤ combineStart msg1) :
    r.toList.take k = msg1.toList.take k := by
  unfold combineStart at hk
  unfold combineSeed at h
  split_ifs at h
  rw [← Option.some.inj h, take_overwrite (by omega), take_overwrite (by omega)]

end StationProcessor
