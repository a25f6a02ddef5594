import StationProcessor.Falcon.FmashDecode
import StationProcessor.Falcon.Opaque

/-!
# Blockettes in a record

A record as the blockettes in it. `AppendOpaqueSeed` adds one to them, and a reader that follows
the offsets finds them in their order.
-/

namespace StationProcessor

open Decimal

/-! ### Numbers -/

lemma shortAt_append {a : Bytes} {i v : ℕ} (ha : a.length = i) (hv : v < 65536) (rest : Bytes) :
    shortAt (a ++ (htons v ++ rest)) i = v := by
  subst ha
  rw [shortAt, List.drop_left, List.take_left' (length_htons v), decode_htons hv]

lemma shortAt_zero {v : ℕ} (hv : v < 65536) (rest : Bytes) : shortAt (htons v ++ rest) 0 = v :=
  shortAt_append (a := []) rfl hv rest

/-- Overwriting one of three parts. -/
lemma writeAt_append {a b src : Bytes} {i : ℕ} (ha : a.length = i) (hb : src.length = b.length)
    (c : Bytes) : writeAt (a ++ (b ++ c)) i src = a ++ (src ++ c) := by
  subst ha
  rw [writeAt, List.take_left, hb, ← List.drop_drop, List.drop_left, List.drop_left,
    List.append_assoc]

lemma getD_append_cons {a : Bytes} {i : ℕ} {x : UInt8} (ha : a.length = i) (rest : Bytes) :
    (a ++ x :: rest).getD i 0 = x := by
  subst ha
  simp [List.getD_eq_getElem?_getD]

namespace Blockette

variable {b : Blockette} {next : ℕ}

@[simp] lemma length_toBytes (b : Blockette) (next : ℕ) : (b.toBytes next).length = b.size := by
  simp only [toBytes, size, dataOffset, List.length_append, length_htons, length_htonl,
    List.length_cons, List.length_nil]
  ring

lemma dataOffset_le_size (b : Blockette) : b.dataOffset ≤ b.size := Nat.le_add_right _ _

lemma shortAt_type (b : Blockette) (next : ℕ) (rest : Bytes) :
    shortAt (b.toBytes next ++ rest) 0 = 2000 := by
  simp only [toBytes, List.append_assoc]
  exact shortAt_zero (by norm_num) _

lemma shortAt_next (b : Blockette) (hnext : next < 65536) (rest : Bytes) :
    shortAt (b.toBytes next ++ rest) 2 = next := by
  simp only [toBytes, List.append_assoc]
  exact shortAt_append (length_htons 2000) hnext _

lemma shortAt_size (hsize : b.size < 65536) (next : ℕ) (rest : Bytes) :
    shortAt (b.toBytes next ++ rest) 4 = b.size := by
  have h := shortAt_append (a := htons 2000 ++ htons next) (i := 4) rfl hsize
    (htons b.dataOffset ++ (htonl b.recordNumber ++
      ([1, b.flags, b.headerFields] ++ (b.header ++ (b.data ++ rest)))))
  simpa only [toBytes, List.append_assoc] using h

lemma shortAt_dataOffset (hsize : b.size < 65536) (next : ℕ) (rest : Bytes) :
    shortAt (b.toBytes next ++ rest) 6 = b.dataOffset := by
  have h := shortAt_append (a := htons 2000 ++ (htons next ++ htons b.size)) (i := 6) rfl
    (b.dataOffset_le_size.trans_lt hsize) (htonl b.recordNumber ++
      ([1, b.flags, b.headerFields] ++ (b.header ++ (b.data ++ rest))))
  simpa only [toBytes, List.append_assoc] using h

lemma getD_flags (b : Blockette) (next : ℕ) (rest : Bytes) :
    (b.toBytes next ++ rest).getD 13 0 = b.flags := by
  have h := getD_append_cons (a := htons 2000 ++ (htons next ++ (htons b.size ++
    (htons b.dataOffset ++ (htonl b.recordNumber ++ [1]))))) (i := 13) (x := b.flags) (by simp)
    ([b.headerFields] ++ (b.header ++ (b.data ++ rest)))
  simpa only [toBytes, List.append_assoc, List.cons_append, List.nil_append] using h

/-- The bytes before the data. -/
lemma drop_dataOffset (b : Blockette) (next : ℕ) (rest : Bytes) :
    (b.toBytes next ++ rest).drop b.dataOffset = b.data ++ rest := by
  have h : b.toBytes next ++ rest
      = (htons 2000 ++ (htons next ++ (htons b.size ++ (htons b.dataOffset ++
        (htonl b.recordNumber ++ ([1, b.flags, b.headerFields] ++ b.header)))))) ++
          (b.data ++ rest) := by
    simp only [toBytes, List.append_assoc]
  rw [h]
  refine List.drop_left' ?_
  simp only [dataOffset, List.length_append, length_htons, length_htonl, List.length_cons,
    List.length_nil]
  ring

end Blockette

/-! ### Chains of blockettes -/

/-- Where a blockette after `b` starts. -/
def nextOffset (offset : ℕ) (b : Blockette) : ℕ := (offset + b.size + 3) / 4 * 4

/-- Blockettes from `offset` on that another one follows. -/
def linked : ℕ → List Blockette → Bytes
  | _, [] => []
  | offset, b :: bs =>
    b.toBytes (nextOffset offset b) ++
      (List.replicate (nextOffset offset b - (offset + b.size)) 0 ++
        linked (nextOffset offset b) bs)

/-- Where that one starts. -/
def endOffset : ℕ → List Blockette → ℕ
  | offset, [] => offset
  | offset, b :: bs => endOffset (nextOffset offset b) bs

lemma le_nextOffset (offset : ℕ) (b : Blockette) : offset + b.size ≤ nextOffset offset b := by
  rw [nextOffset]
  omega

lemma le_endOffset (offset : ℕ) (bs : List Blockette) : offset ≤ endOffset offset bs := by
  induction bs generalizing offset with
  | nil => exact le_rfl
  | cons b bs ih =>
    exact ((Nat.le_add_right _ _).trans (le_nextOffset offset b)).trans (ih _)

lemma length_linked (offset : ℕ) (bs : List Blockette) :
    offset + (linked offset bs).length = endOffset offset bs := by
  induction bs generalizing offset with
  | nil => rfl
  | cons b bs ih =>
    have hle := le_nextOffset offset b
    rw [endOffset, ← ih, linked]
    simp only [List.length_append, Blockette.length_toBytes, List.length_replicate]
    omega

lemma endOffset_concat (offset : ℕ) (bs : List Blockette) (b : Blockette) :
    endOffset offset (bs ++ [b]) = nextOffset (endOffset offset bs) b := by
  induction bs generalizing offset with
  | nil => rfl
  | cons b' bs ih => exact ih _

lemma linked_concat (offset : ℕ) (bs : List Blockette) (b : Blockette) :
    linked offset (bs ++ [b]) = linked offset bs ++ (b.toBytes (endOffset offset (bs ++ [b])) ++
      List.replicate (endOffset offset (bs ++ [b]) - (endOffset offset bs + b.size)) 0) := by
  induction bs generalizing offset with
  | nil => simp [linked, endOffset]
  | cons b' bs ih =>
    rw [List.cons_append, linked, linked, ih, endOffset, endOffset]
    simp only [List.append_assoc]

/-! ### Records -/

/-- A record of `recordSize` bytes with the blockettes `init` and then `last`. -/
def packed (front : Bytes) (code : UInt8) (recordSize : ℕ) (init : List Blockette)
    (last : Blockette) : Bytes :=
  front ++ ([UInt8.ofNat (init.length + 2)] ++ (headerBack ++ (blockette1000 code ++
    (linked 56 init ++ (last.toBytes 0 ++
      List.replicate (recordSize - (endOffset 56 init + last.size)) 0)))))

/-- A record of a channel with such blockettes, where the numbers in it fit their fields. -/
structure Packed (recordSize : ℕ) (channel : Bytes) (init : List Blockette) (last : Blockette)
    (record : Bytes) : Prop where
  layout : ∃ front code, front.length = 39 ∧ (front.drop 15).take 3 = channel ∧
    record = packed front code recordSize init last
  room : endOffset 56 init + last.size ≤ recordSize
  count : init.length + 2 ≤ 127
  fits : recordSize < 65536

section Layout

variable {record rest : Bytes} {offset : ℕ} {init : List Blockette} {b last : Blockette}

/-- The bytes after a blockette and the gap behind it. -/
lemma drop_nextOffset
    (h : record.drop offset = b.toBytes (nextOffset offset b) ++
      (List.replicate (nextOffset offset b - (offset + b.size)) 0 ++ rest)) :
    record.drop (nextOffset offset b) = rest := by
  have hle := le_nextOffset offset b
  have hsplit : nextOffset offset b
      = offset + (b.size + (nextOffset offset b - (offset + b.size))) := by omega
  rw [hsplit, ← List.drop_drop, h, ← List.append_assoc]
  refine List.drop_left' ?_
  rw [List.length_append, Blockette.length_toBytes, List.length_replicate]

/-- The walk over the blockettes ends at the last one. -/
lemma appendIndex_linked
    (h : record.drop offset = linked offset init ++ (last.toBytes 0 ++ rest))
    (hfits : endOffset offset init + last.size < 65536) :
    appendIndex record (init.length + 1) offset
      = some (endOffset offset init, nextOffset (endOffset offset init) last) := by
  induction init generalizing offset with
  | nil =>
    have hsize : last.size < 65536 := (Nat.le_add_left _ _).trans_lt hfits
    have hread : record.drop offset = last.toBytes 0 ++ rest := h
    rw [List.length_nil, appendIndex, hread, last.shortAt_type, last.shortAt_size hsize]
    rfl
  | cons b bs ih =>
    have hnext : nextOffset offset b < 65536 :=
      ((le_endOffset _ bs).trans (Nat.le_add_right _ _)).trans_lt hfits
    simp only [linked, List.append_assoc] at h
    have hrest := ih (drop_nextOffset h) hfits
    rw [List.length_cons, appendIndex, h, b.shortAt_type, b.shortAt_next hnext,
      if_neg (not_not.mpr rfl), if_neg (Nat.succ_ne_zero _)]
    exact hrest

end Layout

/-! ### Appending -/

/-- The blockette of a message that is appended. -/
def appendedBlockette (data : Bytes) : Blockette where
  recordNumber := 0
  flags := 0x00
  headerFields := 0
  header := []
  data := data

lemma size_appendedBlockette (data : Bytes) :
    (appendedBlockette data).size = 15 + data.length := rfl

/-- A blockette written over zeros; its number of header fields is not written. A zero is written
behind its fixed part, also where it has no data. -/
lemma writeAt_appended {a : Bytes} (data : Bytes) {i k : ℕ} (ha : a.length = i)
    (hbyte : 0 < data.length + k) :
    writeAt (writeAt (writeAt (a ++ List.replicate (15 + data.length + k) 0) i
        (htons 2000 ++ (htons 0 ++ (htons (15 + data.length) ++ (htons 15 ++
          (htonl 0 ++ [1, 0x00])))))) (i + 15) [0]) (i + 15) data
      = a ++ ((appendedBlockette data).toBytes 0 ++ List.replicate k 0) := by
  have hbehind : [0] ++ List.replicate (data.length + k - 1) (0 : UInt8)
      = List.replicate data.length 0 ++ List.replicate k 0 := by
    rw [← List.replicate_one, List.replicate_append_replicate, List.replicate_append_replicate]
    congr 1
    omega
  have hzeros : List.replicate (15 + data.length + k) (0 : UInt8)
      = List.replicate 14 0 ++ ([0] ++ ([0] ++ List.replicate (data.length + k - 1) 0)) := by
    simp only [← List.replicate_one, List.replicate_append_replicate]
    congr 1
    omega
  have hfixed (src : Bytes) (hsrc : src.length = 14) :
      writeAt (a ++ List.replicate (15 + data.length + k) 0) i src
        = (a ++ (src ++ [0])) ++ ([0] ++ List.replicate (data.length + k - 1) 0) := by
    rw [hzeros, writeAt_append ha (by simpa using hsrc)]
    simp only [List.append_assoc]
  have hlen (src : Bytes) (hsrc : src.length = 14) : (a ++ (src ++ [0])).length = i + 15 := by
    simp [ha, hsrc]
  have hsrc : (htons 2000 ++ (htons 0 ++ (htons (15 + data.length) ++ (htons 15 ++
      (htonl 0 ++ [1, (0x00 : UInt8)]))))).length = 14 := by
    simp
  rw [hfixed _ hsrc, writeAt_append (hlen _ hsrc) rfl, hbehind,
    writeAt_append (hlen _ hsrc) (by simp)]
  simp only [Blockette.toBytes, appendedBlockette, Blockette.size, Blockette.dataOffset,
    List.append_assoc, List.cons_append, List.nil_append, List.length_nil, Nat.add_zero]

/-- The blockettes of a record and what follows them. -/
lemma drop_packed {front : Bytes} (hfront : front.length = 39) (code : UInt8) (recordSize : ℕ)
    (init : List Blockette) (last : Blockette) :
    (packed front code recordSize init last).drop 56 = linked 56 init ++ (last.toBytes 0 ++
      List.replicate (recordSize - (endOffset 56 init + last.size)) 0) := by
  have hlen : (front ++ ([UInt8.ofNat (init.length + 2)] ++ (headerBack ++
      blockette1000 code))).length = 56 := by
    simp [headerBack, blockette1000, hfront]
  have hsplit : packed front code recordSize init last
      = (front ++ ([UInt8.ofNat (init.length + 2)] ++ (headerBack ++ blockette1000 code))) ++
        (linked 56 init ++ (last.toBytes 0 ++
          List.replicate (recordSize - (endOffset 56 init + last.size)) 0)) := by
    simp only [packed, List.append_assoc]
  rw [hsplit, List.drop_left' hlen]

/-- Where the blockette 1000 is. -/
lemma shortAt_packed {front : Bytes} (hfront : front.length = 39) (code : UInt8) (recordSize : ℕ)
    (init : List Blockette) (last : Blockette) :
    shortAt (packed front code recordSize init last) 46 = 48 := by
  have h := shortAt_append (a := front ++ ([UInt8.ofNat (init.length + 2)] ++
    ([0, 0, 0, 0] ++ htons 0))) (i := 46) (v := 48) (by simp [hfront]) (by norm_num)
    (blockette1000 code ++ (linked 56 init ++ (last.toBytes 0 ++
      List.replicate (recordSize - (endOffset 56 init + last.size)) 0)))
  simpa only [packed, headerBack, List.append_assoc] using h

/-- The blockette 1000. -/
lemma drop_packed_1000 {front : Bytes} (hfront : front.length = 39) (code : UInt8)
    (recordSize : ℕ) (init : List Blockette) (last : Blockette) :
    (packed front code recordSize init last).drop 48 = blockette1000 code ++ (linked 56 init ++
      (last.toBytes 0 ++ List.replicate (recordSize - (endOffset 56 init + last.size)) 0)) := by
  have hlen : (front ++ ([UInt8.ofNat (init.length + 2)] ++ headerBack)).length = 48 := by
    simp [headerBack, hfront]
  have hsplit : packed front code recordSize init last
      = (front ++ ([UInt8.ofNat (init.length + 2)] ++ headerBack)) ++
        (blockette1000 code ++ (linked 56 init ++ (last.toBytes 0 ++
          List.replicate (recordSize - (endOffset 56 init + last.size)) 0))) := by
    simp only [packed, List.append_assoc]
  rw [hsplit, List.drop_left' hlen]

lemma shortAt_blockette1000 (code : UInt8) (rest : Bytes) :
    shortAt (blockette1000 code ++ rest) 0 = 1000 ∧
      shortAt (blockette1000 code ++ rest) 2 = 56 := by
  constructor
  · simp only [blockette1000, List.append_assoc]
    exact shortAt_zero (by norm_num) _
  · simp only [blockette1000, List.append_assoc]
    exact shortAt_append (length_htons 1000) (by norm_num) _

namespace Packed

variable {recordSize : ℕ} {channel record : Bytes} {init : List Blockette} {last : Blockette}

lemma offsets (h : Packed recordSize channel init last record) :
    shortAt record 46 = 48 ∧ shortAt (record.drop 48) 0 = 1000 ∧
      shortAt (record.drop 48) 2 = 56 := by
  obtain ⟨⟨front, code, hfront, -, rfl⟩, -, -, -⟩ := h
  rw [drop_packed_1000 hfront]
  exact ⟨shortAt_packed hfront code recordSize init last, shortAt_blockette1000 code _⟩

lemma drop (h : Packed recordSize channel init last record) :
    ∃ rest, record.drop 56 = linked 56 init ++ (last.toBytes 0 ++ rest) := by
  obtain ⟨⟨front, code, hfront, -, rfl⟩, -, -, -⟩ := h
  exact ⟨_, drop_packed hfront code recordSize init last⟩

lemma length (h : Packed recordSize channel init last record) : record.length = recordSize := by
  obtain ⟨⟨front, code, hfront, -, rfl⟩, hroom, -, -⟩ := h
  have hlinked := length_linked 56 init
  simp [packed, headerBack, blockette1000, hfront]
  omega

end Packed

/-- The writes of `AppendOpaqueSeed` to a record with room for them. -/
lemma writes_packed {front data : Bytes} (hfront : front.length = 39) (code : UInt8)
    {recordSize : ℕ} {init : List Blockette} {last : Blockette}
    (hroom : endOffset 56 (init ++ [last]) + (data.length + 15) ≤ recordSize)
    (hbyte : endOffset 56 (init ++ [last]) + 15 < recordSize) :
    let i := endOffset 56 (init ++ [last])
    let record := writeAt (packed front code recordSize init last) 39
      [UInt8.ofNat (init.length + 2) + 1]
    let record := writeAt record (endOffset 56 init + 2) (htons i)
    let record := writeAt record i (htons 2000 ++ (htons 0 ++ (htons (15 + data.length) ++
      (htons 15 ++ (htonl 0 ++ [1, 0x00])))))
    let record := writeAt record (i + 15) [0]
    writeAt record (i + 15) data
      = packed front code recordSize (init ++ [last]) (appendedBlockette data) := by
  intro i
  have hi : i = nextOffset (endOffset 56 init) last := endOffset_concat 56 init last
  have hgap := le_nextOffset (endOffset 56 init) last
  have hlinked := length_linked 56 init
  -- the gap behind the last blockette, the new one, and what stays zero
  have hzeros : List.replicate (recordSize - (endOffset 56 init + last.size)) (0 : UInt8)
      = List.replicate (i - (endOffset 56 init + last.size)) 0 ++
        List.replicate (15 + data.length + (recordSize - (i + (15 + data.length)))) 0 := by
    rw [List.replicate_append_replicate]
    congr 1
    omega
  have hcount : UInt8.ofNat (init.length + 2) + 1 = UInt8.ofNat ((init ++ [last]).length + 2) := by
    rw [List.length_append, List.length_singleton, Nat.add_right_comm]
    exact (UInt8.ofNat_add (init.length + 2) 1).symm
  have hhead : (front ++ ([UInt8.ofNat ((init ++ [last]).length + 2)] ++ (headerBack ++
      (blockette1000 code ++ (linked 56 init ++ htons 2000))))).length
        = endOffset 56 init + 2 := by
    rw [← hlinked]
    simp [headerBack, blockette1000, hfront]
    omega
  have hbefore : (front ++ ([UInt8.ofNat ((init ++ [last]).length + 2)] ++ (headerBack ++
      (blockette1000 code ++ linked 56 (init ++ [last]))))).length = i := by
    rw [show i = 56 + _ from (length_linked 56 (init ++ [last])).symm]
    simp [headerBack, blockette1000, hfront]
    omega
  intro record₁ record₂ record₃ record₄
  have h₁ : record₁ = (front ++ ([UInt8.ofNat ((init ++ [last]).length + 2)] ++ (headerBack ++
      (blockette1000 code ++ (linked 56 init ++ htons 2000))))) ++ (htons 0 ++
        ((htons last.size ++ (htons last.dataOffset ++ (htonl last.recordNumber ++
          ([1, last.flags, last.headerFields] ++ (last.header ++ last.data))))) ++
            List.replicate (recordSize - (endOffset 56 init + last.size)) 0)) := by
    show writeAt (packed front code recordSize init last) 39 _ = _
    rw [packed, hcount, writeAt_append hfront (by simp)]
    simp only [Blockette.toBytes, List.append_assoc]
  have h₂ : record₂ = (front ++ ([UInt8.ofNat ((init ++ [last]).length + 2)] ++ (headerBack ++
      (blockette1000 code ++ linked 56 (init ++ [last]))))) ++
        List.replicate (15 + data.length + (recordSize - (i + (15 + data.length)))) 0 := by
    show writeAt record₁ _ _ = _
    rw [h₁, writeAt_append hhead (by simp), hzeros, linked_concat]
    simp only [Blockette.toBytes, List.append_assoc]
    rfl
  have h₃ := writeAt_appended data (k := recordSize - (i + (15 + data.length))) hbefore (by omega)
  show writeAt (writeAt (writeAt record₂ i _) _ _) _ _ = _
  rw [h₂, h₃, packed, size_appendedBlockette]
  simp only [List.append_assoc]
  rfl

lemma dvd_endOffset_concat (offset : ℕ) (bs : List Blockette) (b : Blockette) :
    4 ∣ endOffset offset (bs ++ [b]) := by
  rw [endOffset_concat]
  exact Nat.dvd_mul_left _ _

/-- A message is appended behind the blockettes of a record, or not at all. -/
lemma appendOpaqueSeed_packed {recordSize : ℕ} {channel : Bytes} {init : List Blockette}
    {last : Blockette} {record : Bytes} (data : Bytes)
    (h : Packed recordSize channel init last record) (hdata : data ≠ [] ∨ 4 ∣ recordSize) :
    appendOpaqueSeed record data recordSize = none ∨
      ∃ record', appendOpaqueSeed record data recordSize = some record' ∧
        Packed recordSize channel (init ++ [last]) (appendedBlockette data) record' := by
  obtain ⟨⟨front, code, hfront, hchannel, rfl⟩, hroom, hcount, hfits⟩ := h
  have hread : (packed front code recordSize init last).getD 39 0
      = UInt8.ofNat (init.length + 2) := getD_append_cons hfront _
  have hnat : (UInt8.ofNat (init.length + 2)).toNat = init.length + 2 :=
    UInt8.toNat_ofNat_of_lt' (by show init.length + 2 < 256; omega)
  have hne : UInt8.ofNat (init.length + 2) ≠ 0 := by
    intro h0
    rw [h0] at hnat
    exact absurd hnat (Nat.succ_ne_zero _).symm
  have hindex := appendIndex_linked (drop_packed hfront code recordSize init last)
    (hroom.trans_lt hfits)
  have hgoes : appendOpaqueSeed (packed front code recordSize init last) data recordSize
      = if 127 ≤ init.length + 2 ∨
          recordSize < endOffset 56 (init ++ [last]) + (data.length + 15) then none
        else some (packed front code recordSize (init ++ [last]) (appendedBlockette data)) := by
    simp only [appendOpaqueSeed, hread, hnat, shortAt_packed hfront, drop_packed_1000 hfront,
      shortAt_blockette1000, if_neg hne, ne_eq, not_true_eq_false, if_false]
    by_cases hmany : 127 ≤ init.length + 2
    · rw [if_pos hmany, if_pos (Or.inl hmany)]
    · rw [if_neg hmany, Nat.add_sub_assoc (Nat.le_succ 1), hindex, ← endOffset_concat]
      by_cases hlack : recordSize < endOffset 56 (init ++ [last]) + (data.length + 15)
      · simp only [if_pos hlack, if_pos (Or.inr hlack)]
      · have hbyte : endOffset 56 (init ++ [last]) + 15 < recordSize := by
          rcases hdata with hdata | hfour
          · have hpos := List.length_pos_iff.mpr hdata
            omega
          · have haligned := dvd_endOffset_concat 56 init last
            omega
        have hwrites := writes_packed hfront code (not_lt.mp hlack) hbyte
        simp only [if_neg hlack, if_neg (not_or.mpr ⟨hmany, hlack⟩)]
        exact congrArg some hwrites
  rw [hgoes]
  split_ifs with hnone
  · exact Or.inl rfl
  · obtain ⟨hmany, hlack⟩ := not_or.mp hnone
    refine Or.inr ⟨_, rfl, ⟨front, code, hfront, hchannel, rfl⟩, ?_, ?_, hfits⟩
    · rw [size_appendedBlockette]
      omega
    · rw [List.length_append, List.length_singleton]
      omega

/-! ### Making records -/

section Parts

variable {data : Bytes} {free : ℕ}

lemma numRecords_bounds (hfree : 0 < free) (hdata : data ≠ []) :
    (numRecords data.length free - 1) * free < data.length ∧
      data.length ≤ numRecords data.length free * free ∧ 0 < numRecords data.length free := by
  have hlen := List.length_pos_of_ne_nil hdata
  have hdiv := Nat.div_add_mod (data.length + free - 1) free
  have hmod := Nat.mod_lt (data.length + free - 1) hfree
  have hpos : 0 < numRecords data.length free := by
    refine Nat.div_pos ?_ hfree
    omega
  obtain ⟨k, hk⟩ := Nat.exists_eq_add_one_of_ne_zero hpos.ne'
  rw [numRecords] at hk hpos ⊢
  rw [hk, Nat.mul_comm, Nat.succ_mul] at hdiv
  rw [hk, Nat.add_sub_cancel, Nat.succ_mul]
  omega

/-- The first parts are the first bytes of the data. -/
lemma flatMap_parts (data : Bytes) (free k : ℕ) :
    (List.range k).flatMap (fun i => (data.drop (i * free)).take free)
      = data.take (k * free) := by
  induction k with
  | zero => simp
  | succ k ih =>
    rw [List.range_succ, List.flatMap_append, ih, List.flatMap_singleton, Nat.succ_mul,
      List.take_add]

/-- The parts in their order are the data. -/
lemma flatMap_dataPart (hfree : 0 < free) (hdata : data ≠ []) :
    (List.range (numRecords data.length free)).flatMap
      (dataPart data free (numRecords data.length free)) = data := by
  obtain ⟨k, hk⟩ := Nat.exists_eq_add_one_of_ne_zero (numRecords_bounds hfree hdata).2.2.ne'
  have hfirst : (List.range k).flatMap (dataPart data free (k + 1))
      = (List.range k).flatMap (fun i => (data.drop (i * free)).take free) := by
    refine List.flatMap_congr ?_
    intro i hi
    exact if_pos (Nat.succ_lt_succ (List.mem_range.mp hi))
  have hlast : dataPart data free (k + 1) k = data.drop (k * free) := if_neg (lt_irrefl _)
  rw [hk, List.range_succ, List.flatMap_append, List.flatMap_singleton, hfirst, hlast,
    flatMap_parts, List.take_append_drop]

/-- Every part fits into the free space of a record, and none is empty. -/
lemma length_dataPart (hfree : 0 < free) (hdata : data ≠ []) {i : ℕ}
    (hi : i < numRecords data.length free) :
    0 < (dataPart data free (numRecords data.length free) i).length ∧
      (dataPart data free (numRecords data.length free) i).length ≤ free := by
  obtain ⟨hbelow, habove, -⟩ := numRecords_bounds hfree hdata
  by_cases hlast : i + 1 < numRecords data.length free
  · have hle : (i + 1) * free ≤ (numRecords data.length free - 1) * free :=
      Nat.mul_le_mul_right free (Nat.le_sub_one_of_lt hlast)
    rw [Nat.succ_mul] at hle
    rw [dataPart, if_pos hlast, List.length_take, List.length_drop]
    omega
  · have heq : numRecords data.length free = i + 1 := by omega
    rw [heq, Nat.add_sub_cancel] at hbelow
    rw [heq, Nat.succ_mul] at habove
    rw [dataPart, if_neg hlast, List.length_drop]
    omega

end Parts

lemma length_headerField (idstring : CString) :
    (headerField idstring).length = idstring.val.length := by
  rw [headerField]
  split_ifs
  · rfl
  · exact List.length_replicate

lemma length_nameField (width : ℕ) (name : CString) : (nameField width name).length = width := by
  rw [nameField, List.length_rightpad, List.length_take]
  exact max_eq_left (min_le_left _ _)

lemma length_sequence (seqno : ℕ) :
    ((natToDecimal (seqno % 1000000)).leftpad 6 48).length = 6 := by
  have hlen := length_natToDecimal_le (k := 6) (by norm_num)
    (Nat.mod_lt seqno (by norm_num : 0 < 10 ^ 6))
  rw [List.length_leftpad]
  exact max_eq_left hlen

lemma length_headerFront (seqno : ℕ) (name : OpaqueName) (channel : CString) (utc : Utc) :
    (headerFront seqno name channel utc).length = 39 := by
  rw [headerFront, List.length_append, length_sequence]
  simp [length_nameField]

/-- The channel in the header. -/
lemma channel_headerFront (seqno : ℕ) (name : OpaqueName) (channel : CString) (utc : Utc) :
    ((headerFront seqno name channel utc).drop 15).take 3 = nameField 3 channel := by
  have hlen : ((natToDecimal (seqno % 1000000)).leftpad 6 48 ++ ([68, 32] ++
      (nameField 5 name.station ++ nameField 2 name.location))).length = 15 := by
    rw [List.length_append, length_sequence]
    simp [length_nameField]
  have hsplit : headerFront seqno name channel utc
      = ((natToDecimal (seqno % 1000000)).leftpad 6 48 ++ ([68, 32] ++
        (nameField 5 name.station ++ nameField 2 name.location))) ++
          (nameField 3 channel ++ (nameField 2 name.network ++ (htons utc.year ++ (htons utc.day ++
            ([utc.hour.toUInt8, utc.minute.toUInt8, utc.second.toUInt8, 0] ++ (htons 0 ++
              (htons 0 ++ (htons 0 ++ ([1, 0] ++ [0, 0, 0]))))))))) := by
    simp only [headerFront, List.append_assoc]
  rw [hsplit, List.drop_left' hlen, List.take_left' (length_nameField 3 channel)]

lemma bounds_of_recordLengthCode {recordSize : ℕ} {code : UInt8}
    (h : recordLengthCode recordSize = some code) : recordSize < 65536 := by
  unfold recordLengthCode at h
  split at h
  all_goals first | contradiction | norm_num

/-- A record that was just made. -/
lemma opaqueRecord_eq {front : Bytes} (hfront : front.length = 39) (code : UInt8) (b : Blockette)
    (recordSize : ℕ) :
    opaqueRecord front code b recordSize = packed front code recordSize [] b := by
  have hlen : (front ++ ([2] ++ (headerBack ++ (blockette1000 code ++ b.toBytes 0)))).length
      = 56 + b.size := by
    simp [headerBack, blockette1000, hfront]
    omega
  rw [opaqueRecord, List.rightpad, hlen]
  simp only [packed, linked, endOffset, List.append_assoc, List.nil_append, List.length_nil]
  rfl

section Make

variable {multi multi' seqno recordSize : ℕ} {data : Bytes} {name : OpaqueName}
  {channel : CString} {now : ℕ → Utc} {records : List Bytes}

/-- The records of a message hold its parts. -/
structure Fragments (recordSize : ℕ) (channel data : Bytes) (idstring : CString) (multi : ℕ)
    (records : List Bytes) : Prop where
  free : 0 < freeSpace recordSize idstring
  packed : List.Forall₂ (fun record i => Packed recordSize channel []
      (opaqueBlockette multi data idstring (freeSpace recordSize idstring)
        (numRecords data.length (freeSpace recordSize idstring)) i) record) records
    (List.range (numRecords data.length (freeSpace recordSize idstring)))

/-- What a message needs to be made. -/
structure Makes (recordSize : ℕ) (idstring : CString) (data : Bytes) (code : UInt8) : Prop where
  free : 0 < freeSpace recordSize idstring
  memory : recordSize * numRecords data.length (freeSpace recordSize idstring) < 2 ^ 31
  code : recordLengthCode recordSize = some code
  ends : ¬∃ b ∈ idstring.val.getLast?, b ≠ 126

lemma makeOpaqueSeed_eq {code : UInt8} (h : Makes recordSize name.idstring data code)
    (hdata : data ≠ []) :
    let count := numRecords data.length (freeSpace recordSize name.idstring)
    let multi' := if count > 1 then multi + 1 else multi
    makeOpaqueSeed multi data seqno name channel recordSize now
      = .ok (multi', (List.range count).map fun i =>
          opaqueRecord (headerFront seqno name channel (now i)) code
            (opaqueBlockette multi' data name.idstring (freeSpace recordSize name.idstring) count i)
            recordSize) := by
  have hcount := (numRecords_bounds h.free hdata).2.2.ne'
  simp only [makeOpaqueSeed, if_neg h.free.ne', if_neg (not_le.mpr h.memory), if_neg hcount,
    h.code, if_neg h.ends]

lemma makes_of_ok
    (h : makeOpaqueSeed multi data seqno name channel recordSize now = .ok (multi', records))
    (hdata : data ≠ []) : ∃ code, Makes recordSize name.idstring data code := by
  rw [makeOpaqueSeed] at h
  by_cases hfree : freeSpace recordSize name.idstring = 0
  · rw [if_pos hfree] at h
    cases h
  have hcount := (numRecords_bounds (Nat.pos_of_ne_zero hfree) hdata).2.2.ne'
  by_cases hmemory :
      recordSize * numRecords data.length (freeSpace recordSize name.idstring) ≥ 2 ^ 31
  · simp only [if_neg hfree, if_pos hmemory] at h
    cases h
  cases hcode : recordLengthCode recordSize with
  | none =>
    simp only [if_neg hfree, if_neg hmemory, if_neg hcount, hcode] at h
    cases h
  | some code =>
    by_cases hends : ∃ b ∈ name.idstring.val.getLast?, b ≠ 126
    · simp only [if_neg hfree, if_neg hmemory, if_neg hcount, hcode, if_pos hends] at h
      cases h
    · exact ⟨code, Nat.pos_of_ne_zero hfree, not_le.mp hmemory, hcode, hends⟩

lemma makeOpaqueSeed_fragments
    (h : makeOpaqueSeed multi data seqno name channel recordSize now = .ok (multi', records))
    (hdata : data ≠ []) :
    Fragments recordSize (nameField 3 channel) data name.idstring multi' records := by
  obtain ⟨code, hm⟩ := makes_of_ok h hdata
  cases h.symm.trans (makeOpaqueSeed_eq hm hdata)
  refine ⟨hm.free, List.forall₂_map_left_iff.mpr (List.forall₂_same.mpr ?_)⟩
  intro i hi
  have hfront := length_headerFront seqno name channel (now i)
  have hpart := (length_dataPart hm.free hdata (List.mem_range.mp hi)).2
  refine ⟨⟨_, code, hfront, channel_headerFront seqno name channel (now i),
    opaqueRecord_eq hfront code _ recordSize⟩, ?_, by norm_num, bounds_of_recordLengthCode hm.code⟩
  have hfree := hm.free
  rw [freeSpace] at hfree hpart
  simp only [endOffset, Blockette.size, Blockette.dataOffset, opaqueBlockette,
    length_headerField]
  rw [freeSpace]
  omega

end Make

end StationProcessor
