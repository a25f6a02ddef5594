import StationProcessor.Falcon.OpaqueRead
import StationProcessor.Ofcweb.Fmash

/-!
# Opaque blockettes in the web server

The class `OFCb2000` of `ofcweb/OFCb2000.java`, which puts the fragments of a message together,
and who agrees with `MakeOpaqueSeed` about them: no reader does for a message of several records.
-/

namespace StationProcessor

namespace Ofcweb

/-- The fields of the class that both of its methods use; `continueData` is `none` where it is
null. -/
structure OFCb2000 where
  bContinuation : Bool
  continueData : Option Bytes
deriving DecidableEq

/-- The data of a blockette, copied into an array of `data_record_length - 15` bytes. -/
def copiedData (blockette2000 : Bytes) (bSwapBytes : Bool) : Bytes :=
  let dataRecordLength := uBytesToInt ((blockette2000.drop 4).take 2) bSwapBytes
  let dataOffset := uBytesToInt ((blockette2000.drop 6).take 2) bSwapBytes
  ((blockette2000.drop dataOffset).take (dataRecordLength - dataOffset)).rightpad
    (dataRecordLength - 15) 0

/-- The constructor, and the data it makes a `Fmash` of. -/
def newOFCb2000 (blockette2000 : Bytes) : OFCb2000 × Option Bytes :=
  let bSwapBytes : Bool := blockette2000.getD 12 0 = 0
  let type := uBytesToInt (blockette2000.take 2) bSwapBytes
  let flags := blockette2000.getD 13 0
  if type ≠ 2000 then (⟨false, none⟩, none)
  else if flags &&& (0x28 : UInt8) ≠ 0 then (⟨false, none⟩, none)
  else if flags &&& (0x0c : UInt8) = 0x04 ∨ flags &&& (0x30 : UInt8) = 0x10 then
    (⟨true, some (copiedData blockette2000 bSwapBytes)⟩, none)
  else (⟨false, none⟩, some (copiedData blockette2000 bSwapBytes))

/-- `Continue`. `none` is the exception that null has no length. -/
def OFCb2000.continue (s : OFCb2000) (blockette2000 : Bytes) : Option (OFCb2000 × Option Bytes) :=
  let bSwapBytes : Bool := blockette2000.getD 12 0 = 0
  let type := uBytesToInt (blockette2000.take 2) bSwapBytes
  let flags := blockette2000.getD 13 0
  if type ≠ 2000 then some (s, none)
  else if flags &&& (0x28 : UInt8) = 0 ∨ flags &&& (0x0c : UInt8) = 0x04 ∨
      flags &&& (0x30 : UInt8) = 0x10 then some ({ s with bContinuation := false }, none)
  else do
    let continueData ← s.continueData
    let rawData := continueData ++ copiedData blockette2000 bSwapBytes
    let s := { s with continueData := some rawData }
    if ¬(flags &&& (0x0c : UInt8) = 0x08 ∨ flags &&& (0x30 : UInt8) = 0x30) then some (s, none)
    else some ({ s with bContinuation := false }, some rawData)

/-- `Continue` for one blockette after the other. -/
def continueAll : OFCb2000 → List (ℕ × Bytes) → Option (List (ℕ × Bytes))
  | _, [] => some []
  | s, (i, b) :: bs => do
    let (s, rawData) ← s.continue b
    let rest ← continueAll s bs
    return rawData.toList.map (fun rawData => (i, rawData)) ++ rest

/-- The messages of some blockettes, each with the number of the record in which it was
complete: the first blockette goes to the constructor. -/
def readMessages : List (ℕ × Bytes) → Option (List (ℕ × Bytes))
  | [] => some []
  | (i, b) :: bs => do
    let (s, rawData) := newOFCb2000 b
    let rest ← continueAll s bs
    return rawData.toList.map (fun rawData => (i, rawData)) ++ rest

/-- The messages of some records. A blockette is given as an array of its own length. -/
def readRecords (records : List Bytes) : Option (List (ℕ × Bytes)) := do
  let bs ← numberedBlockettes 0 records
  readMessages (bs.map fun (i, b) => (i, b.take (shortAt b 4)))

/-! ### Single blockettes -/

section Blockette

variable {b : Blockette} {next : ℕ} {bs : Bytes}

/-- The array that is made for a blockette. -/
lemma array_eq (h : StartsWith bs b) : ∃ next, bs.take (shortAt bs 4) = b.toBytes next := by
  obtain ⟨hsize, next, rest, rfl⟩ := h
  rw [b.shortAt_size hsize]
  exact ⟨next, List.take_left' (b.length_toBytes next)⟩

/-- The array is in network order. -/
lemma getD_wordOrder (b : Blockette) (next : ℕ) : (b.toBytes next).getD 12 0 = 1 := by
  have h := getD_append_cons (a := htons 2000 ++ (htons next ++ (htons b.size ++
    (htons b.dataOffset ++ htonl b.recordNumber)))) (i := 12) (x := 1) (by simp)
    ([b.flags, b.headerFields] ++ (b.header ++ b.data))
  simpa only [Blockette.toBytes, List.append_assoc, List.cons_append, List.nil_append] using h

lemma uBytesToInt_type (b : Blockette) (next : ℕ) :
    uBytesToInt ((b.toBytes next).take 2) false = 2000 := by
  have h := b.shortAt_type next []
  rwa [List.append_nil] at h

lemma getD_flags (b : Blockette) (next : ℕ) : (b.toBytes next).getD 13 0 = b.flags := by
  have h := b.getD_flags next []
  rwa [List.append_nil] at h

lemma uBytesToInt_eq (bs : Bytes) (i : ℕ) :
    uBytesToInt ((bs.drop i).take 2) false = shortAt bs i := rfl

/-- The data comes with a zero for every byte of the header fields. -/
lemma copiedData_eq (hsize : b.size < 65536) (next : ℕ) :
    copiedData (b.toBytes next) false = b.data ++ List.replicate b.header.length 0 := by
  have hstarts : StartsWith (b.toBytes next) b := ⟨hsize, next, [], (List.append_nil _).symm⟩
  have hlen : shortAt (b.toBytes next) 4 = b.size := by
    have h := b.shortAt_size hsize next []
    rwa [List.append_nil] at h
  have hzeros : b.size - 15 - b.data.length = b.header.length := by
    rw [Blockette.size, Blockette.dataOffset]
    omega
  calc copiedData (b.toBytes next) false
      = (blocketteData (b.toBytes next)).rightpad (shortAt (b.toBytes next) 4 - 15) 0 := by
        simp only [copiedData, uBytesToInt_eq]
        rfl
    _ = b.data ++ List.replicate b.header.length 0 := by
        rw [hstarts.data, hlen, List.rightpad, hzeros]

/-- The constructor at a blockette that starts a message. -/
lemma newOFCb2000_eq (hsize : b.size < 65536) (next : ℕ) (hflags : b.flags &&& (0x28 : UInt8) = 0) :
    newOFCb2000 (b.toBytes next)
      = if b.flags &&& (0x0c : UInt8) = 0x04 ∨ b.flags &&& (0x30 : UInt8) = 0x10 then
          (⟨true, some (b.data ++ List.replicate b.header.length 0)⟩, none)
        else (⟨false, none⟩, some (b.data ++ List.replicate b.header.length 0)) := by
  have hswap : decide ((b.toBytes next).getD 12 0 = 0) = false := by
    rw [getD_wordOrder]
    rfl
  simp only [newOFCb2000, hswap, uBytesToInt_type, getD_flags, copiedData_eq hsize, hflags,
    ne_eq, not_true_eq_false, if_false]

/-- `Continue` at a fragment after the first one: a middle one ends the message, the last one does
not. -/
lemma continue_eq (hsize : b.size < 65536) (next : ℕ) {s : OFCb2000} {continueData : Bytes}
    (hs : s.continueData = some continueData) (hflags : b.flags = 0x30 ∨ b.flags = 0x20) :
    let rawData := continueData ++ (b.data ++ List.replicate b.header.length 0)
    s.continue (b.toBytes next)
      = some (if b.flags = 0x30 then (⟨false, some rawData⟩, some rawData)
          else (⟨s.bContinuation, some rawData⟩, none)) := by
  have hswap : decide ((b.toBytes next).getD 12 0 = 0) = false := by
    rw [getD_wordOrder]
    rfl
  simp only [OFCb2000.continue, hswap, uBytesToInt_type, getD_flags, copiedData_eq hsize, hs,
    ne_eq, not_true_eq_false, if_false]
  rcases hflags with hflags | hflags
  · rw [hflags]
    rfl
  · rw [hflags]
    rfl

end Blockette

end Ofcweb

end StationProcessor
