import StationProcessor.Shake.SteimRoundTrip

/-!
# Compression in the digitizer's library

`libcompress.c`, and the part of `libsample.c` that makes records of what it packs. Samples of the
library itself are packed by `compress_block`, which looks for the most compact form from the one
that it took last. Seconds that the digitizer has packed are unpacked by `decompress_blockette` and
copied word by word by `build_blocks`. Frames of detections and calibrations may come in between.
-/

namespace StationProcessor

namespace Lib330

open Shake (Frame UDiff)

/-! ### Tables -/

/-- `compseqtype` -/
structure CompSeq where
  scan : ℕ
  bc : BitVec 32
  cbits : BitVec 32
  shift : ℕ
  mask : BitVec 32
  disc : ℤ

/-- `compseq` -/
def compseq : ℕ → CompSeq
  | 0 => ⟨7, 3, 8, 4, 15, 7⟩
  | 1 => ⟨6, 3, 1, 5, 31, 15⟩
  | 2 => ⟨5, 3, 0, 6, 63, 31⟩
  | 3 => ⟨4, 1, 0, 8, 255, 127⟩
  | 4 => ⟨3, 2, 3, 10, 1023, 511⟩
  | 5 => ⟨2, 2, 2, 15, 32767, 16383⟩
  | _ => ⟨1, 2, 1, 30, 1073741823, 536870911⟩

/-- `decompbittype` -/
structure DecompBit where
  samps : ℕ
  postshift : ℕ
  mask : BitVec 32
  hibit : BitVec 32
  neg : BitVec 32

/-- `decomptab` -/
def decomptab : ℕ → DecompBit
  | 0 => ⟨4, 8, 255, 128, 256⟩
  | 1 => ⟨1, 0, 1073741823, 536870912, 1073741824⟩
  | 2 => ⟨2, 15, 32767, 16384, 32768⟩
  | 3 => ⟨3, 10, 1023, 512, 1024⟩
  | 4 => ⟨5, 6, 63, 32, 64⟩
  | 5 => ⟨6, 5, 31, 16, 32⟩
  | _ => ⟨7, 4, 15, 8, 16⟩

/-! ### State -/

/-- `tcom_packet`, with the frames of the current element of its ring. -/
structure ComPacket where
  lastSample : BitVec 32
  flagWord : BitVec 32
  recordsWritten : ℕ
  frames : ℕ → Frame
  frameBuffer : ℕ → BitVec 32
  frame : ℕ
  maxframes : ℕ
  ctabx : ℕ
  block : ℕ
  peekTotal : ℕ
  nextIn : ℕ
  nextOut : ℕ
  nextCompressedSample : ℕ
  blocketteCount : ℕ
  peeks : ℕ → BitVec 32

/-- A frame of zeros. -/
def zeroFrame : Frame := ⟨0, fun _ _ => 0⟩

/-- A packet as it is made: nothing is compressed yet. -/
def ComPacket.init (maxframes : ℕ) : ComPacket where
  lastSample := 0
  flagWord := 0
  recordsWritten := 0
  frames := fun _ => zeroFrame
  frameBuffer := fun _ => 0
  frame := 1
  maxframes := maxframes
  ctabx := 0
  block := 1
  peekTotal := 0
  nextIn := 0
  nextOut := 0
  nextCompressedSample := 1
  blocketteCount := 0
  peeks := fun _ => 0

/-- A finished record, with the fields of its header that say what is in it. -/
structure SeedRecord where
  seedNum : ℕ
  samplesInRecord : BitVec 16
  firstDataByte : ℕ
  frameCount : ℕ
  frames : ℕ → Frame

/-! ### `compress_block` -/

/-- The samples that wait in the ring of 16. -/
def ComPacket.peek (pcom : ComPacket) (k : ℕ) : BitVec 32 := pcom.peeks ((pcom.nextOut + k) % 16)

def ComPacket.diffs (pcom : ComPacket) (k : ℕ) : BitVec 32 :=
  pcom.peek k - if k = 0 then pcom.lastSample else pcom.peek (k - 1)

/-- Whether all differences of the scan fit. -/
def scanFits (diffs : ℕ → BitVec 32) (ctabx : ℕ) : Bool :=
  let sp := compseq ctabx
  (List.range sp.scan).all fun i => decide ((diffs i).abs.toInt ≤ sp.disc)

/-- The scan loop: the entry of the table that is taken. `ctabfit` is an entry that fits, if there
has been one. The loop goes up or down in the table, so that it ends within 14 rounds. -/
def scanLoop (fits : ℕ → Bool) (ctabw ctablo : ℕ) : ℕ → ℕ → Option ℕ → ℕ
  | 0, ctabx, _ => ctabx
  | rounds + 1, ctabx, ctabfit =>
    if fits ctabx = false then
      match ctabfit with
      | none => if 6 ≤ ctabx then ctabx else scanLoop fits ctabw ctablo rounds (ctabx + 1) none
      | some fit => fit
    else if ctabw < ctabx then ctabx
    else if ctablo < ctabx then scanLoop fits ctabw ctablo rounds (ctabx - 1) (some ctabx)
    else ctabx

/-- Pack differences behind the bits of the code. -/
def packDiffs (sp : CompSeq) (diffs : ℕ → BitVec 32) : BitVec 32 :=
  (List.range sp.scan).foldl (fun accum i => (accum <<< sp.shift) ||| (sp.mask &&& diffs i))
    sp.cbits

/-- Write a word and its code into the frame. -/
def ComPacket.putWord (pcom : ComPacket) (blockCode value : BitVec 32) : ComPacket :=
  { pcom with
    frameBuffer := Function.update pcom.frameBuffer pcom.block value
    flagWord := (pcom.flagWord <<< 2) + blockCode
    block := pcom.block + 1 }

/-- Store the frame in the record and go on to the next one. -/
def ComPacket.storeFrame (pcom : ComPacket) : ComPacket :=
  { pcom with
    frames := Function.update pcom.frames pcom.frame
      ⟨pcom.flagWord, fun j => WordBytes.ofWord true (pcom.frameBuffer (j + 1))⟩
    frameBuffer := fun _ => 0
    frame := pcom.frame + 1
    block := 1
    flagWord := 0 }

/-- Begin the first frame of a record. -/
def ComPacket.startFrame (pcom : ComPacket) (firstSample : BitVec 32) : ComPacket :=
  { pcom with
    frameBuffer := Function.update (Function.update pcom.frameBuffer 1 firstSample) 2 0
    block := 3 }

/-- The entry of the table that is taken for the samples that wait. -/
def ComPacket.scan (pcom : ComPacket) : ℕ :=
  let ctablo := if pcom.peekTotal < 7 then 7 - pcom.peekTotal else 0
  let ctabw := if pcom.ctabx < ctablo then ctablo else pcom.ctabx
  scanLoop (scanFits pcom.diffs) ctabw ctablo 14 ctabw none

/-- `compress_block`: the number of samples that it has packed is returned. -/
def compressBlock (pcom : ComPacket) : ComPacket × ℕ :=
  let pcom : ComPacket := if pcom.frame = pcom.blocketteCount + 1 ∧ pcom.block ≤ 1 then
    { pcom.startFrame (pcom.peek 0) with flagWord := 0, ctabx := 0 } else pcom
  let ctabx := pcom.scan
  let sp := compseq ctabx
  let pcom : ComPacket := { pcom.putWord sp.bc (packDiffs sp pcom.diffs) with
    ctabx := ctabx
    peekTotal := pcom.peekTotal - sp.scan
    nextOut := (pcom.nextOut + sp.scan) % 16
    lastSample := pcom.peek (sp.scan - 1) }
  (if 16 ≤ pcom.block then pcom.storeFrame else pcom, sp.scan)

/-! ### Records -/

/-- `finish_record`: the record, and an empty one in its place; `none` when there is no frame left
for the last sample. -/
def finishRecord (pcom : ComPacket) : Option (ComPacket × SeedRecord) :=
  if 8 ≤ pcom.blocketteCount + 1 then none
  else
    some
      ({ pcom with
          recordsWritten := pcom.recordsWritten + 1
          frames := fun _ => zeroFrame
          frame := 1
          nextCompressedSample := 1
          blocketteCount := 0 },
        { seedNum := pcom.recordsWritten + 1
          samplesInRecord := BitVec.ofNat 16 (pcom.nextCompressedSample - 1)
          firstDataByte := (pcom.blocketteCount + 1) * 64
          frameCount := pcom.frame - 1 - pcom.blocketteCount
          frames := Shake.setFrame pcom.frames (pcom.blocketteCount + 1) fun f =>
            { f with w := Function.update f.w 1 (WordBytes.ofWord true pcom.lastSample) } })

/-- Count samples that were packed, and finish the record when it is full. -/
def countUsed (pcom : ComPacket) (used : ℕ) : Option (ComPacket × List SeedRecord) :=
  let pcom := { pcom with nextCompressedSample := pcom.nextCompressedSample + used }
  if pcom.maxframes + 1 ≤ pcom.frame then
    (finishRecord pcom).map fun (pcom, record) => (pcom, [record])
  else some (pcom, [])

/-- The part of `process_lcq` for a sample of the library. -/
def processSample (pcom : ComPacket) (value : BitVec 32) : Option (ComPacket × List SeedRecord) :=
  let pcom := { pcom with
    peeks := Function.update pcom.peeks pcom.nextIn value
    nextIn := (pcom.nextIn + 1) % 16
    peekTotal := pcom.peekTotal + 1 }
  if pcom.peekTotal < 7 then some (pcom, [])
  else
    let (pcom, used) := compressBlock pcom
    countUsed pcom used

/-- The first loop of `flush_lcq`, of at most so many rounds. -/
def flushPeeks : ℕ → ComPacket → Option (ComPacket × List SeedRecord)
  | 0, pcom => some (pcom, [])
  | rounds + 1, pcom =>
    if pcom.peekTotal = 0 then some (pcom, [])
    else do
      let (pcom, used) := compressBlock pcom
      let (pcom, records) ← countUsed pcom used
      let (pcom, more) ← flushPeeks rounds pcom
      some (pcom, records ++ more)

/-- Complete a partial frame. -/
def ComPacket.completeFrame (pcom : ComPacket) : ComPacket :=
  if 1 < pcom.block ∧ pcom.block < 16 then
    { pcom with flagWord := pcom.flagWord <<< ((16 - pcom.block) * 2) }.storeFrame
  else pcom

/-- `flush_lcq` -/
def flushLcq (pcom : ComPacket) : Option (ComPacket × List SeedRecord) := do
  let (pcom, records) ← flushPeeks 21 pcom
  if 1 < pcom.nextCompressedSample then
    let (pcom, record) ← finishRecord pcom.completeFrame
    some (pcom, records ++ [record])
  else some (pcom, records)

/-- The frames with a blockette in front of the data. -/
def insertBlockette (pcom : ComPacket) (pw : Frame) : ℕ → Frame :=
  let index := pcom.blocketteCount + 1
  let moved : ℕ → Frame := fun k =>
    if index < k ∧ k ≤ pcom.frame then pcom.frames (k - 1) else pcom.frames k
  let frames := Function.update moved index pw
  -- the extended link of the previous blockette
  if pcom.blocketteCount = 0 then frames
  else Shake.setFrame frames pcom.blocketteCount fun f =>
    { f with ctrl := (f.ctrl &&& 0xffff0000) ||| BitVec.ofNat 32 (64 * index) }

/-- `add_blockette` -/
def addBlockette (pcom : ComPacket) (pw : Frame) : Option (ComPacket × List SeedRecord) := do
  let (pcom, records) ← if pcom.maxframes ≤ pcom.frame then flushLcq pcom else some (pcom, [])
  let pcom := { pcom with
    frames := insertBlockette pcom pw
    blocketteCount := pcom.blocketteCount + 1
    frame := pcom.frame + 1 }
  if pcom.maxframes + 1 ≤ pcom.frame then
    let (pcom, record) ← finishRecord pcom
    some (pcom, records ++ [record])
  else some (pcom, records)

/-! ### Seconds that the digitizer has packed -/

/-- `tprecomp` as a packet fills it: the sample before the second, the map with two bits for each
block, eight blocks to a word, and the blocks. -/
structure Precomp where
  prevSample : BitVec 32
  map : ℕ → BitVec 16
  data : ℕ → BitVec 32
  blocks : ℕ

/-- The code of block `i` in the map. -/
def Precomp.code (pcmp : Precomp) (i : ℕ) : BitVec 32 :=
  ((pcmp.map (i / 8) >>> (14 - 2 * (i % 8))) &&& 3).setWidth 32

/-- The entry of `decomptab` for a block. -/
def subcode (code accum : BitVec 32) : ℕ :=
  if code = 2 then (accum.sshiftRight 30 &&& 3).toNat
  else if code = 3 then 4 + (accum.sshiftRight 30 &&& 3).toNat
  else 0

/-- The differences of a block, from the last one on. -/
def unpack (dcp : DecompBit) : ℕ → BitVec 32 → List (BitVec 32) → List (BitVec 32)
  | 0, _, unpacked => unpacked
  | k + 1, accum, unpacked =>
    let work := accum &&& dcp.mask
    let work := if work &&& dcp.hibit ≠ 0 then work - dcp.neg else work
    unpack dcp k (accum.sshiftRight dcp.postshift) (work :: unpacked)

/-- The variables of `decompress_blockette`: the samples, the place of the first sample of each
block, the last value, and the number of blocks that are valid. -/
structure Decompressed where
  databuf : List (BitVec 32)
  idxbuf : List ℕ
  curval : BitVec 32
  blocks : ℕ

/-- Add up differences; too many samples make the second invalid. -/
def storeSamples (rate : ℕ) : List (BitVec 32) → Decompressed → Decompressed
  | [], s => s
  | d :: unpacked, s =>
    let curval := s.curval + d
    if rate ≤ s.databuf.length then { s with curval := curval, blocks := 0 }
    else storeSamples rate unpacked { s with databuf := s.databuf ++ [curval], curval := curval }

/-- The loop of `decompress_blockette`, from block `i` on. -/
def decompLoop (rate : ℕ) (pcmp : Precomp) : ℕ → ℕ → Decompressed → Decompressed
  | 0, _, s => s
  | dblocks + 1, i, s =>
    if s.databuf.length < rate then
      let accum := pcmp.data i
      let subcode := subcode (pcmp.code i) accum
      if 6 < subcode then { s with blocks := 0 }
      else
        let dcp := decomptab subcode
        decompLoop rate pcmp dblocks (i + 1) (storeSamples rate (unpack dcp dcp.samps accum [])
          { s with idxbuf := s.idxbuf ++ [s.databuf.length] })
    else s

/-- `decompress_blockette` -/
def decompressBlockette (rate : ℕ) (pcmp : Precomp) : Decompressed :=
  let s := decompLoop rate pcmp pcmp.blocks 0 ⟨[], [], pcmp.prevSample, pcmp.blocks⟩
  { s with idxbuf := s.idxbuf ++ [s.databuf.length] }

/-- Copy blocks into the frame until it is full: how many are left, and which is the next one. -/
def copyBlocks (pcmp : Precomp) : ℕ → ℕ → ComPacket → ComPacket × ℕ × ℕ
  | 0, i, pcom => (pcom, 0, i)
  | blocks + 1, i, pcom =>
    if pcom.block < 16 then
      copyBlocks pcmp blocks (i + 1) (pcom.putWord (pcmp.code i) (pcmp.data i))
    else (pcom, blocks + 1, i)

/-- `build_blocks`: the number of samples used, with the blocks that are left and the next one;
`none` when it reads in front of the samples. -/
def buildBlocks (pcmp : Precomp) (s : Decompressed) (blocks blockIdx : ℕ) (pcom : ComPacket) :
    Option (ComPacket × ℕ × ℕ × ℕ) :=
  let samplesAt (i : ℕ) := s.idxbuf.getD i 0
  let pcom := if pcom.frame = pcom.blocketteCount + 1 ∧ pcom.block ≤ 1 then
    pcom.startFrame (s.databuf.getD (samplesAt blockIdx) 0) else pcom
  let (pcom, blocks, next) := copyBlocks pcmp blocks blockIdx pcom
  let pcom := if 16 ≤ pcom.block then pcom.storeFrame else pcom
  if samplesAt next = 0 then none
  else
    some ({ pcom with lastSample := s.databuf.getD (samplesAt next - 1) 0 },
      samplesAt next - samplesAt blockIdx, blocks, next)

/-- The last loop of `process_lcq`; samples that no block is left for are lost. -/
def buildLoop (pcmp : Precomp) (s : Decompressed) :
    ℕ → ℕ → ℕ → ℕ → ComPacket → Option (ComPacket × List SeedRecord)
  | 0, _, _, _, pcom => some (pcom, [])
  | rounds + 1, samples, blocks, blockIdx, pcom =>
    if samples = 0 then some (pcom, [])
    else do
      let (pcom, used, blocks, next) ← buildBlocks pcmp s blocks blockIdx pcom
      if used = 0 then some (pcom, [])
      else do
        let (pcom, records) ← countUsed pcom used
        let (pcom, more) ← buildLoop pcmp s rounds (samples - used) blocks next pcom
        some (pcom, records ++ more)

/-- The part of `process_lcq` for a second that the digitizer has packed. Each round uses at least
one sample. -/
def processComp (rate : ℕ) (pcmp : Precomp) (pcom : ComPacket) :
    Option (ComPacket × List SeedRecord) :=
  let s := decompressBlockette rate pcmp
  buildLoop pcmp s s.databuf.length s.databuf.length s.blocks 0 pcom

end Lib330

end StationProcessor
