import StationProcessor.Lib.BitFields

/-!
# Steim compression

`msr_pack_steim1` and `msr_pack_steim2` pack the differences of samples into frames of 64 bytes, as
many to a word as their sizes allow; the viewers decode the frames with `Steim1.java` and
`Steim2.java`. Differences are of 32 bits and wrap.
-/

namespace StationProcessor

namespace Shake

/-! ### Frames -/

/-- `VALS_PER_FRAME` -/
def valsPerFrame : ℕ := 15

/-- A word has four bytes. -/
scoped instance neZero_bytes : NeZero 4 := ⟨by norm_num⟩

/-- The four bytes of a `U_DIFF`. -/
abbrev UDiff := Fin 4 → BitVec 8

/-- A frame: its control word, as the host has it, and its words. -/
structure Frame where
  ctrl : BitVec 32
  w : ℕ → UDiff

/-- The byte orders of a packer: whether the host is big-endian and whether words are swapped. -/
structure Swapping where
  bigHost : Bool
  swapflag : Bool

/-- `ms_gswap4`, when words are swapped. -/
def Swapping.gswap4 (sw : Swapping) (v : BitVec 32) : BitVec 32 :=
  if sw.swapflag then WordBytes.reverse v else v

/-- Store a full word, swapped when words are. -/
def Swapping.fw (sw : Swapping) (v : BitVec 32) : UDiff := WordBytes.ofWord sw.bigHost (sw.gswap4 v)

/-- Store two half words. -/
def Swapping.hw (sw : Swapping) (d₀ d₁ : BitVec 32) : UDiff :=
  let half (d : BitVec 32) :=
    let stmp := d.setWidth 16
    WordBytes.ofHalf sw.bigHost (if sw.swapflag then WordBytes.reverseHalf stmp else stmp)
  ![half d₀ 0, half d₀ 1, half d₁ 0, half d₁ 1]

/-- The flag that the viewers decode such words with. -/
def Swapping.swapBytes (sw : Swapping) : Bool := !(sw.bigHost ^^ sw.swapflag)

/-! ### Packing a word -/

/-- `MINBITS` -/
def minbitsOf (diff : BitVec 32) : ℕ :=
  if -8 ≤ diff.toInt ∧ diff.toInt < 8 then 4
  else if -16 ≤ diff.toInt ∧ diff.toInt < 16 then 5
  else if -32 ≤ diff.toInt ∧ diff.toInt < 32 then 6
  else if -128 ≤ diff.toInt ∧ diff.toInt < 128 then 8
  else if -512 ≤ diff.toInt ∧ diff.toInt < 512 then 10
  else if -16384 ≤ diff.toInt ∧ diff.toInt < 16384 then 15
  else if -32768 ≤ diff.toInt ∧ diff.toInt < 32768 then 16
  else if -536870912 ≤ diff.toInt ∧ diff.toInt < 536870912 then 30
  else 32

/-- `BIT4PACK` and the like: there are `n` more points of at most `bits` bits. -/
def canPack (bits n : ℕ) (minbits : ℕ → ℕ) (pointsRemaining : ℕ) : Bool :=
  decide (n ≤ pointsRemaining) && (List.range n).all fun i => decide (minbits i ≤ bits)

/-- `PACK` -/
def pack (bits n : ℕ) (m1 m2 : BitVec 32) (diff : ℕ → BitVec 32) : BitVec 32 :=
  BitField.packFields bits n m1 diff ||| (m2 <<< 30)

/-- A packed word, its mask and the number of points in it. -/
structure PackedWord where
  mask : BitVec 32
  w : UDiff
  pointsPacked : ℕ

/-- Four differences of a byte each. -/
def byteWord (diff : ℕ → BitVec 32) : UDiff := fun j => (diff j).setWidth 8

/-- The most compact form of the next points in Steim 1. -/
def packWord1 (sw : Swapping) (diff : ℕ → BitVec 32) (minbits : ℕ → ℕ) (pointsRemaining : ℕ) :
    Option PackedWord :=
  if canPack 8 4 minbits pointsRemaining then some ⟨1, byteWord diff, 4⟩
  else if canPack 16 2 minbits pointsRemaining then some ⟨2, sw.hw (diff 0) (diff 1), 2⟩
  else some ⟨3, sw.fw (diff 0), 1⟩

/-- The most compact form of the next points in Steim 2; `none` when a difference needs more than
30 bits. -/
def packWord2 (sw : Swapping) (diff : ℕ → BitVec 32) (minbits : ℕ → ℕ) (pointsRemaining : ℕ) :
    Option PackedWord :=
  if canPack 4 7 minbits pointsRemaining then some ⟨3, sw.fw (pack 4 7 0x0000000f 2 diff), 7⟩
  else if canPack 5 6 minbits pointsRemaining then some ⟨3, sw.fw (pack 5 6 0x0000001f 1 diff), 6⟩
  else if canPack 6 5 minbits pointsRemaining then some ⟨3, sw.fw (pack 6 5 0x0000003f 0 diff), 5⟩
  else if canPack 8 4 minbits pointsRemaining then some ⟨1, byteWord diff, 4⟩
  else if canPack 10 3 minbits pointsRemaining then
    some ⟨2, sw.fw (pack 10 3 0x000003ff 3 diff), 3⟩
  else if canPack 15 2 minbits pointsRemaining then
    some ⟨2, sw.fw (pack 15 2 0x00007fff 2 diff), 2⟩
  else if canPack 30 1 minbits pointsRemaining then
    some ⟨2, sw.fw (pack 30 1 0x3fffffff 1 diff), 1⟩
  else none

/-! ### Packing a block -/

/-- A variant of the compression: how the next word is packed, and the number of differences that
are kept ahead. -/
structure SteimPacker where
  packWord : (ℕ → BitVec 32) → (ℕ → ℕ) → ℕ → Option PackedWord
  width : ℕ

def steim1 (sw : Swapping) : SteimPacker := ⟨packWord1 sw, 4⟩

def steim2 (sw : Swapping) : SteimPacker := ⟨packWord2 sw, 7⟩

/-- The variables of the packing loop. -/
structure PackState where
  dframes : ℕ → Frame
  pointsRemaining : ℕ
  ipt : ℕ
  fn : ℕ
  wn : ℕ
  diff : ℕ → BitVec 32
  minbits : ℕ → ℕ

/-- Change one frame. -/
def setFrame (dframes : ℕ → Frame) (fn : ℕ) (f : Frame → Frame) : ℕ → Frame :=
  fun k => if k = fn then f (dframes k) else dframes k

/-- Write a word and append its mask to the control word. -/
def Frame.put (f : Frame) (wn : ℕ) (mask : BitVec 32) (w : UDiff) : Frame where
  ctrl := (f.ctrl <<< 2) ||| mask
  w := Function.update f.w wn w

/-- Shift and re-fill the difference and minbits buffers. -/
def refill (width pointsPacked : ℕ) (data : ℕ → BitVec 32) (ns : ℕ) (s : PackState) : PackState :=
  let new (k : ℕ) := data (s.ipt + k) - data (s.ipt + k - 1)
  { s with
    diff := fun k =>
      if k < width - pointsPacked then s.diff (k + pointsPacked)
      else if k < width ∧ s.ipt + k < ns then new k else s.diff k
    minbits := fun k =>
      if k < width - pointsPacked then s.minbits (k + pointsPacked)
      else if k < width ∧ s.ipt + k < ns then minbitsOf (new k) else s.minbits k }

/-- The packing loop. Each round packs at least one point. -/
def packLoop (sw : Swapping) (packer : SteimPacker) (data : ℕ → BitVec 32) (ns nf : ℕ) :
    ℕ → PackState → Option PackState
  | 0, s => some s
  | rounds + 1, s =>
    if s.pointsRemaining = 0 then some s
    else
      match packer.packWord s.diff s.minbits s.pointsRemaining with
      | none => none
      | some p =>
        let s := { s with
          dframes := setFrame s.dframes s.fn fun f => f.put s.wn p.mask p.w
          pointsRemaining := s.pointsRemaining - p.pointsPacked
          ipt := s.ipt + p.pointsPacked }
        if s.wn + 1 ≥ valsPerFrame then
          let s := { s with
            dframes := setFrame s.dframes s.fn fun f => { f with ctrl := sw.gswap4 f.ctrl }
            wn := 0
            fn := s.fn + 1 }
          if s.fn ≥ nf then some s
          else packLoop sw packer data ns nf rounds (refill packer.width p.pointsPacked data ns
            { s with dframes := setFrame s.dframes s.fn fun f => { f with ctrl := 0 } })
        else packLoop sw packer data ns nf rounds (refill packer.width p.pointsPacked data ns
          { s with wn := s.wn + 1 })

/-- Write null words from `wn` to the end of a frame. -/
def Frame.padWords (sw : Swapping) (f : Frame) (wn : ℕ) : Frame :=
  let f := (List.range' wn (valsPerFrame - wn)).foldl (fun f wn => f.put wn 0 fun _ => 0) f
  { f with ctrl := sw.gswap4 f.ctrl }

/-- `pad_steim_frame` with padding: the frames of the record, and their number. -/
def padSteimFrame (sw : Swapping) (dframes : ℕ → Frame) (fn wn nf : ℕ) (pad : Bool) :
    (ℕ → Frame) × ℕ :=
  let (dframes, fn) := if wn < valsPerFrame ∧ fn < nf then
      (setFrame dframes fn fun f => f.padWords sw wn, fn + 1)
    else (dframes, fn)
  if pad then
    ((List.range' fn (nf - fn)).foldl (fun dframes fn =>
      setFrame dframes fn fun f => { f with ctrl := 0 }.padWords sw 0) dframes, max fn nf)
  else (dframes, fn)

/-- Set `X0` and `XN` and their masks in the first frame. -/
def initialFrames (sw : Swapping) (dframes : ℕ → Frame) (x0 xn : BitVec 32) : ℕ → Frame :=
  let dframes := setFrame dframes 0 fun f => { f with ctrl := 0 }
  let dframes := setFrame dframes 0 fun f => f.put 0 0 (sw.fw x0)
  setFrame dframes 0 fun f => f.put 1 0 (sw.fw xn)

/-- Update `XN` in the first frame. -/
def updateXN (sw : Swapping) (dframes : ℕ → Frame) (xn : BitVec 32) : ℕ → Frame :=
  setFrame dframes 0 fun f => { f with w := Function.update f.w 1 (sw.fw xn) }

/-- The difference and minbits buffers at the beginning. -/
def initialState (packer : SteimPacker) (dframes : ℕ → Frame) (data : ℕ → BitVec 32)
    (d0 : BitVec 32) (ns : ℕ) : PackState :=
  let diff (i : ℕ) : BitVec 32 :=
    if i = 0 then d0 else if i < packer.width ∧ i < ns then data i - data (i - 1) else 0
  { dframes := dframes
    pointsRemaining := ns
    ipt := 0
    fn := 0
    wn := 2
    diff := diff
    minbits := fun i => minbitsOf (diff i) }

/-- `msr_pack_steim1` and `msr_pack_steim2`: the frames, how many they are and how many samples they
hold; `none` for an error. -/
def msrPackSteim (sw : Swapping) (packer : SteimPacker) (dframes : ℕ → Frame)
    (data : ℕ → BitVec 32) (d0 : BitVec 32) (ns nf : ℕ) (pad : Bool) :
    Option ((ℕ → Frame) × ℕ × ℕ) :=
  let dframes := initialFrames sw dframes (data 0) (data (ns - 1))
  (packLoop sw packer data ns nf ns (initialState packer dframes data d0 ns)).map fun s =>
    let dframes := updateXN sw s.dframes (data (ns - 1 - s.pointsRemaining))
    let (dframes, pnframes) := if s.fn + s.wn = 0 then (dframes, 0)
      else padSteimFrame sw dframes s.fn s.wn nf pad
    (dframes, pnframes, ns - s.pointsRemaining)

/-- The bytes of the frames in memory. -/
def frameByte (sw : Swapping) (dframes : ℕ → Frame) (k : ℕ) : BitVec 8 :=
  let f := dframes (k / 64)
  let word := k % 64 / 4
  (if word = 0 then WordBytes.ofWord sw.bigHost f.ctrl else f.w (word - 1)) (Fin.ofNat 4 k)

/-! ### Decoding -/

/-- `bytesToInt` of four bytes. -/
def bytesToInt (w : UDiff) (swapBytes : Bool) : BitVec 32 :=
  if swapBytes then WordBytes.toWord (w 3) (w 2) (w 1) (w 0)
  else WordBytes.toWord (w 0) (w 1) (w 2) (w 3)

/-- `bytesToInt` of two bytes. -/
def bytesToInt16 (a b : BitVec 8) (swapBytes : Bool) : BitVec 32 :=
  if swapBytes then a.setWidth 32 + (b.signExtend 32 <<< 8)
  else (a.signExtend 32 <<< 8) + b.setWidth 32

/-- The differences of four bytes, `bytesToInt` of each. -/
def byteSamples (w : UDiff) : List (BitVec 32) :=
  [(w 0).signExtend 32, (w 1).signExtend 32, (w 2).signExtend 32, (w 3).signExtend 32]

/-- The differences of a word in Steim 1, by its nibble. -/
def wordSamples1 (swapBytes : Bool) (currNibble : BitVec 32) (w : UDiff) : List (BitVec 32) :=
  if currNibble = 1 then byteSamples w
  else if currNibble = 2 then
    [bytesToInt16 (w 0) (w 1) swapBytes, bytesToInt16 (w 2) (w 3) swapBytes]
  else [bytesToInt w swapBytes]

/-- Differences of equal size: each is shifted to the top and back with its sign. -/
def shiftedSamples (tempInt : BitVec 32) (headerSize diffCount bitSize : ℕ) : List (BitVec 32) :=
  (List.range diffCount).map fun d =>
    (tempInt <<< (headerSize + d * bitSize)).sshiftRight ((diffCount - 1) * bitSize + headerSize)

/-- The differences of a word in Steim 2, by its nibble and the two bits at its top. -/
def wordSamples2 (swapBytes : Bool) (currNibble : BitVec 32) (w : UDiff) : List (BitVec 32) :=
  let tempInt := bytesToInt w swapBytes
  let dnib := tempInt.sshiftRight 30 &&& 3
  if currNibble = 1 then byteSamples w
  else if currNibble = 2 then
    if dnib = 1 then [(tempInt <<< 2).sshiftRight 2]
    else if dnib = 2 then [(tempInt <<< 2).sshiftRight 17, (tempInt <<< 17).sshiftRight 17]
    else if dnib = 3 then
      [(tempInt <<< 2).sshiftRight 22, (tempInt <<< 12).sshiftRight 22,
        (tempInt <<< 22).sshiftRight 22]
    else []
  else
    if dnib = 0 then shiftedSamples tempInt 2 5 6
    else if dnib = 1 then shiftedSamples tempInt 2 6 5
    else if dnib = 2 then shiftedSamples tempInt 4 7 4
    else []

/-- A variant of the decoder: the differences of a word, whether a word without any is kept behind
so many values of the first frame, and the size of the array. -/
structure SteimDecoder where
  wordSamples : Bool → BitVec 32 → UDiff → List (BitVec 32)
  keepHeader : ℕ → Bool
  size : ℕ

def decoder1 : SteimDecoder := ⟨wordSamples1, fun _ => true, 64⟩

def decoder2 : SteimDecoder := ⟨wordSamples2, fun currNum => decide (currNum ≤ 3), 106⟩

/-- Word `i` of the frame at `offset`. -/
def frameWord (bytes : ℕ → BitVec 8) (offset i : ℕ) : UDiff := fun k => bytes (offset + i * 4 + k)

/-- One word of `extractSamples`. -/
def extractWord (dec : SteimDecoder) (bytes : ℕ → BitVec 8) (offset : ℕ) (swapBytes : Bool)
    (temp : List (BitVec 32)) (i : ℕ) : List (BitVec 32) :=
  let nibbles := bytesToInt (frameWord bytes offset 0) swapBytes
  let currNibble := nibbles.sshiftRight (30 - i * 2) &&& 3
  let w := frameWord bytes offset i
  if currNibble = 0 then
    if offset = 0 ∧ dec.keepHeader temp.length = true then temp ++ [bytesToInt w swapBytes]
    else temp
  else temp ++ dec.wordSamples swapBytes currNibble w

/-- `extractSamples`; `none` when the array is too small. -/
def extractSamples (dec : SteimDecoder) (bytes : ℕ → BitVec 8) (offset : ℕ) (swapBytes : Bool) :
    Option (List (BitVec 32)) :=
  let temp := (List.range 16).foldl (extractWord dec bytes offset swapBytes) []
  if temp.length ≤ dec.size then some temp else none

/-- Add differences to the last value until there are `numSamples` samples. -/
def integrate (numSamples : ℕ) : BitVec 32 → List (BitVec 32) → List (BitVec 32) →
    BitVec 32 × List (BitVec 32)
  | lastValue, samples, [] => (lastValue, samples)
  | lastValue, samples, d :: ds =>
    if samples.length < numSamples then
      integrate numSamples (lastValue + d) (samples ++ [lastValue + d]) ds
    else (lastValue, samples)

/-- The variables of `decode` that go from frame to frame; `end` is the value of the last sample
that the first frame gives. -/
structure DecodeState where
  lastValue : BitVec 32
  samples : List (BitVec 32)
  endValue : BitVec 32

/-- The value before the first sample, and the last sample, from the words of the first frame;
`none` when the first frame has not even those. `strict` is Steim 1, which needs a difference. -/
def firstFrame (strict : Bool) (bias : BitVec 32) (temp : List (BitVec 32)) (s : DecodeState) :
    Option DecodeState :=
  match temp with
  | _ :: start :: endValue :: d :: _ =>
    some { s with lastValue := if bias = 0 then start - d else bias, endValue := endValue }
  | [_, _, endValue] =>
    if strict = true ∧ bias = 0 then none
    else some { s with lastValue := bias, endValue := endValue }
  | _ => none

/-- The frames of `Steim2.decode`, from frame `i` on. The arrays that describe the frames have 63
places. -/
def decodeFrames2 (bytes : ℕ → BitVec 8) (numSamples : ℕ) (swapBytes : Bool) (bias : BitVec 32) :
    ℕ → ℕ → DecodeState → Option DecodeState
  | 0, _, s => some s
  | left + 1, i, s => do
    let temp ← extractSamples decoder2 bytes (i * 64) swapBytes
    let s ← if i = 0 then firstFrame false bias temp s else some s
    let result := integrate numSamples s.lastValue s.samples (if i = 0 then temp.drop 3 else temp)
    let s := { s with lastValue := result.1, samples := result.2 }
    if 63 ≤ i then none
    else if numSamples ≤ s.samples.length then some s
    else decodeFrames2 bytes numSamples swapBytes bias left (i + 1) s

/-- The frames of `Steim1.decode`, from frame `i` on. -/
def decodeFrames1 (bytes : ℕ → BitVec 8) (numSamples : ℕ) (swapBytes : Bool) (bias : BitVec 32) :
    ℕ → ℕ → DecodeState → Option DecodeState
  | 0, _, s => some s
  | left + 1, i, s => do
    let temp ← extractSamples decoder1 bytes (i * 64) swapBytes
    let s ← if i = 0 then firstFrame true bias temp s else some s
    let result := integrate numSamples s.lastValue s.samples (if i = 0 then temp.drop 3 else temp)
    decodeFrames1 bytes numSamples swapBytes bias left (i + 1)
      { s with lastValue := result.1, samples := result.2 }

/-- What `decode` returns: the samples, and whether it noted that the last one is not the one the
block gives or that there were too few. -/
structure Decoded where
  samples : List (BitVec 32)
  reverseError : Bool
  sampleCountError : Bool

/-- `Steim2.decode` of a block of so many bytes; `none` for an exception. -/
def decode2 (strictRIC : Bool) (bytes : ℕ → BitVec 8) (length numSamples : ℕ) (swapBytes : Bool)
    (bias : BitVec 32) : Option Decoded :=
  let numFrames := length / 64
  if length % 64 ≠ 0 then none
  else if numSamples = 0 then some ⟨[], false, false⟩
  else if numFrames < 1 ∨ 64 < numFrames then none
  else do
    let s ← decodeFrames2 bytes numSamples swapBytes bias numFrames 0 ⟨0, [], 0⟩
    s.samples.getLast?.map fun last =>
      { samples := s.samples ++ List.replicate (numSamples - s.samples.length) 0
        reverseError := decide (last ≠ s.endValue) && (decide (s.endValue ≠ 0) || strictRIC)
        sampleCountError := decide (s.samples.length ≠ numSamples) }

/-- `Steim1.decode` of a block of so many bytes; `none` for an exception. -/
def decode1 (bytes : ℕ → BitVec 8) (length numSamples : ℕ) (swapBytes : Bool)
    (bias : BitVec 32) : Option (List (BitVec 32)) :=
  if length % 64 ≠ 0 then none
  else do
    let s ← decodeFrames1 bytes numSamples swapBytes bias (length / 64) 0 ⟨0, [], 0⟩
    some (s.samples ++ List.replicate (numSamples - s.samples.length) 0)

end Shake

end StationProcessor
