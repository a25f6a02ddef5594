import StationProcessor.Falcon.FmashDecode

/-!
# The FMash decoder of the web server

The class `Fmash` of `ofcweb/fmash.java`, a second decoder of the messages of `fmash_csv_to_msh`.
A Java `byte` and `int` are signed, and the values of the rows are added up as `long`s.
-/

namespace StationProcessor

namespace Ofcweb

/-- What ends the decoding of a message: `EFmashVersion`, `EFmashDescLen`, or an index behind the
end of an array. -/
inductive FmashException where
  | version
  | descLen
  | indexOutOfBounds
deriving DecidableEq

/-- `FmashRow`. -/
structure FmashRow where
  timestamp : ℤ
  average : ℤ
  high : ℤ
  low : ℤ
deriving DecidableEq

/-- What `Fmash` makes of a message; `description` is the bytes its string is made of. -/
structure Fmash where
  startTime : ℤ
  endTime : ℤ
  numRows : ℕ
  channelId : ℤ
  description : Bytes
  rows : List FmashRow
deriving DecidableEq

/-! ### Numbers -/

/-- The elements of an array from `offset` on. -/
def slice (rawMsh : Bytes) (offset count : ℕ) : Except FmashException Bytes :=
  if rawMsh.length < offset + count then .error .indexOutOfBounds
  else .ok ((rawMsh.drop offset).take count)

/-- `Utility.uBytesToInt` of two bytes, `Utility.uBytesToLong` of four. -/
def uBytesToInt (bytes : Bytes) (swapBytes : Bool) : ℕ :=
  BigEndian.decode (if swapBytes then bytes.reverse else bytes)

/-- `Utility.bytesToInt` of two bytes: the high one is signed. -/
def bytesToInt (bytes : Bytes) (swapBytes : Bool) : ℤ := toShort (uBytesToInt bytes swapBytes)

/-- The next byte, as an `int`. -/
def nextByte : Bytes → Except FmashException (Int32 × Bytes)
  | [] => .error .indexOutOfBounds
  | b :: p => .ok (b.toInt8.toInt32, p)

/-- The end of `_get_varint` at a byte without its high bit: extend the sign. -/
def extended (value result mask : Int32) : ℤ :=
  (if value &&& 0x40 = 0x40 then result ||| mask else result).toInt

/-- `_get_varint`, and the bytes that follow. -/
def getVarint (p : Bytes) : Except FmashException (ℤ × Bytes) := do
  let (value, p) ← nextByte p
  let result := (value >>> 2) &&& 0x1f
  if value &&& 0x80 ≠ 0x80 then return (extended value result 0xffffffe0, p)
  else
    let (value, p) ← nextByte p
    let result := result ||| ((value &&& 0x7f) <<< 5)
    if value &&& 0x80 ≠ 0x80 then return (extended value result 0xfffff000, p)
    else
      let (value, p) ← nextByte p
      let result := result ||| ((value &&& 0x7f) <<< 12)
      if value &&& 0x80 ≠ 0x80 then return (extended value result 0xfff80000, p)
      else
        let (value, p) ← nextByte p
        let result := result ||| ((value &&& 0x7f) <<< 19)
        if value &&& 0x80 ≠ 0x80 then return (extended value result 0xfc000000, p)
        else
          let (value, p) ← nextByte p
          return ((result ||| ((value &&& 0x3f) <<< 26)).toInt, p)

/-- An average, a high and a low, one after the other. -/
def getValues (p : Bytes) : Except FmashException ((ℤ × ℤ × ℤ) × Bytes) := do
  let (average, p) ← getVarint p
  let (high, p) ← getVarint p
  let (low, p) ← getVarint p
  return ((average, high, low), p)

/-- One of the three bytes of a group of the bitmap, as an `int`. -/
def bitmapByte (bitmap : Bytes) (pos : ℕ) : Except FmashException Int32 :=
  match bitmap[pos]? with
  | none => .error .indexOutOfBounds
  | some b => .ok b.toInt8.toInt32

/-- One value of `_get_maps`. -/
def getMap (bitmap : Bytes) (i : ℕ) : Except FmashException UInt8 := do
  let pos := i / 8 * 3
  match i % 8 with
  | 0 => return ((← bitmapByte bitmap pos) &&& 0x07).toUInt32.toUInt8
  | 1 => return (((← bitmapByte bitmap pos) >>> 3) &&& 0x07).toUInt32.toUInt8
  | 2 =>
    return ((((← bitmapByte bitmap pos) >>> 6) &&& (0x03 : Int32)) |||
      (((← bitmapByte bitmap (pos + 1)) <<< 2) &&& 0x04)).toUInt32.toUInt8
  | 3 => return (((← bitmapByte bitmap (pos + 1)) >>> 1) &&& 0x07).toUInt32.toUInt8
  | 4 => return (((← bitmapByte bitmap (pos + 1)) >>> 4) &&& 0x07).toUInt32.toUInt8
  | 5 =>
    return ((((← bitmapByte bitmap (pos + 1)) >>> 7) &&& (0x01 : Int32)) |||
      (((← bitmapByte bitmap (pos + 2)) <<< 1) &&& 0x06)).toUInt32.toUInt8
  | 6 => return (((← bitmapByte bitmap (pos + 2)) >>> 2) &&& 0x07).toUInt32.toUInt8
  | _ => return (((← bitmapByte bitmap (pos + 2)) >>> 5) &&& 0x07).toUInt32.toUInt8

/-- `_get_maps` of the minutes from `i` on. -/
def getMaps (bitmap : Bytes) : ℕ → ℕ → Except FmashException (List UInt8)
  | 0, _ => .ok []
  | k + 1, i => do return (← getMap bitmap i) :: (← getMaps bitmap k (i + 1))

/-! ### The rows -/

/-- The fields of the class that the loop over the rows uses. -/
structure RowState where
  currentTime : ℤ
  average : ℤ
  high : ℤ
  low : ℤ
  p : Bytes
  rows : List FmashRow

/-- The change of a minute with one, two or three changes: only the first one is read. -/
def readChange (s : RowState) : Except FmashException RowState :=
  match s.p with
  | [] => .error .indexOutOfBounds
  | item :: _ =>
    if item &&& 0x3 = UInt8.ofNat typeAverage then do
      let (delta, p) ← getVarint s.p
      return { s with average := s.average + delta, p := p }
    else if item &&& 0x3 = UInt8.ofNat typeHigh then do
      let (delta, p) ← getVarint s.p
      return { s with high := s.high + delta, p := p }
    else if item &&& 0x3 = UInt8.ofNat typeLow then do
      let (delta, p) ← getVarint s.p
      return { s with low := s.low + delta, p := p }
    else return s

/-- A turn of the loop: every minute gives a row. -/
def populateRow (s : RowState) (map : UInt8) : Except FmashException RowState := do
  let s ← if map = 1 ∨ map = 2 ∨ map = 3 then readChange s else pure s
  return { s with
    rows := s.rows ++ [⟨s.currentTime, s.average, s.high, s.low⟩]
    currentTime := s.currentTime + tmMinute }

def populateLoop : List UInt8 → RowState → Except FmashException RowState
  | [], s => .ok s
  | map :: maps, s => do populateLoop maps (← populateRow s map)

/-- The constructor of `Fmash`. -/
def fmash (rawMsh : Bytes) (bBigEndian : Bool) : Except FmashException Fmash := do
  let bSwapBytes := !bBigEndian
  let version := uBytesToInt (← slice rawMsh 0 2) bSwapBytes
  if falconVersion < version % 2 ^ 15 then .error .version
  else
    let startTime := uBytesToInt (← slice rawMsh 2 4) bSwapBytes
    let endTime := uBytesToInt (← slice rawMsh 6 4) bSwapBytes
    let channelId := bytesToInt (← slice rawMsh 10 2) bSwapBytes
    let numRows := uBytesToInt (← slice rawMsh 12 2) bSwapBytes
    let bitmap ← slice rawMsh 14 24
    let descLen := toByte (BigEndian.decode (← slice rawMsh 38 1))
    if descLen < 1 ∨ descLen > 8 then .error .descLen
    else
      let description ← slice rawMsh 39 descLen.toNat
      let p := rawMsh.drop (38 + 1 + descLen.toNat + 1)
      let ((average, high, low), p) ← getValues p
      let maps ← getMaps bitmap numRows 0
      let s ← populateLoop maps ⟨startTime, average, high, low, p, []⟩
      let _ ← getValues s.p
      return ⟨startTime, endTime, numRows, channelId, description, s.rows⟩

end Ofcweb

end StationProcessor
