import StationProcessor.Falcon.Fmash

/-!
# Opaque SEED records

`MakeOpaqueSeed` and `AppendOpaqueSeed` of `falcon/seedmsg.c`, and `QueueOpaque` and `FlushOpaque`
of `falcon/falcon.c`. A record holds a header, a blockette 1000 and then blockettes 2000, each of
which names the offset of the next one. A message that does not fit into one record is cut.
-/

namespace StationProcessor

open Decimal

/-! ### Blockettes -/

/-- The number in the two bytes at offset `i`. -/
def shortAt (bs : Bytes) (i : ℕ) : ℕ := BigEndian.decode ((bs.drop i).take 2)

/-- A `blockette_2000` with what follows its fixed part. -/
structure Blockette where
  recordNumber : ℤ
  flags : UInt8
  headerFields : UInt8
  header : Bytes
  data : Bytes
deriving DecidableEq

namespace Blockette

/-- `data_offset`. -/
def dataOffset (b : Blockette) : ℕ := 15 + b.header.length

/-- `data_record_length`. -/
def size (b : Blockette) : ℕ := b.dataOffset + b.data.length

/-- The bytes of a blockette, with the offset of the next one. -/
def toBytes (b : Blockette) (next : ℕ) : Bytes :=
  htons 2000 ++ (htons next ++ (htons b.size ++ (htons b.dataOffset ++ (htonl b.recordNumber ++
    ([1, b.flags, b.headerFields] ++ (b.header ++ b.data))))))

end Blockette

/-- A `blockette_1000`, which a blockette 2000 follows. -/
def blockette1000 (recordLengthCode : UInt8) : Bytes :=
  htons 1000 ++ (htons 56 ++ [0, 1, recordLengthCode, 0])

/-! ### The header -/

/-- The fields of `gmtime_r` in a header. -/
structure Utc where
  year : ℕ
  day : ℕ
  hour : ℕ
  minute : ℕ
  second : ℕ
deriving DecidableEq

/-- What all messages of falcon are sent with. -/
structure OpaqueName where
  station : CString
  network : CString
  location : CString
  idstring : CString
deriving DecidableEq

/-- A name in a field of blanks. -/
def nameField (width : ℕ) (name : CString) : Bytes := (name.val.take width).rightpad width 32

/-- The header before the number of blockettes. The sample rate multiplier is not in network
order. -/
def headerFront (seqno : ℕ) (name : OpaqueName) (channel : CString) (utc : Utc) : Bytes :=
  (natToDecimal (seqno % 1000000)).leftpad 6 48 ++ ([68, 32] ++ (nameField 5 name.station ++
    (nameField 2 name.location ++ (nameField 3 channel ++ (nameField 2 name.network ++
    (htons utc.year ++ (htons utc.day ++ ([utc.hour.toUInt8, utc.minute.toUInt8,
    utc.second.toUInt8, 0] ++ (htons 0 ++ (htons 0 ++ (htons 0 ++ ([1, 0] ++ [0, 0, 0]))))))))))))

/-- The header after the number of blockettes. -/
def headerBack : Bytes := [0, 0, 0, 0] ++ (htons 0 ++ htons 48)

/-! ### `MakeOpaqueSeed` -/

/-- Why no message is made. `noRoom` and `noRecord` are not the code's: it would divide by zero or
by a negative number, or append to a record it does not have. -/
inductive OpaqueError where
  | noRoom
  | malloc
  | recordLength
  | idstring
  | noRecord
deriving DecidableEq

/-- `iFreeSpace`, what is left of a record for the data. -/
def freeSpace (recordSize : ℕ) (idstring : CString) : ℕ :=
  recordSize - 48 - 8 - 15 - idstring.val.length

/-- How many records the data takes. -/
def numRecords (dataLength free : ℕ) : ℕ := (dataLength + free - 1) / free

/-- `iRecordLengthCode`. -/
def recordLengthCode (recordSize : ℕ) : Option UInt8 :=
  match recordSize with
  | 256 => some 8
  | 512 => some 9
  | 1024 => some 10
  | 2048 => some 11
  | 4096 => some 12
  | 8192 => some 13
  | _ => none

/-- `data_flags` of record `i` of `count`. -/
def dataFlags (count i : ℕ) : UInt8 :=
  if count > 1 then
    if i = 0 then 0x10
    else if i + 1 < count then 0x30
    else 0x20
  else 0x00

/-- `number_header_fields`, a byte. -/
def headerFields (idstring : CString) : UInt8 := UInt8.ofNat (idstring.val.count 126)

/-- The header fields are copied if their number is not negative as a `char`. -/
def headerField (idstring : CString) : Bytes :=
  if toByte (headerFields idstring).toNat > 0 then idstring.val
  else List.replicate idstring.val.length 0

/-- The part of the data in record `i`. -/
def dataPart (data : Bytes) (free count i : ℕ) : Bytes :=
  if i + 1 < count then (data.drop (i * free)).take free else data.drop (i * free)

/-- The blockette 2000 of record `i`. -/
def opaqueBlockette (multi : ℕ) (data : Bytes) (idstring : CString) (free count i : ℕ) :
    Blockette where
  recordNumber := if count > 1 then multi else 0
  flags := dataFlags count i
  headerFields := headerFields idstring
  header := headerField idstring
  data := dataPart data free count i

/-- A record with one blockette 2000, over memory set to zero. -/
def opaqueRecord (front : Bytes) (code : UInt8) (b : Blockette) (recordSize : ℕ) : Bytes :=
  (front ++ ([2] ++ (headerBack ++ (blockette1000 code ++ b.toBytes 0)))).rightpad recordSize 0

/-- `MakeOpaqueSeed`, with `iMultiRecordSeqNo` before and after. What has a size that is no `int`
cannot be allocated. -/
def makeOpaqueSeed (multi : ℕ) (data : Bytes) (seqno : ℕ) (name : OpaqueName) (channel : CString)
    (recordSize : ℕ) (now : ℕ → Utc) : Except OpaqueError (ℕ × List Bytes) :=
  let free := freeSpace recordSize name.idstring
  if free = 0 then .error .noRoom
  else
    let count := numRecords data.length free
    if recordSize * count ≥ 2 ^ 31 then .error .malloc
    else
      let multi := if count > 1 then multi + 1 else multi
      if count = 0 then .ok (multi, [])
      else match recordLengthCode recordSize with
        | none => .error .recordLength
        | some code =>
          if ∃ b ∈ name.idstring.val.getLast?, b ≠ 126 then .error .idstring
          else
            .ok (multi, (List.range count).map fun i =>
              opaqueRecord (headerFront seqno name channel (now i)) code
                (opaqueBlockette multi data name.idstring free count i) recordSize)

/-! ### `AppendOpaqueSeed` -/

/-- Overwrite the bytes from offset `i` on. -/
def writeAt (bs : Bytes) (i : ℕ) (src : Bytes) : Bytes :=
  bs.take i ++ src ++ bs.drop (i + src.length)

/-- The loop of `AppendOpaqueSeed` over `count` blockettes: the offset of the last one, and that of
one after it. `none` is a blockette that is no blockette 2000, or a record without any, which the
code would write to anywhere. -/
def appendIndex (record : Bytes) : ℕ → ℕ → Option (ℕ × ℕ)
  | 0, _ => none
  | count + 1, i =>
    if shortAt (record.drop i) 0 ≠ 2000 then none
    else if count = 0 then some (i, (i + shortAt (record.drop i) 4 + 3) / 4 * 4)
    else appendIndex record count (shortAt (record.drop i) 2)

/-- `AppendOpaqueSeed`: the record with one more blockette, if it was appended. -/
def appendOpaqueSeed (record data : Bytes) (recordSize : ℕ) : Option Bytes :=
  let count := record.getD 39 0
  let b1000 := record.drop (shortAt record 46)
  if count = 0 then none
  else if shortAt b1000 0 ≠ 1000 then none
  else if count.toNat ≥ 127 then none
  else match appendIndex record (count.toNat - 1) (shortAt b1000 2) with
    | none => none
    | some (last, i) =>
      if recordSize < i + (data.length + 15) then none
      else
        let record := writeAt record 39 [count + 1]
        let record := writeAt record (last + 2) (htons i)
        let record := writeAt record i (htons 2000 ++ (htons 0 ++ (htons (15 + data.length) ++
          (htons 15 ++ (htonl 0 ++ [1, 0x00])))))
        let record := writeAt record (i + 15) [0]
        some (writeAt record (i + 15) data)

/-! ### `QueueOpaque` -/

/-- The static variables of `falcon.c` and `seedmsg.c`, and the records sent to archd. `pending` is
`none` where `seedRecordBuf` is null. -/
structure OpaqueQueue where
  lastChan : CString
  pending : Option (List Bytes)
  seqno : ℕ
  multi : ℕ
  sent : List Bytes

/-- The static variables at first. -/
def opaqueQueueInit : OpaqueQueue := ⟨⟨[], zero_notMem_nil⟩, none, 0, 0, []⟩

/-- `FlushOpaque`, where every record is sent. -/
def flushOpaque (q : OpaqueQueue) : OpaqueQueue :=
  { q with sent := q.sent ++ q.pending.getD [], pending := none }

/-- A call of `QueueOpaque`, with the times at which records are made. -/
structure OpaqueCall where
  data : Bytes
  channel : CString
  now : ℕ → Utc

/-- The last part of `QueueOpaque`, where there is no buffer. -/
def createOpaque (name : OpaqueName) (recordSize : ℕ) (q : OpaqueQueue) (call : OpaqueCall) :
    Except OpaqueError OpaqueQueue := do
  let (multi, records) ← makeOpaqueSeed q.multi call.data (q.seqno + 1) name call.channel
    recordSize call.now
  let q := { q with seqno := q.seqno + 1, multi := multi, pending := some records }
  if records.length > 1 then return flushOpaque q
  else return q

/-- `QueueOpaque`. What it does after a message that could not be made is left out. -/
def queueOpaque (name : OpaqueName) (recordSize : ℕ) (q : OpaqueQueue) (call : OpaqueCall) :
    Except OpaqueError OpaqueQueue :=
  let q :=
    if q.lastChan ≠ call.channel then flushOpaque { q with lastChan := call.channel } else q
  match q.pending with
  | none => createOpaque name recordSize q call
  | some [] => .error .noRecord
  | some (record :: records) =>
    match appendOpaqueSeed record call.data recordSize with
    | some record => .ok { q with pending := some (record :: records) }
    | none => createOpaque name recordSize (flushOpaque q) call

end StationProcessor
