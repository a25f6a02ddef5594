import StationProcessor.Diskloop.ChannelLists

/-!
# Channel control commands

`ChannelControl` of `archd/archd.c`, which changes the bypass maps of `lib/disklooplib.c`.
-/

namespace StationProcessor

open Decimal

/-! ### Parsing -/

/-- A loop over at most `max` characters of a field: it ends at a dash, and fails at a character
that is not `ok`. -/
def scanField (ok : UInt8 → Bool) : ℕ → Bytes → Option (Bytes × Bytes)
  | 0, ptr => some ([], ptr)
  | _ + 1, [] => none
  | max + 1, c :: ptr =>
    if c = 45 then some ([], c :: ptr)
    else if ok c then (scanField ok max ptr).map fun (field, rest) => (c :: field, rest)
    else none

/-- Step over a separator. -/
def skipDash : Bytes → Option Bytes
  | 45 :: ptr => some ptr
  | _ => none

/-- The message ID: one to eight digits, read by `atoi`. -/
def parseMessageId (ptr : Bytes) : Option (ℤ × Bytes) := do
  let ptr ← skipDash ptr
  let (idString, ptr) ← scanField isDigit 8 ptr
  if idString = [] then none else some (ofDecimal idString, ptr)

/-- The station, location and channel of a command, and what follows their last separator. -/
def parseChannel (ptr : Bytes) : Option (Bytes × Bytes × Bytes × Bytes) := do
  let ptr ← skipDash ptr
  let (station, ptr) ← scanField isAlnum 5 ptr
  let ptr ← skipDash ptr
  let (loc, ptr) ← scanField isAlnum 2 ptr
  let ptr ← skipDash ptr
  let (chan, ptr) ← scanField isAlnum 3 ptr
  let ptr ← skipDash ptr
  return (station, loc, chan, ptr)

/-! ### Commands -/

/-- The commands, each with the map it works on and what it sets there; `none` removes. -/
inductive Command
  | archive (send : Option Bool)
  | ida (send : Option Bool)
deriving DecidableEq

/-- The prefixes a command is recognised by, in the order of the tests. -/
def parseCommand (ptr : Bytes) : Option Command :=
  if ascii "ARCHIVE-DEFAULT" <+: ptr then some (.archive none)
  else if ascii "ARCHIVE-OFF" <+: ptr then some (.archive (some false))
  else if ascii "ARCHIVE-ON" <+: ptr then some (.archive (some true))
  else if ascii "IDA-DEFAULT" <+: ptr then some (.ida none)
  else if ascii "IDA-OFF" <+: ptr then some (.ida (some false))
  else if ascii "IDA-ON" <+: ptr then some (.ida (some true))
  else none

/-- Set or remove an override, with `setResult`: what `DefaultChannel` returned, or whether
`SetChannel` returned the value it was to set. -/
def applyToMap (map : BypassMap) (station chan loc : Bytes) (send : Option Bool) :
    BypassMap × ℤ :=
  match send with
  | none => defaultChannel map station chan loc
  | some send =>
    let (map, result) := setChannel map station chan loc send
    (map, if result = (if send then 1 else 0) then 1 else 0)

def applyCommand (maps : BypassMaps) (station chan loc : Bytes) : Command → BypassMaps × ℤ
  | .archive send =>
    let (map, setResult) := applyToMap maps.channelToArchive station chan loc send
    ({ maps with channelToArchive := map }, setResult)
  | .ida send =>
    let (map, setResult) := applyToMap maps.channelToIda station chan loc send
    ({ maps with channelToIda := map }, setResult)

/-- What `ChannelControl` returns, and what it leaves in `*msgId` and in the maps. -/
structure ChannelResult where
  result : ℤ
  msgId : ℤ
  maps : BypassMaps

/-- `ChannelControl` on a frame, which is longer than any command. -/
def channelControl (maps : BypassMaps) (command : Bytes) (msgId : ℤ) : ChannelResult :=
  match parseMessageId (command.drop 14) with
  | none => ⟨-1, msgId, maps⟩
  | some (id, ptr) =>
    match parseChannel ptr with
    | none => ⟨-1, id, maps⟩
    | some (station, loc, chan, ptr) =>
      match parseCommand ptr with
      | none => ⟨-1, id, maps⟩
      | some cmd =>
        let (maps, setResult) := applyCommand maps station chan loc cmd
        ⟨if setResult > 0 then 1 else 0, id, maps⟩

/-- A command that is applied returns 1, one that finds nothing to remove 0, and one that does
not parse -1. -/
lemma channelControl_result (maps : BypassMaps) (command : Bytes) (msgId : ℤ) :
    (channelControl maps command msgId).result = 1 ∨
      (channelControl maps command msgId).result = 0 ∨
      (channelControl maps command msgId).result = -1 := by
  unfold channelControl
  split
  · exact Or.inr (Or.inr rfl)
  split
  · exact Or.inr (Or.inr rfl)
  split
  · exact Or.inr (Or.inr rfl)
  dsimp only
  split_ifs
  · exact Or.inl rfl
  · exact Or.inr (Or.inl rfl)

/-- A command that does not parse leaves the maps alone. -/
lemma channelControl_maps_of_invalid {maps : BypassMaps} {command : Bytes} {msgId : ℤ}
    (h : (channelControl maps command msgId).result = -1) :
    (channelControl maps command msgId).maps = maps := by
  unfold channelControl at h ⊢
  split
  · rfl
  split
  · rfl
  split
  · rfl
  next hid _ _ _ _ _ hchan _ cmd hcmd =>
    simp only [hid, hchan, hcmd] at h
    split_ifs at h

/-- The message ID a command is answered with does not depend on the one left before. -/
lemma channelControl_msgId {maps : BypassMaps} {command : Bytes} {msgId : ℤ}
    (h : (channelControl maps command msgId).result ≠ -1) (msgId' : ℤ) :
    channelControl maps command msgId' = channelControl maps command msgId := by
  unfold channelControl at h ⊢
  split
  · next hid =>
    simp only [hid, ne_eq, not_true_eq_false] at h
  · rfl

end StationProcessor
