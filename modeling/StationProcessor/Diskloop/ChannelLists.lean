import StationProcessor.Diskloop.ChannelKey

/-!
# Channels that are not archived

The configured lists of channels of `lib/disklooplib.c`, the bypass maps that override them, and
the shortcut maps that keep what was looked up in them. A map is the partial function it stores.
-/

namespace StationProcessor

/-! ### The bypass maps -/

/-- `CHANNEL_NF`, `CHANNEL_OFF` and `CHANNEL_ON`. -/
def channelNf : ℤ := -1
def channelOff : ℤ := 0
def channelOn : ℤ := 1

abbrev BypassMap := Bytes → Option ℤ

/-- `pChannelToArchive` and `pChannelToIDA`. -/
structure BypassMaps where
  channelToArchive : BypassMap
  channelToIda : BypassMap

/-- No channel is listed. -/
def BypassMaps.none : BypassMaps := ⟨fun _ => Option.none, fun _ => Option.none⟩

/-- `SetChannel`: `CHANNEL_ON` or `CHANNEL_OFF` under the key of the channel. -/
def setChannel (map : BypassMap) (station chan loc : Bytes) (send : Bool) : BypassMap × ℤ :=
  let value := if send then 1 else 0
  (Function.update map (makeKey station loc chan) (some value), value)

/-- `DefaultChannel`: remove the key of the channel, and tell whether it was there. -/
def defaultChannel (map : BypassMap) (station chan loc : Bytes) : BypassMap × ℤ :=
  (Function.update map (makeKey station loc chan) none,
    if (map (makeKey station loc chan)).isSome then 1 else 0)

/-- `CheckChannel`: what is set for the channel, from the most specific key on. -/
def checkChannel (map : BypassMap) (station chan loc : Bytes) : ℤ :=
  Option.getD ((map (makeKey station loc chan)).or <|
    (map (makeKey station [] chan)).or <|
    (map (makeKey station loc [])).or <|
    (map (makeKey station [] [])).or <|
    (map (makeKey [] loc chan)).or <|
    (map (makeKey [] [] chan)).or <|
    (map (makeKey [] loc [])).or <|
    map (makeKey [] [] [])) channelNf

/-! ### The configured lists -/

/-- `struct s_bufconfig`, an entry of the configuration. -/
structure BufConfig where
  station : Bytes
  loc : Bytes
  chan : Bytes
  records : ℤ
deriving DecidableEq

/-- The loop over the characters of a station. The names agree up to case and question marks, and
end together where they are short. -/
def stationMatches : ℕ → Bytes → Bytes → Bool
  | 0, _, _ => true
  | k + 1, station, entry =>
    if station.headD 0 = 0 ∧ entry.headD 0 = 0 then true
    else if station.headD 0 = 0 ∨ entry.headD 0 = 0 then false
    else if toUpper (station.headD 0) ≠ toUpper (entry.headD 0) ∧ entry.headD 0 ≠ 63 then false
    else stationMatches k station.tail entry.tail

/-- The loops over the characters of a location and of a channel. -/
def charsMatch (count : ℕ) (name entry : Bytes) : Bool :=
  (List.range count).all fun i =>
    toUpper (name.getD i 0) = toUpper (entry.getD i 0) ∨ entry.getD i 0 = 63

/-- `bMatch` after the three loops. An entry without a station or location is for all of them. -/
def BufConfig.covers (entry : BufConfig) (station chan loc : Bytes) : Bool :=
  (entry.station.headD 0 = 0 ∨ stationMatches 5 station entry.station) ∧
    (entry.loc.headD 0 = 0 ∨ charsMatch 2 loc entry.loc) ∧ charsMatch 3 chan entry.chan

/-- `CheckChannelList`, with the last entry that matches. -/
def checkChannelList (station chan loc : Bytes) (list : List BufConfig) : Option BufConfig :=
  list.foldl (fun entry ptr => if ptr.covers station chan loc then some ptr else entry) none

/-! ### The maps and lists of the two targets -/

/-- What the overrides and checks are about: the archive, or the IDA disk loop. -/
inductive Target
  | archive | ida
deriving DecidableEq

/-- `parse_state` and the lists `pNoArchiveList`, `pNoIDAList` and `pChanSizeList`. -/
structure ChannelLists where
  parseState : ℤ
  noArchiveList : List BufConfig
  noIdaList : List BufConfig
  chanSizeList : List BufConfig

def ChannelLists.of (lists : ChannelLists) : Target → List BufConfig
  | .archive => lists.noArchiveList
  | .ida => lists.noIdaList

/-- The bypass maps and the shortcut maps. -/
structure ListMaps where
  bypass : BypassMaps
  noArchiveShortcut : Bytes → Option ℤ
  noIdaShortcut : Bytes → Option ℤ
  chanSizeShortcut : Bytes → Option BufConfig

/-- The maps when the configuration was parsed. -/
def ListMaps.new : ListMaps := ⟨BypassMaps.none, fun _ => none, fun _ => none, fun _ => none⟩

def ListMaps.bypassOf (maps : ListMaps) : Target → BypassMap
  | .archive => maps.bypass.channelToArchive
  | .ida => maps.bypass.channelToIda

def ListMaps.setBypass (maps : ListMaps) (map : BypassMap) : Target → ListMaps
  | .archive => { maps with bypass := { maps.bypass with channelToArchive := map } }
  | .ida => { maps with bypass := { maps.bypass with channelToIda := map } }

def ListMaps.shortcutOf (maps : ListMaps) : Target → Bytes → Option ℤ
  | .archive => maps.noArchiveShortcut
  | .ida => maps.noIdaShortcut

def ListMaps.setShortcut (maps : ListMaps) (shortcut : Bytes → Option ℤ) : Target → ListMaps
  | .archive => { maps with noArchiveShortcut := shortcut }
  | .ida => { maps with noIdaShortcut := shortcut }

@[simp] lemma bypassOf_setBypass (maps : ListMaps) (map : BypassMap) (target target' : Target) :
    (maps.setBypass map target).bypassOf target'
      = if target = target' then map else maps.bypassOf target' := by
  cases target <;> cases target' <;> rfl

@[simp] lemma shortcutOf_setBypass (maps : ListMaps) (map : BypassMap) (target target' : Target) :
    (maps.setBypass map target).shortcutOf target' = maps.shortcutOf target' := by
  cases target <;> cases target' <;> rfl

@[simp] lemma chanSizeShortcut_setBypass (maps : ListMaps) (map : BypassMap) (target : Target) :
    (maps.setBypass map target).chanSizeShortcut = maps.chanSizeShortcut := by
  cases target <;> rfl

@[simp] lemma bypassOf_setShortcut (maps : ListMaps) (shortcut : Bytes → Option ℤ)
    (target target' : Target) :
    (maps.setShortcut shortcut target).bypassOf target' = maps.bypassOf target' := by
  cases target <;> cases target' <;> rfl

@[simp] lemma shortcutOf_setShortcut (maps : ListMaps) (shortcut : Bytes → Option ℤ)
    (target target' : Target) : (maps.setShortcut shortcut target).shortcutOf target'
      = if target = target' then shortcut else maps.shortcutOf target' := by
  cases target <;> cases target' <;> rfl

@[simp] lemma chanSizeShortcut_setShortcut (maps : ListMaps) (shortcut : Bytes → Option ℤ)
    (target : Target) : (maps.setShortcut shortcut target).chanSizeShortcut
      = maps.chanSizeShortcut := by
  cases target <;> rfl

/-! ### Overrides -/

def setChannelTo (target : Target) (maps : ListMaps) (station chan loc : Bytes) (send : Bool) :
    ℤ × ListMaps :=
  let (map, value) := setChannel (maps.bypassOf target) station chan loc send
  (value, maps.setBypass map target)

/-- `SetChannelToArchive`. -/
def setChannelToArchive := setChannelTo .archive

/-- `SetChannelToIDA`. -/
def setChannelToIda := setChannelTo .ida

def defaultChannelTo (target : Target) (maps : ListMaps) (station chan loc : Bytes) :
    ℤ × ListMaps :=
  let (map, removed) := defaultChannel (maps.bypassOf target) station chan loc
  (removed, maps.setBypass map target)

/-- `DefaultChannelToArchive`. -/
def defaultChannelToArchive := defaultChannelTo .archive

/-- `DefaultChannelToIDA`. -/
def defaultChannelToIda := defaultChannelTo .ida

/-! ### Checks -/

/-- What the two checks do with the map, the shortcut and the list of their target. -/
def checkNo (target : Target) (lists : ChannelLists) (maps : ListMaps)
    (station chan loc : Bytes) : ℤ × ListMaps :=
  if lists.parseState = 0 then (0, maps)
  else
    let bypass := checkChannel (maps.bypassOf target) station chan loc
    if bypass = channelNf then
      let key := makeKey station loc chan
      match maps.shortcutOf target key with
      | none =>
        let bFound := (checkChannelList station chan loc (lists.of target)).isSome
        let state := if bFound then channelOff else channelOn
        (if bFound then 1 else 0,
          maps.setShortcut (Function.update (maps.shortcutOf target) key (some state)) target)
      | some state => (if state = channelOff then 1 else 0, maps)
    else (if bypass = channelOff then 1 else 0, maps)

/-- `CheckNoArchive`. -/
def checkNoArchive := checkNo .archive

/-- `CheckNoIDA`. -/
def checkNoIda := checkNo .ida

/-- The error where no entry matches. -/
def noBufferError (chan loc : Bytes) : String :=
  "NumChanRecords: No Buffer: entries matching " ++ textOf loc ++ "/" ++ textOf chan

/-- `NumChanRecords`. -/
def numChanRecords (lists : ChannelLists) (maps : ListMaps) (station chan loc : Bytes) :
    Except String ℤ × ListMaps :=
  if lists.parseState = 0 then
    (.error "NumChanRecords: ParseDiskLoopConfig not run yet", maps)
  else
    match maps.chanSizeShortcut (makeKey station loc chan) with
    | some entry => (.ok entry.records, maps)
    | none =>
      match checkChannelList station chan loc lists.chanSizeList with
      | none => (.error (noBufferError chan loc), maps)
      | some entry =>
        (.ok entry.records, { maps with
          chanSizeShortcut :=
            Function.update maps.chanSizeShortcut (makeKey station loc chan) (some entry) })

/-! ### Calls -/

/-- The calls, those for the two targets as one. -/
inductive ListCall
  | setChannelTo (target : Target) (x : ChannelName) (send : Bool)
  | defaultChannelTo (target : Target) (x : ChannelName)
  | checkNo (target : Target) (x : ChannelName)
  | numChanRecords (x : ChannelName)

/-- What a call returns. -/
inductive ListAnswer
  | flag (value : ℤ)
  | records (result : Except String ℤ)

/-- A call on the maps. -/
def ListCall.run (lists : ChannelLists) (maps : ListMaps) : ListCall → ListAnswer × ListMaps
  | .setChannelTo target x send =>
    let (value, maps) :=
      StationProcessor.setChannelTo target maps x.station x.channel x.location send
    (.flag value, maps)
  | .defaultChannelTo target x =>
    let (removed, maps) :=
      StationProcessor.defaultChannelTo target maps x.station x.channel x.location
    (.flag removed, maps)
  | .checkNo target x =>
    let (bFound, maps) :=
      StationProcessor.checkNo target lists maps x.station x.channel x.location
    (.flag bFound, maps)
  | .numChanRecords x =>
    let (result, maps) :=
      StationProcessor.numChanRecords lists maps x.station x.channel x.location
    (.records result, maps)

def mapsAfter (lists : ChannelLists) (calls : List ListCall) : ListMaps :=
  calls.foldl (fun maps call => (call.run lists maps).2) ListMaps.new

end StationProcessor
