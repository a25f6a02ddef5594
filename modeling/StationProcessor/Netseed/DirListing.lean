import StationProcessor.Diskloop.Transfer
import StationProcessor.Netseed.DirRequest
import StationProcessor.RecordEnd
import StationProcessor.WildMatch

/-!
# Listings of channels

The loop of `cmd_DIRREQ` over the files of a station, which lists those whose name matches the
pattern and which have a record in the interval. `GetRecordRange` is a parameter of it.
-/

namespace StationProcessor.Netseed

open Decimal Fallible Gregorian Wildcard

/-! ### The lines of a listing -/

/-- What a line of the listing says about a channel. -/
structure ChanInfo where
  location : Bytes
  channel : Bytes
  start : CalTime
  finish : CalTime
  count : ℤ
deriving DecidableEq

/-- `%04d/%02d/%02d %02d:%02d:%02d` -/
def calTimeText (t : CalTime) : Bytes :=
  printPadded 4 t.year ++ 47 :: (printPadded 2 t.month ++ 47 :: (printPadded 2 t.day ++
    32 :: (printPadded 2 t.hour ++ 58 :: (printPadded 2 t.minute ++ 58 :: printPadded 2 t.second))))

def ChanInfo.text (info : ChanInfo) : Bytes :=
  info.location ++ 47 :: (info.channel ++ 32 :: (calTimeText info.start ++
    32 :: (calTimeText info.finish ++ 32 :: (printInt info.count ++ [10]))))

/-- The date of a time by `ST_GetJulian2` and `ST_CnvJulToCal2`, with its time of day. -/
def calTime (t : StdTime2) : CalTime :=
  let (outyr, outmon, outday, _) := stCnvJulToCal2 (julday2 t.year 1 t.day)
  ⟨outyr, outmon, outday, t.hour, t.minute, t.second⟩

/-- The end of a record, with a fraction of a second counted as a second. -/
def roundedUp (drfinish : StdTime2) : StdTime2 :=
  if drfinish.tenthMsec > 0 then { drfinish with second := drfinish.second + 1, tenthMsec := 0 }
  else drfinish

/-- The line of a channel, from the headers of the first and the last record. -/
def chanInfo (plat : Platform) (drlocation drchannel headerstart headerfinish : Bytes)
    (iCount : ℤ) : ChanInfo :=
  let iSpanTMSec := spanTenthMsec plat (ntohsAt headerfinish 30) (sampleRateFactor headerfinish)
    (sampleRateMultiplier headerfinish)
  { location := drlocation
    channel := drchannel
    start := calTime (headerStart headerstart)
    finish := calTime (roundedUp (endOfSpan (headerStart headerfinish) iSpanTMSec))
    count := iCount }

/-! ### The loop -/

/-- A file of the station directory, and what can be read from it. -/
structure DirEntry where
  name : Bytes
  content : Option Bytes

/-- What the loop over the directory uses. -/
structure DirSearch where
  plat : Platform
  recordSize : ℕ
  station : Bytes
  rqlocation : Bytes
  rqchannel : Bytes
  rqstart : StdTime2
  rqfinish : StdTime2
  getRecordRange : Bytes → Bytes → Bytes → StdTime2 → StdTime2 → Except String RecordRange

/-- `sizeof(seed_header)` -/
def sizeofSeedHeader : ℕ := 48

/-- Seek to a record and read its header. -/
def readSeedHeader (recordSize : ℕ) (file : Bytes) (index : ℤ) : Option Bytes :=
  let iSeek := (index * recordSize).bmod (2 ^ 32)
  if iSeek < 0 then none
  else
    let header := (file.drop iSeek.toNat).take sizeofSeedHeader
    if header.length < sizeofSeedHeader then none else some header

/-- `drlocation` and `drchannel`. -/
def entryChannel (name : Bytes) : Bytes × Bytes :=
  if name.getD 2 0 = 95 then (name.take 2, (name.drop 3).take 3) else (ascii "  ", name.take 3)

/-- The file ends in `.buf`. -/
def IsBuf (name : Bytes) : Prop := 5 ≤ name.length ∧ name.drop (name.length - 4) = ascii ".buf"

instance : DecidablePred IsBuf := fun _ => inferInstanceAs (Decidable (_ ∧ _))

/-- The part of the body for a channel whose name matches. -/
def checkRange (s : DirSearch) (drlocation drchannel : Bytes) (content : Option Bytes) :
    Except DirreqError (Option ChanInfo) :=
  match s.getRecordRange s.station drchannel drlocation s.rqstart s.rqfinish with
  | .error _ => .error .recordRange
  | .ok range =>
    match content with
    | none => .ok none
    | some file =>
      if range.iCount < 1 then .ok none
      else
        match readSeedHeader s.recordSize file range.iFirst,
          readSeedHeader s.recordSize file range.iLast with
        | some headerstart, some headerfinish =>
          .ok (some (chanInfo s.plat drlocation drchannel headerstart headerfinish range.iCount))
        | _, _ => .ok none

/-- The body of the loop. `WildMatch` finds what `wild` says for patterns that its table holds. -/
def checkEntry (s : DirSearch) (entry : DirEntry) : Except DirreqError (Option ChanInfo) :=
  if IsBuf entry.name then
    let (drlocation, drchannel) := entryChannel entry.name
    if wild.check s.rqlocation drlocation && wild.check s.rqchannel drchannel then
      checkRange s drlocation drchannel entry.content
    else .ok none
  else .ok none

/-- `MAX_CHAN` -/
def maxChan : ℕ := 500

/-- The loop over the directory, with the lines so far. -/
def listChannels (s : DirSearch) : List DirEntry → List ChanInfo →
    Except DirreqError (List ChanInfo)
  | [], chaninfo => .ok chaninfo
  | entry :: entries, chaninfo =>
    if chaninfo.length < maxChan then
      match checkEntry s entry with
      | .error err => .error err
      | .ok none => listChannels s entries chaninfo
      | .ok (some info) => listChannels s entries (chaninfo ++ [info])
    else .ok chaninfo

/-- What `cmd_DIRREQ` works with: the size of a record, the files of each station directory that
can be opened, and `GetRecordRange`. -/
structure DirSource where
  plat : Platform
  recordSize : ℕ
  opendir : Bytes → Option (List DirEntry)
  getRecordRange : Bytes → Bytes → Bytes → StdTime2 → StdTime2 → Except String RecordRange

/-- `cmd_DIRREQ` for the text after its keyword. `stale` is what `rqchannel` holds before. -/
def cmdDirreq (source : DirSource) (stale text : Bytes) :
    Except DirreqError (List ChanInfo) := do
  let (station, rest) := parseRequest 46 text
  if station.length < 3 ∨ station.length > 5 then .error .station
  else
    let (prsbuf, rest) := parseRequest 32 rest
    let (rqlocation, rqchannel) ← parsePattern stale prsbuf
    let entries ← (source.opendir station).elim (.error .directory) .ok
    let (february, rqstart, rest) ← parseLimit source.plat 1950 .startDate .startTime 28 rest
    let (_, rqfinish, _) ← parseLimit source.plat 3000 .finishDate .finishTime february rest
    listChannels
      { plat := source.plat
        recordSize := source.recordSize
        getRecordRange := source.getRecordRange
        station, rqlocation, rqchannel, rqstart, rqfinish } entries []

/-- The strings that are sent, to a client that stays connected. -/
def sentStrings (text : Bytes) : Except DirreqError (List ChanInfo) → List Bytes
  | .error err => [ascii "Error: 1 parsing DIRREQ: " ++ text ++ [10], err.text, ascii "FINISHED\n"]
  | .ok chaninfo => (printInt chaninfo.length ++ ascii " seed channels match: " ++ text ++ [10])
      :: chaninfo.map ChanInfo.text ++ [ascii "FINISHED\n"]

/-- The lines about channels in a reply. -/
def listed : Except DirreqError (List ChanInfo) → List ChanInfo
  | .error _ => []
  | .ok chaninfo => chaninfo

/-! ### The search of a request -/

/-- The station in the name of its directory. -/
def DirRequest.stationId (r : DirRequest) : Bytes := r.station.map toUpper

/-- What a request is searched for with. -/
def DirRequest.search (r : DirRequest) (source : DirSource) (stale : Bytes) : DirSearch where
  plat := source.plat
  recordSize := source.recordSize
  station := r.stationId
  rqlocation := r.location.elim (ascii "  ") (·.map toUpper)
  rqchannel := if r.location.isNone then stale else r.channel.map toUpper
  rqstart := searchedTime 1950 28 r.start
  rqfinish := searchedTime 3000 (nextFebruary 28 r.start) r.finish
  getRecordRange := source.getRecordRange

lemma dash_notMem_toUpper {word : Bytes} (h : 45 ∉ word) : 45 ∉ word.map toUpper := by
  intro hmem
  obtain ⟨b, hb, heq⟩ := List.mem_map.mp hmem
  exact h ((toUpper_eq_iff (by decide) b).mp heq ▸ hb)

/-- The pattern of a valid request is cut into its parts. -/
lemma DirRequest.parsePattern_eq (r : DirRequest) (source : DirSource) (stale : Bytes) :
    parsePattern stale ((r.location.elim [] (· ++ [45]) ++ r.channel).map toUpper)
      = .ok ((r.search source stale).rqlocation, (r.search source stale).rqchannel) := by
  obtain ⟨hlength, -, hdash⟩ := r.hchannel
  have hchannel : 1 ≤ (r.channel.map toUpper).length ∧ (r.channel.map toUpper).length ≤ 3 := by
    rwa [List.length_map]
  have hloc := r.hlocation
  unfold DirRequest.search
  cases hlocation : r.location with
  | none =>
    simp only [Option.elim_none, List.nil_append, Option.isNone_none, if_true]
    exact parsePattern_channel stale (dash_notMem_toUpper (hdash hlocation)) hchannel
  | some loc =>
    obtain ⟨hlen, hnodash, -⟩ := hloc loc hlocation
    have hword : (loc ++ [45] ++ r.channel).map toUpper
        = loc.map toUpper ++ 45 :: r.channel.map toUpper := by
      rw [List.append_assoc, List.map_append]
      rfl
    simp only [Option.elim_some, Option.isNone_some, Bool.false_eq_true, if_false, hword]
    exact parsePattern_location stale (dash_notMem_toUpper hnodash) (by rwa [List.length_map])
      hchannel

/-- A valid request is parsed. -/
lemma cmdDirreq_text (r : DirRequest) {source : DirSource} {entries : List DirEntry}
    (hopen : source.opendir r.stationId = some entries) (stale : Bytes) :
    cmdDirreq source stale r.text = listChannels (r.search source stale) entries [] := by
  obtain ⟨⟨hlow, hhigh⟩, hdot⟩ := r.hstation
  have hstation : ∀ rest, parseRequest 46 (r.station ++ 46 :: rest) = (r.stationId, rest) :=
    fun rest => parseRequest_cons hdot rest
  have hvalid : ¬ (r.stationId.length < 3 ∨ r.stationId.length > 5) := by
    rw [DirRequest.stationId, List.length_map]
    omega
  have hspace : 32 ∉ r.location.elim [] (· ++ [45]) ++ r.channel := by
    have hlocation := r.hlocation
    intro hmem
    rcases List.mem_append.mp hmem with hmem | hmem
    · cases hloc : r.location with
      | none => simp [hloc] at hmem
      | some loc =>
        have hnospace := (hlocation loc hloc).2.2
        simp [hloc, hnospace] at hmem
    · exact r.hchannel.2.1 hmem
  have hpattern : ∀ rest, parseRequest 32 (r.location.elim [] (· ++ [45]) ++ r.channel
      ++ 32 :: rest) = ((r.location.elim [] (· ++ [45]) ++ r.channel).map toUpper, rest) :=
    fun rest => parseRequest_cons hspace rest
  have hstart : ∀ rest, parseLimit source.plat 1950 .startDate .startTime 28
      (limitText r.start ++ 32 :: rest)
        = .ok (nextFebruary 28 r.start, searchedTime 1950 28 r.start, rest) :=
    fun rest => parseLimit_text source.plat (.inl rfl) _ _ le_rfl r.start (.inr ⟨rest, rfl⟩)
  have hfinish : parseLimit source.plat 3000 .finishDate .finishTime (nextFebruary 28 r.start)
      (limitText r.finish) = .ok (nextFebruary (nextFebruary 28 r.start) r.finish,
        searchedTime 3000 (nextFebruary 28 r.start) r.finish, []) := by
    have hparse := parseLimit_text source.plat (.inr rfl) .finishDate .finishTime
      (nextFebruary_ge le_rfl r.start) r.finish (.inl rfl : EndsWord [])
    rwa [List.append_nil] at hparse
  unfold cmdDirreq
  rw [DirRequest.text, requestText, hstation]
  simp only [if_neg hvalid, hpattern, r.parsePattern_eq source stale, hopen, Option.elim_some,
    hstart, ok_bind, hfinish]
  rfl

end StationProcessor.Netseed
