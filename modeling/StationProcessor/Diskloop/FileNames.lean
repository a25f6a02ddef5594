import StationProcessor.Diskloop.ChannelKey
import StationProcessor.Diskloop.Open

/-!
# Names of disk loops

`adl_open` of `lib/disklooplib.c` looks a channel up by the key that `MakeKey` makes of its name,
and opens the files that `DiskloopFileName` names. The two should agree on which channels are the
same. The map `pDiskLoops` is the partial function it stores.
-/

namespace StationProcessor

variable {n : ℕ}

/-! ### File names -/

/-- `struct s_mapstation`, an entry of the configuration that renames a station. -/
structure MapStation where
  stationQ330 : Bytes
  station : Bytes
deriving DecidableEq

/-- What follows the first dash, or the whole name where there is none. -/
def behindDash (station : Bytes) : Bytes :=
  match station.dropWhile (· != 45) with
  | [] => station
  | _ :: rest => rest

/-- `StripNetworkID` with the list `pMapStationList`. The map `pMapStationShortcut` is never
created, so it is always searched in vain. -/
def stripNetworkID (mapStations : List MapStation) (station : Bytes) : Bytes :=
  let retstation := behindDash station
  match mapStations.find? fun m => m.stationQ330 = retstation with
  | some m => m.station
  | none => retstation

/-- The test `*t > 31` of a `char`. -/
def isPathChar (b : UInt8) : Bool := 31 < b && b < 128

/-- The static variables that names depend on, and `NumChanRecords`. -/
structure LoopNames where
  loopDir : Bytes
  mapStations : List MapStation
  numChanRecords : Bytes → Bytes → Bytes → Except String ℤ

/-- `DiskloopFileName`. -/
def diskloopFileName (names : LoopNames) (station location channel suffix : Bytes) : Bytes :=
  names.loopDir.takeWhile isPathChar ++ 47 :: codeOf (stripNetworkID names.mapStations station)
    ++ 47 :: (if codeOf location = [] then [] else codeOf location ++ [95])
    ++ codeOf channel ++ suffix.takeWhile isPathChar

/-- Two file names with one suffix are equal when the codes of the parts are. -/
lemma diskloopFileName_eq_iff (names : LoopNames)
    (station location channel station' location' channel' suffix : Bytes) :
    diskloopFileName names station location channel suffix
        = diskloopFileName names station' location' channel' suffix ↔
      codeOf (stripNetworkID names.mapStations station)
          = codeOf (stripNetworkID names.mapStations station') ∧
        codeOf location = codeOf location' ∧ codeOf channel = codeOf channel' := by
  have hslash : isAlnum 47 = false := by decide
  have hscore : isAlnum 95 = false := by decide
  unfold diskloopFileName
  rw [List.append_left_inj]
  simp only [List.append_assoc, List.cons_append]
  rw [List.append_right_inj, List.cons_inj_right,
    append_separator_inj (notMem_codeOf hslash _) (notMem_codeOf hslash _)]
  refine and_congr_right fun _ => ?_
  -- the underscore tells a location from the start of a channel
  by_cases hloc : codeOf location = [] <;> by_cases hloc' : codeOf location' = []
  · simp [hloc, hloc']
  · simp only [hloc, hloc', if_true, if_false, List.nil_append, List.append_assoc,
      List.cons_append]
    constructor
    · intro h
      exact absurd (h ▸ List.mem_append_right _ List.mem_cons_self) (notMem_codeOf hscore channel)
    · intro h
      exact absurd h.1.symm hloc'
  · simp only [hloc, hloc', if_true, if_false, List.nil_append, List.append_assoc,
      List.cons_append]
    constructor
    · intro h
      exact absurd (h ▸ List.mem_append_right _ List.mem_cons_self) (notMem_codeOf hscore channel')
    · intro h
      exact h.1.elim
  · simp only [hloc, hloc', if_false, List.append_assoc, List.cons_append, List.nil_append]
    exact append_separator_inj (notMem_codeOf hscore _) (notMem_codeOf hscore _)

/-! ### Names that agree -/

def ChannelName.fileName (x : ChannelName) (names : LoopNames) (suffix : Bytes) : Bytes :=
  diskloopFileName names x.station x.location x.channel suffix

/-- Two names of different locations or channels; or their stations agree behind the first
separator exactly where they agree behind the first dash, when they are renamed. -/
def Consistent (mapStations : List MapStation) (x y : ChannelName) : Prop :=
  codeOf x.location ≠ codeOf y.location ∨ codeOf x.channel ≠ codeOf y.channel ∨
    (codeOf (behindSeparator x.station) = codeOf (behindSeparator y.station) ↔
      codeOf (stripNetworkID mapStations x.station)
        = codeOf (stripNetworkID mapStations y.station))

instance (mapStations : List MapStation) (x y : ChannelName) :
    Decidable (Consistent mapStations x y) := inferInstanceAs (Decidable (_ ∨ _ ∨ _))

lemma key_eq_iff_fileName (names : LoopNames) (suffix : Bytes) (x y : ChannelName) :
    (x.key = y.key ↔ x.fileName names suffix = y.fileName names suffix) ↔
      Consistent names.mapStations x y := by
  unfold ChannelName.key ChannelName.fileName Consistent
  rw [makeKey_eq_iff, diskloopFileName_eq_iff]
  by_cases hloc : codeOf x.location = codeOf y.location
  · by_cases hchan : codeOf x.channel = codeOf y.channel
    · simp [hloc, hchan]
    · simp [hchan]
  · simp [hloc]

/-- In a plain name no other separator stands before the dash, and no entry of the configuration
renames what follows it. -/
def Plain (mapStations : List MapStation) (station : Bytes) : Prop :=
  behindSeparator station = behindDash station ∧
    ∀ m ∈ mapStations, m.stationQ330 ≠ behindDash station

/-- Plain names agree. -/
lemma Plain.consistent {mapStations : List MapStation} {x y : ChannelName}
    (hx : Plain mapStations x.station) (hy : Plain mapStations y.station) :
    Consistent mapStations x y := by
  have hstrip : ∀ {station : Bytes}, Plain mapStations station →
      stripNetworkID mapStations station = behindSeparator station := by
    intro station h
    have hfind : mapStations.find? (fun m => m.stationQ330 = behindDash station) = none := by
      rw [List.find?_eq_none]
      intro m hm
      simpa using h.2 m hm
    simp only [stripNetworkID, hfind, h.1]
  apply Or.inr
  apply Or.inr
  rw [hstrip hx, hstrip hy]

/-! ### Open contexts -/

/-- What `adl_open` derives from a name. -/
def ChannelName.files (x : ChannelName) (names : LoopNames) : Channel where
  loopName := textOf (x.fileName names (ascii ".buf"))
  indexName := textOf (x.fileName names (ascii ".idx"))
  numChanRecords := names.numChanRecords x.station x.channel x.location

/-- `pDiskLoops`. -/
abbrev DiskLoops (n : ℕ) := Bytes → Option (DiskloopContext n)

/-- What a call finds: the files of its channel, the memory `adl_open` compares with, and what
`adl_write` meets. -/
structure CallEnv where
  files : ChannelFiles
  tempB : Bytes
  write : WriteEnv

/-- Calls of the library for a channel. -/
inductive LoopCall (n : ℕ)
  | adlOpen (env : CallEnv)
  | writeChan (env : CallEnv) (databuf : Record n)
  | adlClose

/-- A call: `adl_open` adds the context it creates to the map, `adl_close` removes it. -/
def LoopCall.run (cfg : Config n) (names : LoopNames) (loops : DiskLoops n) (x : ChannelName) :
    LoopCall n → DiskLoops n
  | .adlOpen env =>
    match (StationProcessor.adlOpen cfg (x.files names) (loops x.key) env.files env.tempB).1 with
    | .error _ => loops
    | .ok ctx => Function.update loops x.key (some ctx)
  | .writeChan env databuf =>
    Function.update loops x.key (StationProcessor.writeChan cfg (x.files names) (loops x.key)
      env.files env.tempB env.write databuf).2.1
  | .adlClose => Function.update loops x.key none

def runCalls (cfg : Config n) (names : LoopNames) (calls : List (ChannelName × LoopCall n)) :
    DiskLoops n :=
  calls.foldl (fun loops call => call.2.run cfg names loops call.1) fun _ => none

/-! ### A context keeps its names -/

/-- Two contexts on the same files. -/
def SameNames (a b : DiskloopContext n) : Prop :=
  a.loopName = b.loopName ∧ a.indexName = b.indexName

lemma recoverIndex_names {cfg : Config n} {ctx ctx' : DiskloopContext n} {tempB : Bytes}
    (h : recoverIndex cfg ctx tempB = .ok ctx') : SameNames ctx' ctx := by
  unfold recoverIndex at h
  dsimp only at h
  generalize (if ctx.index ≥ ctx.capacity then 0 else ctx.index) = first at h
  generalize (if first + 1 ≥ ctx.capacity then 0 else first + 1) = second at h
  cases hfirst : adlRead ctx first with
  | error e => simp [hfirst] at h
  | ok tempA =>
    cases hsecond : adlRead ctx second with
    | error e => simp [hfirst, hsecond] at h
    | ok r =>
      simp only [hfirst, hsecond] at h
      split_ifs at h
      · cases h
        exact ⟨rfl, rfl⟩
      · cases h
        exact ⟨rfl, rfl⟩

lemma locateCurrent_names {cfg : Config n} {ctx ctx' : DiskloopContext n} {tempB : Bytes}
    (h : locateCurrent cfg ctx tempB = .ok ctx') : SameNames ctx' ctx := by
  unfold locateCurrent at h
  dsimp only at h
  split_ifs at h
  · cases h
    exact ⟨rfl, rfl⟩
  · exact recoverIndex_names h
  · cases h
    exact ⟨rfl, rfl⟩

lemma loadLast_names {cfg : Config n} {ctx ctx' : DiskloopContext n}
    (h : loadLast cfg ctx = .ok ctx') : SameNames ctx' ctx := by
  unfold loadLast at h
  split at h
  · cases h
  · cases h
    exact ⟨rfl, rfl⟩

/-- A context that is created has the names of its channel. -/
lemma openContext_names {cfg : Config n} {ch : Channel} {buf idx tempB : Bytes}
    {ctx : DiskloopContext n} (h : openContext cfg ch buf idx tempB = .ok ctx) :
    ctx.loopName = ch.loopName ∧ ctx.indexName = ch.indexName := by
  unfold openContext at h
  split at h
  · cases h
  split_ifs at h
  next index capacity _ _ =>
    cases hlocate : locateCurrent cfg (rawContext ch buf idx index capacity) tempB with
    | error e =>
      rw [hlocate] at h
      cases h
    | ok ctx₁ =>
      rw [hlocate] at h
      obtain ⟨hloop, hindex⟩ := locateCurrent_names hlocate
      obtain ⟨hloop', hindex'⟩ := loadLast_names h
      exact ⟨hloop'.trans hloop, hindex'.trans hindex⟩

lemma flushIfDue_names (env : WriteEnv) (ctx : DiskloopContext n) :
    SameNames (flushIfDue env ctx) ctx := by
  unfold flushIfDue adlWriteIndex adlFlush
  dsimp only
  split_ifs <;> exact ⟨rfl, rfl⟩

lemma adlWrite_names (cfg : Config n) (env : WriteEnv) (ctx : DiskloopContext n) (index : ℤ)
    (r : Record n) : SameNames (adlWrite cfg env ctx index r).2 ctx := by
  unfold adlWrite
  dsimp only
  generalize (if index < 0 then if ctx.index + 1 ≥ ctx.capacity then 0 else ctx.index + 1
    else index) = newIndex
  split_ifs
  · exact ⟨rfl, rfl⟩
  · exact ⟨rfl, rfl⟩
  · exact ⟨rfl, rfl⟩
  · exact flushIfDue_names env (ctx.stored cfg newIndex r)

/-! ### Runs -/

/-- The context of a channel is on the files of the channel. -/
def OnFiles (names : LoopNames) (x : ChannelName) (ctx : DiskloopContext n) : Prop :=
  ctx.loopName = (x.files names).loopName ∧ ctx.indexName = (x.files names).indexName

/-- No two open contexts are on one file, and the context of each of these channels, if it is
open, is on the files of the channel. -/
structure LoopsApart (names : LoopNames) (xs : List ChannelName) (loops : DiskLoops n) : Prop where
  apart : ∀ key key' ctx ctx', loops key = some ctx → loops key' = some ctx' →
    ctx.loopName = ctx'.loopName ∨ ctx.indexName = ctx'.indexName → key = key'
  shared : ∀ x ∈ xs, ∀ ctx, loops x.key = some ctx → OnFiles names x ctx

/-- Each open context was opened for one of these channels. -/
def OpenedBy (names : LoopNames) (xs : List ChannelName) (loops : DiskLoops n) : Prop :=
  ∀ key ctx, loops key = some ctx → ∃ x ∈ xs, x.key = key ∧ OnFiles names x ctx

/-- A new or a cached context is on the files of a channel with its key. -/
lemma adlOpen_opened {cfg : Config n} {names : LoopNames} {xs : List ChannelName}
    {loops : DiskLoops n} (h : OpenedBy names xs loops) {x : ChannelName} (hx : x ∈ xs)
    {env : CallEnv} {ctx : DiskloopContext n} {files : ChannelFiles}
    (hopen : adlOpen cfg (x.files names) (loops x.key) env.files env.tempB = (.ok ctx, files)) :
    ∃ y ∈ xs, y.key = x.key ∧ OnFiles names y ctx := by
  unfold adlOpen at hopen
  by_cases hparse : cfg.parseState = 0
  · rw [if_pos hparse] at hopen
    cases hopen
  rw [if_neg hparse] at hopen
  cases hcached : loops x.key with
  | some cached =>
    rw [hcached] at hopen
    cases hopen
    exact h x.key ctx hcached
  | none =>
    rw [hcached] at hopen
    dsimp only at hopen
    split at hopen
    · cases hopen
    · exact ⟨x, hx, rfl, openContext_names (Prod.mk.inj hopen).1⟩

lemma OpenedBy.update {names : LoopNames} {xs : List ChannelName} {loops : DiskLoops n}
    (h : OpenedBy names xs loops) {x : ChannelName} {ctx : Option (DiskloopContext n)}
    (hctx : ∀ c ∈ ctx, ∃ y ∈ xs, y.key = x.key ∧ OnFiles names y c) :
    OpenedBy names xs (Function.update loops x.key ctx) := by
  intro key c hc
  rcases eq_or_ne key x.key with rfl | hne
  · rw [Function.update_self] at hc
    exact hctx c hc
  · rw [Function.update_of_ne hne] at hc
    exact h key c hc

/-- A call keeps every context on the files of a channel with its key. -/
lemma OpenedBy.run {names : LoopNames} {xs : List ChannelName} {loops : DiskLoops n}
    (h : OpenedBy names xs loops) (cfg : Config n) {x : ChannelName} (hx : x ∈ xs)
    (call : LoopCall n) : OpenedBy names xs (call.run cfg names loops x) := by
  cases call with
  | adlOpen env =>
    unfold LoopCall.run
    dsimp only
    cases hopen : adlOpen cfg (x.files names) (loops x.key) env.files env.tempB with
    | mk result files =>
      cases result with
      | error e => exact h
      | ok ctx =>
        apply h.update
        intro c hc
        cases hc
        exact adlOpen_opened h hx hopen
  | writeChan env databuf =>
    unfold LoopCall.run
    apply h.update
    intro c hc
    unfold writeChan at hc
    cases hopen : adlOpen cfg (x.files names) (loops x.key) env.files env.tempB with
    | mk result files =>
      rw [hopen] at hc
      cases result with
      | error e => exact h x.key c hc
      | ok ctx =>
        cases hc
        obtain ⟨y, hy, hkey, hloop, hindex⟩ := adlOpen_opened h hx hopen
        obtain ⟨hloop', hindex'⟩ := adlWrite_names cfg env.write ctx (-1) databuf
        exact ⟨y, hy, hkey, hloop'.trans hloop, hindex'.trans hindex⟩
  | adlClose =>
    apply h.update
    intro c hc
    cases hc

/-- Where the channels are consistent, their contexts are apart. -/
lemma OpenedBy.loopsApart {names : LoopNames} {xs : List ChannelName} {loops : DiskLoops n}
    (h : OpenedBy names xs loops)
    (hconsistent : ∀ x ∈ xs, ∀ y ∈ xs, Consistent names.mapStations x y) :
    LoopsApart names xs loops where
  apart := by
    intro key key' ctx ctx' hctx hctx' hsame
    obtain ⟨x, hx, rfl, hloop, hindex⟩ := h key ctx hctx
    obtain ⟨y, hy, rfl, hloop', hindex'⟩ := h key' ctx' hctx'
    rcases hsame with hsame | hsame
    · rw [hloop, hloop'] at hsame
      exact ((key_eq_iff_fileName names (ascii ".buf") x y).mpr (hconsistent x hx y hy)).mpr
        (textOf_injective hsame)
    · rw [hindex, hindex'] at hsame
      exact ((key_eq_iff_fileName names (ascii ".idx") x y).mpr (hconsistent x hx y hy)).mpr
        (textOf_injective hsame)
  shared := by
    intro x hx ctx hctx
    obtain ⟨y, hy, hkey, hloop, hindex⟩ := h x.key ctx hctx
    have hname : ∀ suffix, y.fileName names suffix = x.fileName names suffix := fun suffix =>
      ((key_eq_iff_fileName names suffix y x).mpr (hconsistent y hy x hx)).mp hkey
    refine ⟨hloop.trans ?_, hindex.trans ?_⟩
    · exact congrArg textOf (hname (ascii ".buf"))
    · exact congrArg textOf (hname (ascii ".idx"))

lemma runCalls_openedBy (cfg : Config n) (names : LoopNames) {xs : List ChannelName}
    (calls : List (ChannelName × LoopCall n)) (hxs : ∀ call ∈ calls, call.1 ∈ xs) :
    OpenedBy names xs (runCalls cfg names calls) := by
  have hrun : ∀ loops : DiskLoops n, OpenedBy names xs loops →
      OpenedBy names xs
        (calls.foldl (fun loops call => call.2.run cfg names loops call.1) loops) := by
    induction calls with
    | nil => exact fun loops h => h
    | cons call calls ih =>
      intro loops h
      exact ih (fun c hc => hxs c (List.mem_cons_of_mem call hc)) _
        (h.run cfg (hxs call List.mem_cons_self) call.2)
  apply hrun
  intro key ctx hctx
  cases hctx

/-- **One name for one file.** The keys of two channels are equal exactly where their files are if
and only if the channels are consistent. In every run of calls for channels that are, the open
contexts are on different files, each on those of its channels. -/
theorem key_determines_file (names : LoopNames) :
    (∀ x y : ChannelName,
      (∀ suffix, x.key = y.key ↔ x.fileName names suffix = y.fileName names suffix) ↔
        Consistent names.mapStations x y) ∧
      ∀ (cfg : Config n) (calls : List (ChannelName × LoopCall n)),
        (∀ x ∈ calls.map Prod.fst, ∀ y ∈ calls.map Prod.fst,
            Consistent names.mapStations x y) →
          LoopsApart names (calls.map Prod.fst) (runCalls cfg names calls) := by
  refine ⟨fun x y => ⟨fun h => ?_, fun h suffix => ?_⟩, fun cfg calls h => ?_⟩
  · exact (key_eq_iff_fileName names [] x y).mp (h [])
  · exact (key_eq_iff_fileName names suffix x y).mpr h
  · apply OpenedBy.loopsApart _ h
    apply runCalls_openedBy
    exact fun call hcall => List.mem_map_of_mem hcall

/-- A configuration that renames the station Q1. -/
def sampleNames : LoopNames where
  loopDir := ascii "/data"
  mapStations := [⟨ascii "Q1", ascii "ANMO"⟩]
  numChanRecords _ _ _ := .ok 10

/-- The channel is opened on files with one record. -/
def openCall (station : String) : ChannelName × LoopCall 512 :=
  (bhz station, .adlOpen
    ⟨⟨some (logRecord 0 10).toList, some (indexImage 0 10)⟩, [], quietWrite⟩)

theorem key_determines_file_plain :
    ((bhz "IU-ANMO").key = (bhz "anmo").key ↔
        (bhz "IU-ANMO").fileName sampleNames (ascii ".buf")
          = (bhz "anmo").fileName sampleNames (ascii ".buf")) ∧
      LoopsApart sampleNames ([openCall "IU-ANMO", openCall "COLA"].map Prod.fst)
        (runCalls hostConfig sampleNames [openCall "IU-ANMO", openCall "COLA"]) :=
  ⟨((key_determines_file (n := 512) sampleNames).1 (bhz "IU-ANMO") (bhz "anmo")).mpr
      (by decide +kernel) (ascii ".buf"),
    (key_determines_file (n := 512) sampleNames).2 hostConfig _ (by decide +kernel)⟩

/-- Two padded names have one key and different files; a renamed station and the one it is renamed
to have different keys, and two open contexts on the same files. -/
theorem key_mistakes_file :
    ((bhz "ABCD ").key = (bhz "ANMO ").key ∧
        (bhz "ABCD ").fileName sampleNames (ascii ".buf")
          ≠ (bhz "ANMO ").fileName sampleNames (ascii ".buf")) ∧
      ((bhz "Q1").key ≠ (bhz "ANMO").key ∧
        (bhz "Q1").fileName sampleNames (ascii ".buf")
          = (bhz "ANMO").fileName sampleNames (ascii ".buf")) ∧
      ((runCalls hostConfig sampleNames [openCall "Q1", openCall "ANMO"] (bhz "Q1").key).map
          fun ctx => (ctx.loopName, ctx.indexName))
        = some ("/data/ANMO/00_BHZ.buf", "/data/ANMO/00_BHZ.idx") ∧
      ((runCalls hostConfig sampleNames [openCall "Q1", openCall "ANMO"] (bhz "ANMO").key).map
          fun ctx => (ctx.loopName, ctx.indexName))
        = some ("/data/ANMO/00_BHZ.buf", "/data/ANMO/00_BHZ.idx") := by
  decide +kernel

end StationProcessor
