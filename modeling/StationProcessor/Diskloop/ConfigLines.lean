import StationProcessor.Diskloop.ChannelLists
import StationProcessor.Diskloop.Open

/-!
# The lines of channels in the configuration

What `ParseDiskLoopConfig` does with the lines that begin with `Buffer:`, `NoArchive:` or `NoIDA:`.
The channel is a field `[[station]-][loc]/<chan>`. Each word is scanned into the same memory, in
which the end of a longer word that was there before stays.
-/

namespace StationProcessor

open Decimal

/-! ### Scanning a line -/

/-- `PARSE_BUFFER`, `PARSE_NO_ARCHIVE` and `PARSE_NO_IDA`. -/
inductive ParseType
  | buffer
  | noArchive
  | noIda
deriving DecidableEq

def ParseType.keyword : ParseType → Bytes
  | .buffer => ascii "Buffer:"
  | .noArchive => ascii "NoArchive:"
  | .noIda => ascii "NoIDA:"

/-- A line with one of the keywords, and what follows it. -/
structure ConfigLine where
  kind : ParseType
  rest : Bytes

def ConfigLine.text (line : ConfigLine) : Bytes := line.kind.keyword ++ line.rest

/-- `sscanf` of a keyword and a `%s`: the word and what follows it. -/
def scanWord (keyword line : Bytes) : Option (Bytes × Bytes) :=
  if keyword.isPrefixOf line then
    let rest := (line.drop keyword.length).dropWhile isSpace
    let word := rest.takeWhile (!isSpace ·)
    if word.isEmpty then none else some (word, rest.dropWhile (!isSpace ·))
  else none

/-- The three calls of `sscanf`: the word that is stored in `argstr`, and `parseType` with the
number, if the line has one of the three forms. -/
def scanLine (plat : Platform) (linestr : Bytes) : Option Bytes × Option (ParseType × ℤ) :=
  match scanWord ParseType.buffer.keyword (cString linestr) with
  | some (word, rest) =>
    (some word, (scanInt rest).map fun number => (.buffer, intOfScan plat number.1))
  | none =>
    match scanWord ParseType.noArchive.keyword (cString linestr) with
    | some (word, _) => (some word, some (.noArchive, 0))
    | none =>
      match scanWord ParseType.noIda.keyword (cString linestr) with
      | some (word, _) => (some word, some (.noIda, 0))
      | none => (none, none)

/-! ### The field of a channel -/

/-- A word in memory, with its null. -/
def storeWord (old : ℕ → UInt8) (word : Bytes) : ℕ → UInt8 := fun i =>
  if i < word.length then word.getD i 0 else if i = word.length then 0 else old i

/-- The loop that looks for a `-`, over `count` characters from `i` on. -/
def findDash (argstr : ℕ → UInt8) : ℕ → ℕ → Option ℕ
  | 0, _ => none
  | count + 1, i =>
    if argstr i = 45 then some i
    else if argstr i = 0 then none
    else findDash argstr count (i + 1)

/-- `station` and `locStart`. -/
def locate (argstr : ℕ → UInt8) : Bytes × ℕ :=
  if argstr 0 = 45 then ([], 1)
  else match findDash argstr 6 0 with
    | some i => ((List.range i).map argstr, i + 1)
    | none => ([], 0)

/-- The string of some characters of memory. -/
def stringFrom (memory : ℕ → UInt8) (start count : ℕ) : Bytes :=
  cString ((List.range count).map fun k => memory (start + k))

/-- `station`, `loc` and `chan`, if the syntax appears to be okay. Where the location is blank the
characters of the channel are stored from `chan[locStart]` on; `chan[0]` was set to zero. -/
def parseField (argstr : ℕ → UInt8) : Option (Bytes × Bytes × Bytes) :=
  let (station, locStart) := locate argstr
  if argstr locStart = 47 then
    let chan : ℕ → UInt8 := fun i =>
      if locStart ≤ i ∧ i < locStart + 3 then argstr (i + 1) else 0
    some (station, ascii "  ", stringFrom chan 0 3)
  else if argstr (locStart + 2) = 47 then
    if argstr locStart = 0 then none
    else some (station, stringFrom argstr locStart 2, stringFrom argstr (locStart + 3) 3)
  else none

/-! ### The loop over the lines -/

/-- The variables of `ParseDiskLoopConfig` that these lines use, with what is printed. -/
structure ConfigState where
  argstr : ℕ → UInt8
  lists : ChannelLists
  iLineNum : ℕ
  printed : List String
  bOK : Bool

/-- A new entry at the head of its list. -/
def ChannelLists.push (lists : ChannelLists) (kind : ParseType) (entry : BufConfig) :
    ChannelLists :=
  match kind with
  | .buffer => { lists with chanSizeList := entry :: lists.chanSizeList }
  | .noArchive => { lists with noArchiveList := entry :: lists.noArchiveList }
  | .noIda => { lists with noIdaList := entry :: lists.noIdaList }

def parseMessage (filename : String) (iLineNum : ℕ) : String :=
  "Failed to parse line " ++ toString iLineNum ++ " in " ++ filename

def countMessage (filename : String) (count : ℤ) (iLineNum : ℕ) : String :=
  "Count " ++ toString count ++ " < minimum of 4, Line " ++ toString iLineNum ++ " in " ++ filename

/-- The end of the loop, where a line was not parsed. -/
def ConfigState.fail (s : ConfigState) (filename : String) : ConfigState :=
  { s with printed := s.printed ++ [parseMessage filename s.iLineNum], bOK := false }

/-- The end of the part for channels, where `parseType` is known. -/
def storeEntry (filename : String) (s : ConfigState) (kind : ParseType) (count : ℤ) :
    ConfigState :=
  match parseField s.argstr with
  | none =>
    { s with argstr := Function.update s.argstr (locate s.argstr).2 0 }.fail filename
  | some (station, loc, chan) =>
    if kind = .buffer ∧ count < 4 then
      { s with printed := s.printed ++ [countMessage filename count s.iLineNum] }.fail filename
    else
      { s with
        lists := s.lists.push kind ⟨station, loc, chan, if kind = .buffer then count else 0⟩ }

/-- One turn of the loop. The calls of `sscanf` for other keywords find nothing in such a line. -/
def parseLine (plat : Platform) (filename : String) (s : ConfigState) (line : ConfigLine) :
    ConfigState :=
  let scanned := scanLine plat line.text
  let s := { s with
    iLineNum := s.iLineNum + 1
    argstr := scanned.1.elim s.argstr (storeWord s.argstr) }
  match scanned.2 with
  | none => s.fail filename
  | some (kind, count) => storeEntry filename s kind count

/-! ### What the lines mean -/

/-- The grammar of the field: a station of at most five characters and a `-`, or neither; a
location of two characters, or none; a `/`; and a channel of three characters. -/
structure FieldOf (dash : Bool) (station loc chan field : Bytes) : Prop where
  field_eq : field = (if dash then station ++ [45] else station) ++ (loc ++ 47 :: chan)
  station_length : station.length ≤ 5
  station_nil : dash = false → station = []
  loc_length : loc = [] ∨ loc.length = 2
  chan_length : chan.length = 3
  plain : ∀ b ∈ station ++ (loc ++ chan), b ≠ 45 ∧ b ≠ 47

/-- The entry for such a field. A location that is left out is blank. -/
def entryOf (kind : ParseType) (count : ℤ) (station loc chan : Bytes) : BufConfig where
  station := station
  loc := if loc = [] then ascii "  " else loc
  chan := chan
  records := if kind = .buffer then count else 0

/-- The line follows the grammar, with a count of at least four where it has one. -/
structure Describes (plat : Platform) (line : ConfigLine) (kind : ParseType) (count : ℤ)
    (dash : Bool) (station loc chan : Bytes) : Prop where
  scan : ∃ field, scanLine plat line.text = (some field, some (kind, count)) ∧
    FieldOf dash station loc chan field
  count : kind = .buffer → 4 ≤ count

/-- The line follows the grammar in some way. -/
def InGrammar (plat : Platform) (line : ConfigLine) : Prop :=
  ∃ kind count dash station loc chan, Describes plat line kind count dash station loc chan

/-- What a line should do: one that follows the grammar adds its entry and nothing else, and any
other one is reported and adds nothing. -/
structure LineRight (plat : Platform) (filename : String) (s : ConfigState) (line : ConfigLine) :
    Prop where
  stores : ∀ kind count dash station loc chan,
    Describes plat line kind count dash station loc chan →
      (parseLine plat filename s line).lists
          = s.lists.push kind (entryOf kind count station loc chan) ∧
        (parseLine plat filename s line).printed = s.printed ∧
        (parseLine plat filename s line).bOK = s.bOK
  rejects : ¬ InGrammar plat line →
    (parseLine plat filename s line).lists = s.lists ∧
      (parseLine plat filename s line).bOK = false ∧
      (parseLine plat filename s line).printed.getLast?
        = some (parseMessage filename (s.iLineNum + 1))

/-- The word in memory has a `/` where the code looks for one. -/
def LooksRight (argstr : ℕ → UInt8) : Prop :=
  argstr (locate argstr).2 = 47 ∨
    argstr ((locate argstr).2 + 2) = 47 ∧ argstr (locate argstr).2 ≠ 0

/-- The lines that are treated right: those of the grammar that do not leave out the location
behind a `-`, and those outside it in which no `/` is found where the code looks for one, in the
word or in what an earlier line left behind it. -/
structure LineFits (plat : Platform) (s : ConfigState) (line : ConfigLine) : Prop where
  location : ∀ kind count dash station loc chan,
    Describes plat line kind count dash station loc chan → ¬ (dash = true ∧ loc = [])
  outside : ¬ InGrammar plat line → ∀ word kind count,
    scanLine plat line.text = (some word, some (kind, count)) → (kind = .buffer → 4 ≤ count) →
      ¬ LooksRight (storeWord s.argstr word)

/-! ### Words in memory -/

section Words

variable {old : ℕ → UInt8} {word : Bytes}

lemma storeWord_append (old : ℕ → UInt8) {a b : Bytes} {k : ℕ} (hk : k < b.length) :
    storeWord old (a ++ b) (a.length + k) = b.getD k 0 := by
  rw [storeWord, if_pos (by rw [List.length_append]; omega), List.getD_eq_getElem?_getD,
    List.getElem?_append_right (Nat.le_add_right _ _), Nat.add_sub_cancel_left,
    List.getD_eq_getElem?_getD]

lemma storeWord_of_lt {i : ℕ} (hi : i < word.length) : storeWord old word i = word[i] := by
  rw [storeWord, if_pos hi, List.getD_eq_getElem?_getD, List.getElem?_eq_getElem hi]
  rfl

lemma storeWord_length (old : ℕ → UInt8) (word : Bytes) : storeWord old word word.length = 0 := by
  simp [storeWord]

/-- The first characters of a word. -/
lemma map_storeWord (old : ℕ → UInt8) (a b : Bytes) :
    (List.range a.length).map (storeWord old (a ++ b)) = a := by
  apply List.ext_getElem
  · simp
  intro i hi hi'
  rw [List.getElem_map, List.getElem_range,
    storeWord_of_lt (by rw [List.length_append]; omega), List.getElem_append_left hi']

/-- The `-` that is found is the first one. -/
lemma findDash_eq_some {argstr : ℕ → UInt8} {count i p : ℕ} (hi : i ≤ p) (hp : p < i + count)
    (hbefore : ∀ j < p, argstr j ≠ 45 ∧ argstr j ≠ 0) (hdash : argstr p = 45) :
    findDash argstr count i = some p := by
  induction count generalizing i with
  | zero => omega
  | succ count ih =>
    rw [findDash]
    rcases hi.eq_or_lt with rfl | hlt
    · rw [if_pos hdash]
    · rw [if_neg (hbefore i hlt).1, if_neg (hbefore i hlt).2]
      exact ih hlt (by omega)

/-- In a word without a `-` none is found. -/
lemma findDash_eq_none {argstr : ℕ → UInt8} {count i m : ℕ} (hi : i ≤ m) (hnull : argstr m = 0)
    (hbefore : ∀ j < m, argstr j ≠ 45) : findDash argstr count i = none := by
  induction count generalizing i with
  | zero => rfl
  | succ count ih =>
    rw [findDash]
    rcases hi.eq_or_lt with rfl | hlt
    · rw [if_neg (by rw [hnull]; decide), if_pos hnull]
    · rw [if_neg (hbefore i hlt)]
      split_ifs
      · rfl
      · exact ih hlt

/-- A scanned word has no null. -/
lemma zero_notMem_of_scanWord {keyword line word rest : Bytes} (h : 0 ∉ line)
    (hscan : scanWord keyword line = some (word, rest)) : 0 ∉ word := by
  unfold scanWord at hscan
  simp only at hscan
  split_ifs at hscan
  obtain ⟨rfl, -⟩ := Prod.mk.inj (Option.some.inj hscan)
  intro hmem
  have hdrop := (List.dropWhile_suffix _).subset ((List.takeWhile_prefix _).subset hmem)
  exact h (List.mem_of_mem_drop hdrop)

lemma zero_notMem_of_scanLine {plat : Platform} {linestr word : Bytes}
    {type : Option (ParseType × ℤ)} (h : scanLine plat linestr = (some word, type)) :
    0 ∉ word := by
  have hscanned : ∀ {keyword word' rest : Bytes} {type' : Option (ParseType × ℤ)},
      scanWord keyword (cString linestr) = some (word', rest) →
        (some word', type') = (some word, type) → 0 ∉ word := by
    intro keyword word' rest type' hscan heq
    obtain ⟨hword, -⟩ := Prod.mk.inj heq
    exact Option.some.inj hword ▸ zero_notMem_of_scanWord (zero_notMem_cString linestr) hscan
  unfold scanLine at h
  split at h
  · rename_i hscan
    exact hscanned hscan h
  · split at h
    · rename_i hscan
      exact hscanned hscan h
    · split at h
      · rename_i hscan
        exact hscanned hscan h
      · cases (Prod.mk.inj h).1

/-- Where there is a `parseType` there is a word. -/
lemma exists_word_of_scanLine {plat : Platform} {linestr : Bytes} {type : ParseType × ℤ}
    (h : (scanLine plat linestr).2 = some type) :
    ∃ word, scanLine plat linestr = (some word, some type) := by
  unfold scanLine at h ⊢
  split at h
  · exact ⟨_, Prod.ext rfl h⟩
  · split at h
    · exact ⟨_, Prod.ext rfl h⟩
    · split at h
      · exact ⟨_, Prod.ext rfl h⟩
      · cases h

end Words

/-! ### Fields of the grammar -/

section Fields

variable {dash : Bool} {station loc chan field : Bytes}

/-- The station and what follows its `-` are found. -/
lemma locate_field (old : ℕ → UInt8) (h : FieldOf dash station loc chan field) (hzero : 0 ∉ field) :
    locate (storeWord old field) = (station, if dash then station.length + 1 else 0) := by
  have hfield := h.field_eq
  cases dash with
  | true =>
    rw [if_pos rfl, List.append_assoc, List.singleton_append] at hfield
    have hdash : storeWord old field station.length = 45 := by
      rw [hfield]
      exact storeWord_append old (k := 0) (Nat.succ_pos _)
    have hbefore : ∀ j < station.length,
        storeWord old field j ≠ 45 ∧ storeWord old field j ≠ 0 := by
      intro j hj
      have hmem : station[j] ∈ station := List.getElem_mem hj
      have hget : storeWord old field j = station[j] := by
        rw [storeWord_of_lt (by rw [hfield, List.length_append]; omega)]
        simp [hfield, hj]
      rw [hget]
      refine ⟨(h.plain _ (List.mem_append_left _ hmem)).1, fun heq => hzero ?_⟩
      rw [hfield, ← heq]
      exact List.mem_append_left _ hmem
    rw [locate]
    cases station with
    | nil => exact if_pos hdash
    | cons x xs =>
      rw [if_neg (hbefore 0 (Nat.succ_pos _)).1,
        findDash_eq_some (Nat.zero_le _) (by have := h.station_length; omega) hbefore hdash]
      rw [hfield]
      exact Prod.ext (map_storeWord old _ _) rfl
  | false =>
    obtain rfl := h.station_nil rfl
    have htail : field = loc ++ 47 :: chan := hfield
    have hbefore : ∀ j < field.length, storeWord old field j ≠ 45 := by
      intro j hj
      rw [storeWord_of_lt hj]
      have hmem : field[j] ∈ loc ++ 47 :: chan := htail ▸ List.getElem_mem hj
      rcases List.mem_append.mp hmem with hloc | hchan
      · exact (h.plain _ (by simp [hloc])).1
      · rcases List.mem_cons.mp hchan with heq | hchan
        · rw [heq]
          decide
        · exact (h.plain _ (by simp [hchan])).1
    have hpos : 0 < field.length := by simp [htail]
    rw [locate, if_neg (hbefore 0 hpos),
      findDash_eq_none (Nat.zero_le _) (storeWord_length old field) hbefore]
    rfl

/-- What is read from such a field. Where the location is left out behind a `-` the channel is
lost. -/
lemma parseField_field (old : ℕ → UInt8) (h : FieldOf dash station loc chan field)
    (hzero : 0 ∉ field) :
    parseField (storeWord old field) = some (station, if loc = [] then ascii "  " else loc,
      if dash = true ∧ loc = [] then [] else chan) := by
  obtain ⟨a, b, c, rfl⟩ := List.length_eq_three.mp h.chan_length
  obtain ⟨pre, hpre, hlen⟩ : ∃ pre : Bytes, field = pre ++ (loc ++ [47, a, b, c]) ∧
      pre.length = if dash then station.length + 1 else 0 := by
    refine ⟨_, h.field_eq, ?_⟩
    cases dash with
    | true => simp
    | false => simp [h.station_nil rfl]
  have hchan : a ≠ 0 ∧ b ≠ 0 ∧ c ≠ 0 := by
    simp only [hpre, List.mem_append, List.mem_cons, not_or] at hzero
    exact ⟨Ne.symm hzero.2.2.2.1, Ne.symm hzero.2.2.2.2.1, Ne.symm hzero.2.2.2.2.2.1⟩
  have hlocate := locate_field old h hzero
  rw [← hlen] at hlocate
  have hat : ∀ k < (loc ++ [47, a, b, c]).length,
      storeWord old field (pre.length + k) = (loc ++ [47, a, b, c]).getD k 0 := by
    intro k hk
    rw [hpre]
    exact storeWord_append old hk
  have hstring : cString [a, b, c] = [a, b, c] := by simp [cString, hchan]
  rw [parseField, hlocate]
  rcases h.loc_length with rfl | hloc
  · have hslash := hat 0 (by simp)
    simp only [Nat.add_zero, List.nil_append, List.getD_cons_zero] at hslash
    simp only [hslash, if_true, stringFrom, and_true]
    cases dash with
    | true =>
      have hpos : ¬ pre.length ≤ 0 := by simp [hlen]
      simp [List.range_succ, hpos, cString]
    | false =>
      have hnil : pre.length = 0 := by simpa using hlen
      have h1 := hat 1 (by simp)
      have h2 := hat 2 (by simp)
      have h3 := hat 3 (by simp)
      simp only [hnil, Nat.zero_add, List.nil_append] at h1 h2 h3
      simp [List.range_succ, hnil, h1, h2, h3, hstring]
  · obtain ⟨x, y, rfl⟩ := List.length_eq_two.mp hloc
    have h0 := hat 0 (by simp)
    have h1 := hat 1 (by simp)
    have h2 := hat 2 (by simp)
    have h3 := hat 3 (by simp)
    have h4 := hat 4 (by simp)
    have h5 := hat 5 (by simp)
    have hxy : x ≠ 0 ∧ y ≠ 0 := by
      simp only [hpre, List.mem_append, List.mem_cons, not_or] at hzero
      exact ⟨Ne.symm hzero.2.1.1, Ne.symm hzero.2.1.2.1⟩
    have hx : x ≠ 47 := (h.plain x (by simp)).2
    simp [stringFrom, List.range_succ, Nat.add_assoc] at h0 h1 h2 h3 h4 h5 ⊢
    simp [h0, h1, h2, h3, h4, h5, hx, hxy, cString, hchan]

end Fields

/-! ### Runs over the lines -/

/-- The syntax appears to be okay where a `/` is found. -/
lemma parseField_isSome_iff (argstr : ℕ → UInt8) :
    (parseField argstr).isSome = true ↔ LooksRight argstr := by
  unfold parseField LooksRight
  obtain ⟨station, locStart⟩ := locate argstr
  simp only
  split_ifs with hfirst hthird hnull <;> simp_all

/-- An entry is not overlooked in its list. -/
lemma push_ne (lists : ChannelLists) (kind : ParseType) (entry : BufConfig) :
    lists.push kind entry ≠ lists := by
  cases kind with
  | buffer =>
    intro h
    exact List.cons_ne_self _ _ (congrArg ChannelLists.chanSizeList h)
  | noArchive =>
    intro h
    exact List.cons_ne_self _ _ (congrArg ChannelLists.noArchiveList h)
  | noIda =>
    intro h
    exact List.cons_ne_self _ _ (congrArg ChannelLists.noIdaList h)

lemma push_injective (lists : ChannelLists) (kind : ParseType) {entry entry' : BufConfig}
    (h : lists.push kind entry = lists.push kind entry') : entry = entry' := by
  cases kind with
  | buffer => exact (List.cons.inj (congrArg ChannelLists.chanSizeList h)).1
  | noArchive => exact (List.cons.inj (congrArg ChannelLists.noArchiveList h)).1
  | noIda => exact (List.cons.inj (congrArg ChannelLists.noIdaList h)).1

section Step

variable {plat : Platform} {filename : String} {s : ConfigState} {line : ConfigLine}

/-- A line of the grammar adds an entry, with the channel as it was read. -/
lemma parseLine_of_describes {kind : ParseType} {count : ℤ} {dash : Bool}
    {station loc chan : Bytes} (h : Describes plat line kind count dash station loc chan) :
    (parseLine plat filename s line).lists = s.lists.push kind
        { entryOf kind count station loc chan with
          chan := if dash = true ∧ loc = [] then [] else chan } ∧
      (parseLine plat filename s line).printed = s.printed ∧
      (parseLine plat filename s line).bOK = s.bOK := by
  obtain ⟨field, hscan, hfield⟩ := h.scan
  have hparse := parseField_field s.argstr hfield (zero_notMem_of_scanLine hscan)
  have hcount : ¬ (kind = .buffer ∧ count < 4) := fun hlow => not_le.mpr hlow.2 (h.count hlow.1)
  unfold parseLine storeEntry
  simp only [hscan, Option.elim_some, hparse, if_neg hcount]
  exact ⟨rfl, trivial, trivial⟩

/-- What a line does in which no channel is found. -/
lemma parseLine_rejected
    (h : ∀ word kind count, scanLine plat line.text = (some word, some (kind, count)) →
      (kind = .buffer → 4 ≤ count) → ¬ LooksRight (storeWord s.argstr word)) :
    (parseLine plat filename s line).lists = s.lists ∧
      (parseLine plat filename s line).bOK = false ∧
      (parseLine plat filename s line).printed.getLast?
        = some (parseMessage filename (s.iLineNum + 1)) := by
  cases htype : (scanLine plat line.text).2 with
  | none =>
    unfold parseLine
    simp [htype, ConfigState.fail]
  | some type =>
    obtain ⟨kind, count⟩ := type
    obtain ⟨word, hscan⟩ := exists_word_of_scanLine htype
    unfold parseLine storeEntry
    simp only [hscan, Option.elim_some]
    cases hparse : parseField (storeWord s.argstr word) with
    | none => simp [ConfigState.fail]
    | some entry =>
      have hlooks : LooksRight (storeWord s.argstr word) := by
        rw [← parseField_isSome_iff, hparse]
        rfl
      have hlow : kind = .buffer ∧ count < 4 := by
        by_contra hnot
        exact h word kind count hscan (fun hkind => not_lt.mp fun hlt => hnot ⟨hkind, hlt⟩) hlooks
      simp [hlow.1, hlow.2, ConfigState.fail]

/-- Which lines are treated right. -/
lemma lineRight_iff : LineRight plat filename s line ↔ LineFits plat s line := by
  constructor
  · intro h
    refine ⟨fun kind count dash station loc chan hline hlost => ?_, ?_⟩
    · have hentry := push_injective _ _ ((h.stores _ _ _ _ _ _ hline).1.symm.trans
        (parseLine_of_describes hline).1)
      have hchan := congrArg BufConfig.chan hentry
      rw [if_pos hlost] at hchan
      obtain ⟨_, -, hfield⟩ := hline.scan
      have hlen := hfield.chan_length
      rw [show chan = [] from hchan] at hlen
      cases hlen
    · intro hnot word kind count hscan hcount hlooks
      obtain ⟨entry, hparse⟩ := Option.isSome_iff_exists.mp ((parseField_isSome_iff _).mpr hlooks)
      have hhigh : ¬ (kind = .buffer ∧ count < 4) :=
        fun hlow => not_le.mpr hlow.2 (hcount hlow.1)
      have hlists := (h.rejects hnot).1
      unfold parseLine storeEntry at hlists
      simp only [hscan, Option.elim_some, hparse, if_neg hhigh] at hlists
      exact push_ne _ _ _ hlists
  · intro h
    refine ⟨fun kind count dash station loc chan hline => ?_, fun hnot => ?_⟩
    · obtain ⟨hlists, hprinted, hok⟩ := @parseLine_of_describes _ filename s _ _ _ _ _ _ _ hline
      rw [if_neg (h.location _ _ _ _ _ _ hline)] at hlists
      exact ⟨hlists, hprinted, hok⟩
    · exact parseLine_rejected (h.outside hnot)

end Step

/-- What holds of each line and the state before it. -/
def EachLine (plat : Platform) (filename : String) (P : ConfigState → ConfigLine → Prop) :
    ConfigState → List ConfigLine → Prop
  | _, [] => True
  | s, line :: lines => P s line ∧ EachLine plat filename P (parseLine plat filename s line) lines

/-- Over any lines of channels, each line does what it should exactly if none of the grammar leaves
out the location behind a `-`, and none outside it has a `/` where the code looks for one. -/
theorem config_lines_right_iff (plat : Platform) (filename : String) (s : ConfigState)
    (lines : List ConfigLine) :
    EachLine plat filename (LineRight plat filename) s lines ↔
      EachLine plat filename (LineFits plat) s lines := by
  induction lines generalizing s with
  | nil => exact Iff.rfl
  | cons line lines ih => exact and_congr lineRight_iff (ih _)

/-- The state before the first line. -/
def configStart : ConfigState := ⟨fun _ => 0, ⟨0, [], [], []⟩, 0, [], true⟩

/-- A channel of a station, with a blank location. -/
def dashLine : ConfigLine := ⟨.buffer, ascii " ANMO-/BHZ 100\n"⟩

/-- It is stored without its channel. -/
theorem config_lines_not_right :
    ¬ EachLine (⟨64, id, id⟩ : Platform) "diskloop.config"
      (LineRight ⟨64, id, id⟩ "diskloop.config") configStart [dashLine] := by
  intro h
  have hline : Describes ⟨64, id, id⟩ dashLine .buffer 100 true (ascii "ANMO") [] (ascii "BHZ") :=
    ⟨⟨ascii "ANMO-/BHZ", by decide, rfl, by decide, by decide, by decide, by decide,
      by simp [ascii]⟩, by decide⟩
  have hstored := (h.1.stores _ _ _ _ _ _ hline).1
  have hchan := congrArg (fun lists => lists.chanSizeList.map BufConfig.chan) hstored
  revert hchan
  decide

end StationProcessor
