import Mathlib.Data.List.GetD
import StationProcessor.Diskloop.ChannelLists

/-!
# Overrides in force

Which channels are not archived, as the calls that set and remove overrides say, and the calls
over which the maps of `lib/disklooplib.c` answer so.
-/

namespace StationProcessor

/-! ### What the checks should answer -/

/-- The parts of the two names are the same. -/
def ChannelName.like (same : Bytes → Bytes → Bool) (x y : ChannelName) : Bool :=
  same x.station y.station && same x.location y.location && same x.channel y.channel

/-- What a call does to the override of a pattern. -/
def ListCall.override (same : Bytes → Bytes → Bool) (target : Target) (x : ChannelName)
    (current : Option Bool) : ListCall → Option Bool
  | .setChannelTo target' y send => if target' = target ∧ x.like same y then some send else current
  | .defaultChannelTo target' y => if target' = target ∧ x.like same y then none else current
  | .checkNo _ _ => current
  | .numChanRecords _ => current

/-- The override of a pattern that was set and not removed since. -/
def inForce (same : Bytes → Bytes → Bool) (target : Target) (calls : List ListCall)
    (x : ChannelName) : Option Bool :=
  calls.foldl (fun current call => call.override same target x current) none

/-- The patterns a channel falls under, the most specific first; an empty part stands for any. -/
def ChannelName.patterns (x : ChannelName) : List ChannelName :=
  [x, ⟨x.station, [], x.channel⟩, ⟨x.station, x.location, []⟩, ⟨x.station, [], []⟩,
    ⟨[], x.location, x.channel⟩, ⟨[], [], x.channel⟩, ⟨[], x.location, []⟩, ⟨[], [], []⟩]

/-- What a check should return: what the most specific override in force says or, where there is
none, whether the channel is on the list. -/
def expectedFlag (same : Bytes → Bytes → Bool) (lists : ChannelLists) (calls : List ListCall)
    (target : Target) (x : ChannelName) : ℤ :=
  match x.patterns.findSome? (inForce same target calls) with
  | some send => if send then 0 else 1
  | none =>
    if (checkChannelList x.station x.channel x.location (lists.of target)).isSome then 1 else 0

/-- The record count of the entry the list has for the channel. -/
def expectedRecords (lists : ChannelLists) (x : ChannelName) : Except String ℤ :=
  match checkChannelList x.station x.channel x.location lists.chanSizeList with
  | some entry => .ok entry.records
  | none => .error (noBufferError x.channel x.location)

/-- The answer to a call after others. -/
def expectedAnswer (same : Bytes → Bytes → Bool) (lists : ChannelLists) (calls : List ListCall) :
    ListCall → ListAnswer
  | .setChannelTo _ _ send => .flag (if send then 1 else 0)
  | .defaultChannelTo target x => .flag (if (inForce same target calls x).isSome then 1 else 0)
  | .checkNo target x => .flag (expectedFlag same lists calls target x)
  | .numChanRecords x => .records (expectedRecords lists x)

/-- Two parts of names with the same code. A location of blanks has the code of an empty one. -/
def equalCodes (s t : Bytes) : Bool := codeOf s = codeOf t

/-! ### Names in SEED form -/

def IsStation (s : Bytes) : Prop := 1 ≤ s.length ∧ s.length ≤ 5 ∧ ∀ b ∈ s, isAlnum b = true

/-- Two letters or digits, one and a blank, or two blanks. -/
def IsLocation : Bytes → Prop
  | [a, b] => isAlnum a = true ∧ (isAlnum b = true ∨ b = 32) ∨ a = 32 ∧ b = 32
  | _ => False

def IsChannelCode (s : Bytes) : Prop := s.length = 3 ∧ ∀ b ∈ s, isAlnum b = true

instance (s : Bytes) : Decidable (IsStation s) :=
  decidable_of_iff (1 ≤ s.length ∧ s.length ≤ 5 ∧ s.all isAlnum = true) (by simp [IsStation])

instance : DecidablePred IsLocation
  | [] => isFalse fun h => h
  | [_] => isFalse fun h => h
  | [_, _] => inferInstanceAs (Decidable (_ ∧ _ ∨ _))
  | _ :: _ :: _ :: _ => isFalse fun h => h

instance (s : Bytes) : Decidable (IsChannelCode s) :=
  decidable_of_iff (s.length = 3 ∧ s.all isAlnum = true) (by simp [IsChannelCode])

/-- A channel. -/
structure ChannelName.IsSeed (x : ChannelName) : Prop where
  station : IsStation x.station
  location : IsLocation x.location
  channel : IsChannelCode x.channel

/-- A pattern of an override, whose parts may be empty. -/
structure ChannelName.IsPattern (x : ChannelName) : Prop where
  station : x.station = [] ∨ IsStation x.station
  location : x.location = [] ∨ IsLocation x.location
  channel : x.channel = [] ∨ IsChannelCode x.channel

/-- A check of a channel, or an override of a pattern. -/
def ListCall.Formed : ListCall → Prop
  | .setChannelTo _ x _ => x.IsPattern
  | .defaultChannelTo _ x => x.IsPattern
  | .checkNo _ x => x.IsSeed
  | .numChanRecords x => x.IsSeed

lemma ChannelName.IsPattern.alnum {x : ChannelName} (h : x.IsPattern) :
    ∀ b ∈ x.station, isAlnum b = true := by
  rcases h.station with hempty | hstation
  · rw [hempty]
    exact fun b hb => absurd hb List.not_mem_nil
  · exact hstation.2.2

lemma ChannelName.IsSeed.pattern {x : ChannelName} (h : x.IsSeed) : x.IsPattern :=
  ⟨Or.inr h.station, Or.inr h.location, Or.inr h.channel⟩

/-- The patterns of a channel are patterns. -/
lemma ChannelName.IsSeed.of_mem_patterns {x p : ChannelName} (h : x.IsSeed)
    (hp : p ∈ x.patterns) : p.IsPattern := by
  have hstation : x.station = [] ∨ IsStation x.station := Or.inr h.station
  have hlocation : x.location = [] ∨ IsLocation x.location := Or.inr h.location
  have hchannel : x.channel = [] ∨ IsChannelCode x.channel := Or.inr h.channel
  simp only [ChannelName.patterns, List.mem_cons, List.not_mem_nil, or_false] at hp
  rcases hp with rfl | rfl | rfl | rfl | rfl | rfl | rfl | rfl
  · exact h.pattern
  · exact ⟨hstation, Or.inl rfl, hchannel⟩
  · exact ⟨hstation, hlocation, Or.inl rfl⟩
  · exact ⟨hstation, Or.inl rfl, Or.inl rfl⟩
  · exact ⟨Or.inl rfl, hlocation, hchannel⟩
  · exact ⟨Or.inl rfl, Or.inl rfl, hchannel⟩
  · exact ⟨Or.inl rfl, hlocation, Or.inl rfl⟩
  · exact ⟨Or.inl rfl, Or.inl rfl, Or.inl rfl⟩

/-- Keys of patterns are equal where the codes are. -/
lemma ChannelName.IsPattern.key_eq_iff {x y : ChannelName} (hx : x.IsPattern)
    (hy : y.IsPattern) : x.key = y.key ↔ x.like equalCodes y = true := by
  unfold ChannelName.key ChannelName.like equalCodes
  rw [makeKey_eq_iff, behindSeparator_of_alnum hx.alnum, behindSeparator_of_alnum hy.alnum]
  simp [and_assoc]

/-! ### The list does not tell apart what a key does not -/

/-- Upper case of a part of a name. -/
def upper (s : Bytes) : Bytes := s.map toUpper

lemma stationMatches_congr {s t : Bytes} (h : upper s = upper t) (k : ℕ) (entry : Bytes) :
    stationMatches k s entry = stationMatches k t entry := by
  induction k generalizing s t entry with
  | zero => rfl
  | succ k ih =>
    cases s with
    | nil =>
      rw [List.map_eq_nil_iff.mp h.symm]
    | cons a s =>
      cases t with
      | nil => simp [upper] at h
      | cons b t =>
        obtain ⟨hhead, htail⟩ := List.cons.inj h
        have hzero : a = 0 ↔ b = 0 := by
          rw [← toUpper_eq_zero_iff a, ← toUpper_eq_zero_iff b, hhead]
        unfold stationMatches
        simp only [List.headD_cons, List.tail_cons, hhead, ih htail]
        exact if_congr (and_congr_left' hzero) rfl (if_congr (or_congr_left hzero) rfl rfl)

lemma charsMatch_congr {s t : Bytes} (h : upper s = upper t) (count : ℕ) (entry : Bytes) :
    charsMatch count s entry = charsMatch count t entry := by
  have hupper : ∀ (r : Bytes) i, toUpper (r.getD i 0) = (upper r).getD i 0 := fun r i =>
    (List.getD_map (l := r) (d := 0) toUpper).symm
  have hget : ∀ i, toUpper (s.getD i 0) = toUpper (t.getD i 0) := by
    intro i
    rw [hupper, hupper, h]
  unfold charsMatch
  simp only [hget]

/-- A location is its code, filled up with blanks. -/
lemma upper_location {s : Bytes} (h : IsLocation s) : upper s = (codeOf s).rightpad 2 32 := by
  have hblank : isAlnum 32 = false := by decide
  match s, h with
  | [a, b], h =>
    rcases h with ⟨ha, hb | rfl⟩ | ⟨rfl, rfl⟩
    · simp [upper, codeOf, ha, hb]
    · simp [upper, codeOf, ha, hblank]
      rfl
    · decide

/-- Channels with one key are on the same lists. -/
lemma checkChannelList_of_key {x y : ChannelName} (hx : x.IsSeed) (hy : y.IsSeed)
    (h : x.key = y.key) (list : List BufConfig) :
    checkChannelList x.station x.channel x.location list
      = checkChannelList y.station y.channel y.location list := by
  unfold ChannelName.key at h
  rw [makeKey_eq_iff, behindSeparator_of_alnum hx.pattern.alnum,
    behindSeparator_of_alnum hy.pattern.alnum, codeOf_of_alnum hx.station.2.2,
    codeOf_of_alnum hy.station.2.2, codeOf_of_alnum hx.channel.2,
    codeOf_of_alnum hy.channel.2] at h
  obtain ⟨hstation, hlocation, hchannel⟩ := h
  have hlocation' : upper x.location = upper y.location := by
    rw [upper_location hx.location, upper_location hy.location, hlocation]
  unfold checkChannelList BufConfig.covers
  simp only [stationMatches_congr hstation, charsMatch_congr hlocation',
    charsMatch_congr hchannel]

/-! ### What the maps keep -/

/-- The map holds the overrides of these patterns. -/
def HoldsOverrides (map : BypassMap) (current : ChannelName → Option Bool) : Prop :=
  ∀ x : ChannelName, x.IsPattern →
    map x.key = (current x).map fun send => if send then channelOn else channelOff

/-- A shortcut holds what the list says of every channel with its key. -/
def HoldsMemo (shortcut : Bytes → Option ℤ) (list : List BufConfig) : Prop :=
  ∀ x : ChannelName, x.IsSeed → ∀ state ∈ shortcut x.key,
    state = if (checkChannelList x.station x.channel x.location list).isSome then channelOff
      else channelOn

/-- A shortcut holds the entry the list has for every channel with its key. -/
def HoldsEntries (shortcut : Bytes → Option BufConfig) (list : List BufConfig) : Prop :=
  ∀ x : ChannelName, x.IsSeed → ∀ entry ∈ shortcut x.key,
    checkChannelList x.station x.channel x.location list = some entry

/-- What the maps hold after these calls. -/
structure Remembers (lists : ChannelLists) (calls : List ListCall) (maps : ListMaps) : Prop where
  overrides : ∀ target,
    HoldsOverrides (maps.bypassOf target) (inForce equalCodes target calls)
  memo : ∀ target, HoldsMemo (maps.shortcutOf target) (lists.of target)
  entries : HoldsEntries maps.chanSizeShortcut lists.chanSizeList

lemma remembers_new (lists : ChannelLists) : Remembers lists [] ListMaps.new where
  overrides target x _ := by cases target <;> rfl
  memo target x _ state hstate := by cases target <;> cases hstate
  entries x _ entry hentry := by cases hentry

lemma inForce_append (same : Bytes → Bytes → Bool) (target : Target) (calls : List ListCall)
    (call : ListCall) (x : ChannelName) : inForce same target (calls ++ [call]) x
      = call.override same target x (inForce same target calls x) := by
  simp [inForce]

lemma HoldsOverrides.update {map : BypassMap} {current : ChannelName → Option Bool}
    (h : HoldsOverrides map current) {x : ChannelName} (hx : x.IsPattern) (send : Option Bool) :
    HoldsOverrides
      (Function.update map x.key (send.map fun send => if send then channelOn else channelOff))
      (fun y => if y.like equalCodes x then send else current y) := by
  intro y hy
  dsimp only
  by_cases hkey : y.key = x.key
  · rw [hkey, Function.update_self, if_pos ((hy.key_eq_iff hx).mp hkey)]
  · rw [Function.update_of_ne hkey, if_neg fun hlike => hkey ((hy.key_eq_iff hx).mpr hlike)]
    exact h y hy

/-- What the code tries from the most specific key on is what is set for the patterns. -/
lemma checkChannel_eq (map : BypassMap) (x : ChannelName) :
    checkChannel map x.station x.channel x.location
      = (x.patterns.findSome? fun p => map p.key).getD channelNf := by
  have hcons : ∀ (p : ChannelName) ps, (p :: ps).findSome? (fun p => map p.key)
      = (map p.key).or (ps.findSome? fun p => map p.key) := by
    intro p ps
    rw [List.findSome?_cons]
    cases map p.key with
    | none => rfl
    | some value => rfl
  unfold checkChannel ChannelName.patterns
  simp only [hcons, List.findSome?_nil, Option.or_none]
  rfl

lemma HoldsOverrides.checkChannel {map : BypassMap} {current : ChannelName → Option Bool}
    (h : HoldsOverrides map current) {x : ChannelName} (hx : x.IsSeed) :
    checkChannel map x.station x.channel x.location
      = match x.patterns.findSome? current with
        | some send => if send then channelOn else channelOff
        | none => channelNf := by
  have hfind : ∀ ps : List ChannelName, (∀ p ∈ ps, p.IsPattern) →
      ps.findSome? (fun p => map p.key)
        = (ps.findSome? current).map fun send => if send then channelOn else channelOff := by
    intro ps hps
    induction ps with
    | nil => rfl
    | cons p ps ih =>
      rw [List.findSome?_cons, List.findSome?_cons, h p (hps p List.mem_cons_self),
        ih fun q hq => hps q (List.mem_cons_of_mem p hq)]
      cases current p with
      | none => rfl
      | some send => rfl
  rw [checkChannel_eq, hfind x.patterns fun p hp => hx.of_mem_patterns hp]
  cases x.patterns.findSome? current with
  | none => rfl
  | some send => rfl

lemma HoldsMemo.update {shortcut : Bytes → Option ℤ} {list : List BufConfig}
    (h : HoldsMemo shortcut list) {x : ChannelName} (hx : x.IsSeed) :
    HoldsMemo (Function.update shortcut x.key
      (some (if (checkChannelList x.station x.channel x.location list).isSome then channelOff
        else channelOn))) list := by
  intro y hy state hstate
  by_cases hkey : y.key = x.key
  · rw [hkey, Function.update_self] at hstate
    cases hstate
    rw [checkChannelList_of_key hy hx hkey]
  · rw [Function.update_of_ne hkey] at hstate
    exact h y hy state hstate

lemma HoldsEntries.update {shortcut : Bytes → Option BufConfig} {list : List BufConfig}
    (h : HoldsEntries shortcut list) {x : ChannelName} (hx : x.IsSeed) {entry : BufConfig}
    (hentry : checkChannelList x.station x.channel x.location list = some entry) :
    HoldsEntries (Function.update shortcut x.key (some entry)) list := by
  intro y hy found hfound
  by_cases hkey : y.key = x.key
  · rw [hkey, Function.update_self] at hfound
    cases hfound
    rw [checkChannelList_of_key hy hx hkey]
    exact hentry
  · rw [Function.update_of_ne hkey] at hfound
    exact h y hy found hfound

section Steps

variable {lists : ChannelLists} {calls : List ListCall} {maps : ListMaps} {x : ChannelName}

/-- A call that sets or removes an override. -/
lemma Remembers.setBypass (h : Remembers lists calls maps) (hx : x.IsPattern) {call : ListCall}
    {target : Target} (send : Option Bool)
    (hcall : ∀ target' y current, call.override equalCodes target' y current
      = if target = target' ∧ y.like equalCodes x then send else current) :
    Remembers lists (calls ++ [call]) (maps.setBypass (Function.update (maps.bypassOf target) x.key
      (send.map fun send => if send then channelOn else channelOff)) target) where
  overrides target' := by
    have hforce : inForce equalCodes target' (calls ++ [call]) = fun y =>
        if target = target' ∧ y.like equalCodes x then send
        else inForce equalCodes target' calls y := by
      funext y
      rw [inForce_append, hcall]
    rw [hforce, bypassOf_setBypass]
    by_cases htarget : target = target'
    · subst htarget
      simp only [true_and, if_true]
      exact (h.overrides target).update hx send
    · simp only [htarget, false_and, if_false]
      exact h.overrides target'
  memo target' := by
    rw [shortcutOf_setBypass]
    exact h.memo target'
  entries := by
    rw [chanSizeShortcut_setBypass]
    exact h.entries

/-- A call that leaves the overrides. -/
lemma Remembers.of_query {maps' : ListMaps} (h : Remembers lists calls maps) {call : ListCall}
    (hcall : ∀ target y current, call.override equalCodes target y current = current)
    (hbypass : ∀ target, maps'.bypassOf target = maps.bypassOf target)
    (hmemo : ∀ target, HoldsMemo (maps'.shortcutOf target) (lists.of target))
    (hentries : HoldsEntries maps'.chanSizeShortcut lists.chanSizeList) :
    Remembers lists (calls ++ [call]) maps' where
  overrides target := by
    have hforce :
        inForce equalCodes target (calls ++ [call]) = inForce equalCodes target calls := by
      funext y
      rw [inForce_append, hcall]
    rw [hforce, hbypass]
    exact h.overrides target
  memo := hmemo
  entries := hentries

/-- A check answers as it should, and what it adds to its shortcut is what the list says. -/
lemma Remembers.checkNo (h : Remembers lists calls maps) (hparsed : lists.parseState ≠ 0)
    (hx : x.IsSeed) (target : Target) :
    (checkNo target lists maps x.station x.channel x.location).1
        = expectedFlag equalCodes lists calls target x ∧
      Remembers lists (calls ++ [.checkNo target x])
        (checkNo target lists maps x.station x.channel x.location).2 := by
  have hsame : Remembers lists (calls ++ [.checkNo target x]) maps :=
    h.of_query (fun _ _ _ => rfl) (fun _ => rfl) h.memo h.entries
  have hcheck := (h.overrides target).checkChannel hx
  unfold StationProcessor.checkNo expectedFlag
  rw [if_neg hparsed, hcheck]
  cases x.patterns.findSome? (inForce equalCodes target calls) with
  | some send =>
    cases send with
    | true => exact ⟨rfl, hsame⟩
    | false => exact ⟨rfl, hsame⟩
  | none =>
    simp only [if_true]
    cases hshortcut : maps.shortcutOf target (makeKey x.station x.location x.channel) with
    | some state =>
      refine ⟨?_, hsame⟩
      simp only [h.memo target x hx state hshortcut]
      cases (checkChannelList x.station x.channel x.location (lists.of target)).isSome with
      | true => rfl
      | false => rfl
    | none =>
      refine ⟨rfl, h.of_query (fun _ _ _ => rfl) (fun target' => ?_) (fun target' => ?_) ?_⟩
      · exact bypassOf_setShortcut _ _ _ _
      · dsimp only
        rw [shortcutOf_setShortcut]
        by_cases htarget : target = target'
        · subst htarget
          rw [if_pos rfl]
          exact (h.memo target).update hx
        · rw [if_neg htarget]
          exact h.memo target'
      · dsimp only
        rw [chanSizeShortcut_setShortcut]
        exact h.entries

lemma Remembers.numChanRecords (h : Remembers lists calls maps) (hparsed : lists.parseState ≠ 0)
    (hx : x.IsSeed) :
    (numChanRecords lists maps x.station x.channel x.location).1 = expectedRecords lists x ∧
      Remembers lists (calls ++ [.numChanRecords x])
        (numChanRecords lists maps x.station x.channel x.location).2 := by
  have hsame : Remembers lists (calls ++ [.numChanRecords x]) maps :=
    h.of_query (fun _ _ _ => rfl) (fun _ => rfl) h.memo h.entries
  unfold StationProcessor.numChanRecords expectedRecords
  rw [if_neg hparsed]
  cases hshortcut : maps.chanSizeShortcut (makeKey x.station x.location x.channel) with
  | some entry =>
    rw [h.entries x hx entry hshortcut]
    exact ⟨rfl, hsame⟩
  | none =>
    cases hentry : checkChannelList x.station x.channel x.location lists.chanSizeList with
    | none => exact ⟨rfl, hsame⟩
    | some entry =>
      exact ⟨rfl, h.of_query (fun _ _ _ => rfl) (fun _ => rfl) h.memo
        (h.entries.update hx hentry)⟩

/-- A call answers as it should, and the maps remember it. -/
lemma Remembers.step (h : Remembers lists calls maps) (hparsed : lists.parseState ≠ 0)
    {call : ListCall} (hformed : call.Formed) :
    (call.run lists maps).1 = expectedAnswer equalCodes lists calls call ∧
      Remembers lists (calls ++ [call]) (call.run lists maps).2 := by
  cases call with
  | setChannelTo target x send =>
    exact ⟨rfl, h.setBypass hformed (some send) fun _ _ _ => rfl⟩
  | defaultChannelTo target x =>
    refine ⟨?_, h.setBypass hformed none fun _ _ _ => rfl⟩
    have hvalue := h.overrides target x hformed
    unfold ListCall.run StationProcessor.defaultChannelTo defaultChannel expectedAnswer
    unfold ChannelName.key at hvalue
    simp only [hvalue, Option.isSome_map]
  | checkNo target x =>
    obtain ⟨hflag, hremembers⟩ := h.checkNo hparsed hformed target
    exact ⟨congrArg ListAnswer.flag hflag, hremembers⟩
  | numChanRecords x =>
    obtain ⟨hrecords, hremembers⟩ := h.numChanRecords hparsed hformed
    exact ⟨congrArg ListAnswer.records hrecords, hremembers⟩

end Steps

lemma remembers_mapsAfter {lists : ChannelLists} (hparsed : lists.parseState ≠ 0)
    {calls : List ListCall} (hformed : ∀ call ∈ calls, call.Formed) :
    Remembers lists calls (mapsAfter lists calls) := by
  induction calls using List.reverseRecOn with
  | nil => exact remembers_new lists
  | append_singleton calls call ih =>
    have hcalls := ih fun c hc => hformed c (List.mem_append_left _ hc)
    have hcall : call.Formed := hformed call (by simp)
    have hstep := (hcalls.step hparsed hcall).2
    simpa [mapsAfter] using hstep

/-- **Decisions.** Whatever calls came before, a check is answered by the most specific override in
force or, where there is none, by the list, and the record count is that of the list. -/
theorem decisions_follow_overrides {lists : ChannelLists} (hparsed : lists.parseState ≠ 0)
    (calls : List ListCall) (call : ListCall) (hcalls : ∀ c ∈ calls, c.Formed)
    (hcall : call.Formed) :
    (call.run lists (mapsAfter lists calls)).1 = expectedAnswer equalCodes lists calls call :=
  ((remembers_mapsAfter hparsed hcalls).step hparsed hcall).1

/-- Nothing is configured. -/
def emptyLists : ChannelLists := ⟨1, [], [], []⟩

/-- The broadband channels are not archived, but those of one station are. -/
def stationExcepted : List ListCall :=
  [.setChannelTo .archive ⟨[], [], ascii "BHZ"⟩ false,
    .setChannelTo .archive ⟨ascii "ANMO", [], []⟩ true]

lemma bhz_isSeed {station : String} (h : IsStation (ascii station)) : (bhz station).IsSeed :=
  ⟨h, (by decide : IsLocation (ascii "00")), (by decide : IsChannelCode (ascii "BHZ"))⟩

lemma stationExcepted_formed : ∀ c ∈ stationExcepted, c.Formed := by
  intro c hc
  rcases List.mem_pair.mp hc with rfl | rfl
  · exact ⟨by decide, by decide, by decide⟩
  · exact ⟨by decide, by decide, by decide⟩

theorem decisions_follow_overrides_excepted :
    (ListCall.run emptyLists (mapsAfter emptyLists stationExcepted)
        (.checkNo .archive (bhz "ANMO"))).1
      = expectedAnswer equalCodes emptyLists stationExcepted (.checkNo .archive (bhz "ANMO")) :=
  decisions_follow_overrides (by decide) stationExcepted _ stationExcepted_formed
    (bhz_isSeed (by decide))

/-- Two parts of names with the same characters, up to case. -/
def sameText (s t : Bytes) : Bool := upper s = upper t

/-- An override for the blank location. -/
def blankOverride : ListCall :=
  .setChannelTo .archive ⟨ascii "ANMO", ascii "  ", ascii "BHZ"⟩ false

/-- An override for the blank location is taken for one for all locations: another channel is not
archived, although no override is in force for it and no list has it. -/
theorem blank_override_catches_all :
    (emptyLists.parseState ≠ 0 ∧ blankOverride.Formed ∧ (bhz "ANMO").IsSeed) ∧
      (checkNo .archive emptyLists (mapsAfter emptyLists [blankOverride]) (ascii "ANMO")
        (ascii "BHZ") (ascii "00")).1 = 1 ∧
      expectedFlag sameText emptyLists [blankOverride] .archive (bhz "ANMO") = 0 := by
  refine ⟨⟨by decide, ⟨by decide, by decide, by decide⟩, bhz_isSeed (by decide)⟩, ?_, ?_⟩
  · decide +kernel
  · decide +kernel

end StationProcessor
