import StationProcessor.Archd.ChannelControl
import StationProcessor.Diskloop.Overrides

/-!
# Channel control requests

The frames that `ChannelControl` accepts, as texts that are printed from a request, and what it does
to the bypass maps for each of them. All other frames are refused and change nothing.
-/

namespace StationProcessor

open Decimal

/-! ### Requests -/

/-- A field of at most `max` characters. -/
def IsField (ok : UInt8 → Bool) (max : ℕ) (s : Bytes) : Prop :=
  s.length ≤ max ∧ ∀ b ∈ s, ok b = true

/-- A request: the number of the message, a channel whose parts may be empty, and a command. -/
structure ControlRequest where
  id : Bytes
  station : Bytes
  location : Bytes
  channel : Bytes
  command : Command
  hid : id ≠ [] ∧ IsField isDigit 8 id
  hstation : IsField isAlnum 5 station
  hlocation : IsField isAlnum 2 location
  hchannel : IsField isAlnum 3 channel

def Command.target : Command → Target
  | .archive _ => .archive
  | .ida _ => .ida

/-- What a command sets; `none` is the default. -/
def Command.send : Command → Option Bool
  | .archive send => send
  | .ida send => send

def Command.text : Command → Bytes
  | .archive none => ascii "ARCHIVE-DEFAULT"
  | .archive (some false) => ascii "ARCHIVE-OFF"
  | .archive (some true) => ascii "ARCHIVE-ON"
  | .ida none => ascii "IDA-DEFAULT"
  | .ida (some false) => ascii "IDA-OFF"
  | .ida (some true) => ascii "IDA-ON"

def BypassMaps.of (maps : BypassMaps) : Target → BypassMap
  | .archive => maps.channelToArchive
  | .ida => maps.channelToIda

namespace ControlRequest

variable (request : ControlRequest)

/-- The fields behind `CHANNELCONTROL`. -/
def text : Bytes :=
  45 :: request.id ++ 45 :: request.station ++ 45 :: request.location ++ 45 :: request.channel
    ++ 45 :: request.command.text

/-- The override a request names. -/
def key : Bytes := makeKey request.station request.location request.channel

/-- What a request leaves under its key. -/
def value : Option ℤ := request.command.send.map fun send => if send then channelOn else channelOff

/-- An override is for the channels whose codes it has; an empty part is for all of them. -/
def Covers (x : ChannelName) : Prop :=
  (request.station = [] ∨ codeOf request.station = codeOf (behindSeparator x.station)) ∧
    (request.location = [] ∨ codeOf request.location = codeOf x.location) ∧
    (request.channel = [] ∨ codeOf request.channel = codeOf x.channel)

end ControlRequest

/-- What a request promises: its number, a change of the override it names and of no other, 1, or 0
where there is no override to remove. Checks may change for the channels it covers only. -/
structure Applied (maps : BypassMaps) (request : ControlRequest) (r : ChannelResult) : Prop where
  msgId : r.msgId = ofDecimal request.id
  overrides : ∀ target key, r.maps.of target key
    = if target = request.command.target ∧ key = request.key then request.value
      else maps.of target key
  result : r.result
    = if request.command.send = none ∧ maps.of request.command.target request.key = none then 0
      else 1
  checks : ∀ target (x : ChannelName), ¬(target = request.command.target ∧ request.Covers x) →
    checkChannel (r.maps.of target) x.station x.channel x.location
      = checkChannel (maps.of target) x.station x.channel x.location

/-- What is promised of a frame that starts with `CHANNELCONTROL`, by what follows. -/
structure ControlRight (maps : BypassMaps) (rest : Bytes) (r : ChannelResult) : Prop where
  valid : ∀ (request : ControlRequest) (tail : Bytes), rest = request.text ++ tail →
    Applied maps request r
  invalid : (∀ (request : ControlRequest) (tail : Bytes), rest ≠ request.text ++ tail) →
    r.result = -1 ∧ r.maps = maps

/-! ### Fields -/

section Fields

variable {ok : UInt8 → Bool} {max : ℕ} {field ptr rest : Bytes}

lemma scanField_append (hok : ok 45 = false) (h : IsField ok max field) (rest : Bytes) :
    scanField ok max (field ++ 45 :: rest) = some (field, 45 :: rest) := by
  obtain ⟨hlength, hall⟩ := h
  induction field generalizing max with
  | nil =>
    cases max with
    | zero => rfl
    | succ max => simp [scanField]
  | cons c field ih =>
    obtain ⟨max, rfl⟩ : ∃ n, max = n + 1 := Nat.exists_eq_add_one.mpr (by simp at hlength; omega)
    have hc : ok c = true := hall c List.mem_cons_self
    have hne : c ≠ 45 := by
      rintro rfl
      rw [hok] at hc
      cases hc
    have hrest : scanField ok max (field ++ 45 :: rest) = some (field, 45 :: rest) :=
      ih (by simpa using hlength) fun b hb => hall b (List.mem_cons_of_mem c hb)
    simp [scanField, hne, hc, hrest]

lemma scanField_eq_some (h : scanField ok max ptr = some (field, rest)) :
    ptr = field ++ rest ∧ IsField ok max field := by
  induction max generalizing ptr field with
  | zero =>
    obtain ⟨rfl, rfl⟩ : [] = field ∧ ptr = rest := by simpa [scanField] using h
    exact ⟨rfl, le_rfl, fun b hb => by cases hb⟩
  | succ max ih =>
    cases ptr with
    | nil => cases h
    | cons c ptr =>
      rw [scanField] at h
      split_ifs at h with hdash hc
      · obtain ⟨rfl, rfl⟩ : [] = field ∧ c :: ptr = rest := by simpa using h
        exact ⟨rfl, Nat.zero_le _, fun b hb => by cases hb⟩
      · obtain ⟨⟨field', rest'⟩, hscan, heq⟩ := Option.map_eq_some_iff.mp h
        obtain ⟨rfl, rfl⟩ : c :: field' = field ∧ rest' = rest := by simpa using heq
        obtain ⟨rfl, hlength, hall⟩ := ih hscan
        exact ⟨rfl, Nat.succ_le_succ hlength, List.forall_mem_cons.mpr ⟨hc, hall⟩⟩

lemma skipDash_eq_some (h : skipDash ptr = some rest) : ptr = 45 :: rest := by
  unfold skipDash at h
  split at h
  · rw [Option.some.inj h]
  · cases h

end Fields

/-! ### Frames -/

lemma parseMessageId_append {id : Bytes} (h : id ≠ [] ∧ IsField isDigit 8 id) (rest : Bytes) :
    parseMessageId (45 :: id ++ 45 :: rest) = some (ofDecimal id, 45 :: rest) := by
  have hscan := scanField_append (by decide) h.2 rest
  simp [parseMessageId, skipDash, hscan, h.1]

lemma parseMessageId_eq_some {ptr rest : Bytes} {n : ℤ} (h : parseMessageId ptr = some (n, rest)) :
    ∃ id, (id ≠ [] ∧ IsField isDigit 8 id) ∧ n = ofDecimal id ∧ ptr = 45 :: id ++ rest := by
  obtain ⟨ptr', hdash, h⟩ := Option.bind_eq_some_iff.mp h
  obtain ⟨⟨id, rest'⟩, hscan, h⟩ := Option.bind_eq_some_iff.mp h
  dsimp only at h
  split_ifs at h with hid
  obtain ⟨rfl, rfl⟩ : ofDecimal id = n ∧ rest' = rest := by simpa using h
  obtain ⟨rfl, hfield⟩ := scanField_eq_some hscan
  exact ⟨id, ⟨hid, hfield⟩, rfl, skipDash_eq_some hdash⟩

lemma parseChannel_append {station location channel : Bytes} (hstation : IsField isAlnum 5 station)
    (hlocation : IsField isAlnum 2 location) (hchannel : IsField isAlnum 3 channel) (rest : Bytes) :
    parseChannel (45 :: station ++ 45 :: location ++ 45 :: channel ++ 45 :: rest)
      = some (station, location, channel, rest) := by
  have hs := scanField_append (by decide) hstation (location ++ 45 :: (channel ++ 45 :: rest))
  have hl := scanField_append (by decide) hlocation (channel ++ 45 :: rest)
  have hc := scanField_append (by decide) hchannel rest
  simp [parseChannel, skipDash, hs, hl, hc]

lemma parseChannel_eq_some {ptr station location channel rest : Bytes}
    (h : parseChannel ptr = some (station, location, channel, rest)) :
    (IsField isAlnum 5 station ∧ IsField isAlnum 2 location ∧ IsField isAlnum 3 channel) ∧
      ptr = 45 :: station ++ 45 :: location ++ 45 :: channel ++ 45 :: rest := by
  obtain ⟨ptr₀, hdash₀, h⟩ := Option.bind_eq_some_iff.mp h
  obtain ⟨⟨station', ptr₁⟩, hs, h⟩ := Option.bind_eq_some_iff.mp h
  obtain ⟨ptr₂, hdash₁, h⟩ := Option.bind_eq_some_iff.mp h
  obtain ⟨⟨location', ptr₃⟩, hl, h⟩ := Option.bind_eq_some_iff.mp h
  obtain ⟨ptr₄, hdash₂, h⟩ := Option.bind_eq_some_iff.mp h
  obtain ⟨⟨channel', ptr₅⟩, hc, h⟩ := Option.bind_eq_some_iff.mp h
  obtain ⟨ptr₆, hdash₃, h⟩ := Option.bind_eq_some_iff.mp h
  obtain ⟨rfl, rfl, rfl, rfl⟩ :
      station' = station ∧ location' = location ∧ channel' = channel ∧ ptr₆ = rest := by
    simpa using h
  obtain ⟨rfl, hstation⟩ := scanField_eq_some hs
  obtain rfl := skipDash_eq_some hdash₁
  obtain ⟨rfl, hlocation⟩ := scanField_eq_some hl
  obtain rfl := skipDash_eq_some hdash₂
  obtain ⟨rfl, hchannel⟩ := scanField_eq_some hc
  obtain rfl := skipDash_eq_some hdash₃
  obtain rfl := skipDash_eq_some hdash₀
  exact ⟨⟨hstation, hlocation, hchannel⟩, by simp⟩

/-- No command is the start of another one. -/
lemma parseCommand_append (command : Command) (tail : Bytes) :
    parseCommand (command.text ++ tail) = some command := by
  rcases command with (_ | _ | _) | (_ | _ | _) <;> rfl

lemma parseCommand_eq_some {ptr : Bytes} {command : Command} (h : parseCommand ptr = some command) :
    ∃ tail, ptr = command.text ++ tail := by
  unfold parseCommand at h
  split_ifs at h with h₀ h₁ h₂ h₃ h₄ h₅ <;> obtain rfl := Option.some.inj h
  · exact h₀.imp fun _ => Eq.symm
  · exact h₁.imp fun _ => Eq.symm
  · exact h₂.imp fun _ => Eq.symm
  · exact h₃.imp fun _ => Eq.symm
  · exact h₄.imp fun _ => Eq.symm
  · exact h₅.imp fun _ => Eq.symm

/-! ### Overrides -/

/-- A channel that an override is not for does not fall under its key. -/
lemma ControlRequest.covers_of_key (request : ControlRequest) {x p : ChannelName}
    (hp : p ∈ x.patterns) (hkey : p.key = request.key) : request.Covers x := by
  have hstation : behindSeparator request.station = request.station :=
    behindSeparator_of_alnum request.hstation.2
  have hnil : ∀ {s : Bytes}, (∀ b ∈ s, isAlnum b = true) → [] = codeOf s → s = [] := by
    intro s hs h
    rw [codeOf_of_alnum hs] at h
    exact List.map_eq_nil_iff.mp h.symm
  obtain ⟨hs, hl, hc⟩ := (makeKey_eq_iff _ _ _ _ _ _).mp hkey
  rw [hstation] at hs
  simp only [ChannelName.patterns, List.mem_cons, List.not_mem_nil, or_false] at hp
  refine ⟨?_, ?_, ?_⟩
  · rcases hp with rfl | rfl | rfl | rfl | rfl | rfl | rfl | rfl
    all_goals first
      | exact Or.inr hs.symm
      | exact Or.inl (hnil request.hstation.2 hs)
  · rcases hp with rfl | rfl | rfl | rfl | rfl | rfl | rfl | rfl
    all_goals first
      | exact Or.inr hl.symm
      | exact Or.inl (hnil request.hlocation.2 hl)
  · rcases hp with rfl | rfl | rfl | rfl | rfl | rfl | rfl | rfl
    all_goals first
      | exact Or.inr hc.symm
      | exact Or.inl (hnil request.hchannel.2 hc)

/-- Maps that differ in the key of a request answer the same for channels that it does not cover. -/
lemma ControlRequest.checkChannel_eq (request : ControlRequest) {map map' : BypassMap}
    (h : ∀ key, key ≠ request.key → map' key = map key) {x : ChannelName}
    (hx : ¬ request.Covers x) :
    checkChannel map' x.station x.channel x.location
      = checkChannel map x.station x.channel x.location := by
  have hsame : ∀ p ∈ x.patterns, map' p.key = map p.key := fun p hp =>
    h p.key fun hkey => hx (request.covers_of_key hp hkey)
  have hfind : ∀ ps : List ChannelName, (∀ p ∈ ps, map' p.key = map p.key) →
      ps.findSome? (fun p => map' p.key) = ps.findSome? fun p => map p.key := by
    intro ps hps
    induction ps with
    | nil => rfl
    | cons p ps ih =>
      rw [List.findSome?_cons, List.findSome?_cons, hps p List.mem_cons_self,
        ih fun q hq => hps q (List.mem_cons_of_mem p hq)]
  rw [StationProcessor.checkChannel_eq, StationProcessor.checkChannel_eq, hfind x.patterns hsame]

/-- What a command does to the maps. -/
lemma applyCommand_of (maps : BypassMaps) (station location channel : Bytes) (command : Command)
    (target : Target) (key : Bytes) :
    (applyCommand maps station channel location command).1.of target key
      = if target = command.target ∧ key = makeKey station location channel then
          command.send.map fun send => if send then channelOn else channelOff
        else maps.of target key := by
  have hmap : ∀ map send, (applyToMap map station channel location send).1 key
      = if key = makeKey station location channel then
          send.map fun send => if send then channelOn else channelOff
        else map key := by
    intro map send
    cases send with
    | none => exact Function.update_apply _ _ _ _
    | some send => exact Function.update_apply _ _ _ _
  cases command with
  | archive send =>
    cases target with
    | archive =>
      simp only [Command.target, true_and]
      exact hmap maps.channelToArchive send
    | ida => simp [Command.target, applyCommand, BypassMaps.of]
  | ida send =>
    cases target with
    | archive => simp [Command.target, applyCommand, BypassMaps.of]
    | ida =>
      simp only [Command.target, true_and]
      exact hmap maps.channelToIda send

lemma applyCommand_result (maps : BypassMaps) (station location channel : Bytes)
    (command : Command) :
    (if (applyCommand maps station channel location command).2 > 0 then 1 else 0 : ℤ)
      = if command.send = none ∧
            maps.of command.target (makeKey station location channel) = none then 0 else 1 := by
  have hmap :
      ∀ map send, (if (applyToMap map station channel location send).2 > 0 then 1 else 0 : ℤ)
      = if send = none ∧ map (makeKey station location channel) = none then 0 else 1 := by
    intro map send
    rcases send with _ | _ | _
    · cases hkey : map (makeKey station location channel) with
      | none => simp [applyToMap, defaultChannel, hkey]
      | some value => simp [applyToMap, defaultChannel, hkey]
    · rfl
    · rfl
  cases command with
  | archive send => exact hmap maps.channelToArchive send
  | ida send => exact hmap maps.channelToIda send

/-- **Channel control.** A frame that starts with `CHANNELCONTROL` is applied when it is a request,
whatever follows it, and refused when it is none. -/
theorem channelControl_right (maps : BypassMaps) (rest : Bytes) (msgId : ℤ) :
    ControlRight maps rest (channelControl maps (ascii "CHANNELCONTROL" ++ rest) msgId) := by
  have hdrop : (ascii "CHANNELCONTROL" ++ rest).drop 14 = rest := rfl
  unfold channelControl
  rw [hdrop]
  constructor
  · rintro request tail rfl
    have hid : parseMessageId (request.text ++ tail) = some (ofDecimal request.id,
        45 :: request.station ++ 45 :: request.location ++ 45 :: request.channel
          ++ 45 :: (request.command.text ++ tail)) := by
      have h := parseMessageId_append request.hid
        (request.station ++ 45 :: request.location ++ 45 :: request.channel
          ++ 45 :: (request.command.text ++ tail))
      simpa [ControlRequest.text] using h
    have hchannel := parseChannel_append request.hstation request.hlocation request.hchannel
      (request.command.text ++ tail)
    have hcommand := parseCommand_append request.command tail
    simp only [hid, hchannel, hcommand]
    have hof := applyCommand_of maps request.station request.location request.channel
      request.command
    refine ⟨rfl, hof, applyCommand_result _ _ _ _ _, fun target x hx => ?_⟩
    by_cases htarget : target = request.command.target
    · refine request.checkChannel_eq (fun key hkey => ?_) fun hcovers => hx ⟨htarget, hcovers⟩
      rw [hof, if_neg fun h => hkey h.2]
    · have hsame : (applyCommand maps request.station request.channel request.location
          request.command).1.of target = maps.of target := by
        funext key
        rw [hof, if_neg fun h => htarget h.1]
      rw [hsame]
  · intro hnone
    cases hid : parseMessageId rest with
    | none => exact ⟨rfl, rfl⟩
    | some parsed =>
      obtain ⟨n, ptr⟩ := parsed
      cases hchannel : parseChannel ptr with
      | none => simp [hchannel]
      | some parsed =>
        obtain ⟨station, location, channel, ptr'⟩ := parsed
        cases hcommand : parseCommand ptr' with
        | none => simp [hchannel, hcommand]
        | some command =>
          -- the frame is the text of a request
          obtain ⟨id, hid', rfl, rfl⟩ := parseMessageId_eq_some hid
          obtain ⟨⟨hs, hl, hc⟩, rfl⟩ := parseChannel_eq_some hchannel
          obtain ⟨tail, rfl⟩ := parseCommand_eq_some hcommand
          refine absurd ?_ (hnone ⟨id, station, location, channel, command, hid', hs, hl, hc⟩ tail)
          simp [ControlRequest.text]

/-- A location of three characters is refused, an empty one is not. -/
example :
    (channelControl .none (ascii "CHANNELCONTROL-7-ANMO-000-BHZ-IDA-OFF") 0).result = -1 ∧
      (channelControl .none (ascii "CHANNELCONTROL-7-ANMO--BHZ-IDA-OFF") 0).result = 1 := by
  decide +kernel

end StationProcessor
