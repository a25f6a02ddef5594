import Mathlib.Data.Finset.Card
import StationProcessor.Falcon.AlarmArchive

/-!
# Alarm lines

`alarm_filter_lines` of `falcon/alarm.c`. The lines that its regular expression finds in the alarm
page are appended to a list, unless they are old or already there; the list is cut at its front when
it gets too long.
-/

namespace StationProcessor

open Decimal

/-! ### What is read from a line -/

/-- The groups of the regular expression that are used. -/
structure AlarmGroups where
  code : Bytes
  event : Bytes
  time : Bytes
  description : CString
  described : description.val ≠ []

/-- What the C library makes of a line: `regexec` its groups, `strptime` and `mktime` the time. A
year of two digits is before 2069. -/
structure AlarmReader where
  groups : Bytes → AlarmGroups
  mktime : Bytes → ℤ
  mktime_lt : ∀ time, mktime time < 2 ^ 32

/-- `atoi` -/
def atoi (s : Bytes) : ℤ := ((scanInt s).map Prod.fst).getD 0

/-- A line after it was archived. -/
def AlarmLine.archived (a : AlarmLine) : AlarmLine := { a with sent := true }

lemma zero_notMem_take {s : Bytes} (h : 0 ∉ s) (count : ℕ) : 0 ∉ s.take count :=
  fun hmem => h (List.mem_of_mem_take hmem)

namespace AlarmReader

variable (r : AlarmReader) (text : Bytes)

def timestamp : ℤ := r.mktime (r.groups text).time

def code : UInt16 := UInt16.ofNat (atoi (r.groups text).code).toNat

def channel : UInt16 := r.code text / 10

/-- The last digit of the code, marked if the alarm returns. -/
def event : UInt8 :=
  let event := (r.code text % 10).toUInt8
  if (r.groups text).event = ascii "RTN" then event ||| 0x80 else event

def description : CString :=
  ⟨(r.groups text).description.val.take 8,
    zero_notMem_take (r.groups text).description.property 8⟩

/-- The element of the list that is made of a line. -/
def line (h : 0 < r.timestamp text) : AlarmLine where
  text := text
  sent := false
  timestamp := r.timestamp text
  channel := r.channel text
  event := r.event text
  description := r.description text
  short := List.length_take_le 8 _
  fits := ⟨h, r.mktime_lt _⟩

/-- What a payload has of a line. -/
def content : AlarmContent :=
  ⟨r.channel text, r.timestamp text, r.event text, (r.description text).val⟩

lemma description_ne_nil : (r.description text).val ≠ [] := by
  intro hnil
  rcases List.take_eq_nil_iff.mp hnil with h | h
  · simp at h
  · exact (r.groups text).described h

/-- A line that is newer than the last alarm. -/
def Newer (last : ℕ) : Prop := (last : ℤ) < r.timestamp text

instance (last : ℕ) : DecidablePred (r.Newer · last) :=
  fun _ => inferInstanceAs (Decidable ((last : ℤ) < _))

/-- An element that was made of a line. -/
structure Makes (a : AlarmLine) : Prop where
  channel : a.channel = r.channel a.text
  timestamp : a.timestamp = r.timestamp a.text
  event : a.event = r.event a.text
  description : a.description = r.description a.text

variable {r text}

lemma makes_line (h : 0 < r.timestamp text) : r.Makes (r.line text h) := ⟨rfl, rfl, rfl, rfl⟩

lemma Makes.content_eq {a : AlarmLine} (h : r.Makes a) : a.content = r.content a.text := by
  rw [AlarmLine.content, h.channel, h.timestamp, h.event, h.description, content]

lemma Makes.archived {a : AlarmLine} (h : r.Makes a) : r.Makes a.archived :=
  ⟨h.channel, h.timestamp, h.event, h.description⟩

/-- All elements with a description are archived. -/
lemma Makes.added_iff {a : AlarmLine} (h : r.Makes a) : a.Added ↔ a.sent = false := by
  refine and_iff_left ?_
  rw [h.description]
  exact r.description_ne_nil a.text

end AlarmReader

/-! ### `alarm_filter_lines` -/

def maxAlarms : ℕ := 256

/-- A match in the part of the page that is left: its place there, and its text. -/
structure AlarmMatch where
  start : ℕ
  text : Bytes
  nonempty : text ≠ []
deriving DecidableEq

/-- The lines of the alarm page. A newline is in front of a line that is not the first. -/
structure AlarmPage where
  lines : List AlarmMatch
  later : ∀ m ∈ lines.tail, m.start ≠ 0

/-- `_alarm_list_seeker`. The hashes are those of the texts. -/
def alarmListSeeker (element indicator : AlarmLine) : Bool :=
  element.channel = indicator.channel ∧ element.event = indicator.event ∧
    element.timestamp = indicator.timestamp ∧ indicator.text = element.text

/-- `list_append`; the list loses its first line if it is too long. -/
def appendAlarm (lines : List AlarmLine) (a : AlarmLine) : List AlarmLine :=
  let lines := lines ++ [a]
  if lines.length > maxAlarms then lines.tail else lines

/-- One turn of the loop over the matches. A match at place 0 is taken for none. -/
def filterAlarm (r : AlarmReader) (last : ℕ) (lines : List AlarmLine) (m : AlarmMatch) :
    List AlarmLine :=
  if m.start ≠ 0 ∧ m.text ≠ [] then
    if h : (last : ℤ) < r.timestamp m.text then
      let a := r.line m.text (last.cast_nonneg.trans_lt h)
      if lines.any (alarmListSeeker a) then lines else appendAlarm lines a
    else lines
  else lines

/-- `alarm_filter_lines` -/
def alarmFilterLines (r : AlarmReader) (last : ℕ) (lines : List AlarmLine) (page : AlarmPage) :
    List AlarmLine :=
  page.lines.foldl (filterAlarm r last) lines

/-! ### One line -/

/-- A match that is taken, and newer than the last alarm. -/
def AlarmReader.Reads (r : AlarmReader) (last : ℕ) (m : AlarmMatch) : Prop :=
  m.start ≠ 0 ∧ r.Newer m.text last

instance (r : AlarmReader) (last : ℕ) : DecidablePred (r.Reads last) :=
  fun _ => inferInstanceAs (Decidable (_ ∧ _))

lemma appendAlarm_of_lt {lines : List AlarmLine} (h : lines.length < maxAlarms) (a : AlarmLine) :
    appendAlarm lines a = lines ++ [a] := by
  have hshort : ¬ (lines ++ [a]).length > maxAlarms := by simpa using h
  simp only [appendAlarm, if_neg hshort]

lemma appendAlarm_sublist (lines : List AlarmLine) (a : AlarmLine) :
    (appendAlarm lines a).Sublist (lines ++ [a]) := by
  simp only [appendAlarm]
  split_ifs
  · exact List.tail_sublist _
  · exact List.Sublist.refl _

/-- The line that was appended is still the last. -/
lemma getLast?_appendAlarm (lines : List AlarmLine) (a : AlarmLine) :
    (appendAlarm lines a).getLast? = some a := by
  simp only [appendAlarm]
  split_ifs with hlong
  · cases lines with
    | nil => simp [maxAlarms] at hlong
    | cons b lines => simp
  · simp

section Filter

variable {r : AlarmReader} {last : ℕ} {lines : List AlarmLine} {texts : Finset Bytes}

/-- The seeker finds a line by its text. -/
lemma any_alarmListSeeker {a : AlarmLine} (ha : r.Makes a) (hlines : ∀ b ∈ lines, r.Makes b) :
    lines.any (alarmListSeeker a) ↔ a.text ∈ lines.map AlarmLine.text := by
  rw [List.any_eq_true, List.mem_map]
  refine exists_congr fun b => and_congr_right fun hb => ?_
  rw [alarmListSeeker, decide_eq_true_iff]
  refine ⟨fun h => h.2.2.2, fun h => ?_⟩
  have hmakes := hlines b hb
  rw [ha.channel, ha.event, ha.timestamp, hmakes.channel, hmakes.event, hmakes.timestamp, h]
  exact ⟨rfl, rfl, rfl, rfl⟩

/-- A match is appended if it is read and new. -/
lemma filterAlarm_cases (hlines : ∀ b ∈ lines, r.Makes b) (m : AlarmMatch) :
    ((r.Reads last m → m.text ∈ lines.map AlarmLine.text) ∧ filterAlarm r last lines m = lines) ∨
      (r.Reads last m ∧ m.text ∉ lines.map AlarmLine.text ∧
        ∃ a, r.Makes a ∧ a.text = m.text ∧ a.sent = false ∧
          filterAlarm r last lines m = appendAlarm lines a) := by
  unfold filterAlarm
  split_ifs with htaken hnewer
  · have ha := AlarmReader.makes_line (last.cast_nonneg.trans_lt hnewer)
    cases hany : lines.any (alarmListSeeker (r.line m.text (last.cast_nonneg.trans_lt hnewer))) with
    | true => exact Or.inl ⟨fun _ => (any_alarmListSeeker ha hlines).mp hany, by simp [hany]⟩
    | false =>
      have hnew : m.text ∉ lines.map AlarmLine.text := fun hmem =>
        absurd ((any_alarmListSeeker ha hlines).mpr hmem) (by simp [hany])
      exact Or.inr ⟨⟨htaken.1, hnewer⟩, hnew, _, ha, rfl, rfl, by simp [hany]⟩
  · exact Or.inl ⟨fun h => absurd h.2 hnewer, rfl⟩
  · exact Or.inl ⟨fun h => absurd ⟨h.1, m.nonempty⟩ htaken, rfl⟩

/-- Different lines, made of texts among `texts`. -/
structure AlarmReader.Holds (r : AlarmReader) (texts : Finset Bytes) (lines : List AlarmLine) :
    Prop where
  makes : ∀ a ∈ lines, r.Makes a
  nodup : (lines.map AlarmLine.text).Nodup
  mem : ∀ a ∈ lines, a.text ∈ texts

namespace AlarmReader.Holds

lemma nil : r.Holds texts [] := ⟨by simp, by simp, by simp⟩

lemma length_le (h : r.Holds texts lines) : lines.length ≤ texts.card := by
  have hsub : (lines.map AlarmLine.text).toFinset ⊆ texts := by
    intro t ht
    obtain ⟨a, ha, rfl⟩ := List.mem_map.mp (List.mem_toFinset.mp ht)
    exact h.mem a ha
  have hcard := Finset.card_le_card hsub
  rwa [List.toFinset_card_of_nodup h.nodup, List.length_map] at hcard

lemma sublist (h : r.Holds texts lines) {lines' : List AlarmLine} (hsub : lines'.Sublist lines) :
    r.Holds texts lines' :=
  ⟨fun a ha => h.makes a (hsub.subset ha), h.nodup.sublist (hsub.map _),
    fun a ha => h.mem a (hsub.subset ha)⟩

lemma perm (h : r.Holds texts lines) {lines' : List AlarmLine} (hperm : lines'.Perm lines) :
    r.Holds texts lines' :=
  ⟨fun a ha => h.makes a (hperm.subset ha), (hperm.map _).nodup_iff.mpr h.nodup,
    fun a ha => h.mem a (hperm.subset ha)⟩

lemma append (h : r.Holds texts lines) {a : AlarmLine} (ha : r.Makes a) (hmem : a.text ∈ texts)
    (hnew : a.text ∉ lines.map AlarmLine.text) : r.Holds texts (lines ++ [a]) := by
  refine ⟨?_, ?_, ?_⟩
  · simpa [or_imp, forall_and] using ⟨h.makes, ha⟩
  · rw [List.map_append, List.map_singleton]
    exact List.nodup_append.mpr ⟨h.nodup, List.nodup_singleton _,
      fun t ht u hu heq => hnew (by rwa [← List.mem_singleton.mp hu, ← heq])⟩
  · simpa [or_imp, forall_and] using ⟨h.mem, hmem⟩

lemma filterAlarm (h : r.Holds texts lines) {m : AlarmMatch}
    (hmem : r.Reads last m → m.text ∈ texts) :
    r.Holds texts (StationProcessor.filterAlarm r last lines m) := by
  rcases filterAlarm_cases h.makes m with ⟨-, heq⟩ | ⟨hreads, hnew, a, ha, htext, -, heq⟩
  · rwa [heq]
  · rw [heq]
    rw [← htext] at hnew
    exact (h.append ha (htext ▸ hmem hreads) hnew).sublist (appendAlarm_sublist lines a)

/-! ### All lines -/

lemma foldl (h : r.Holds texts lines) {ms : List AlarmMatch}
    (hmem : ∀ m ∈ ms, r.Reads last m → m.text ∈ texts) :
    r.Holds texts (ms.foldl (StationProcessor.filterAlarm r last) lines) := by
  induction ms generalizing lines with
  | nil => exact h
  | cons m ms ih =>
    obtain ⟨hm, hms⟩ := List.forall_mem_cons.mp hmem
    exact ih (h.filterAlarm hm) hms

/-- As long as all texts have room, no line is lost, and the new ones among those that are read are
appended. -/
lemma foldl_eq (h : r.Holds texts lines) (hroom : texts.card ≤ maxAlarms) {ms : List AlarmMatch}
    (hmem : ∀ m ∈ ms, r.Reads last m → m.text ∈ texts) :
    ∃ added, ms.foldl (StationProcessor.filterAlarm r last) lines = lines ++ added ∧
      (∀ a ∈ added, a.sent = false) ∧
      ∀ t, t ∈ (lines ++ added).map AlarmLine.text ↔
        t ∈ lines.map AlarmLine.text ∨ ∃ m ∈ ms, r.Reads last m ∧ m.text = t := by
  induction ms generalizing lines with
  | nil => exact ⟨[], by simp, by simp, by simp⟩
  | cons m ms ih =>
    obtain ⟨hm, hms⟩ := List.forall_mem_cons.mp hmem
    obtain ⟨added, heq, hsent, htexts⟩ := ih (h.filterAlarm hm) hms
    rw [List.foldl_cons, heq]
    rcases filterAlarm_cases h.makes m with ⟨hold, hm'⟩ | ⟨hreads, hnew, a, ha, htext, hunsent, hm'⟩
    · rw [hm'] at htexts ⊢
      refine ⟨added, rfl, hsent, fun t => (htexts t).trans ?_⟩
      rw [List.exists_mem_cons_iff]
      refine ⟨Or.imp_right Or.inr, ?_⟩
      rintro (ht | ⟨hreads, rfl⟩ | ht)
      · exact Or.inl ht
      · exact Or.inl (hold hreads)
      · exact Or.inr ht
    · have happend : (lines ++ [a]).length ≤ maxAlarms := by
        refine (h.append ha (htext ▸ hm hreads) (htext ▸ hnew)).length_le.trans hroom
      rw [List.length_append, List.length_singleton] at happend
      rw [hm', appendAlarm_of_lt happend] at htexts ⊢
      rw [List.append_assoc] at htexts ⊢
      refine ⟨[a] ++ added, rfl, ?_, fun t => (htexts t).trans ?_⟩
      · simpa [or_imp, forall_and] using ⟨hunsent, hsent⟩
      · rw [List.exists_mem_cons_iff, List.map_append, List.mem_append, List.map_singleton,
          List.mem_singleton, htext, or_assoc, eq_comm, and_iff_right hreads]

/-- Once a line has been appended the last line is not sent. -/
lemma foldl_unsent (h : r.Holds texts lines) {ms : List AlarmMatch}
    (hmem : ∀ m ∈ ms, r.Reads last m → m.text ∈ texts)
    (hunsent : (∃ a ∈ lines.getLast?, a.sent = false) ∨
      ∃ m ∈ ms, r.Reads last m ∧ m.text ∉ lines.map AlarmLine.text) :
    ∃ a ∈ (ms.foldl (StationProcessor.filterAlarm r last) lines).getLast?, a.sent = false := by
  induction ms generalizing lines with
  | nil => simpa using hunsent
  | cons m ms ih =>
    obtain ⟨hm, hms⟩ := List.forall_mem_cons.mp hmem
    refine ih (h.filterAlarm hm) hms ?_
    rcases filterAlarm_cases h.makes m with ⟨hold, hm'⟩ | ⟨hreads, hnew, a, ha, htext, hsent, hm'⟩
    · rw [hm']
      rw [List.exists_mem_cons_iff] at hunsent
      rcases hunsent with hunsent | ⟨hreads, hnew⟩ | hunsent
      · exact Or.inl hunsent
      · exact absurd (hold hreads) hnew
      · exact Or.inr hunsent
    · rw [hm', getLast?_appendAlarm]
      exact Or.inl ⟨a, rfl, hsent⟩

end AlarmReader.Holds

end Filter

end StationProcessor
