import StationProcessor.WildMatch

/-!
# Channel filters

`check_filter` of `ida2liss.c` and `ida2arch.c`. The two copies differ only in where they report a
channel pattern that is too long.
-/

namespace StationProcessor

open Fallible

/-! ### The function -/

/-- The text of a buffer. -/
def bufferString (s : Bytes) : CString := ⟨cString s, zero_notMem_cString s⟩

inductive LogSink
  | stderr
  | syslog
deriving DecidableEq

/-- What `check_filter` answers and prints. -/
structure FilterAnswer where
  answer : ℤ
  printed : List (LogSink × Bytes)

/-- Ends an entry in `entry_str`, which has 16 bytes. -/
def endEntry (entryStr ptr : Bytes) : Except WildError (Option (Bytes × Bytes)) :=
  if 16 ≤ entryStr.length then .error .outOfBounds else .ok (some (entryStr, ptr))

/-- Copies an entry: the entry and the filter behind its comma, or `none` when it is too long. -/
def copyEntry (entryStr : Bytes) : Bytes → Except WildError (Option (Bytes × Bytes))
  | [] => endEntry entryStr []
  | c :: ptr =>
    if c = 44 then endEntry entryStr ptr
    else if 16 ≤ entryStr.length then .error .outOfBounds
    else if 5 < entryStr.length then .ok none
    else copyEntry (entryStr ++ [c]) ptr

/-- Copies the location of an entry to `pattern_str`, in the steps that are left at `i`. -/
def copyLocation (entryStr : Bytes) : ℕ → Bytes → ℕ → Bytes × ℕ
  | 0, patternStr, i => (patternStr, i)
  | n + 1, patternStr, i =>
    if entryStr.getD 0 0 = 47 then (ascii "  ", i)
    else if entryStr.getD i 0 = 47 then (patternStr, i)
    else copyLocation entryStr n (patternStr ++ [entryStr.getD i 0]) (i + 1)

def tooLongText (entryStr : Bytes) (i : ℕ) : Bytes :=
  ascii "check_filter entry_str '" ++ entryStr ++
    ascii ("' " ++ toString entryStr.length ++ " > " ++ toString i ++ "+4+1\n")

def matchedText (entryStr chanStr : Bytes) : Bytes :=
  ascii "Matched filter '" ++ entryStr ++ ascii "' against '" ++ chanStr ++ ascii "'\n"

/-- One entry: the answer, unless the loop goes on, and the calls of `WildMatch` so far. -/
def checkEntry (sink : LogSink) (verbose : Bool) (stack : ℕ → ℕ → ℤ) (calls : ℕ) (entryStr : Bytes)
    (chanStr : CString) : Except WildError (Option FilterAnswer × ℕ) :=
  if entryStr.length < 2 then return (some ⟨-1, []⟩, calls)
  else
    let (patternStr, i) := copyLocation entryStr 2 [] 0
    if entryStr.getD i 0 ≠ 47 then return (some ⟨-1, []⟩, calls)
    else do
      let locations ← wildMatch (stack calls) (maxNamLen + 1) (bufferString (patternStr.take i))
        (bufferString (chanStr.1.take 2))
      if locations = false then return (none, calls + 1)
      else if entryStr.length - i > 4 then
        return (some ⟨-1, [(sink, tooLongText entryStr i)]⟩, calls + 1)
      else do
        let channels ← wildMatch (stack (calls + 1)) (maxNamLen + 1)
          (bufferString ((entryStr.drop (i + 1)).take 3)) (bufferString ((chanStr.1.drop 3).take 3))
        if channels then
          return (some ⟨1, if verbose then [(.stderr, matchedText entryStr chanStr)] else []⟩,
            calls + 2)
        else return (none, calls + 2)

/-- The loop over the entries. -/
def filterLoop (sink : LogSink) (verbose : Bool) (stack : ℕ → ℕ → ℤ) (chanStr : CString) :
    ℕ → ℕ → Bytes → Except WildError FilterAnswer
  | _, _, [] => return ⟨0, []⟩
  | 0, _, _ :: _ => .error .outOfFuel
  | fuel + 1, calls, c :: ptr => do
    match ← copyEntry [] (c :: ptr) with
    | none => return ⟨-1, []⟩
    | some (entryStr, ptr) =>
      match ← checkEntry sink verbose stack calls entryStr chanStr with
      | (some answer, _) => return answer
      | (none, calls) => filterLoop sink verbose stack chanStr fuel calls ptr

/-- `check_filter`, with where it reports and what the stack holds at the calls of `WildMatch`. -/
def checkFilter (sink : LogSink) (verbose : Bool) (stack : ℕ → ℕ → ℤ) :
    Option CString → CString → Except WildError FilterAnswer
  | none, _ => return ⟨1, []⟩
  | some filterStr, chanStr =>
    filterLoop sink verbose stack chanStr filterStr.1.length 0 filterStr

/-- `check_filter` of `ida2liss.c`. -/
def lissCheckFilter (verbose : Bool) (stack : ℕ → ℕ → ℤ) :
    Option CString → CString → Except WildError FilterAnswer :=
  checkFilter .stderr verbose stack

/-- `check_filter` of `ida2arch.c`. -/
def archCheckFilter (gDebug : ℤ) (verbose : Bool) (stack : ℕ → ℕ → ℤ) :
    Option CString → CString → Except WildError FilterAnswer :=
  checkFilter (if gDebug ≠ 0 then .stderr else .syslog) verbose stack

/-! ### The entries -/

/-- The entries of a list that is separated by commas. -/
def entries (filterStr : Bytes) : List Bytes := filterStr.splitOn 44

/-- The entries that the loop looks at: an empty text at the end is none. -/
def entriesSeen (filterStr : Bytes) : List Bytes :=
  if (entries filterStr).getLast? = some [] then (entries filterStr).dropLast
  else entries filterStr

/-- The first entry. -/
def firstEntry (ptr : Bytes) : Bytes := ptr.takeWhile (· != 44)

/-- What is behind the first entry and its comma. -/
def behindEntry (ptr : Bytes) : Bytes := (ptr.dropWhile (· != 44)).tail

lemma copyEntry_eq {entryStr : Bytes} (h : entryStr.length ≤ 6) (ptr : Bytes) :
    copyEntry entryStr ptr = .ok (if 6 < (entryStr ++ firstEntry ptr).length then none
      else some (entryStr ++ firstEntry ptr, behindEntry ptr)) := by
  have hend : ∀ ptr, endEntry entryStr ptr = .ok (some (entryStr, ptr)) := fun ptr =>
    if_neg (by omega)
  induction ptr generalizing entryStr with
  | nil => simp [copyEntry, hend, firstEntry, behindEntry, h]
  | cons c ptr ih =>
    rw [copyEntry]
    by_cases hc : c = 44
    · subst hc
      simp [hend, firstEntry, behindEntry, h]
    rw [if_neg hc, if_neg (by omega)]
    have hfirst : firstEntry (c :: ptr) = c :: firstEntry ptr := by simp [firstEntry, hc]
    have hbehind : behindEntry (c :: ptr) = behindEntry ptr := by simp [behindEntry, hc]
    rw [hfirst, hbehind]
    by_cases hlong : 5 < entryStr.length
    · rw [if_pos hlong, if_pos (by simp; omega)]
    · have hnext : (entryStr ++ [c]).length ≤ 6 := by simp; omega
      rw [if_neg hlong, ih hnext fun ptr => if_neg (by omega)]
      simp

lemma entries_eq (ptr : Bytes) :
    44 ∉ ptr ∧ entries ptr = [ptr] ∧ firstEntry ptr = ptr ∧ behindEntry ptr = [] ∨
      entries ptr = firstEntry ptr :: entries (behindEntry ptr) := by
  by_cases hmem : 44 ∈ ptr
  · right
    have hsplit : ptr = firstEntry ptr ++ 44 :: behindEntry ptr := by
      have hdrop : ptr.dropWhile (· != 44) ≠ [] := by
        simpa [List.dropWhile_eq_nil_iff] using hmem
      have hhead : (ptr.dropWhile (· != 44)).head hdrop = 44 := by
        simpa using List.head_dropWhile_not (· != 44) hdrop
      have hcons : ptr.dropWhile (· != 44) = 44 :: behindEntry ptr :=
        (List.cons_head_tail hdrop).symm.trans (by rw [hhead]; rfl)
      rw [firstEntry, ← hcons, List.takeWhile_append_dropWhile]
    have hfirst : (44 : UInt8) ∉ firstEntry ptr := fun h => by
      simpa using List.mem_takeWhile_imp h
    conv_lhs => rw [entries, hsplit]
    rw [List.splitOn_append_cons_self, List.splitOn_eq_singleton hfirst]
    rfl
  · left
    have hall : ∀ c ∈ ptr, (c != 44) = true := by
      intro c hc
      simp only [bne_iff_ne, ne_eq]
      rintro rfl
      exact hmem hc
    refine ⟨hmem, List.splitOn_eq_singleton hmem, List.takeWhile_eq_self_iff.mpr hall, ?_⟩
    rw [behindEntry, List.dropWhile_eq_nil_iff.mpr hall, List.tail_nil]

@[simp] lemma entriesSeen_nil : entriesSeen [] = [] := rfl

lemma entriesSeen_eq {ptr : Bytes} (h : ptr ≠ []) :
    entriesSeen ptr = firstEntry ptr :: entriesSeen (behindEntry ptr) := by
  rcases entries_eq ptr with ⟨-, hentries, hfirst, hbehind⟩ | hentries
  · rw [hbehind, entriesSeen_nil, hfirst, entriesSeen, hentries]
    simp [h]
  · have hne : entries (behindEntry ptr) ≠ [] := List.splitOn_ne_nil _ _
    rw [entriesSeen, entriesSeen, hentries, List.getLast?_cons_of_ne_nil hne,
      List.dropLast_cons_of_ne_nil hne]
    split <;> rfl

lemma mem_of_mem_entries {filterStr entryStr : Bytes} {c : UInt8}
    (h : entryStr ∈ entries filterStr) (hc : c ∈ entryStr) : c ∈ filterStr := by
  induction filterStr generalizing entryStr with
  | nil =>
    rw [List.mem_singleton.mp h] at hc
    cases hc
  | cons x rest ih =>
    rw [entries, List.splitOn_cons_eq_if_modifyHead] at h
    split at h
    · rcases List.mem_cons.mp h with rfl | h
      · cases hc
      · exact List.mem_cons_of_mem _ (ih h hc)
    · cases hrest : List.splitOn 44 rest with
      | nil => exact absurd hrest (List.splitOn_ne_nil _ _)
      | cons first others =>
        rw [hrest] at h
        rcases List.mem_cons.mp h with rfl | h
        · rcases List.mem_cons.mp hc with rfl | hc
          · exact List.mem_cons_self
          · exact List.mem_cons_of_mem _ (ih (by rw [entries, hrest]; exact List.mem_cons_self) hc)
        · exact List.mem_cons_of_mem _
            (ih (by rw [entries, hrest]; exact List.mem_cons_of_mem _ h) hc)

/-! ### What one entry answers -/

/-- The answer of an entry, unless the loop goes on. -/
def verdict (chanStr : CString) (entryStr : Bytes) : Option ℤ :=
  if entryStr.length < 2 ∨ 6 < entryStr.length then some (-1)
  else
    let (patternStr, i) := copyLocation entryStr 2 [] 0
    if entryStr.getD i 0 ≠ 47 then some (-1)
    else if wild.check (cString (patternStr.take i)) (cString (chanStr.1.take 2)) = false then none
    else if entryStr.length - i > 4 then some (-1)
    else if wild.check (cString ((entryStr.drop (i + 1)).take 3))
      (cString ((chanStr.1.drop 3).take 3)) then some 1
    else none

/-- What `check_filter` answers. -/
def filterAnswer (chanStr : CString) : Option CString → ℤ
  | none => 1
  | some filterStr => ((entriesSeen filterStr).findSome? (verdict chanStr)).getD 0

lemma cString_length_le (s : Bytes) : (cString s).length ≤ s.length :=
  (List.takeWhile_sublist _).length_le

lemma wildMatch_bufferString (stack : ℕ → ℤ) {s : Bytes} (h : s.length < maxNamLen) (t : Bytes) :
    wildMatch stack (maxNamLen + 1) (bufferString s) (bufferString t)
      = .ok (wild.check (cString s) (cString t)) :=
  wildMatch_eq_check stack ((cString_length_le s).trans_lt h) (bufferString t)

lemma copyLocation_snd_le (entryStr : Bytes) (n i : ℕ) (patternStr : Bytes) :
    (copyLocation entryStr n patternStr i).2 ≤ i + n := by
  induction n generalizing patternStr i with
  | zero => exact le_rfl
  | succ n ih =>
    rw [copyLocation]
    split
    · exact Nat.le_add_right _ _
    split
    · exact Nat.le_add_right _ _
    · exact (ih _ _).trans (by omega)

variable {sink : LogSink} {verbose : Bool} {stack : ℕ → ℕ → ℤ} {chanStr : CString}

lemma checkEntry_eq {entryStr : Bytes} (h : entryStr.length ≤ 6) (calls : ℕ) :
    ∃ r calls', checkEntry sink verbose stack calls entryStr chanStr = .ok (r, calls') ∧
      r.map FilterAnswer.answer = verdict chanStr entryStr := by
  rw [checkEntry, verdict]
  by_cases hshort : entryStr.length < 2
  · rw [if_pos hshort, if_pos (Or.inl hshort)]
    exact ⟨_, _, rfl, rfl⟩
  have hlength : ¬ (entryStr.length < 2 ∨ 6 < entryStr.length) := by omega
  have hi := copyLocation_snd_le entryStr 2 0 []
  rw [if_neg hshort, if_neg hlength]
  generalize copyLocation entryStr 2 [] 0 = copied at hi ⊢
  obtain ⟨patternStr, i⟩ := copied
  simp only at hi ⊢
  by_cases hslash : entryStr.getD i 0 ≠ 47
  · rw [if_pos hslash, if_pos hslash]
    exact ⟨_, _, rfl, rfl⟩
  rw [if_neg hslash, if_neg hslash, wildMatch_bufferString, wildMatch_bufferString]
  · simp only [ok_bind]
    split
    · exact ⟨_, _, rfl, rfl⟩
    split
    · exact ⟨_, _, rfl, rfl⟩
    split
    · exact ⟨_, _, rfl, rfl⟩
    · exact ⟨_, _, rfl, rfl⟩
  · rw [List.length_take]
    exact (min_le_left _ _).trans_lt (by decide)
  · rw [List.length_take]
    exact ((min_le_left _ _).trans hi).trans_lt (by decide)

/-- The loop answers what the first entry answers that does. -/
lemma filterLoop_eq (fuel calls : ℕ) {ptr : Bytes} (hfuel : ptr.length ≤ fuel) :
    ∃ r, filterLoop sink verbose stack chanStr fuel calls ptr = .ok r ∧
      r.answer = ((entriesSeen ptr).findSome? (verdict chanStr)).getD 0 := by
  induction fuel generalizing calls ptr with
  | zero =>
    obtain rfl := List.length_eq_zero_iff.mp (Nat.le_zero.mp hfuel)
    exact ⟨_, rfl, rfl⟩
  | succ fuel ih =>
    cases ptr with
    | nil => exact ⟨_, rfl, rfl⟩
    | cons c ptr =>
      rw [entriesSeen_eq (List.cons_ne_nil c ptr), List.findSome?_cons, filterLoop,
        copyEntry_eq (show ([] : Bytes).length ≤ 6 from Nat.zero_le 6), ok_bind, List.nil_append]
      by_cases hlong : 6 < (firstEntry (c :: ptr)).length
      · have hverdict : verdict chanStr (firstEntry (c :: ptr)) = some (-1) :=
          if_pos (Or.inr hlong)
        rw [if_pos hlong, hverdict]
        exact ⟨_, rfl, rfl⟩
      obtain ⟨r, calls', hentry, hverdict⟩ := @checkEntry_eq sink verbose stack chanStr _
        (not_lt.mp hlong) calls
      rw [if_neg hlong, ← hverdict]
      simp only [hentry, ok_bind]
      cases r with
      | some answer => exact ⟨answer, rfl, rfl⟩
      | none =>
        have hbehind : (behindEntry (c :: ptr)).length ≤ fuel := by
          have hdrop := (List.dropWhile_sublist (· != 44) (l := c :: ptr)).length_le
          rw [behindEntry, List.length_tail]
          exact Nat.sub_le_of_le_add (hdrop.trans hfuel)
        exact ih calls' hbehind

lemma checkFilter_eq (sink : LogSink) (verbose : Bool) (stack : ℕ → ℕ → ℤ)
    (filter : Option CString) (chanStr : CString) :
    ∃ r, checkFilter sink verbose stack filter chanStr = .ok r ∧
      r.answer = filterAnswer chanStr filter := by
  cases filter with
  | none => exact ⟨_, rfl, rfl⟩
  | some filterStr => exact filterLoop_eq _ _ le_rfl

end StationProcessor
