import StationProcessor.Ida2liss.CheckFilter

/-!
# Channel filter lists

What a filter list should answer for a record, against what the loop of `check_filter` makes of its
entries.
-/

namespace StationProcessor

/-! ### What the list should answer -/

/-- The location and the channel code of a record, as they stand in its header. -/
structure RecordCodes where
  loc : Bytes
  chan : Bytes
  loc_length : loc.length = 2
  chan_length : chan.length = 3
  noNul : (0 : UInt8) ∉ loc ++ 47 :: chan

/-- The argument for a record, as in `00/BHZ`. -/
def RecordCodes.locStation (codes : RecordCodes) : CString :=
  ⟨codes.loc ++ 47 :: codes.chan, codes.noNul⟩

/-- The entry is the location part, a slash, and the channel part. -/
structure PartsOf (loc chan entryStr : Bytes) : Prop where
  eq : entryStr = loc ++ 47 :: chan
  noSlash : (47 : UInt8) ∉ loc

/-- The parts have the lengths of a pattern. -/
structure PatternParts (loc chan entryStr : Bytes) : Prop extends PartsOf loc chan entryStr where
  loc_length : loc.length ≤ 2
  chan_pos : 1 ≤ chan.length
  chan_length : chan.length ≤ 3

def IsPattern (entryStr : Bytes) : Prop := ∃ loc chan, PatternParts loc chan entryStr

/-- The entry matches the record. A location that is left out stands for a blank one. -/
def EntryMatches (codes : RecordCodes) (entryStr : Bytes) : Prop :=
  ∃ loc chan, PatternParts loc chan entryStr ∧
    wild.Matches (if loc = [] then ascii "  " else loc) codes.loc ∧ wild.Matches chan codes.chan

/-- The answer a filter should give: -1 exactly when an entry is no pattern, and otherwise 1 exactly
when an entry matches. -/
def FilterRight (codes : RecordCodes) (filter : Option CString)
    (result : Except WildError FilterAnswer) : Prop :=
  ∃ r, result = .ok r ∧
    match filter with
    | none => r.answer = 1
    | some filterStr =>
      (r.answer = -1 ↔ ∃ entryStr ∈ entries filterStr, ¬ IsPattern entryStr) ∧
        (r.answer ≠ -1 → (r.answer = 1 ↔ ∃ entryStr ∈ entries filterStr,
          EntryMatches codes entryStr))

/-- The entry names a location and matches. -/
def NamedMatch (codes : RecordCodes) (entryStr : Bytes) : Prop :=
  entryStr.head? ≠ some 47 ∧ EntryMatches codes entryStr

/-- The entry is seen not to be a pattern: it has less than two or more than six characters, or no
slash among the first three; or it names a location that matches, before a channel part of more
than three characters. -/
def ShowsMistake (codes : RecordCodes) (entryStr : Bytes) : Prop :=
  (entryStr.length < 2 ∨ 6 < entryStr.length ∨ (47 : UInt8) ∉ entryStr.take 3) ∨
    ∃ loc chan, PartsOf loc chan entryStr ∧ loc ≠ [] ∧ wild.Matches loc codes.loc ∧ 3 < chan.length

/-! ### The verdict by the parts of an entry -/

variable {codes : RecordCodes} {loc chan entryStr : Bytes}

lemma PartsOf.unique {loc' chan' : Bytes} (h : PartsOf loc chan entryStr)
    (h' : PartsOf loc' chan' entryStr) : loc = loc' ∧ chan = chan' := by
  have htake : ∀ {loc chan}, PartsOf loc chan entryStr →
      loc = entryStr.takeWhile (· != 47) := by
    intro loc chan h
    have hall : ∀ c ∈ loc, (c != 47) = true := by
      intro c hc
      simp only [bne_iff_ne, ne_eq]
      rintro rfl
      exact h.noSlash hc
    rw [h.eq, List.takeWhile_append_of_pos hall]
    simp
  have hloc : loc = loc' := (htake h).trans (htake h').symm
  subst hloc
  have hchan := h.eq.symm.trans h'.eq
  simpa using hchan

lemma locStation_loc (codes : RecordCodes) : cString (codes.locStation.1.take 2) = codes.loc := by
  have hloc : codes.locStation.1.take 2 = codes.loc := List.take_left' codes.loc_length
  rw [hloc]
  exact cString_of_notMem fun h => codes.noNul (List.mem_append_left _ h)

lemma locStation_chan (codes : RecordCodes) :
    cString ((codes.locStation.1.drop 3).take 3) = codes.chan := by
  have hdrop : codes.locStation.1.drop 3 = codes.chan := by
    have hsplit : codes.locStation.1 = (codes.loc ++ [47]) ++ codes.chan := by
      simp [RecordCodes.locStation]
    rw [hsplit]
    exact List.drop_left' (by simp [codes.loc_length])
  rw [hdrop, List.take_of_length_le codes.chan_length.le]
  exact cString_of_notMem fun h => codes.noNul (by simp [h])

/-- An entry that names no location never gets an answer. -/
lemma verdict_blank (hlength : 2 ≤ entryStr.length)
    (hlong : entryStr.length ≤ 6) (hhead : entryStr.head? = some 47) :
    verdict codes.locStation entryStr = none := by
  obtain ⟨rest, rfl⟩ : ∃ rest, entryStr = 47 :: rest := List.head?_eq_some_iff.mp hhead
  have hloc : wild.check (cString []) codes.loc = false := by
    have hne : codes.loc ≠ [] := by
      intro h
      simpa [h] using codes.loc_length
    simpa [cString, Wildcard.check] using hne
  have hcopy : copyLocation (47 :: rest) 2 [] 0 = (ascii "  ", 0) := by simp [copyLocation]
  rw [verdict, if_neg (by omega), hcopy]
  simp only [List.getD_cons_zero, ne_eq, not_true_eq_false, if_false, List.take_zero,
    locStation_loc]
  rw [if_pos hloc]

lemma copyLocation_parts (hparts : PartsOf loc chan entryStr) (hne : loc ≠ [])
    (hloc : loc.length ≤ 2) : copyLocation entryStr 2 [] 0 = (loc, loc.length) := by
  obtain ⟨rfl, hslash⟩ := hparts
  match loc, hne, hloc with
  | [a], _, _ =>
    have ha : a ≠ 47 := fun h => hslash (by simp [h])
    simp [copyLocation, ha]
  | [a, b], _, _ =>
    have ha : a ≠ 47 := fun h => hslash (by simp [h])
    have hb : b ≠ 47 := fun h => hslash (by simp [h])
    simp [copyLocation, ha, hb]

/-- An entry that names a location. -/
lemma verdict_named (hnul : (0 : UInt8) ∉ entryStr) (hparts : PartsOf loc chan entryStr)
    (hne : loc ≠ []) (hloc : loc.length ≤ 2) (hlong : entryStr.length ≤ 6) :
    verdict codes.locStation entryStr = if wild.check loc codes.loc = false then none
      else if 3 < chan.length then some (-1)
      else if wild.check chan codes.chan then some 1 else none := by
  have hpos : 0 < loc.length := List.length_pos_iff.mpr hne
  have hcopy := copyLocation_parts hparts hne hloc
  obtain ⟨rfl, -⟩ := hparts
  have hlength : (loc ++ 47 :: chan).length = loc.length + (chan.length + 1) := by simp
  have hslash : (loc ++ 47 :: chan).getD loc.length 0 = 47 := by simp
  have hchan : (loc ++ 47 :: chan).drop (loc.length + 1) = chan := by simp
  have hlocNul : (0 : UInt8) ∉ loc := fun h => hnul (by simp [h])
  have hchanNul : (0 : UInt8) ∉ chan := fun h => hnul (by simp [h])
  rw [verdict, if_neg (by omega), hcopy]
  simp only [hslash, ne_eq, not_true_eq_false, if_false, List.take_length, hchan, locStation_loc,
    locStation_chan, cString_of_notMem hlocNul]
  split
  · rfl
  by_cases hlong : 3 < chan.length
  · rw [if_pos hlong, if_pos (by omega)]
  · rw [if_neg hlong, if_neg (by omega), List.take_of_length_le (not_lt.mp hlong),
      cString_of_notMem hchanNul]

/-- An entry without a slash where one has to be. -/
lemma verdict_noSlash (hlength : 2 ≤ entryStr.length) (hslash : (47 : UInt8) ∉ entryStr.take 3)
    (chanStr : CString) : verdict chanStr entryStr = some (-1) := by
  obtain ⟨a, b, rest, rfl⟩ : ∃ a b rest, entryStr = a :: b :: rest := by
    match entryStr, hlength with
    | a :: b :: rest, _ => exact ⟨a, b, rest, rfl⟩
  have ha : a ≠ 47 := fun h => hslash (by simp [h])
  have hb : b ≠ 47 := fun h => hslash (by simp [h])
  have hrest : rest[0]?.getD 0 ≠ 47 := by
    cases rest with
    | nil => decide
    | cons c rest =>
      intro h
      exact hslash (by simp [show c = 47 from h])
  rw [verdict]
  split
  · rfl
  · simpa [copyLocation, ha, hb] using fun h => absurd h hrest

lemma PartsOf.mem_take (h : PartsOf loc chan entryStr) (hloc : loc.length ≤ 2) :
    (47 : UInt8) ∈ entryStr.take 3 := by
  have hsplit : entryStr = (loc ++ [47]) ++ chan := by simp [h.eq]
  rw [hsplit, List.take_append]
  refine List.mem_append_left _ ?_
  rw [List.take_of_length_le (by simpa using Nat.lt_succ_of_le hloc)]
  simp

lemma PartsOf.head?_eq_iff (h : PartsOf loc chan entryStr) :
    entryStr.head? = some 47 ↔ loc = [] := by
  obtain ⟨rfl, hslash⟩ := h
  cases loc with
  | nil => simp
  | cons a loc => simpa using fun h => hslash (by simp [h])

lemma PatternParts.length_mem (h : PatternParts loc chan entryStr) :
    2 ≤ entryStr.length ∧ entryStr.length ≤ 6 := by
  have hloc := h.loc_length
  have hpos := h.chan_pos
  have hchan := h.chan_length
  rw [h.eq, List.length_append, List.length_cons]
  omega

lemma not_namedMatch_of_take (h : (47 : UInt8) ∉ entryStr.take 3) :
    ¬ NamedMatch codes entryStr := by
  rintro ⟨-, loc, chan, hparts, -⟩
  exact h (hparts.toPartsOf.mem_take hparts.loc_length)

/-- The kinds of entries of a length that is allowed. -/
lemma entry_kinds (hlength : 2 ≤ entryStr.length) :
    entryStr.head? = some 47 ∨ (47 : UInt8) ∉ entryStr.take 3 ∨
      ∃ loc chan, PartsOf loc chan entryStr ∧ loc ≠ [] ∧ loc.length ≤ 2 := by
  match entryStr, hlength with
  | a :: b :: rest, _ =>
    by_cases ha : a = 47
    · exact Or.inl (by rw [ha]; rfl)
    by_cases hb : b = 47
    · exact Or.inr (Or.inr
        ⟨[a], rest, ⟨by rw [hb]; rfl, by simpa using Ne.symm ha⟩, by simp, by simp⟩)
    match rest with
    | [] => exact Or.inr (Or.inl (by simp [Ne.symm ha, Ne.symm hb]))
    | c :: rest =>
      by_cases hc : c = 47
      · refine Or.inr (Or.inr ⟨[a, b], rest, ⟨by rw [hc]; rfl, ?_⟩, by simp, by simp⟩)
        simp [Ne.symm ha, Ne.symm hb]
      · exact Or.inr (Or.inl (by simp [Ne.symm ha, Ne.symm hb, Ne.symm hc]))

lemma PartsOf.showsMistake_iff (h : PartsOf loc chan entryStr) (hne : loc ≠ [])
    (hloc : loc.length ≤ 2) (hlength : 2 ≤ entryStr.length ∧ entryStr.length ≤ 6) :
    ShowsMistake codes entryStr ↔ wild.Matches loc codes.loc ∧ 3 < chan.length := by
  constructor
  · rintro ((hshort | hlong | hslash) | ⟨loc', chan', h', -, hmatch, hchan⟩)
    · exact absurd hshort (not_lt.mpr hlength.1)
    · exact absurd hlong (not_lt.mpr hlength.2)
    · exact absurd (h.mem_take hloc) hslash
    · obtain ⟨rfl, rfl⟩ := h.unique h'
      exact ⟨hmatch, hchan⟩
  · rintro ⟨hmatch, hchan⟩
    exact Or.inr ⟨loc, chan, h, hne, hmatch, hchan⟩

lemma PartsOf.namedMatch_iff (h : PartsOf loc chan entryStr) (hne : loc ≠ [])
    (hloc : loc.length ≤ 2) : NamedMatch codes entryStr ↔
      wild.Matches loc codes.loc ∧ chan.length ≤ 3 ∧ wild.Matches chan codes.chan := by
  constructor
  · rintro ⟨-, loc', chan', h', hmatch, hchan⟩
    obtain ⟨rfl, rfl⟩ := h.unique h'.toPartsOf
    rw [if_neg hne] at hmatch
    exact ⟨hmatch, h'.chan_length, hchan⟩
  · rintro ⟨hmatch, hlong, hchan⟩
    refine ⟨h.head?_eq_iff.not.mpr hne, loc, chan, ⟨h, hloc, ?_, hlong⟩, ?_, hchan⟩
    · refine List.length_pos_iff.mpr ?_
      rintro rfl
      simpa [Wildcard.matches_nil.mp hchan] using codes.chan_length
    · rwa [if_neg hne]

/-- An entry answers -1 when it shows a mistake, 1 when it names a location and matches, and
otherwise lets the loop go on. -/
lemma verdict_cases (hnul : (0 : UInt8) ∉ entryStr) (codes : RecordCodes) :
    (verdict codes.locStation entryStr = none ∧ ¬ ShowsMistake codes entryStr ∧
        ¬ NamedMatch codes entryStr) ∨
      (verdict codes.locStation entryStr = some (-1) ∧ ShowsMistake codes entryStr ∧
        ¬ NamedMatch codes entryStr) ∨
      (verdict codes.locStation entryStr = some 1 ∧ ¬ ShowsMistake codes entryStr ∧
        NamedMatch codes entryStr) := by
  by_cases hlength : entryStr.length < 2 ∨ 6 < entryStr.length
  · refine Or.inr (Or.inl ⟨if_pos hlength, Or.inl (hlength.imp_right Or.inl), ?_⟩)
    rintro ⟨-, loc, chan, hparts, -⟩
    obtain ⟨hshort, hlong⟩ := hparts.length_mem
    exact hlength.elim (not_lt.mpr hshort) (not_lt.mpr hlong)
  rw [not_or, not_lt, not_lt] at hlength
  rcases entry_kinds hlength.1 with hhead | hslash | ⟨loc, chan, hparts, hne, hloc⟩
  · refine Or.inl ⟨verdict_blank hlength.1 hlength.2 hhead, ?_, fun h => h.1 hhead⟩
    have hmem : (47 : UInt8) ∈ entryStr.take 3 := by
      obtain ⟨rest, rfl⟩ : ∃ rest, entryStr = 47 :: rest := List.head?_eq_some_iff.mp hhead
      simp
    rintro ((hshort | hlong | hslash) | ⟨loc, chan, hparts, hne, -⟩)
    · exact absurd hshort (not_lt.mpr hlength.1)
    · exact absurd hlong (not_lt.mpr hlength.2)
    · exact hslash hmem
    · exact hne (hparts.head?_eq_iff.mp hhead)
  · exact Or.inr (Or.inl ⟨verdict_noSlash hlength.1 hslash _, Or.inl (Or.inr (Or.inr hslash)),
      not_namedMatch_of_take hslash⟩)
  · rw [verdict_named hnul hparts hne hloc hlength.2, hparts.showsMistake_iff hne hloc hlength,
      hparts.namedMatch_iff hne hloc, ← Wildcard.check_iff, ← Wildcard.check_iff]
    cases hcheck : wild.check loc codes.loc with
    | false => simp
    | true =>
      by_cases hlong : 3 < chan.length
      · simp [hlong]
      · cases hchan : wild.check chan codes.chan <;> simp [hlong, not_lt.mp hlong]

/-! ### The whole list -/

/-- The filter is absent; or every entry is a pattern, and not only entries that name no location
match; or some entry shows a mistake before any entry that names a location matches. -/
def FilterSettled (codes : RecordCodes) : Option CString → Prop
  | none => True
  | some filterStr =>
    ((∀ entryStr ∈ entries filterStr, IsPattern entryStr) ∧
        ((∃ entryStr ∈ entries filterStr, EntryMatches codes entryStr) →
          ∃ entryStr ∈ entries filterStr, NamedMatch codes entryStr)) ∨
      ∃ earlier entryStr later, entries filterStr = earlier ++ entryStr :: later ∧
        (entryStr ≠ [] ∨ later ≠ []) ∧ ShowsMistake codes entryStr ∧
        ∀ entryStr ∈ earlier, ¬ NamedMatch codes entryStr

variable {filterStr : Bytes}

lemma entries_split (filterStr : Bytes) :
    entries filterStr = entriesSeen filterStr ∧ (entries filterStr).getLast? ≠ some [] ∨
      entries filterStr = entriesSeen filterStr ++ [[]] := by
  rw [entriesSeen]
  split
  · next hlast => exact Or.inr (List.dropLast_append_getLast? _ hlast).symm
  · next hlast => exact Or.inl ⟨rfl, hlast⟩

lemma mem_entries_of_seen (h : entryStr ∈ entriesSeen filterStr) :
    entryStr ∈ entries filterStr := by
  rcases entries_split filterStr with ⟨heq, -⟩ | heq
  · exact heq ▸ h
  · exact heq ▸ List.mem_append_left _ h

/-- An entry that is not an empty text at the end is seen. -/
lemma seen_of_entries {earlier later : List Bytes}
    (h : entries filterStr = earlier ++ entryStr :: later) (hend : entryStr ≠ [] ∨ later ≠ []) :
    ∃ later', entriesSeen filterStr = earlier ++ entryStr :: later' := by
  rcases entries_split filterStr with ⟨heq, -⟩ | heq
  · exact ⟨later, heq.symm.trans h⟩
  rw [heq] at h
  rcases List.eq_nil_or_concat' later with rfl | ⟨later', last, rfl⟩
  · obtain ⟨-, hlast⟩ := List.append_inj' h rfl
    exact absurd (List.singleton_inj.mp hlast).symm (by simpa using hend)
  · have happend : entriesSeen filterStr ++ [[]] = (earlier ++ entryStr :: later') ++ [last] := by
      rw [h]
      simp
    exact ⟨later', (List.append_inj' happend rfl).1⟩

lemma not_isPattern_nil : ¬ IsPattern [] := by
  rintro ⟨loc, chan, hparts⟩
  exact absurd hparts.length_mem.1 (by decide)

lemma ShowsMistake.not_isPattern (h : ShowsMistake codes entryStr) : ¬ IsPattern entryStr := by
  rintro ⟨loc, chan, hparts⟩
  rcases h with (hshort | hlong | hslash) | ⟨loc', chan', hparts', -, -, hchan⟩
  · exact absurd hshort (not_lt.mpr hparts.length_mem.1)
  · exact absurd hlong (not_lt.mpr hparts.length_mem.2)
  · exact hslash (hparts.mem_take hparts.loc_length)
  · obtain ⟨-, rfl⟩ := hparts.unique hparts'
    exact absurd hchan (not_lt.mpr hparts.chan_length)

/-- The loop answers -1 exactly when a mistake is seen before a match. -/
lemma filterAnswer_eq_neg_one_iff {filterStr : CString} :
    filterAnswer codes.locStation (some filterStr) = -1 ↔
      ∃ earlier entryStr later, entries filterStr = earlier ++ entryStr :: later ∧
        (entryStr ≠ [] ∨ later ≠ []) ∧ ShowsMistake codes entryStr ∧
        ∀ entryStr ∈ earlier, ¬ NamedMatch codes entryStr := by
  have hcases : ∀ entryStr ∈ entries filterStr, _ := fun entryStr hmem =>
    verdict_cases (fun hnul => filterStr.2 (mem_of_mem_entries hmem hnul)) codes
  have hanswer : filterAnswer codes.locStation (some filterStr) = -1 ↔
      (entriesSeen filterStr).findSome? (verdict codes.locStation) = some (-1) := by
    rw [filterAnswer]
    cases (entriesSeen filterStr).findSome? (verdict codes.locStation) <;> simp
  rw [hanswer]
  constructor
  · intro hfirst
    obtain ⟨earlier, entryStr, later, hseen, hverdict, hearlier⟩ :=
      List.findSome?_eq_some_iff.mp hfirst
    have hmem : entryStr ∈ entries filterStr := mem_entries_of_seen (by rw [hseen]; simp)
    have hmistake : ShowsMistake codes entryStr := by
      rcases hcases entryStr hmem with ⟨h, -⟩ | ⟨-, h, -⟩ | ⟨h, -⟩
      · rw [h] at hverdict
        cases hverdict
      · exact h
      · rw [h] at hverdict
        exact absurd hverdict (by decide)
    have hnone : ∀ entryStr ∈ earlier, ¬ NamedMatch codes entryStr := by
      intro e he
      have hmem : e ∈ entries filterStr := mem_entries_of_seen (by rw [hseen]; simp [he])
      rcases hcases e hmem with ⟨-, -, h⟩ | ⟨-, -, h⟩ | ⟨h, -⟩
      · exact h
      · exact h
      · rw [hearlier e he] at h
        cases h
    rcases entries_split filterStr with ⟨heq, hlast⟩ | heq
    · refine ⟨earlier, entryStr, later, heq.trans hseen, ?_, hmistake, hnone⟩
      by_contra hend
      rw [not_or, not_not, not_not] at hend
      rw [heq, hseen, hend.1, hend.2] at hlast
      exact hlast (by simp)
    · exact ⟨earlier, entryStr, later ++ [[]], by rw [heq, hseen]; simp, Or.inr (by simp), hmistake,
        hnone⟩
  · rintro ⟨earlier, entryStr, later, hentries, hend, hmistake, hnone⟩
    obtain ⟨later', hseen⟩ := seen_of_entries hentries hend
    have hverdict : verdict codes.locStation entryStr = some (-1) := by
      rcases hcases entryStr (by rw [hentries]; simp) with ⟨-, h, -⟩ | ⟨h, -⟩ | ⟨-, h, -⟩
      · exact absurd hmistake h
      · exact h
      · exact absurd hmistake h
    rw [hseen, List.findSome?_append]
    cases hfirst : earlier.findSome? (verdict codes.locStation) with
    | none => rw [Option.none_or, List.findSome?_cons, hverdict]
    | some answer =>
      obtain ⟨e, he, h⟩ := List.exists_of_findSome?_eq_some hfirst
      rw [Option.some_or, ← h]
      rcases hcases e (by rw [hentries]; simp [he]) with ⟨h', -⟩ | ⟨h', -⟩ | ⟨-, -, h'⟩
      · rw [h'] at h
        cases h
      · exact h'
      · exact absurd h' (hnone e he)

/-- Where no entry shows a mistake, the loop answers 1 exactly when an entry that names a location
matches. -/
lemma filterAnswer_eq_one_iff {filterStr : CString}
    (hright : ∀ entryStr ∈ entries filterStr, IsPattern entryStr) :
    filterAnswer codes.locStation (some filterStr) = 1 ↔
      ∃ entryStr ∈ entries filterStr, NamedMatch codes entryStr := by
  have hseen : entriesSeen filterStr = entries filterStr := by
    rcases entries_split filterStr with ⟨heq, -⟩ | heq
    · exact heq.symm
    · exact absurd (hright [] (by rw [heq]; simp)) not_isPattern_nil
  have hcases : ∀ entryStr ∈ entries filterStr,
      verdict codes.locStation entryStr = none ∧ ¬ NamedMatch codes entryStr ∨
        verdict codes.locStation entryStr = some 1 ∧ NamedMatch codes entryStr := by
    intro entryStr hmem
    rcases verdict_cases (fun hnul => filterStr.2 (mem_of_mem_entries hmem hnul)) codes with
      ⟨h, -, hmatch⟩ | ⟨-, h, -⟩ | ⟨h, -, hmatch⟩
    · exact Or.inl ⟨h, hmatch⟩
    · exact absurd (hright entryStr hmem) h.not_isPattern
    · exact Or.inr ⟨h, hmatch⟩
  rw [filterAnswer, hseen]
  cases hfirst : (entries filterStr).findSome? (verdict codes.locStation) with
  | none =>
    refine iff_of_false (by decide) ?_
    rintro ⟨entryStr, hmem, hmatch⟩
    have hnone := List.findSome?_eq_none_iff.mp hfirst entryStr hmem
    rcases hcases entryStr hmem with ⟨-, h⟩ | ⟨h, -⟩
    · exact h hmatch
    · rw [h] at hnone
      cases hnone
  | some answer =>
    obtain ⟨entryStr, hmem, hverdict⟩ := List.exists_of_findSome?_eq_some hfirst
    rcases hcases entryStr hmem with ⟨h, -⟩ | ⟨h, hmatch⟩
    · rw [h] at hverdict
      cases hverdict
    · rw [h] at hverdict
      cases hverdict
      exact iff_of_true rfl ⟨entryStr, hmem, hmatch⟩

lemma filterRight_iff {filter : Option CString} {result : Except WildError FilterAnswer}
    (h : ∃ r, result = .ok r ∧ r.answer = filterAnswer codes.locStation filter) :
    FilterRight codes filter result ↔ FilterSettled codes filter := by
  obtain ⟨r, rfl, hr⟩ := h
  cases filter with
  | none => exact iff_of_true ⟨r, rfl, hr⟩ trivial
  | some filterStr =>
    have hresult : FilterRight codes (some filterStr) (.ok r) ↔
        (r.answer = -1 ↔ ∃ entryStr ∈ entries filterStr, ¬ IsPattern entryStr) ∧
          (r.answer ≠ -1 → (r.answer = 1 ↔ ∃ entryStr ∈ entries filterStr,
            EntryMatches codes entryStr)) := by
      simp [FilterRight]
    rw [hresult, FilterSettled, ← filterAnswer_eq_neg_one_iff, ← hr]
    by_cases hall : ∀ entryStr ∈ entries filterStr, IsPattern entryStr
    · have hnone : ¬ ∃ entryStr ∈ entries filterStr, ¬ IsPattern entryStr := by simpa using hall
      have hneg : r.answer ≠ -1 := by
        intro hneg
        rw [hr, filterAnswer_eq_neg_one_iff] at hneg
        obtain ⟨earlier, entryStr, later, hentries, -, hmistake, -⟩ := hneg
        exact hmistake.not_isPattern (hall entryStr (by rw [hentries]; simp))
      have hnamed := @filterAnswer_eq_one_iff codes filterStr hall
      rw [← hr] at hnamed
      simp only [hneg, hnone, true_and, or_false, ne_eq, not_false_eq_true, true_implies, hnamed]
      constructor
      · exact fun h => ⟨hall, h.mpr⟩
      · intro h
        refine ⟨?_, h.2⟩
        rintro ⟨entryStr, hmem, hmatch⟩
        exact ⟨entryStr, hmem, hmatch.2⟩
    · have hsome : ∃ entryStr ∈ entries filterStr, ¬ IsPattern entryStr := by simpa using hall
      simp only [hall, hsome, false_and, false_or, iff_true]
      constructor
      · exact fun h => h.1
      · exact fun h => ⟨h, fun hne => absurd h hne⟩

/-- Both copies answer as they should exactly for the settled filters, and they always agree. -/
theorem checkFilter_right_iff (verbose verbose' : Bool) (gDebug : ℤ) (stack stack' : ℕ → ℕ → ℤ)
    (codes : RecordCodes) (filter : Option CString) :
    FilterRight codes filter (lissCheckFilter verbose stack filter codes.locStation) ∧
        FilterRight codes filter (archCheckFilter gDebug verbose' stack' filter codes.locStation) ∧
        (∀ chanStr, (archCheckFilter gDebug verbose' stack' filter chanStr).map FilterAnswer.answer
          = (lissCheckFilter verbose stack filter chanStr).map FilterAnswer.answer) ↔
      FilterSettled codes filter := by
  have hliss := checkFilter_eq .stderr verbose stack filter
  have harch := checkFilter_eq (if gDebug ≠ 0 then .stderr else .syslog) verbose' stack' filter
  have hagree : ∀ chanStr, (archCheckFilter gDebug verbose' stack' filter chanStr).map
      FilterAnswer.answer
        = (lissCheckFilter verbose stack filter chanStr).map FilterAnswer.answer := by
    intro chanStr
    obtain ⟨r, hr, hanswer⟩ := hliss chanStr
    obtain ⟨r', hr', hanswer'⟩ := harch chanStr
    rw [lissCheckFilter, archCheckFilter, hr, hr']
    exact congrArg Except.ok (hanswer'.trans hanswer.symm)
  have hl := filterRight_iff (hliss codes.locStation)
  have ha := filterRight_iff (harch codes.locStation)
  rw [lissCheckFilter, archCheckFilter, hl, ha]
  constructor
  · exact fun h => h.1
  · exact fun h => ⟨h, h, hagree⟩

/-- A record with a blank location. -/
def blankBHZ : RecordCodes := ⟨ascii "  ", ascii "BHZ", rfl, rfl, by decide⟩

/-- The filter `/BHZ` does not let the channel through, and the filter that ends with an entry that
is no pattern does. -/
theorem checkFilter_not_right :
    ¬ FilterRight blankBHZ (some ⟨ascii "/BHZ", by decide⟩)
        (lissCheckFilter false (fun _ _ => 0) (some ⟨ascii "/BHZ", by decide⟩)
          blankBHZ.locStation) ∧
      ¬ FilterRight blankBHZ (some ⟨ascii "*/*,BHZ", by decide⟩)
        (archCheckFilter 0 false (fun _ _ => 0) (some ⟨ascii "*/*,BHZ", by decide⟩)
          blankBHZ.locStation) := by
  constructor
  · rintro ⟨r, hr, -, hmatch⟩
    obtain ⟨r', hr', hanswer⟩ := checkFilter_eq .stderr false (fun _ _ => 0)
      (some ⟨ascii "/BHZ", by decide⟩) blankBHZ.locStation
    obtain rfl : r' = r := Except.ok.inj (hr'.symm.trans hr)
    have hzero : r'.answer = 0 := hanswer.trans (by decide)
    rw [hzero] at hmatch
    refine absurd ((hmatch (by decide)).mpr ⟨ascii "/BHZ", by decide, [], ascii "BHZ", ?_, ?_, ?_⟩)
      (by decide)
    · exact ⟨⟨rfl, by decide⟩, by decide, by decide, by decide⟩
    · decide
    · decide
  · rintro ⟨r, hr, hmistakes, -⟩
    obtain ⟨r', hr', hanswer⟩ := checkFilter_eq .syslog false (fun _ _ => 0)
      (some ⟨ascii "*/*,BHZ", by decide⟩) blankBHZ.locStation
    obtain rfl : r' = r := Except.ok.inj (hr'.symm.trans hr)
    have hone : r'.answer = 1 := hanswer.trans (by decide)
    rw [hone] at hmistakes
    refine absurd (hmistakes.mpr ⟨ascii "BHZ", by decide, ?_⟩) (by decide)
    rintro ⟨loc, chan, hparts⟩
    exact absurd (hparts.mem_take hparts.loc_length) (by decide)

end StationProcessor
