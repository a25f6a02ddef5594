import StationProcessor.Falcon.Csv

/-!
# Every reading goes out once

Runs of `csv_parse_file` and `csv_archive`. The rows accepted from a file are those of its messages
and those in its buffer, one after the other; archiving ends, and leaves less than an hour of rows
but at least one.
-/

namespace StationProcessor

/-! ### Rows cut at a time -/

/-- Rows in the order of their times are those before some time and then the others. -/
lemma filter_append_filter_of_sorted {rows : List CsvRow} (t : ℤ)
    (h : rows.Pairwise (·.timestamp < ·.timestamp)) :
    rows.filter (fun r => r.timestamp < t) ++ rows.filter (fun r => t ≤ r.timestamp) = rows := by
  induction rows with
  | nil => rfl
  | cons row rows ih =>
    obtain ⟨hrow, hrows⟩ := List.pairwise_cons.mp h
    by_cases hlt : row.timestamp < t
    · have hge : ¬t ≤ row.timestamp := not_le.mpr hlt
      simp [hlt, hge, ih hrows]
    · have hge : t ≤ row.timestamp := not_lt.mp hlt
      have hnone : rows.filter (fun r => r.timestamp < t) = [] := by
        refine List.filter_eq_nil_iff.mpr ?_
        intro r hr
        simpa using hge.trans (hrow r hr).le
      have hall : rows.filter (fun r => t ≤ r.timestamp) = rows := by
        refine List.filter_eq_self.mpr ?_
        intro r hr
        simpa using hge.trans (hrow r hr).le
      simp [hlt, hge, hnone, hall]

/-! ### One buffer -/

/-- A row made of a line of a file. -/
structure CsvRow.OfLine (r : CsvRow) : Prop where
  whole : tmMinute ∣ r.timestamp
  fits : 0 < r.timestamp ∧ r.timestamp < 2 ^ 32
  filled : ¬r.empty

/-- A buffer from which the rows `sent` went out: its rows continue them. -/
structure CsvBuffer.Continues (csvBuffer : CsvBuffer) (sent : List CsvRow) : Prop where
  sorted : (sent ++ csvBuffer.list).Pairwise (·.timestamp < ·.timestamp)
  lines : ∀ r ∈ sent ++ csvBuffer.list, r.OfLine
  fresh : csvBuffer.list = [] → sent = [] ∧ csvBuffer.startTime = 0 ∧ csvBuffer.endTime = 0
  first : ∀ r ∈ csvBuffer.list.head?, csvBuffer.startTime = r.timestamp
  last : ∀ r ∈ csvBuffer.list.getLast?, csvBuffer.endTime = r.timestamp

namespace CsvBuffer.Continues

variable {csvBuffer : CsvBuffer} {sent : List CsvRow}

/-- No row is newer than the end time. -/
lemma le_endTime (h : csvBuffer.Continues sent) {r : CsvRow} (hr : r ∈ sent ++ csvBuffer.list) :
    r.timestamp ≤ csvBuffer.endTime := by
  rcases List.eq_nil_or_concat csvBuffer.list with hnil | ⟨rows, row, hlast⟩
  · rw [hnil, (h.fresh hnil).1] at hr
    simp at hr
  · have hend : csvBuffer.endTime = row.timestamp := h.last row (by simp [hlast])
    have hsorted := h.sorted
    rw [hlast, List.concat_eq_append, ← List.append_assoc] at hsorted hr
    rcases List.mem_append.mp hr with hr | hr
    · have hlt := (List.pairwise_append.mp hsorted).2.2 r hr row List.mem_cons_self
      rw [hend]
      exact hlt.le
    · rw [List.mem_singleton.mp hr, hend]

/-- Only the rows and the times matter. -/
lemma congr (h : csvBuffer.Continues sent) {csvBuffer' : CsvBuffer}
    (hlist : csvBuffer'.list = csvBuffer.list) (hstart : csvBuffer'.startTime = csvBuffer.startTime)
    (hend : csvBuffer'.endTime = csvBuffer.endTime) : csvBuffer'.Continues sent := by
  obtain ⟨sorted, lines, fresh, first, last⟩ := h
  constructor <;> simpa only [hlist, hstart, hend]

/-- A line of a file keeps the rows in order. -/
lemma addLine (h : csvBuffer.Continues sent) (initialTime : ℤ) (line : CsvLine) :
    (addLine initialTime csvBuffer line).Continues sent := by
  by_cases haccepts : accepts csvBuffer initialTime line
  · have hnewer : csvBuffer.endTime < line.timestamp := by
      have hboth := of_decide_eq_true haccepts
      exact hboth.1
    rw [StationProcessor.addLine, if_pos haccepts]
    refine ⟨?_, ?_, ?_, ?_, ?_⟩
    · rw [← List.append_assoc]
      refine List.pairwise_append.mpr ⟨h.sorted, List.pairwise_singleton _ _, ?_⟩
      intro r hr r' hr'
      rw [List.mem_singleton.mp hr']
      exact (h.le_endTime hr).trans_lt hnewer
    · intro r hr
      rw [← List.append_assoc] at hr
      rcases List.mem_append.mp hr with hr | hr
      · exact h.lines r hr
      · rw [List.mem_singleton.mp hr]
        exact ⟨line.whole, line.fits, Bool.false_ne_true⟩
    · intro hnil
      exact absurd hnil (List.append_ne_nil_of_right_ne_nil _ (List.cons_ne_nil _ _))
    · intro r hr
      rcases hlist : csvBuffer.list with _ | ⟨row, rows⟩
      · obtain ⟨-, hstart, -⟩ := h.fresh hlist
        rw [hlist] at hr
        cases hr
        exact if_pos hstart
      · have hfirst : csvBuffer.startTime = row.timestamp := h.first row (by simp [hlist])
        have hrow := h.lines row (by simp [hlist])
        rw [hlist] at hr
        cases hr
        exact (if_neg (by rw [hfirst]; exact hrow.fits.1.ne')).trans hfirst
    · intro r hr
      rw [List.getLast?_concat] at hr
      cases hr
      rfl
  · rw [StationProcessor.addLine, if_neg haccepts]
    exact h

lemma foldl_addLine (h : csvBuffer.Continues sent) (initialTime : ℤ) (lines : List CsvLine) :
    (lines.foldl (StationProcessor.addLine initialTime) csvBuffer).Continues sent := by
  induction lines generalizing csvBuffer with
  | nil => exact h
  | cons line lines ih => exact ih (h.addLine initialTime line)

/-- Parsing a file keeps the rows in order. -/
lemma parse (h : csvBuffer.Continues sent) (file : CsvFile) (initialTime : ℤ) :
    (csvParseFile csvBuffer file initialTime).2.Continues sent := by
  rw [csvParseFile]
  cases file.channel with
  | none => exact h
  | some channel =>
    cases file.description with
    | none => exact h.congr rfl rfl rfl
    | some description =>
      have hheader : CsvBuffer.Continues
          { csvBuffer with header := ⟨description, channel⟩ } sent := h.congr rfl rfl rfl
      exact hheader.foldl_addLine initialTime file.lines

/-- The rows are as a parsed file leaves them. -/
lemma parsed (h : csvBuffer.Continues sent) : Parsed csvBuffer.list where
  sorted := (List.pairwise_append.mp h.sorted).2.1
  whole := fun r hr => (h.lines r (List.mem_append_right _ hr)).whole
  fits := fun r hr => (h.lines r (List.mem_append_right _ hr)).fits.imp_left le_of_lt

/-- A message takes the first hour of rows out of a buffer, but not the last row. -/
lemma message (h : csvBuffer.Continues sent)
    (hhour : csvBuffer.endTime - csvBuffer.startTime ≥ tmHour) :
    ∃ msg csvBuffer', fmashCsvToMsh csvBuffer = some (msg, csvBuffer') ∧
      csvBuffer'.Continues (sent ++ messageRows msg) ∧
      messageRows msg ++ csvBuffer'.list = csvBuffer.list ∧
      csvBuffer'.list.length < csvBuffer.list.length ∧
      csvBuffer'.fileName = csvBuffer.fileName := by
  rcases hlist : csvBuffer.list with _ | ⟨row, rows⟩
  · obtain ⟨-, hstart, hend⟩ := h.fresh hlist
    rw [hstart, hend] at hhour
    exact absurd hhour (by simp [tmHour])
  obtain ⟨msg, endTime, hmsg, hrows⟩ := exists_message hlist h.parsed
  have hstart : csvBuffer.startTime = row.timestamp := h.first row (by simp [hlist])
  -- none of the rows is empty
  have hfilled : decoded (row.timestamp + 3600) csvBuffer.list
      = csvBuffer.list.filter fun r => r.timestamp < row.timestamp + 3600 := by
    refine List.filter_congr ?_
    intro r hr
    simp [(h.lines r (List.mem_append_right _ hr)).filled]
  rw [hfilled] at hrows
  have hsplit : messageRows msg ++
      csvBuffer.list.filter (fun r => row.timestamp + 3600 ≤ r.timestamp) = csvBuffer.list := by
    rw [hrows]
    exact filter_append_filter_of_sorted _ h.parsed.sorted
  -- the last row stays, and the first one goes
  obtain ⟨last, hlast⟩ : ∃ last, csvBuffer.list.getLast? = some last :=
    ⟨_, List.getLast?_eq_some_getLast (by simp [hlist])⟩
  have hend : csvBuffer.endTime = last.timestamp := h.last last hlast
  have hstays : last ∈ csvBuffer.list.filter fun r => row.timestamp + 3600 ≤ r.timestamp := by
    refine List.mem_filter.mpr ⟨List.mem_of_getLast? hlast, ?_⟩
    rw [hstart, hend, tmHour] at hhour
    simpa [add_comm] using le_sub_iff_add_le.mp hhour
  obtain ⟨head, tail, hrest⟩ := List.exists_cons_of_ne_nil (List.ne_nil_of_mem hstays)
  have hgoes : 0 < (messageRows msg).length := by
    refine List.length_pos_of_mem (a := row) ?_
    rw [hrows]
    exact List.mem_filter.mpr ⟨by simp [hlist], by simp⟩
  refine ⟨msg, _, hmsg, ⟨?_, ?_, ?_, ?_, ?_⟩, ?_, ?_, rfl⟩
  · simpa only [List.append_assoc, hsplit] using h.sorted
  · simpa only [List.append_assoc, hsplit] using h.lines
  · intro hnil
    exact absurd (hrest.symm.trans hnil) (List.cons_ne_nil _ _)
  · intro r hr
    simp only [hrest, List.head?_cons, Option.mem_some_iff] at hr ⊢
    subst hr
    rfl
  · intro r hr
    refine h.last r ?_
    rw [← hsplit, List.getLast?_append]
    simp only [Option.mem_def] at hr ⊢
    simp [hr]
  · rw [← hlist]
    exact hsplit
  · have hlen := congrArg List.length hsplit
    rw [List.length_append] at hlen
    rw [← hlist]
    exact (Nat.lt_add_of_pos_left hgoes).trans_eq hlen

/-- A buffer without rows sent nothing. -/
lemma list_ne_nil (h : csvBuffer.Continues sent) (hsome : sent ++ csvBuffer.list ≠ []) :
    csvBuffer.list ≠ [] := by
  intro hnil
  rw [hnil, (h.fresh hnil).1] at hsome
  exact hsome rfl

/-- The turns of the loop send rows out of the front of the buffer, and as many of them as there
are rows end it. -/
lemma archiveTurns (h : csvBuffer.Continues sent) (turns : ℕ) :
    ∃ messages csvBuffer', archiveTurns turns csvBuffer = some (messages, csvBuffer') ∧
      csvBuffer'.Continues (sent ++ messages.flatMap messageRows) ∧
      messages.flatMap messageRows ++ csvBuffer'.list = csvBuffer.list ∧
      csvBuffer'.fileName = csvBuffer.fileName ∧
      (csvBuffer.list.length ≤ turns → csvBuffer'.endTime - csvBuffer'.startTime < tmHour) := by
  induction turns generalizing csvBuffer sent with
  | zero =>
    refine ⟨[], csvBuffer, rfl, by simpa using h, by simp, rfl, ?_⟩
    intro hlen
    obtain ⟨-, hstart, hend⟩ := h.fresh (List.eq_nil_of_length_eq_zero (Nat.le_zero.mp hlen))
    rw [hstart, hend]
    exact by simp [tmHour]
  | succ turns ih =>
    by_cases hhour : csvBuffer.endTime - csvBuffer.startTime ≥ tmHour
    · obtain ⟨msg, csvBuffer₁, hmsg, hnext, hsplit, hlen, hname⟩ := h.message hhour
      obtain ⟨messages, csvBuffer', hturns, hlast, hsplit', hname', hends⟩ := ih hnext
      refine ⟨msg :: messages, csvBuffer', ?_, ?_, ?_, hname'.trans hname, ?_⟩
      · rw [StationProcessor.archiveTurns, if_pos hhour, hmsg]
        simp [hturns]
      · rwa [List.flatMap_cons, ← List.append_assoc]
      · rw [List.flatMap_cons, List.append_assoc, hsplit', hsplit]
      · intro hle
        exact hends (Nat.le_of_lt_succ (hlen.trans_le hle))
    · refine ⟨[], csvBuffer, ?_, by simpa using h, by simp, rfl, fun _ => not_le.mp hhour⟩
      rw [StationProcessor.archiveTurns, if_neg hhour]

end CsvBuffer.Continues

/-- More turns do not matter to a loop that has ended. -/
lemma archiveTurns_stable {turns turns' : ℕ} {csvBuffer csvBuffer' : CsvBuffer}
    {messages : List Bytes} (hturns : archiveTurns turns csvBuffer = some (messages, csvBuffer'))
    (hends : csvBuffer'.endTime - csvBuffer'.startTime < tmHour) (hle : turns ≤ turns') :
    archiveTurns turns' csvBuffer = some (messages, csvBuffer') := by
  induction turns generalizing turns' csvBuffer messages with
  | zero =>
    cases hturns
    cases turns' with
    | zero => rfl
    | succ turns' => exact if_neg (not_le.mpr hends)
  | succ turns ih =>
    obtain ⟨turns', rfl⟩ := Nat.exists_eq_add_one_of_ne_zero (Nat.ne_of_gt
      ((Nat.succ_pos turns).trans_le hle))
    rw [archiveTurns] at hturns ⊢
    by_cases hhour : csvBuffer.endTime - csvBuffer.startTime ≥ tmHour
    · rw [if_pos hhour] at hturns ⊢
      obtain ⟨⟨msg, csvBuffer₁⟩, hmsg, hturns⟩ := Option.bind_eq_some_iff.mp hturns
      obtain ⟨⟨messages₁, csvBuffer₂⟩, hrest, hturns⟩ := Option.bind_eq_some_iff.mp hturns
      cases hturns
      rw [hmsg]
      simp [ih hrest (Nat.le_of_succ_le_succ hle)]
    · rw [if_neg hhour] at hturns ⊢
      exact hturns

/-! ### Runs -/

/-- The accepted rows are in the order of their times, each in one place: in the messages one after
the other, or else in the buffer. -/
structure CsvHistory.ExactlyOnce (h : CsvHistory) : Prop where
  increasing : h.accepted.Pairwise (·.timestamp < ·.timestamp)
  once : h.messages.flatMap messageRows ++ h.buffer.list = h.accepted
  first : ∀ row ∈ h.buffer.list.head?, h.buffer.startTime = row.timestamp
  last : ∀ row ∈ h.buffer.list.getLast?, h.buffer.endTime = row.timestamp

/-- What archiving a buffer leaves: no rows go out unsent, some stay where there were some, and they
are less than an hour apart. -/
structure CsvHistory.Archived (h h' : CsvHistory) : Prop where
  accepted : h'.accepted = h.accepted
  kept : h.buffer.list ≠ [] → h'.buffer.list ≠ []
  short : ∀ r ∈ h'.buffer.list, ∀ r' ∈ h'.buffer.list, r'.timestamp - r.timestamp < 3600

/-- The invariant of a run. -/
structure CsvHistory.Ordered (h : CsvHistory) : Prop where
  continues : h.buffer.Continues (h.messages.flatMap messageRows)
  once : h.messages.flatMap messageRows ++ h.buffer.list = h.accepted

namespace CsvHistory

variable {h : CsvHistory}

lemma Ordered.exactlyOnce (hh : h.Ordered) : h.ExactlyOnce where
  increasing := by
    rw [← hh.once]
    exact hh.continues.sorted
  once := hh.once
  first := hh.continues.first
  last := hh.continues.last

lemma ordered_init (fileName : CString) : Ordered ⟨csvBufferInit fileName, [], []⟩ := by
  refine ⟨⟨List.Pairwise.nil, ?_, fun _ => ⟨rfl, rfl, rfl⟩, ?_, ?_⟩, rfl⟩
  · intro r hr
    exact absurd hr (List.not_mem_nil)
  · intro r hr
    cases hr
  · intro r hr
    cases hr

/-- A file only adds rows at the end. -/
lemma prefix_csvParseFile (csvBuffer : CsvBuffer) (file : CsvFile) (initialTime : ℤ) :
    csvBuffer.list <+: (csvParseFile csvBuffer file initialTime).2.list := by
  have hlines (lines : List CsvLine) (b : CsvBuffer) :
      b.list <+: (lines.foldl (addLine initialTime) b).list := by
    induction lines generalizing b with
    | nil => exact List.prefix_rfl
    | cons line lines ih =>
      refine List.IsPrefix.trans ?_ (ih _)
      by_cases haccepts : accepts b initialTime line
      · rw [addLine, if_pos haccepts]
        exact List.prefix_append _ _
      · rw [addLine, if_neg haccepts]
  rw [csvParseFile]
  cases file.channel with
  | none => exact List.prefix_rfl
  | some channel =>
    cases file.description with
    | none => exact List.prefix_rfl
    | some description =>
      exact hlines file.lines { csvBuffer with header := ⟨description, channel⟩ }

lemma Ordered.parse (hh : h.Ordered) (file : CsvFile) (initialTime : ℤ) :
    (h.parse file initialTime).Ordered := by
  refine ⟨hh.continues.parse file initialTime, ?_⟩
  obtain ⟨rows, hrows⟩ := prefix_csvParseFile h.buffer file initialTime
  show _ ++ (csvParseFile h.buffer file initialTime).2.list = h.accepted ++ _
  rw [← hrows, List.drop_left, ← hh.once, List.append_assoc]
  rfl

/-- At every turn of the loop. -/
lemma Ordered.turns (hh : h.Ordered) (turns : ℕ) :
    ∃ sent, archiveTurns turns h.buffer = some sent ∧ (h.send sent).Ordered := by
  obtain ⟨messages, csvBuffer', hturns, hnext, hsplit, -⟩ := hh.continues.archiveTurns turns
  refine ⟨_, hturns, ⟨?_, ?_⟩⟩
  · simpa [send] using hnext
  · simpa [send, hsplit] using hh.once

/-- The loop ends. -/
lemma Ordered.archive (hh : h.Ordered) :
    ∃ h', (∀ fuel, h.buffer.list.length ≤ fuel → h.archive fuel = some h') ∧ h'.Ordered ∧
      h.Archived h' := by
  obtain ⟨messages, csvBuffer', hturns, hnext, hsplit, -, hends⟩ :=
    hh.continues.archiveTurns h.buffer.list.length
  have hspan := hends le_rfl
  refine ⟨h.send (messages, csvBuffer'), ?_, ⟨?_, ?_⟩, ⟨rfl, ?_, ?_⟩⟩
  · intro fuel hfuel
    rw [CsvHistory.archive, csvArchiveLoop, archiveTurns_stable hturns hspan hfuel]
    simp [not_le.mpr hspan]
  · simpa [send] using hnext
  · simpa [send, hsplit] using hh.once
  · intro hlist
    refine hnext.list_ne_nil ?_
    rw [List.append_assoc, hsplit]
    exact List.append_ne_nil_of_right_ne_nil _ hlist
  · intro r hr r' hr'
    have hstart : csvBuffer'.startTime ≤ r.timestamp := by
      rcases hlist : csvBuffer'.list with _ | ⟨row, rows⟩
      · exact absurd (hlist ▸ hr) List.not_mem_nil
      · have hsorted := hnext.parsed.sorted
        rw [hlist] at hsorted
        rw [hnext.first row (by simp [hlist])]
        rcases List.mem_cons.mp (hlist ▸ hr) with rfl | hr
        · exact le_rfl
        · exact (List.rel_of_pairwise_cons hsorted hr).le
    have hend := hnext.le_endTime (List.mem_append_right _ hr')
    rw [tmHour] at hspan
    exact (sub_le_sub hend hstart).trans_lt hspan

end CsvHistory

lemma ordered_parseInContext {context : List CsvHistory} (hcontext : ∀ h ∈ context, h.Ordered)
    (fileName : CString) (file : CsvFile) (initialTime : ℤ) :
    ∀ h ∈ parseInContext fileName file initialTime context, h.Ordered := by
  induction context with
  | nil =>
    intro h hh
    rw [List.mem_singleton.mp hh]
    exact (CsvHistory.ordered_init fileName).parse file initialTime
  | cons h context ih =>
    rw [List.forall_mem_cons] at hcontext
    rw [parseInContext]
    split_ifs
    · exact List.forall_mem_cons.mpr ⟨hcontext.1.parse file initialTime, hcontext.2⟩
    · exact List.forall_mem_cons.mpr ⟨hcontext.1, ih hcontext.2⟩

/-- Archiving ends for every buffer. -/
lemma exists_csvArchive {context : List CsvHistory} (hcontext : ∀ h ∈ context, h.Ordered) :
    ∃ bound context', (∀ fuel, bound ≤ fuel → csvArchive fuel context = some context') ∧
      (∀ h ∈ context', h.Ordered) ∧ List.Forall₂ CsvHistory.Archived context context' := by
  induction context with
  | nil => exact ⟨0, [], fun _ _ => rfl, by simp, List.Forall₂.nil⟩
  | cons h context ih =>
    rw [List.forall_mem_cons] at hcontext
    obtain ⟨bound, context', hrest, hordered, harchived⟩ := ih hcontext.2
    obtain ⟨h', hloop, hh', hh⟩ := hcontext.1.archive
    refine ⟨max h.buffer.list.length bound, h' :: context', ?_, ?_, harchived.cons hh⟩
    · intro fuel hfuel
      obtain ⟨hlen, hbound⟩ := max_le_iff.mp hfuel
      have hrest := hrest fuel hbound
      rw [csvArchive] at hrest ⊢
      rw [List.mapM_cons, hloop fuel hlen, hrest]
      rfl
    · exact List.forall_mem_cons.mpr ⟨hh', hordered⟩

/-- Every call keeps the invariant. -/
lemma exists_csvStep {context : List CsvHistory} (hcontext : ∀ h ∈ context, h.Ordered)
    (call : CsvCall) :
    ∃ bound context', (∀ fuel, bound ≤ fuel → csvStep fuel context call = some context') ∧
      ∀ h ∈ context', h.Ordered := by
  cases call with
  | parse fileName file initialTime =>
    exact ⟨0, _, fun _ _ => rfl, ordered_parseInContext hcontext fileName file initialTime⟩
  | archive =>
    obtain ⟨bound, context', hall, hordered, -⟩ := exists_csvArchive hcontext
    exact ⟨bound, context', hall, hordered⟩

lemma exists_csvRun (calls : List CsvCall) :
    ∃ bound context, (∀ fuel, bound ≤ fuel → csvRun fuel calls = some context) ∧
      ∀ h ∈ context, h.Ordered := by
  induction calls using List.reverseRecOn with
  | nil => exact ⟨0, [], fun _ _ => rfl, by simp⟩
  | append_singleton calls call ih =>
    obtain ⟨bound, context, hrun, hcontext⟩ := ih
    obtain ⟨bound', context', hstep, hcontext'⟩ := exists_csvStep hcontext call
    refine ⟨max bound bound', context', ?_, hcontext'⟩
    intro fuel hfuel
    obtain ⟨hbound, hbound'⟩ := max_le_iff.mp hfuel
    have hrun := hrun fuel hbound
    rw [csvRun] at hrun ⊢
    rw [List.foldlM_append, hrun]
    simp [hstep fuel hbound']

/-- Every run ends, also in the middle of its archiving, with each accepted row in one place; and
archiving then ends, with less than an hour of rows but some wherever there were some. -/
theorem csv_pipeline (calls : List CsvCall) :
    ∃ bound context, (∀ fuel, bound ≤ fuel → csvRun fuel calls = some context) ∧
      (∀ h ∈ context, h.ExactlyOnce ∧
        ∀ turns, ∃ sent, archiveTurns turns h.buffer = some sent ∧ (h.send sent).ExactlyOnce) ∧
      ∃ context', (∀ fuel, bound ≤ fuel → csvArchive fuel context = some context') ∧
        List.Forall₂ CsvHistory.Archived context context' := by
  obtain ⟨bound, context, hrun, hcontext⟩ := exists_csvRun calls
  obtain ⟨bound', context', harchive, -, harchived⟩ := exists_csvArchive hcontext
  refine ⟨max bound bound', context, ?_, ?_, context', ?_, harchived⟩
  · intro fuel hfuel
    exact hrun fuel (max_le_iff.mp hfuel).1
  · intro h hh
    refine ⟨(hcontext h hh).exactlyOnce, ?_⟩
    intro turns
    obtain ⟨sent, hturns, hordered⟩ := (hcontext h hh).turns turns
    exact ⟨sent, hturns, hordered.exactlyOnce⟩
  · intro fuel hfuel
    exact harchive fuel (max_le_iff.mp hfuel).2

end StationProcessor
