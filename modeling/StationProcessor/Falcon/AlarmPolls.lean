import StationProcessor.Falcon.AlarmLines

/-!
# Alarms over all polls

What `PollFalcon` does about alarms, poll after poll. The list of lines is what keeps a line from
being archived again, but it is cut to 100 lines, and the time of its last line is never found.
-/

namespace StationProcessor

/-! ### `PollFalcon` -/

/-- The last alarm time of a poll. `list_get_at` looks behind the last line. -/
def lastAlarmTime (lines : List AlarmLine) (last : ℕ) : ℕ :=
  if lines.isEmpty then last
  else
    match lines[lines.length]? with
    | some a => a.timestamp.toNat
    | none => last

/-- The time at the start is that of all polls. -/
@[simp] lemma lastAlarmTime_eq (lines : List AlarmLine) (last : ℕ) :
    lastAlarmTime lines last = last := by
  simp [lastAlarmTime]

/-- Polls of the pages, the last one at the end: the lines that are kept and the payloads that were
queued. `list_sort` draws its pivots at random, and its comparator cuts the difference of two times
to an `int`, so the order of the lines is left open. -/
inductive AlarmRun (r : AlarmReader) (last : ℕ) :
    List AlarmPage → List AlarmLine → List Bytes → Prop
  | init : AlarmRun r last [] [] []
  | poll {pages : List AlarmPage} {lines sorted : List AlarmLine} {payloads : List Bytes}
      {page : AlarmPage} (run : AlarmRun r last pages lines payloads)
      (sort : sorted.Perm (alarmFilterLines r (lastAlarmTime lines last) lines page)) :
      AlarmRun r last (pages ++ [page]) (alarmArchive sorted).2
        (payloads ++ (alarmArchive sorted).1)

/-! ### What the polls promise -/

/-- Lines are appended to the page. -/
def AlarmPage.Grows (page page' : AlarmPage) : Prop := page.lines <+: page'.lines

/-- The different lines of a page that are newer than the last alarm. -/
def AlarmPage.newer (r : AlarmReader) (last : ℕ) (page : AlarmPage) : List Bytes :=
  ((page.lines.map AlarmMatch.text).filter (r.Newer · last)).dedup

/-- Each newer line of the page is in the payloads once, and nothing else is. -/
def AlarmsOnce (r : AlarmReader) (last : ℕ) (page : AlarmPage) (payloads : List Bytes) : Prop :=
  ∃ messages, ReadsAlarms payloads messages ∧
    (messages.flatMap AlarmMessage.alarms).Perm ((page.newer r last).map r.content)

/-- A newer line at the first byte is also further down, and all newer lines fit into the list. -/
def NewerFit (r : AlarmReader) (last : ℕ) (page : AlarmPage) : Prop :=
  (∀ m ∈ page.lines.head?, m.start = 0 → r.Newer m.text last →
      m.text ∈ page.lines.tail.map AlarmMatch.text) ∧
    (page.newer r last).length ≤ maxContextAlarms

/-! ### One poll -/

section Archive

variable {r : AlarmReader} {last : ℕ} {lines : List AlarmLine} {texts : Finset Bytes}

lemma ReadsAlarms.append {payloads payloads' : List Bytes} {messages messages' : List AlarmMessage}
    (h : ReadsAlarms payloads messages) (h' : ReadsAlarms payloads' messages') :
    ReadsAlarms (payloads ++ payloads') (messages ++ messages') := by
  rw [ReadsAlarms] at h h' ⊢
  simp [List.mapM_append, h, h', bind, Except.bind, pure, Except.pure]

lemma AlarmLine.archived_of_sent {a : AlarmLine} (h : a.sent = true) : a.archived = a := by
  rw [AlarmLine.archived, ← h]

lemma archiveAlarms_snd (h : ∀ a ∈ lines, a.description.val ≠ []) (s : AlarmArchiver) :
    (archiveAlarms s lines).2 = lines.map AlarmLine.archived := by
  induction lines generalizing s with
  | nil => rfl
  | cons a lines ih =>
    obtain ⟨ha, hlines⟩ := List.forall_mem_cons.mp h
    have hturn : (archiveAlarm s a).2 = a.archived := by
      cases hsent : a.sent with
      | true => simp [archiveAlarm, AlarmLine.archived_of_sent hsent, hsent]
      | false => simp [archiveAlarm, AlarmLine.archived, hsent, ha]
    have hrest : (archiveAlarms s (a :: lines)).2
        = (archiveAlarm s a).2 :: (archiveAlarms (archiveAlarm s a).1 lines).2 := rfl
    rw [hrest, hturn, ih hlines, List.map_cons]

/-- What is left of the list: its newest lines, all sent. -/
lemma AlarmReader.Holds.alarmArchive_snd (h : r.Holds texts lines) :
    (alarmArchive lines).2
      = (lines.map AlarmLine.archived).drop (lines.length - maxContextAlarms) := by
  have hdescribed : ∀ a ∈ lines, a.description.val ≠ [] := by
    intro a ha
    rw [(h.makes a ha).description]
    exact r.description_ne_nil a.text
  simp only [alarmArchive, archiveAlarms_snd hdescribed, List.length_map]

/-- The lines that were not sent are in the payloads. -/
lemma AlarmReader.Holds.messages (h : r.Holds texts lines) :
    ∃ messages, ReadsAlarms (alarmArchive lines).1 messages ∧
      messages.flatMap AlarmMessage.alarms
        = ((lines.filter (·.sent = false)).map AlarmLine.text).map r.content := by
  obtain ⟨payloads, messages, hfinish, hreads, halarms, -⟩ :=
    AlarmArchiver.collects_init.messages AlarmArchiver.timed_init (by norm_num) lines
  have hpayloads : (alarmArchive lines).1 = payloads := (alarmArchive_payloads lines).trans hfinish
  refine ⟨messages, hpayloads ▸ hreads, ?_⟩
  rw [halarms, List.nil_append, List.map_map]
  have hsame : lines.filter AlarmLine.Added = lines.filter (·.sent = false) :=
    List.filter_congr fun a ha => decide_eq_decide.mpr (h.makes a ha).added_iff
  rw [hsame]
  exact List.map_congr_left fun a ha => (h.makes a (List.mem_of_mem_filter ha)).content_eq

lemma AlarmReader.Holds.archived (h : r.Holds texts lines) :
    r.Holds texts (alarmArchive lines).2 := by
  have hmap : r.Holds texts (lines.map AlarmLine.archived) := by
    refine ⟨?_, ?_, ?_⟩
    · simpa using fun a ha => (h.makes a ha).archived
    · simpa [Function.comp_def, AlarmLine.archived] using h.nodup
    · simpa [AlarmLine.archived] using h.mem
  rw [h.alarmArchive_snd]
  exact hmap.sublist (List.drop_sublist _ _)

/-- The texts of the list, and those that are read from a page, are among `texts`. -/
lemma AlarmReader.Holds.alarmFilterLines (h : r.Holds texts lines) {page : AlarmPage}
    (hmem : ∀ m ∈ page.lines, r.Reads last m → m.text ∈ texts) :
    r.Holds texts (alarmFilterLines r (lastAlarmTime lines last) lines page) := by
  rw [lastAlarmTime_eq]
  exact h.foldl hmem

end Archive

/-! ### All polls -/

namespace AlarmRun

variable {r : AlarmReader} {last : ℕ} {pages : List AlarmPage} {lines : List AlarmLine}
  {payloads : List Bytes} {texts : Finset Bytes}

/-- The texts that are read from the pages are among `texts`. -/
def AllRead (r : AlarmReader) (last : ℕ) (texts : Finset Bytes) (pages : List AlarmPage) : Prop :=
  ∀ page ∈ pages, ∀ m ∈ page.lines, r.Reads last m → m.text ∈ texts

lemma allRead_concat {page : AlarmPage} (h : AllRead r last texts (pages ++ [page])) :
    AllRead r last texts pages ∧ ∀ m ∈ page.lines, r.Reads last m → m.text ∈ texts := by
  simpa [AllRead, or_imp, forall_and] using h

/-- At every time the list has at most 100 lines, all different. -/
lemma holds (h : AlarmRun r last pages lines payloads) (hread : AllRead r last texts pages) :
    r.Holds texts lines ∧ lines.length ≤ maxContextAlarms := by
  induction h with
  | init => exact ⟨AlarmReader.Holds.nil, Nat.zero_le _⟩
  | @poll pages lines sorted payloads page run sort ih =>
    obtain ⟨hpages, hpage⟩ := allRead_concat hread
    have hsorted := ((ih hpages).1.alarmFilterLines hpage).perm sort
    refine ⟨hsorted.archived, ?_⟩
    rw [hsorted.alarmArchive_snd, List.length_drop, List.length_map]
    omega

/-- A poll after which the list still has room for all texts. -/
lemma poll_fits (hlines : r.Holds texts lines) (hsent : ∀ a ∈ lines, a.sent = true)
    (hfit : texts.card ≤ maxContextAlarms) {page : AlarmPage}
    (hpage : ∀ m ∈ page.lines, r.Reads last m → m.text ∈ texts) {sorted : List AlarmLine}
    (sort : sorted.Perm (alarmFilterLines r (lastAlarmTime lines last) lines page)) :
    ∃ messages, ReadsAlarms (alarmArchive sorted).1 messages ∧
      ((lines.map AlarmLine.text).map r.content ++ messages.flatMap AlarmMessage.alarms).Perm
        (((alarmArchive sorted).2.map AlarmLine.text).map r.content) ∧
      (∀ a ∈ (alarmArchive sorted).2, a.sent = true) ∧
      ∀ t, t ∈ (alarmArchive sorted).2.map AlarmLine.text ↔
        t ∈ lines.map AlarmLine.text ∨ ∃ m ∈ page.lines, r.Reads last m ∧ m.text = t := by
  have hsorted := (hlines.alarmFilterLines hpage).perm sort
  obtain ⟨messages, hreads, halarms⟩ := hsorted.messages
  have hroom : texts.card ≤ maxAlarms := hfit.trans (by decide)
  obtain ⟨added, heq, hunsent, htexts⟩ := hlines.foldl_eq hroom hpage
  rw [lastAlarmTime_eq, alarmFilterLines, heq] at sort
  -- nothing is cut off
  have hkept : (alarmArchive sorted).2 = sorted.map AlarmLine.archived := by
    have hlength := hsorted.length_le.trans hfit
    rw [hsorted.alarmArchive_snd, Nat.sub_eq_zero_of_le hlength, List.drop_zero]
  have hmap : (alarmArchive sorted).2.map AlarmLine.text = sorted.map AlarmLine.text := by
    rw [hkept, List.map_map]
    rfl
  have hfilter : (sorted.filter (·.sent = false)).Perm added := by
    refine (sort.filter _).trans (List.Perm.of_eq ?_)
    have hold : lines.filter (·.sent = false) = [] :=
      List.filter_eq_nil_iff.mpr fun a ha => by simp [hsent a ha]
    have hnew : added.filter (·.sent = false) = added :=
      List.filter_eq_self.mpr fun a ha => by simp [hunsent a ha]
    rw [List.filter_append, hold, hnew, List.nil_append]
  refine ⟨messages, hreads, ?_, ?_, fun t => ?_⟩
  · rw [halarms, hmap, ← List.map_append, ← List.map_append]
    exact (((hfilter.append_left lines).trans sort.symm).map _).map _
  · rw [hkept]
    simp [AlarmLine.archived]
  · rw [hmap, (sort.map AlarmLine.text).mem_iff]
    exact htexts t

/-- As long as the list has room for all texts, it has all that were read, and so have the
payloads. -/
lemma fits (h : AlarmRun r last pages lines payloads) (hread : AllRead r last texts pages)
    (hfit : texts.card ≤ maxContextAlarms) :
    (∀ a ∈ lines, a.sent = true) ∧
      (∀ t, t ∈ lines.map AlarmLine.text ↔
        ∃ page ∈ pages, ∃ m ∈ page.lines, r.Reads last m ∧ m.text = t) ∧
      ∃ messages, ReadsAlarms payloads messages ∧
        (messages.flatMap AlarmMessage.alarms).Perm ((lines.map AlarmLine.text).map r.content) := by
  induction h with
  | init => exact ⟨by simp, by simp, [], rfl, by simp⟩
  | @poll pages lines sorted payloads page run sort ih =>
    obtain ⟨hpages, hpage⟩ := allRead_concat hread
    obtain ⟨hsent, htexts, messages, hreads, hperm⟩ := ih hpages
    obtain ⟨messages', hreads', hperm', hsent', htexts'⟩ :=
      poll_fits (run.holds hpages).1 hsent hfit hpage sort
    refine ⟨hsent', fun t => ?_, messages ++ messages', hreads.append hreads', ?_⟩
    · rw [htexts' t, htexts t]
      simp [or_and_right, exists_or]
    · rw [List.flatMap_append]
      exact (hperm.append_right _).trans hperm'

/-- A poll that reads a line which is not in the list archives one. -/
lemma poll_archives (hlines : r.Holds texts lines) {page : AlarmPage}
    (hpage : ∀ m ∈ page.lines, r.Reads last m → m.text ∈ texts)
    (hnew : ∃ m ∈ page.lines, r.Reads last m ∧ m.text ∉ lines.map AlarmLine.text) :
    ∃ messages,
      ReadsAlarms (alarmArchive (alarmFilterLines r (lastAlarmTime lines last) lines page)).1
        messages ∧ 0 < (messages.flatMap AlarmMessage.alarms).length := by
  obtain ⟨messages, hreads, halarms⟩ := (hlines.alarmFilterLines hpage).messages
  obtain ⟨a, ha, hunsent⟩ := hlines.foldl_unsent hpage (Or.inr hnew)
  refine ⟨messages, hreads, ?_⟩
  rw [halarms, List.length_map, List.length_map, lastAlarmTime_eq]
  refine List.length_pos_of_mem (List.mem_filter.mpr ⟨List.mem_of_getLast? ha, ?_⟩)
  exact decide_eq_true hunsent

end AlarmRun

/-! ### The lines of a page -/

namespace AlarmPage

variable {r : AlarmReader} {last : ℕ} {page : AlarmPage}

/-- The lines that are read from a page. -/
def read (r : AlarmReader) (last : ℕ) (page : AlarmPage) : Finset Bytes :=
  ((page.lines.filter (r.Reads last)).map AlarmMatch.text).toFinset

lemma mem_read {t : Bytes} :
    t ∈ page.read r last ↔ ∃ m ∈ page.lines, r.Reads last m ∧ m.text = t := by
  simp [read, and_assoc]

lemma mem_newer {t : Bytes} :
    t ∈ page.newer r last ↔ ∃ m ∈ page.lines, r.Newer m.text last ∧ m.text = t := by
  rw [newer, List.mem_dedup, List.mem_filter, List.mem_map]
  constructor
  · rintro ⟨⟨m, hm, rfl⟩, hnewer⟩
    exact ⟨m, hm, of_decide_eq_true hnewer, rfl⟩
  · rintro ⟨m, hm, hnewer, rfl⟩
    exact ⟨⟨m, hm, rfl⟩, decide_eq_true hnewer⟩

lemma nodup_newer : (page.newer r last).Nodup := List.nodup_dedup _

lemma read_subset : page.read r last ⊆ (page.newer r last).toFinset := by
  intro t ht
  obtain ⟨m, hm, hreads, rfl⟩ := mem_read.mp ht
  exact List.mem_toFinset.mpr (mem_newer.mpr ⟨m, hm, hreads.2, rfl⟩)

/-- Only the line at the first byte can be missed. -/
lemma mem_read_of_newer
    (hfirst : ∀ m ∈ page.lines.head?, m.start = 0 → r.Newer m.text last →
      m.text ∈ page.lines.tail.map AlarmMatch.text)
    {t : Bytes} (ht : t ∈ page.newer r last) : t ∈ page.read r last := by
  obtain ⟨m, hm, hnewer, rfl⟩ := mem_newer.mp ht
  by_cases hstart : m.start = 0
  · have hhead : m ∈ page.lines.head? := by
      have hlater := page.later m
      cases hlines : page.lines with
      | nil => simp [hlines] at hm
      | cons m' ms =>
        rw [hlines] at hm hlater
        rcases List.mem_cons.mp hm with rfl | hms
        · rfl
        · exact absurd hstart (hlater hms)
    obtain ⟨m', hm', htext⟩ := List.mem_map.mp (hfirst m hhead hstart hnewer)
    refine mem_read.mpr ⟨m', List.mem_of_mem_tail hm', ⟨page.later m' hm', ?_⟩, htext⟩
    rwa [htext]
  · exact mem_read.mpr ⟨m, hm, ⟨hstart, hnewer⟩, rfl⟩

lemma card_toFinset_newer : (page.newer r last).toFinset.card = (page.newer r last).length :=
  List.toFinset_card_of_nodup nodup_newer

/-- A newer line that is only at the first byte is missed. -/
lemma card_read_lt {m : AlarmMatch} (hm : m ∈ page.lines.head?) (hstart : m.start = 0)
    (hnewer : r.Newer m.text last) (hnot : m.text ∉ page.lines.tail.map AlarmMatch.text) :
    (page.read r last).card < (page.newer r last).length := by
  have hmissing : m.text ∉ page.read r last := by
    intro hread
    obtain ⟨m', hm', hreads, htext⟩ := mem_read.mp hread
    refine hnot (List.mem_map.mpr ⟨m', ?_, htext⟩)
    obtain ⟨ms, hlines⟩ := List.head?_eq_some_iff.mp hm
    rw [hlines] at hm' ⊢
    rcases List.mem_cons.mp hm' with rfl | hms
    · exact absurd hstart hreads.1
    · exact hms
  rw [← card_toFinset_newer]
  refine Finset.card_lt_card (Finset.ssubset_iff_subset_ne.mpr ⟨read_subset, fun heq => ?_⟩)
  rw [heq, List.mem_toFinset, mem_newer] at hmissing
  exact hmissing ⟨m, List.mem_of_mem_head? hm, hnewer, rfl⟩

/-- All pages of a run are parts of the last. -/
lemma prefix_of_isChain {pages : List AlarmPage} (h : (pages ++ [page]).IsChain Grows) :
    ∀ page' ∈ pages, page'.lines <+: page.lines := by
  have htrans : Trans Grows Grows Grows := ⟨List.IsPrefix.trans⟩
  have hall := (List.isChain_iff_pairwise.mp h)
  exact fun page' hpage' => (List.pairwise_append.mp hall).2.2 page' hpage' page (by simp)

end AlarmPage

/-! ### Pages that are polled again -/

section Again

variable {r : AlarmReader} {last : ℕ} {page : AlarmPage}

lemma reads_mem_read : ∀ m ∈ page.lines, r.Reads last m → m.text ∈ page.read r last :=
  fun m hm hreads => AlarmPage.mem_read.mpr ⟨m, hm, hreads, rfl⟩

/-- The first poll archives no other lines than those that are read. -/
lemma exists_alarmRun_le (r : AlarmReader) (last : ℕ) (page : AlarmPage) :
    ∃ lines payloads messages, AlarmRun r last [page] lines payloads ∧
      ReadsAlarms payloads messages ∧
      (messages.flatMap AlarmMessage.alarms).length ≤ (page.read r last).card := by
  have hholds := AlarmReader.Holds.nil.alarmFilterLines (@reads_mem_read r last page)
  obtain ⟨messages, hreads, halarms⟩ := hholds.messages
  have hrun := AlarmRun.poll AlarmRun.init
    (List.Perm.refl (alarmFilterLines r (lastAlarmTime [] last) [] page))
  refine ⟨_, _, messages, hrun, hreads, ?_⟩
  rw [halarms, List.length_map, List.length_map]
  exact (List.length_filter_le _ _).trans hholds.length_le

/-- Where more than 100 lines are read from a page, each poll of it archives one. -/
lemma exists_alarmRun_ge
    (hmany : maxContextAlarms < (page.read r last).card) (n : ℕ) :
    ∃ lines payloads messages, AlarmRun r last (List.replicate n page) lines payloads ∧
      ReadsAlarms payloads messages ∧ n ≤ (messages.flatMap AlarmMessage.alarms).length := by
  have hall : ∀ n, AlarmRun.AllRead r last (page.read r last) (List.replicate n page) := by
    intro n page' hpage'
    rw [List.eq_of_mem_replicate hpage']
    exact reads_mem_read
  induction n with
  | zero => exact ⟨[], [], [], AlarmRun.init, rfl, le_rfl⟩
  | succ n ih =>
    obtain ⟨lines, payloads, messages, run, hreads, hlength⟩ := ih
    obtain ⟨hholds, hshort⟩ := run.holds (hall n)
    -- the list has not all lines of the page
    have hnew : ∃ m ∈ page.lines, r.Reads last m ∧ m.text ∉ lines.map AlarmLine.text := by
      by_contra hnone
      push Not at hnone
      have hsub : page.read r last ⊆ (lines.map AlarmLine.text).toFinset := by
        intro t ht
        obtain ⟨m, hm, hm', rfl⟩ := AlarmPage.mem_read.mp ht
        exact List.mem_toFinset.mpr (hnone m hm hm')
      have hcard := Finset.card_le_card hsub
      rw [List.toFinset_card_of_nodup hholds.nodup, List.length_map] at hcard
      omega
    obtain ⟨messages', hreads', hpos⟩ := AlarmRun.poll_archives hholds reads_mem_read hnew
    have hrun := AlarmRun.poll run (List.Perm.refl (alarmFilterLines r (lastAlarmTime lines last)
      lines page))
    rw [← List.replicate_succ'] at hrun
    refine ⟨_, _, messages ++ messages', hrun, hreads.append hreads', ?_⟩
    rw [List.flatMap_append, List.length_append]
    omega

end Again

/-- **Alarms are archived once.** All runs of polls of a growing page that end with `page` archive
each newer line of it once, if and only if a newer line at the first byte is also further down and
at most 100 different lines are newer. -/
theorem alarmsOnce_iff (r : AlarmReader) (last : ℕ) (page : AlarmPage) :
    (∀ pages lines payloads, (pages ++ [page]).IsChain AlarmPage.Grows →
      AlarmRun r last (pages ++ [page]) lines payloads → AlarmsOnce r last page payloads) ↔
      NewerFit r last page := by
  constructor
  · intro h
    have hfirst : ∀ m ∈ page.lines.head?, m.start = 0 → r.Newer m.text last →
        m.text ∈ page.lines.tail.map AlarmMatch.text := by
      intro m hm hstart hnewer
      by_contra hnot
      have hlt := AlarmPage.card_read_lt hm hstart hnewer hnot
      obtain ⟨lines, payloads, messages, run, hreads, hle⟩ := exists_alarmRun_le r last page
      obtain ⟨messages', hreads', hperm⟩ := h [] lines payloads (by simp) run
      obtain rfl := hreads.unique hreads'
      rw [hperm.length_eq, List.length_map] at hle
      omega
    refine ⟨hfirst, not_lt.mp fun hmany => ?_⟩
    have hread : page.read r last = (page.newer r last).toFinset :=
      AlarmPage.read_subset.antisymm fun t ht =>
        AlarmPage.mem_read_of_newer hfirst (List.mem_toFinset.mp ht)
    rw [← AlarmPage.card_toFinset_newer, ← hread] at hmany
    obtain ⟨lines, payloads, messages, run, hreads, hge⟩ :=
      exists_alarmRun_ge hmany ((page.newer r last).length + 1)
    rw [List.replicate_succ'] at run
    have hgrows : (List.replicate (page.newer r last).length page ++ [page]).IsChain
        AlarmPage.Grows := by
      rw [← List.replicate_succ']
      exact List.isChain_replicate_of_rel _ (List.prefix_refl _)
    obtain ⟨messages', hreads', hperm⟩ := h _ _ _ hgrows run
    obtain rfl := hreads.unique hreads'
    have hlength := hperm.length_eq
    rw [List.length_map] at hlength
    omega
  · rintro ⟨hfirst, hfit⟩ pages lines payloads hgrows run
    have hparts := AlarmPage.prefix_of_isChain hgrows
    have hmem : ∀ page' ∈ pages ++ [page], ∀ m ∈ page'.lines, m ∈ page.lines := by
      intro page' hpage' m hm
      rcases List.mem_append.mp hpage' with hpage' | hpage'
      · exact (hparts page' hpage').subset hm
      · rwa [List.mem_singleton.mp hpage'] at hm
    have hread : AlarmRun.AllRead r last (page.newer r last).toFinset (pages ++ [page]) := by
      intro page' hpage' m hm hreads
      exact List.mem_toFinset.mpr
        (AlarmPage.mem_newer.mpr ⟨m, hmem page' hpage' m hm, hreads.2, rfl⟩)
    rw [← AlarmPage.card_toFinset_newer] at hfit
    obtain ⟨-, htexts, messages, hreads, hperm⟩ := run.fits hread hfit
    refine ⟨messages, hreads, hperm.trans (List.Perm.map _ ?_)⟩
    refine (List.perm_ext_iff_of_nodup (run.holds hread).1.nodup AlarmPage.nodup_newer).mpr
      fun t => (htexts t).trans ?_
    constructor
    · rintro ⟨page', hpage', m, hm, hreads, rfl⟩
      exact AlarmPage.mem_newer.mpr ⟨m, hmem page' hpage' m hm, hreads.2, rfl⟩
    · intro ht
      have hread := AlarmPage.mem_read_of_newer hfirst ht
      exact ⟨page, by simp, AlarmPage.mem_read.mp hread⟩

/-- A line of the page of 15 June 2012, and what is read from it. -/
def juneText : Bytes := ascii "AH001-0021-ALM -06/15/12 10:20:30 TMP1:on"

def juneReader : AlarmReader where
  groups _ := {
    code := ascii "0021"
    event := ascii "ALM"
    time := ascii "06/15/12 10:20:30"
    description := ⟨ascii "TMP1", by decide⟩
    described := by decide }
  mktime _ := 1339755630
  mktime_lt _ := by norm_num

def juneMatch : AlarmMatch := ⟨0, juneText, by decide⟩

/-- A page that is this line. -/
def junePage : AlarmPage := ⟨[juneMatch], by simp⟩

/-- The only line of the page begins at its first byte, and is not archived. -/
theorem juneLine_not_archived :
    ¬ ∀ r last page pages lines payloads, (pages ++ [page]).IsChain AlarmPage.Grows →
      AlarmRun r last (pages ++ [page]) lines payloads → AlarmsOnce r last page payloads := by
  intro h
  obtain ⟨lines, payloads, messages, run, hreads, hle⟩ := exists_alarmRun_le juneReader 0 junePage
  obtain ⟨messages', hreads', hperm⟩ := h juneReader 0 junePage [] lines payloads (by simp) run
  obtain rfl := hreads.unique hreads'
  have hread : (junePage.read juneReader 0).card = 0 := by decide +kernel
  have hnewer : (junePage.newer juneReader 0).length = 1 := by decide +kernel
  rw [hperm.length_eq, List.length_map] at hle
  omega

end StationProcessor
