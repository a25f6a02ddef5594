import StationProcessor.Diskloop.Spans

/-!
# What span reports say

A run of `RangeSpans` reads the slots from its first record to its end index, and its lines are
the runs of these records without a gap, except that the first line starts at slot 0.
-/

namespace StationProcessor

open Runs

variable {n : ℕ} {cfg : Config n} {ctx : DiskloopContext n}

/-- The size of an open loop agrees with its file: every slot holds a record with a header
frame, at an offset that fits an `int`. -/
structure SizeStored (ctx : DiskloopContext n) : Prop where
  size_pos : 1 ≤ ctx.size
  frame : frameSize ≤ n
  stored : ctx.size * n ≤ ctx.loopFp.data.length
  offsets : ctx.size * n < 2 ^ 31

/-- Two records without a gap or overlap of more than a millisecond. -/
def Joined (cfg : Config n) (ctx : DiskloopContext n) (i j : ℤ) : Prop :=
  |(slotHeader cfg ctx j).recStart.instant - (slotHeader cfg ctx i).recEnd.instant| ≤ 10

/-- The span of a run of slots. -/
def spanOf (cfg : Config n) (ctx : DiskloopContext n) (run : List ℤ) : Span where
  startTime := (slotHeader cfg ctx (run.headD 0)).recStart
  endTime := (slotHeader cfg ctx (run.getLastD 0)).recEnd
  count := run.length
  startIndex := run.headD 0

/-- The slots from `firstRecord` on, `count` of them. -/
def slotsFrom (size firstRecord : ℤ) (count : ℕ) : List ℤ :=
  (List.range count).map fun k : ℕ => (firstRecord + k) % size

/-- A report that covers these slots: it has read each once, in this order, and its spans are
the runs of records without a gap. -/
structure Reports (cfg : Config n) (ctx : DiskloopContext n) (slots : List ℤ)
    (report : SpanReport) : Prop where
  visited : report.visited = slots
  spans : ∃ runs, IsSplit (Joined cfg ctx) slots runs ∧ report.spans = runs.map (spanOf cfg ctx)

/-! ### Slots -/

lemma SizeStored.readable (h : SizeStored ctx) {i : ℤ} (h0 : 0 ≤ i) (h1 : i < ctx.size) :
    Readable ctx i := by
  have hn : (0 : ℤ) ≤ n := by positivity
  have hframe : (frameSize : ℤ) ≤ n := by exact_mod_cast h.frame
  have hlast : (i + 1) * n ≤ ctx.size * n := mul_le_mul_of_nonneg_right h1 hn
  have hpos : 0 ≤ i * n := mul_nonneg h0 hn
  have hoffsets := h.offsets
  have hstored := h.stored
  have hoffset : headerOffset n i = i * n :=
    Int.bmod_eq_of_le_mul_two (by norm_num; linarith) (by norm_num; linarith)
  rw [Readable, hoffset]
  exact ⟨hpos, by linarith⟩

/-- The slot before the first one has a negative offset. -/
lemma SizeStored.not_readable (h : SizeStored ctx) : ¬ Readable ctx (-1) := by
  have hframe : (64 : ℤ) ≤ n := by exact_mod_cast h.frame
  have hn : (1 : ℤ) * n ≤ ctx.size * n := mul_le_mul_of_nonneg_right h.size_pos (by positivity)
  have hoffsets := h.offsets
  have hoffset : headerOffset n (-1) = -n := by
    rw [headerOffset, neg_one_mul]
    exact Int.bmod_eq_of_le_mul_two (by norm_num; linarith) (by norm_num; linarith)
  rw [Readable, hoffset]
  exact fun hread => by linarith [hread.1]

lemma nextSlot_eq {size i : ℤ} (h0 : 0 ≤ i) (h1 : i < size) :
    nextSlot size i = (i + 1) % size := by
  unfold nextSlot
  split_ifs with hwrap
  · rw [show i + 1 = size by linarith, Int.emod_self]
  · rw [Int.emod_eq_of_lt (by linarith) (by linarith)]

/-- The slot reached after some rounds. -/
lemma nextSlot_iterate {size i : ℤ} (h0 : 0 ≤ i) (h1 : i < size) (k : ℕ) :
    (nextSlot size)^[k] i = (i + k) % size := by
  have hsize : 0 < size := h0.trans_lt h1
  induction k with
  | zero => simp [Int.emod_eq_of_lt h0 h1]
  | succ k ih =>
    rw [Function.iterate_succ_apply', ih,
      nextSlot_eq (Int.emod_nonneg _ hsize.ne') (Int.emod_lt_of_pos _ hsize), Int.emod_add_emod]
    push_cast
    ring_nf

lemma SizeStored.readable_iterate (hs : SizeStored ctx) {i : ℤ} (h0 : 0 ≤ i)
    (h1 : i < ctx.size) (k : ℕ) :
    Readable ctx ((nextSlot ctx.size)^[k] i) := by
  have hsize : 0 < ctx.size := h0.trans_lt h1
  rw [nextSlot_iterate h0 h1]
  exact hs.readable (Int.emod_nonneg _ hsize.ne') (Int.emod_lt_of_pos _ hsize)

/-! ### The gap test -/

/-- The gap test compares the distance of two times, whatever the size of a `LONG`. -/
lemma gap_iff {w : ℕ} (hw : w = 32 ∨ w = 64) (a b : StdTime2) :
    (compareDccTimes w a b > 10 ∨ compareDccTimes w a b < -10) ↔
      ¬ |a.instant - b.instant| ≤ 10 := by
  have hlim : timLim = 1728000000 := by norm_num [timLim]
  have hnormal := stDiffTimes2_normal a b
  have htotal := stDiffTimes2_total a b
  have hint : ∀ x : ℤ, -timLim ≤ x → x ≤ timLim → x.bmod (2 ^ 32) = x := fun x h h' =>
    Int.bmod_eq_of_le_mul_two (by norm_num; omega) (by norm_num; omega)
  rw [abs_le, compareDccTimes]
  rcases hw with rfl | rfl
  · obtain ⟨hover, hfits⟩ := stDeltaToMs2_long32 hnormal
    rw [htotal] at hover hfits
    by_cases h : Overflows (a.instant - b.instant)
    · obtain ⟨hlow, hneg⟩ := hover h
      have hgap := h.1
      rw [hint _ hlow (by linarith)]
      omega
    · rw [hfits h, hint _ (by omega) (by omega)]
      omega
  · rw [stDeltaToMs2_eq hnormal, htotal, hint _ (by omega) (by omega)]
    omega

/-! ### Rounds of the loop -/

/-- One round, reading the header at the index. -/
def spanRound (cfg : Config n) (ctx : DiskloopContext n) (s : SpanLoop) : SpanLoop :=
  spanStep cfg.plat.longBits ctx.size (slotHeader cfg ctx s.index) s

lemma spanRound_index (cfg : Config n) (s : SpanLoop) :
    (spanRound cfg ctx s).index = nextSlot ctx.size s.index := by
  simp only [spanRound, spanStep]
  split_ifs <;> rfl

lemma spanRound_iterate_index (cfg : Config n) (s : SpanLoop) (k : ℕ) :
    ((spanRound cfg ctx)^[k] s).index = (nextSlot ctx.size)^[k] s.index := by
  induction k with
  | zero => rfl
  | succ k ih =>
    rw [Function.iterate_succ_apply', spanRound_index, ih, Function.iterate_succ_apply']

section Rounds

variable (cfg : Config n) {read : ℤ → Except String SeedHeader} {endIndex : ℤ}

/-- Rounds that read their headers and do not meet the end index run on. -/
lemma spanRun_add {d : ℕ} {s : SpanLoop}
    (hread : ∀ k < d, read ((nextSlot ctx.size)^[k] s.index)
      = .ok (slotHeader cfg ctx ((nextSlot ctx.size)^[k] s.index)))
    (hend : ∀ k, 0 < k → k ≤ d → (nextSlot ctx.size)^[k] s.index ≠ endIndex) (fuel : ℕ) :
    spanRun read cfg.plat.longBits ctx.size endIndex (d + fuel) s
      = spanRun read cfg.plat.longBits ctx.size endIndex fuel ((spanRound cfg ctx)^[d] s) := by
  induction d generalizing s with
  | zero => rw [zero_add, Function.iterate_zero_apply]
  | succ d ih =>
    have hfirst := hread 0 (Nat.succ_pos d)
    have hgo : (spanRound cfg ctx s).index ≠ endIndex := by
      rw [spanRound_index]
      exact hend 1 Nat.one_pos (Nat.succ_le_succ (Nat.zero_le d))
    rw [Function.iterate_succ_apply, ← ih (s := spanRound cfg ctx s), Nat.succ_add]
    · simp only [spanRun, Function.iterate_zero_apply] at hfirst ⊢
      rw [hfirst]
      simp only [Fallible.ok_bind]
      exact if_neg hgo
    · intro k hk
      rw [spanRound_index, ← Function.iterate_succ_apply]
      exact hread (k + 1) (Nat.succ_lt_succ hk)
    · intro k hk hkd
      rw [spanRound_index, ← Function.iterate_succ_apply]
      exact hend (k + 1) (Nat.succ_pos k) (Nat.succ_le_succ hkd)

/-- A loop whose index meets the end index after some rounds ends there. -/
lemma spanRun_ends {d : ℕ} {s : SpanLoop}
    (hread : ∀ k ≤ d, read ((nextSlot ctx.size)^[k] s.index)
      = .ok (slotHeader cfg ctx ((nextSlot ctx.size)^[k] s.index)))
    (hbefore : ∀ k, 0 < k → k ≤ d → (nextSlot ctx.size)^[k] s.index ≠ endIndex)
    (hend : (nextSlot ctx.size)^[d + 1] s.index = endIndex) (fuel : ℕ) :
    spanRun read cfg.plat.longBits ctx.size endIndex fuel s
      = .ok (if d < fuel then some ((spanRound cfg ctx)^[d + 1] s) else none) := by
  rcases lt_or_ge d fuel with hfuel | hfuel
  · obtain ⟨rest, rfl⟩ := Nat.exists_eq_add_of_lt hfuel
    rw [if_pos hfuel, add_assoc,
      spanRun_add cfg (fun k hk => hread k hk.le) (fun k hk hkd => hbefore k hk hkd)]
    have hlast := hread d le_rfl
    rw [← spanRound_iterate_index cfg] at hlast
    have hstop : (spanRound cfg ctx ((spanRound cfg ctx)^[d] s)).index = endIndex := by
      rw [spanRound_index, spanRound_iterate_index, ← hend, Function.iterate_succ_apply']
    rw [Function.iterate_succ_apply']
    simp only [spanRun, hlast, Fallible.ok_bind]
    exact if_pos hstop
  · rw [if_neg (not_lt.mpr hfuel), ← Nat.add_zero fuel,
      spanRun_add cfg (fun k hk => hread k (hk.le.trans hfuel))
        (fun k hk hkd => hbefore k hk (hkd.trans hfuel))]
    rfl

/-- A loop that can read every slot it comes to never fails. -/
lemma spanRun_no_error {s : SpanLoop}
    (hread : ∀ k, read ((nextSlot ctx.size)^[k] s.index)
      = .ok (slotHeader cfg ctx ((nextSlot ctx.size)^[k] s.index))) (fuel : ℕ) (err : String) :
    spanRun read cfg.plat.longBits ctx.size endIndex fuel s ≠ .error err := by
  induction fuel generalizing s with
  | zero => exact fun h => by cases h
  | succ fuel ih =>
    have hfirst := hread 0
    rw [Function.iterate_zero_apply] at hfirst
    simp only [spanRun, hfirst, Fallible.ok_bind]
    split_ifs
    · exact fun h => by cases h
    · refine ih (s := spanRound cfg ctx s) fun k => ?_
      rw [spanRound_index, ← Function.iterate_succ_apply]
      exact hread (k + 1)

/-- A loop that comes to a slot it cannot read fails, if it has enough rounds to get there. -/
lemma spanRun_stuck {d : ℕ} {s : SpanLoop} {err : String}
    (hread : ∀ k < d, read ((nextSlot ctx.size)^[k] s.index)
      = .ok (slotHeader cfg ctx ((nextSlot ctx.size)^[k] s.index)))
    (hend : ∀ k, 0 < k → k ≤ d → (nextSlot ctx.size)^[k] s.index ≠ endIndex)
    (hfail : read ((nextSlot ctx.size)^[d] s.index) = .error err) (fuel : ℕ) :
    spanRun read cfg.plat.longBits ctx.size endIndex fuel s
      = if d < fuel then .error err else .ok none := by
  rcases lt_or_ge d fuel with hfuel | hfuel
  · obtain ⟨rest, rfl⟩ := Nat.exists_eq_add_of_lt hfuel
    rw [if_pos hfuel, add_assoc, spanRun_add cfg hread hend]
    rw [← spanRound_iterate_index cfg] at hfail
    simp only [spanRun, hfail, Fallible.error_bind]
  · rw [if_neg (not_lt.mpr hfuel), ← Nat.add_zero fuel,
      spanRun_add cfg (fun k hk => hread k (hk.trans_le hfuel))
        (fun k hk hkd => hend k hk (hkd.trans hfuel))]
    rfl

lemma spanRun_fails {d : ℕ} {s : SpanLoop} {err : String}
    (hread : ∀ k < d, read ((nextSlot ctx.size)^[k] s.index)
      = .ok (slotHeader cfg ctx ((nextSlot ctx.size)^[k] s.index)))
    (hend : ∀ k, 0 < k → k ≤ d → (nextSlot ctx.size)^[k] s.index ≠ endIndex)
    (hfail : read ((nextSlot ctx.size)^[d] s.index) = .error err) :
    spanRun read cfg.plat.longBits ctx.size endIndex (d + 1) s = .error err := by
  rw [spanRun_stuck cfg hread hend hfail, if_pos (Nat.lt_succ_self d)]

end Rounds

/-! ### The lines of a report -/

/-- The line for a run: the first one starts at slot 0. -/
def reportLine (cfg : Config n) (ctx : DiskloopContext n) (before : List (List ℤ))
    (run : List ℤ) : Span :=
  if before = [] then { spanOf cfg ctx run with startIndex := 0 } else spanOf cfg ctx run

/-- The lines for all runs. -/
def reportLines (cfg : Config n) (ctx : DiskloopContext n) : List (List ℤ) → List Span
  | [] => []
  | run :: runs => reportLine cfg ctx [] run :: runs.map (spanOf cfg ctx)

lemma reportLines_append (runs : List (List ℤ)) (run : List ℤ) :
    reportLines cfg ctx (runs ++ [run])
      = reportLines cfg ctx runs ++ [reportLine cfg ctx runs run] := by
  cases runs with
  | nil => rfl
  | cons first runs => simp [reportLines, reportLine]

/-- After some rounds: the slots read are split into runs, the last of which is open. -/
structure SpanInv (cfg : Config n) (ctx : DiskloopContext n) (slots : List ℤ)
    (runs : List (List ℤ)) (run : List ℤ) (s : SpanLoop) : Prop where
  first : s.first = false
  visited : s.visited = slots
  split : IsSplit (Joined cfg ctx) slots (runs ++ [run])
  printed : s.printed = reportLines cfg ctx runs
  span : s.span = reportLine cfg ctx runs run

lemma spanInv_first (i : ℤ) :
    SpanInv cfg ctx [i] [] [i] (spanRound cfg ctx (spanInit i)) where
  first := rfl
  visited := rfl
  split := IsSplit.singleton i
  printed := rfl
  span := rfl

lemma spanOf_append {run : List ℤ} (h : run ≠ []) (i : ℤ) :
    spanOf cfg ctx (run ++ [i]) = { spanOf cfg ctx run with
      endTime := (slotHeader cfg ctx i).recEnd, count := (spanOf cfg ctx run).count + 1 } := by
  have hlast : (run ++ [i]).getLastD 0 = i := by simp [List.getLastD_eq_getLast?]
  have hhead : (run ++ [i]).headD 0 = run.headD 0 := by
    obtain ⟨j, run, rfl⟩ := List.exists_cons_of_ne_nil h
    rfl
  simp only [spanOf, hlast, hhead, List.length_append, List.length_singleton]
  push_cast
  rfl

lemma reportLine_append {run : List ℤ} (h : run ≠ []) (before : List (List ℤ)) (i : ℤ) :
    reportLine cfg ctx before (run ++ [i]) = { reportLine cfg ctx before run with
      endTime := (slotHeader cfg ctx i).recEnd
      count := (reportLine cfg ctx before run).count + 1 } := by
  unfold reportLine
  split_ifs <;> rw [spanOf_append h]

lemma reportLine_endTime (before : List (List ℤ)) (run : List ℤ) :
    (reportLine cfg ctx before run).endTime = (slotHeader cfg ctx (run.getLastD 0)).recEnd := by
  unfold reportLine
  split_ifs <;> rfl

/-- A round on a record that is close to the one before it. -/
lemma spanRound_join {s : SpanLoop} (hfirst : s.first = false)
    (h : ¬ (compareDccTimes cfg.plat.longBits (slotHeader cfg ctx s.index).recStart s.spanEndTime
        > 10 ∨ compareDccTimes cfg.plat.longBits (slotHeader cfg ctx s.index).recStart
          s.spanEndTime < -10)) :
    spanRound cfg ctx s = { s with
      spanEndTime := (slotHeader cfg ctx s.index).recEnd
      visited := s.visited ++ [s.index]
      index := nextSlot ctx.size s.index
      spanCount := s.spanCount + 1 } := by
  simp only [spanRound, spanStep, hfirst, Bool.false_eq_true, if_false, if_neg h]

/-- A round on a record after a gap or an overlap. -/
lemma spanRound_gap {s : SpanLoop} (hfirst : s.first = false)
    (h : compareDccTimes cfg.plat.longBits (slotHeader cfg ctx s.index).recStart s.spanEndTime
        > 10 ∨ compareDccTimes cfg.plat.longBits (slotHeader cfg ctx s.index).recStart
          s.spanEndTime < -10) :
    spanRound cfg ctx s = { s with
      printed := s.printed ++ [s.span]
      spanStartTime := (slotHeader cfg ctx s.index).recStart
      spanStartIndex := s.index
      spanEndTime := (slotHeader cfg ctx s.index).recEnd
      visited := s.visited ++ [s.index]
      index := nextSlot ctx.size s.index
      spanCount := 1 } := by
  simp only [spanRound, spanStep, hfirst, Bool.false_eq_true, if_false, if_pos h, zero_add]

/-- A round extends the open run or closes it and starts the next one. -/
lemma SpanInv.round (hw : cfg.plat.longBits = 32 ∨ cfg.plat.longBits = 64) {slots run : List ℤ}
    {runs : List (List ℤ)} {s : SpanLoop} (h : SpanInv cfg ctx slots runs run s) :
    ∃ runs' run', SpanInv cfg ctx (slots ++ [s.index]) runs' run' (spanRound cfg ctx s) := by
  have hne : run ≠ [] := h.split.ne_nil run (by simp)
  have hend : s.spanEndTime = (slotHeader cfg ctx (run.getLastD 0)).recEnd := by
    rw [← reportLine_endTime runs run, ← h.span]
    rfl
  have hlast : ∀ y ∈ run.getLast?, run.getLastD 0 = y := by
    intro y hy
    rw [List.getLastD_eq_getLast?, Option.mem_def.mp hy, Option.getD_some]
  have hgap := gap_iff hw (slotHeader cfg ctx s.index).recStart s.spanEndTime
  by_cases hjoin : Joined cfg ctx (run.getLastD 0) s.index
  · rw [spanRound_join h.first (mt hgap.mp (not_not.mpr (by rwa [hend])))]
    refine ⟨runs, run ++ [s.index], h.first, ?_, ?_, h.printed, ?_⟩
    · exact congrArg (· ++ [s.index]) h.visited
    · exact h.split.extend fun y hy => by rwa [← hlast y hy]
    · rw [reportLine_append hne, ← h.span]
      rfl
  · rw [spanRound_gap h.first (hgap.mpr (by rwa [hend]))]
    refine ⟨runs ++ [run], [s.index], h.first, ?_, ?_, ?_, ?_⟩
    · exact congrArg (· ++ [s.index]) h.visited
    · exact h.split.start fun y hy => by rwa [← hlast y hy]
    · rw [reportLines_append, ← h.printed, ← h.span]
    · rw [reportLine, if_neg (by simp)]
      rfl

/-- After every number of rounds the slots read are split into runs. -/
lemma spanInv_iterate (ctx : DiskloopContext n)
    (hw : cfg.plat.longBits = 32 ∨ cfg.plat.longBits = 64) (i : ℤ) (d : ℕ) :
    ∃ runs run, SpanInv cfg ctx ((List.range (d + 1)).map fun k => (nextSlot ctx.size)^[k] i)
      runs run ((spanRound cfg ctx)^[d + 1] (spanInit i)) := by
  induction d with
  | zero => exact ⟨[], [i], spanInv_first i⟩
  | succ d ih =>
    obtain ⟨runs, run, hinv⟩ := ih
    rw [List.range_succ, List.map_append, Function.iterate_succ_apply']
    have hround := hinv.round hw
    rwa [spanRound_iterate_index] at hround

/-- The slots read by `d + 1` rounds from a slot of the loop. -/
lemma report_iterate (hw : cfg.plat.longBits = 32 ∨ cfg.plat.longBits = 64) {i : ℤ}
    (h0 : 0 ≤ i) (h1 : i < ctx.size) (d : ℕ) :
    ∃ runs, IsSplit (Joined cfg ctx) (slotsFrom ctx.size i (d + 1)) runs ∧
      ((spanRound cfg ctx)^[d + 1] (spanInit i)).report
        = ⟨slotsFrom ctx.size i (d + 1), reportLines cfg ctx runs⟩ := by
  obtain ⟨runs, run, hinv⟩ := spanInv_iterate ctx hw i d
  have hslots : (List.range (d + 1)).map (fun k => (nextSlot ctx.size)^[k] i)
      = slotsFrom ctx.size i (d + 1) := by
    unfold slotsFrom
    exact List.map_congr_left fun k _ => nextSlot_iterate h0 h1 k
  rw [hslots] at hinv
  refine ⟨runs ++ [run], hinv.split, ?_⟩
  rw [SpanLoop.report, hinv.visited, hinv.printed, hinv.span, reportLines_append]

/-- The report is right about the start of its first span exactly when it starts at slot 0. -/
lemma reports_iff {slots : List ℤ} {i : ℤ} (hi : slots.head? = some i) {runs : List (List ℤ)}
    (hsplit : IsSplit (Joined cfg ctx) slots runs) :
    Reports cfg ctx slots ⟨slots, reportLines cfg ctx runs⟩ ↔ i = 0 := by
  have hhead : ∀ run runs, IsSplit (Joined cfg ctx) slots (run :: runs) → run.headD 0 = i := by
    intro run runs h
    rw [List.headD_eq_head?_getD, h.head_head, hi, Option.getD_some]
  obtain ⟨run, runs, rfl⟩ : ∃ run runs', runs = run :: runs' := by
    cases runs with
    | nil =>
      rw [← hsplit.flatten] at hi
      simp at hi
    | cons run runs => exact ⟨run, runs, rfl⟩
  constructor
  · rintro ⟨-, runs', hsplit', hlines⟩
    obtain ⟨run', runs', rfl⟩ : ∃ run' rest, runs' = run' :: rest := by
      cases runs' with
      | nil => simp [reportLines] at hlines
      | cons run' runs' => exact ⟨run', runs', rfl⟩
    rw [reportLines, List.map_cons, List.cons.injEq] at hlines
    rw [← hhead run' runs' hsplit']
    exact (congrArg Span.startIndex hlines.1).symm
  · rintro rfl
    refine ⟨rfl, run :: runs, hsplit, ?_⟩
    have hstart := hhead run runs hsplit
    rw [reportLines, List.map_cons, reportLine, if_pos rfl]
    simp only [spanOf, hstart]

/-! ### Where the loop ends -/

/-- The rounds from a slot to the one before an end index. -/
def roundsTo (size i endIndex : ℤ) : ℕ :=
  (if i < endIndex then endIndex - i - 1 else size - i + endIndex - 1).toNat

lemma roundsTo_spec {size i e : ℤ} (h0 : 0 ≤ i) (h1 : i < size) (he0 : 0 ≤ e) (he1 : e < size) :
    (∀ k, 0 < k → k ≤ roundsTo size i e → (nextSlot size)^[k] i ≠ e) ∧
      (nextSlot size)^[roundsTo size i e + 1] i = e := by
  have hmod : ∀ k : ℕ, k ≤ size → (nextSlot size)^[k] i
      = if i + k < size then i + k else i + k - size := by
    intro k hk
    rw [nextSlot_iterate h0 h1]
    split_ifs with hlt
    · exact Int.emod_eq_of_lt (by omega) hlt
    · rw [← Int.sub_emod_right]
      exact Int.emod_eq_of_lt (by omega) (by omega)
  have hrounds : (roundsTo size i e : ℤ)
      = if i < e then e - i - 1 else size - i + e - 1 := by
    unfold roundsTo
    split_ifs <;> omega
  constructor
  · intro k hk hkd
    rw [hmod k (by split_ifs at hrounds <;> omega)]
    split_ifs at hrounds ⊢ <;> omega
  · rw [hmod _ (by push_cast; split_ifs at hrounds <;> omega)]
    push_cast
    split_ifs at hrounds ⊢ <;> omega

/-- A range that starts in the loop and ends in it: the slots up to the end index, with the runs
among them. -/
lemma rangeSpans_ends (hs : SizeStored ctx)
    (hw : cfg.plat.longBits = 32 ∨ cfg.plat.longBits = 64) {first last : ℤ}
    (h0 : 0 ≤ first) (h1 : first < ctx.size) (he0 : 0 ≤ spanEnd ctx.size first last)
    (he1 : spanEnd ctx.size first last < ctx.size) :
    ∃ runs, IsSplit (Joined cfg ctx) (slotsFrom ctx.size first
        (roundsTo ctx.size first (spanEnd ctx.size first last) + 1)) runs ∧
      ∀ fuel, rangeSpans (readHeader cfg ctx) cfg.plat.longBits ctx.size first last fuel
        = .ok (if roundsTo ctx.size first (spanEnd ctx.size first last) < fuel then
            some ⟨slotsFrom ctx.size first
              (roundsTo ctx.size first (spanEnd ctx.size first last) + 1),
              reportLines cfg ctx runs⟩
          else none) := by
  obtain ⟨hbefore, hend⟩ := roundsTo_spec h0 h1 he0 he1
  generalize roundsTo ctx.size first (spanEnd ctx.size first last) = d at *
  obtain ⟨runs, hsplit, hreport⟩ := report_iterate hw h0 h1 d
  refine ⟨runs, hsplit, fun fuel => ?_⟩
  have hrun := spanRun_ends cfg (s := spanInit first) (d := d)
    (fun k _ => readHeader_of_readable cfg (hs.readable_iterate h0 h1 k))
    hbefore hend fuel
  rw [rangeSpans, hrun, Fallible.ok_bind]
  split_ifs
  · rw [Option.map_some, hreport]
    rfl
  · rfl

/-! ### The two reports -/

/-- The number of records from one slot to another. -/
def rangeCount (size firstRecord lastRecord : ℤ) : ℕ :=
  (if firstRecord ≤ lastRecord then lastRecord - firstRecord + 1
    else size - firstRecord + lastRecord + 1).toNat

/-- `RangeSpans` reports the records of a range in the loop and fails for every other one. -/
def RangeRight (cfg : Config n) (ctx : DiskloopContext n) (firstRecord lastRecord : ℤ) : Prop :=
  if (0 ≤ firstRecord ∧ firstRecord < ctx.size) ∧ 0 ≤ lastRecord ∧ lastRecord < ctx.size then
    ∃ fuel report, rangeSpans (readHeader cfg ctx) cfg.plat.longBits ctx.size firstRecord
        lastRecord fuel = .ok (some report) ∧
      Reports cfg ctx (slotsFrom ctx.size firstRecord
        (rangeCount ctx.size firstRecord lastRecord)) report
  else
    ∃ fuel err, rangeSpans (readHeader cfg ctx) cfg.plat.longBits ctx.size firstRecord lastRecord
      fuel = .error err

/-- `DumpSpans`, which passes the oldest slot as both arguments, reports the whole loop. -/
def WholeLoopRight (cfg : Config n) (ctx : DiskloopContext n) (oldest : ℤ) : Prop :=
  ∃ fuel report, rangeSpans (readHeader cfg ctx) cfg.plat.longBits ctx.size oldest oldest fuel
      = .ok (some report) ∧
    Reports cfg ctx (slotsFrom ctx.size oldest ctx.size.toNat) report

/-- The ranges that are reported right: from slot 0 to a later slot, the only record of a loop,
and those that come to a slot without a readable header. -/
def RangeCondition (ctx : DiskloopContext n) (firstRecord lastRecord : ℤ) : Prop :=
  (firstRecord = 0 ∧ 0 < lastRecord ∧ lastRecord < ctx.size) ∨
    (ctx.size = 1 ∧ firstRecord = 0 ∧ lastRecord = 0) ∨
    (ctx.size ≤ firstRecord ∧ ¬ Readable ctx firstRecord) ∨
    (firstRecord < 0 ∧ ¬ (firstRecord < lastRecord ∧
      ∀ i, firstRecord ≤ i → i ≤ lastRecord → Readable ctx i))

lemma head?_slotsFrom {size first : ℤ} (h0 : 0 ≤ first) (h1 : first < size) {count : ℕ}
    (hc : 0 < count) : (slotsFrom size first count).head? = some first := by
  obtain ⟨count, rfl⟩ := Nat.exists_eq_succ_of_ne_zero hc.ne'
  simp [slotsFrom, List.range_succ_eq_map, Int.emod_eq_of_lt h0 h1]

section Main

variable (hs : SizeStored ctx) (hw : cfg.plat.longBits = 32 ∨ cfg.plat.longBits = 64)

include hs hw

/-- What a range that ends in the loop owes and what it reports. -/
lemma reports_range_iff {first last : ℤ} (h0 : 0 ≤ first) (h1 : first < ctx.size)
    (he0 : 0 ≤ spanEnd ctx.size first last) (he1 : spanEnd ctx.size first last < ctx.size)
    {count : ℕ} (hc : 0 < count) :
    (∃ fuel report, rangeSpans (readHeader cfg ctx) cfg.plat.longBits ctx.size first last fuel
        = .ok (some report) ∧ Reports cfg ctx (slotsFrom ctx.size first count) report) ↔
      count = roundsTo ctx.size first (spanEnd ctx.size first last) + 1 ∧ first = 0 := by
  obtain ⟨runs, hsplit, hrun⟩ := rangeSpans_ends hs hw h0 h1 he0 he1
  generalize roundsTo ctx.size first (spanEnd ctx.size first last) = d at *
  have hhead := head?_slotsFrom h0 h1 (Nat.succ_pos d)
  constructor
  · rintro ⟨fuel, report, hreport, hright⟩
    rw [hrun] at hreport
    split_ifs at hreport with hfuel
    · obtain rfl := Option.some.inj (Except.ok.inj hreport)
      have hcount : count = d + 1 := by
        have hlen := congrArg List.length hright.visited
        simpa [slotsFrom] using hlen.symm
      subst hcount
      exact ⟨rfl, (reports_iff hhead hsplit).mp hright⟩
    · cases hreport
  · rintro ⟨rfl, hzero⟩
    exact ⟨d + 1, _, by rw [hrun, if_pos (Nat.lt_succ_self d)],
      (reports_iff hhead hsplit).mpr hzero⟩

end Main

lemma rangeSpans_error_iff (read : ℤ → Except String SeedHeader) (first last : ℤ) (fuel : ℕ)
    (err : String) :
    rangeSpans read cfg.plat.longBits ctx.size first last fuel = .error err ↔
      spanRun read cfg.plat.longBits ctx.size (spanEnd ctx.size first last) fuel (spanInit first)
        = .error err := by
  unfold rangeSpans
  cases spanRun read cfg.plat.longBits ctx.size (spanEnd ctx.size first last) fuel
    (spanInit first) with
  | error e => simp
  | ok s => simp [pure, Except.pure]

section Outside

variable (hs : SizeStored ctx)

include hs

/-- A range that starts in the loop never fails. -/
lemma rangeSpans_no_error {first last : ℤ} (h0 : 0 ≤ first) (h1 : first < ctx.size) (fuel : ℕ)
    (err : String) : rangeSpans (readHeader cfg ctx) cfg.plat.longBits ctx.size first last fuel
      ≠ .error err := by
  rw [ne_eq, rangeSpans_error_iff]
  exact spanRun_no_error cfg (s := spanInit first)
    (fun k => readHeader_of_readable cfg (hs.readable_iterate h0 h1 k)) fuel err

/-- A range that starts after the end of the loop. -/
lemma rangeSpans_after_iff {first last : ℤ} (hbig : ctx.size ≤ first) :
    (∃ fuel err, rangeSpans (readHeader cfg ctx) cfg.plat.longBits ctx.size first last fuel
        = .error err) ↔ ¬ Readable ctx first := by
  simp only [rangeSpans_error_iff]
  constructor
  · rintro ⟨fuel, err, herr⟩ hread
    refine spanRun_no_error cfg (s := spanInit first) (fun k => readHeader_of_readable cfg ?_)
      fuel err herr
    cases k with
    | zero => exact hread
    | succ k =>
      have hwrap : nextSlot ctx.size first = 0 := if_pos (by linarith)
      show Readable ctx ((nextSlot ctx.size)^[k + 1] first)
      rw [Function.iterate_succ_apply, hwrap]
      exact hs.readable_iterate le_rfl hs.size_pos k
  · intro hread
    obtain ⟨err, herr⟩ := readHeader_of_not_readable cfg hread
    exact ⟨1, err, spanRun_fails cfg (s := spanInit first) (d := 0)
      (fun k hk => absurd hk (by simp)) (fun k hk hk0 => absurd hk (by omega)) herr⟩

/-- Rounds before slot 0 count up. -/
lemma nextSlot_iterate_neg {i : ℤ} {k : ℕ} (hk : i + k ≤ 0) :
    (nextSlot ctx.size)^[k] i = i + k := by
  have hsize := hs.size_pos
  induction k with
  | zero => simp
  | succ k ih =>
    push_cast at hk
    rw [Function.iterate_succ_apply', ih (by linarith), nextSlot, if_neg (by linarith)]
    push_cast
    ring

/-- A range that starts before the loop. -/
lemma rangeSpans_before_iff {first last : ℤ} (hneg : first < 0) :
    (∃ fuel err, rangeSpans (readHeader cfg ctx) cfg.plat.longBits ctx.size first last fuel
        = .error err) ↔
      ¬ (first < last ∧ ∀ i, first ≤ i → i ≤ last → Readable ctx i) := by
  simp only [rangeSpans_error_iff]
  have hsize := hs.size_pos
  constructor
  · rintro ⟨fuel, err, herr⟩ ⟨hlt, hread⟩
    -- the slots before slot 0 are read up to the last one, which is before slot `-1`
    have hlast : last < -1 := by
      by_contra hge
      exact hs.not_readable (hread (-1) (by omega) (not_lt.mp hge))
    have hend : spanEnd ctx.size first last = last + 1 := by
      rw [spanEnd, if_pos hlt.ne, nextSlot, if_neg (by omega)]
    have hd : first + (last - first).toNat = last := by omega
    have hrun := spanRun_ends cfg (s := spanInit first) (d := (last - first).toNat)
      (fun k hk => readHeader_of_readable cfg <| by
        show Readable ctx ((nextSlot ctx.size)^[k] first)
        rw [nextSlot_iterate_neg hs (by omega)]
        exact hread _ (by omega) (by omega))
      (fun k _ hk => by
        show (nextSlot ctx.size)^[k] first ≠ spanEnd ctx.size first last
        rw [nextSlot_iterate_neg hs (by omega), hend]
        omega)
      (by
        show (nextSlot ctx.size)^[_] first = spanEnd ctx.size first last
        rw [nextSlot_iterate_neg hs (by push_cast; omega), hend]
        push_cast
        omega) fuel
    rw [hrun] at herr
    cases herr
  · intro hcond
    have hex : ∃ k : ℕ, ¬ Readable ctx (first + k) :=
      ⟨(-1 - first).toNat, by
        rw [show first + ((-1 - first).toNat : ℤ) = -1 by omega]
        exact hs.not_readable⟩
    have hbound : Nat.find hex ≤ (-1 - first).toNat := Nat.find_min' hex (by
      rw [show first + ((-1 - first).toNat : ℤ) = -1 by omega]
      exact hs.not_readable)
    have hfail := Nat.find_spec hex
    have hread : ∀ k < Nat.find hex, Readable ctx (first + k) := fun k hk =>
      not_not.mp (Nat.find_min hex hk)
    generalize Nat.find hex = d at *
    obtain ⟨err, herr⟩ := readHeader_of_not_readable cfg hfail
    refine ⟨d + 1, err, spanRun_fails cfg (s := spanInit first) ?_ ?_ ?_⟩
    · intro k hk
      refine readHeader_of_readable cfg ?_
      show Readable ctx ((nextSlot ctx.size)^[k] first)
      rw [nextSlot_iterate_neg hs (by omega)]
      exact hread k hk
    · intro k hk hkd hmeet
      change (nextSlot ctx.size)^[k] first = _ at hmeet
      rw [nextSlot_iterate_neg hs (by omega)] at hmeet
      have hne : first ≠ last := by
        rintro rfl
        rw [spanEnd, if_neg (by simp)] at hmeet
        omega
      rw [spanEnd, if_pos hne, nextSlot] at hmeet
      split_ifs at hmeet with hwrap
      · omega
      · refine hcond ⟨by omega, fun i hi hil => ?_⟩
        have hi' : first + ((i - first).toNat : ℤ) = i := by omega
        rw [← hi']
        exact hread _ (by omega)
    · show readHeader cfg ctx ((nextSlot ctx.size)^[d] first) = _
      rwa [nextSlot_iterate_neg hs (by omega)]

end Outside

section Right

variable (hs : SizeStored ctx) (hw : cfg.plat.longBits = 32 ∨ cfg.plat.longBits = 64)

include hs hw

/-- A range in the loop is reported right from slot 0 on, unless it has one record of several. -/
lemma rangeRight_inside_iff {first last : ℤ} (h0 : 0 ≤ first) (h1 : first < ctx.size)
    (h0' : 0 ≤ last) (h1' : last < ctx.size) :
    RangeRight cfg ctx first last ↔ RangeCondition ctx first last := by
  have hend : 0 ≤ spanEnd ctx.size first last ∧ spanEnd ctx.size first last < ctx.size := by
    unfold spanEnd nextSlot
    split_ifs <;> omega
  have hcount : 0 < rangeCount ctx.size first last := by
    unfold rangeCount
    split_ifs <;> omega
  have hrounds : rangeCount ctx.size first last
        = roundsTo ctx.size first (spanEnd ctx.size first last) + 1 ↔
      first ≠ last ∨ ctx.size = 1 := by
    unfold rangeCount roundsTo spanEnd nextSlot
    split_ifs <;> omega
  rw [RangeRight, if_pos ⟨⟨h0, h1⟩, h0', h1'⟩,
    reports_range_iff hs hw h0 h1 hend.1 hend.2 hcount, hrounds, RangeCondition]
  constructor
  · rintro ⟨hne | hone, rfl⟩
    · exact Or.inl ⟨rfl, by omega, h1'⟩
    · exact Or.inr (Or.inl ⟨hone, rfl, by omega⟩)
  · rintro (⟨rfl, hpos, -⟩ | ⟨hone, rfl, -⟩ | ⟨hbig, -⟩ | ⟨hneg, -⟩)
    · exact ⟨Or.inl hpos.ne, rfl⟩
    · exact ⟨Or.inr hone, rfl⟩
    · omega
    · omega

/-- `RangeSpans` is right exactly for the ranges of `RangeCondition`, and `DumpSpans` exactly for
a loop whose oldest record is in slot 0. -/
theorem rangeRight_iff :
    (∀ firstRecord lastRecord,
      RangeRight cfg ctx firstRecord lastRecord ↔ RangeCondition ctx firstRecord lastRecord) ∧
    ∀ oldest, 0 ≤ oldest → oldest < ctx.size → (WholeLoopRight cfg ctx oldest ↔ oldest = 0) := by
  have hsize := hs.size_pos
  constructor
  · intro first last
    by_cases hin : (0 ≤ first ∧ first < ctx.size) ∧ 0 ≤ last ∧ last < ctx.size
    · exact rangeRight_inside_iff hs hw hin.1.1 hin.1.2 hin.2.1 hin.2.2
    rw [RangeRight, if_neg hin]
    rcases lt_or_ge first 0 with hneg | hnonneg
    · rw [rangeSpans_before_iff hs hneg, RangeCondition]
      simp [hneg, hneg.ne, not_le.mpr (hneg.trans_le (by linarith : 0 ≤ ctx.size))]
    rcases lt_or_ge first ctx.size with hlt | hge
    · constructor
      · rintro ⟨fuel, err, herr⟩
        exact absurd herr (rangeSpans_no_error hs hnonneg hlt fuel err)
      · rintro (⟨rfl, hpos, hlast⟩ | ⟨hone, rfl, rfl⟩ | ⟨hbig, -⟩ | ⟨hneg, -⟩)
        · exact absurd ⟨⟨le_rfl, by linarith⟩, hpos.le, hlast⟩ hin
        · exact absurd ⟨⟨le_rfl, by linarith⟩, le_rfl, by linarith⟩ hin
        · exact absurd hbig (not_le.mpr hlt)
        · exact absurd hneg (not_lt.mpr hnonneg)
    · rw [rangeSpans_after_iff hs hge, RangeCondition]
      simp [hge, not_lt.mpr hnonneg, (by linarith : 0 < first).ne']
  · intro oldest h0 h1
    have hend : spanEnd ctx.size oldest oldest = oldest := if_neg (by simp)
    have hrounds : ctx.size.toNat = roundsTo ctx.size oldest oldest + 1 := by
      rw [roundsTo, if_neg (lt_irrefl oldest)]
      omega
    rw [WholeLoopRight, reports_range_iff hs hw h0 h1 (by rwa [hend]) (by rwa [hend]) (by omega),
      hend]
    simp [hrounds]

end Right

/-- An open loop of three log records. -/
def threeRecords : DiskloopContext 512 := sampleLoop 8 [logRecord 0 0, logRecord 0 1, logRecord 0 2]

lemma threeRecords_stored : SizeStored threeRecords where
  size_pos := by decide
  frame := by decide
  stored := by
    have hlen : threeRecords.loopFp.data.length = 3 * 512 := Blocks.length_layout _
    rw [hlen]
    decide
  offsets := by decide

theorem rangeRight_iff_threeRecords :
    (∀ firstRecord lastRecord, RangeRight hostConfig threeRecords firstRecord lastRecord ↔
        RangeCondition threeRecords firstRecord lastRecord) ∧
      ∀ oldest, 0 ≤ oldest → oldest < threeRecords.size →
        (WholeLoopRight hostConfig threeRecords oldest ↔ oldest = 0) :=
  rangeRight_iff threeRecords_stored (Or.inr rfl)

/-- A range of one record is taken for the whole loop, one that does not start at slot 0 is
reported to, and one that ends after the last slot does not fail. -/
theorem rangeRight_not :
    ¬ RangeRight hostConfig threeRecords 1 1 ∧ ¬ RangeRight hostConfig threeRecords 1 2 ∧
      ¬ RangeRight hostConfig threeRecords 0 3 := by
  have hsize : threeRecords.size = 3 := rfl
  refine ⟨?_, ?_, ?_⟩
  · rw [rangeRight_inside_iff threeRecords_stored (Or.inr rfl) (by norm_num) (by norm_num [hsize])
      (by norm_num) (by norm_num [hsize]), RangeCondition]
    norm_num [hsize]
  · rw [rangeRight_inside_iff threeRecords_stored (Or.inr rfl) (by norm_num) (by norm_num [hsize])
      (by norm_num) (by norm_num [hsize]), RangeCondition]
    norm_num [hsize]
  · rw [RangeRight, if_neg (by norm_num [hsize])]
    rintro ⟨fuel, err, herr⟩
    exact rangeSpans_no_error threeRecords_stored le_rfl (by norm_num [hsize]) fuel err herr

end StationProcessor
