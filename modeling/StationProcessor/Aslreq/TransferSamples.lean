import StationProcessor.Diskloop.Transfer

/-!
# Sending samples

`TransferSamples` of `aslreq.c`: it reads the records of a disk loop from the first one of a request
on, decodes them and sends their samples line by line. What it reads, decodes and is told about the
client comes from outside: the record range, the buffer file, the SEED decoder and the connection.
The text of the first line it sends is left out.
-/

namespace StationProcessor

/-! ### The function -/

/-- What `decode_SEED_micro_header` and `decompress_generic_record` find in a record. -/
structure SeedDecoder (n : ℕ) where
  firstframe : Record n → ℤ
  level : Record n → ℤ
  dframes : Record n → ℤ
  samples : Record n → List ℤ

/-- A request: the begin time, the number of samples, how many of its lines were sent when the
client is found to be gone, and what lies around the array of the decoded samples. -/
structure SampleRequest (n : ℕ) where
  plat : Platform
  decoder : SeedDecoder n
  tBeginTime : StdTime2
  iSamples : ℤ
  gone : Option ℕ
  outside : ℤ → ℤ

/-- A line for a sample: the record and the index it is from, its number and the value. -/
structure SentSample where
  iRecord : ℤ
  index : ℤ
  iLine : ℕ
  value : ℤ

/-- An access to `myData`, and the number of samples that were decoded to it. -/
structure SampleAccess where
  index : ℤ
  rectotal : ℕ

structure TransferState where
  iSample : ℕ
  i : ℕ
  iEmpty : ℕ
  iLine : ℕ
  sent : List SentSample
  accesses : List SampleAccess

inductive TransferEnd
  | returned (iSample : ℕ)
  | exited

structure TransferResult where
  stop : TransferEnd
  state : TransferState

namespace SampleRequest

variable {n : ℕ} (req : SampleRequest n)

/-- `iSkip`: the number of samples before the begin time. -/
def iSkip (r : Record n) : ℤ :=
  let delta : ℚ := stDeltaToMs2 req.plat.longBits
    (stDiffTimes2 req.tBeginTime (headerStart r.toList)) / 10000
  intOfDouble req.plat (delta * sampleRate (sampleRateFactor r.toList)
    (sampleRateMultiplier r.toList))

/-- `myData[j]`. -/
def myData (data : List ℤ) (j : ℤ) : ℤ :=
  if 0 ≤ j ∧ j < data.length then data.getD j.toNat 0 else req.outside j

/-- `client_connected`, behind the first line. -/
def connected (s : TransferState) : Bool := req.gone.all (s.iLine < ·)

/-- The loop over the samples of a record, which may take `count` steps; and whether the client was
found to be gone. -/
def sendSamples (iRecord : ℤ) (data : List ℤ) : ℕ → ℤ → TransferState → TransferState × Bool
  | 0, _, s => (s, false)
  | count + 1, j, s =>
    if (s.iSample : ℤ) < req.iSamples then
      let s := { s with
        sent := s.sent ++ [⟨iRecord, j, s.iLine, req.myData data j⟩]
        accesses := s.accesses ++ [⟨j, data.length⟩]
        iLine := s.iLine + 1 }
      if req.connected s then
        sendSamples iRecord data count (j + 1) { s with iSample := s.iSample + 1 }
      else (s, true)
    else (s, false)

/-- One turn of the loop over the records. -/
def transferRecord (range : RecordRange) (file : List (Record n)) (s : TransferState) :
    Except TransferResult TransferState :=
  let iRecord := (s.i + range.iFirst + s.iEmpty).tmod range.iLoopSize
  -- the seek to a negative offset fails
  match if iRecord < 0 then none else file[iRecord.toNat]? with
  | none => .error ⟨.returned s.iSample, s⟩
  | some r =>
    let dframes := req.decoder.dframes r
    let firstframe := req.decoder.firstframe r
    let level := req.decoder.level r
    if dframes < 1 ∨ dframes ≥ 64 then .error ⟨.exited, s⟩
    else if firstframe < 0 ∨ firstframe > dframes then .ok { s with iEmpty := s.iEmpty + 1 }
    else if level < 1 ∨ level > 3 then .error ⟨.exited, s⟩
    else
      let data := req.decoder.samples r
      let j := if s.i = 0 then req.iSkip r else 0
      if req.connected s = false then .error ⟨.returned s.iSample, s⟩
      else
        let (s, gone) := req.sendSamples iRecord data (data.length - j).toNat j s
        if gone then .error ⟨.returned s.iSample, s⟩ else .ok { s with i := s.i + 1 }

/-- The loop over the records. -/
def transferLoop (range : RecordRange) (file : List (Record n)) :
    ℕ → TransferState → Option TransferResult
  | 0, _ => none
  | fuel + 1, s =>
    if (s.iSample : ℤ) < req.iSamples then
      match req.transferRecord range file s with
      | .error result => some result
      | .ok s => transferLoop range file fuel s
    else some ⟨.returned s.iSample, s⟩

/-- The state before the first record. -/
def transferStart : TransferState := ⟨0, 0, 0, 0, [], []⟩

/-- `TransferSamples`, with the range unless `GetRecordRange` fails, and the buffer file unless it
cannot be opened. -/
def transferSamples (range : Option RecordRange) (file : Option (List (Record n))) (fuel : ℕ) :
    Option TransferResult :=
  match range with
  | none => some ⟨.returned 0, transferStart⟩
  | some range =>
    if range.iCount < 1 then some ⟨.returned 0, transferStart⟩
    else
      match file with
      | none => some ⟨.returned 0, transferStart⟩
      | some file => req.transferLoop range file fuel transferStart

end SampleRequest

/-! ### The walk over the records -/

/-- The records of a disk loop, and the slots that `GetRecordRange` finds. -/
structure SampleSource (n c : ℕ) where
  ring : SlotRing (Record n) c
  first : ℕ
  last : ℕ
  first_lt : first < ring.slots.length

/-- What becomes of a record: it cannot be read or ends the program, it is passed over, or its
samples are taken. -/
inductive RecordVisit (n : ℕ)
  | ends
  | passes
  | gives (r : Record n)
deriving DecidableEq

namespace SampleSource

variable {n c : ℕ} (src : SampleSource n c) (req : SampleRequest n)

/-- The slot of the record that is read as number `v`. -/
def slotAt (v : ℕ) : ℕ := (src.first + v) % c

def visit (v : ℕ) : RecordVisit n :=
  match src.ring.slots[src.slotAt v]? with
  | none => .ends
  | some r =>
    if req.decoder.dframes r < 1 ∨ req.decoder.dframes r ≥ 64 then .ends
    else if req.decoder.firstframe r < 0 ∨ req.decoder.firstframe r > req.decoder.dframes r then
      .passes
    else if req.decoder.level r < 1 ∨ req.decoder.level r > 3 then .ends
    else .gives r

/-- Every record before number `v` is passed over. -/
def PassedUpTo (v : ℕ) : Prop := ∀ u < v, src.visit req u = .passes

instance (v : ℕ) : Decidable (src.PassedUpTo req v) := Nat.decidableBallLT v _

/-- The index from which on the samples of record number `v` are taken. -/
def start (v : ℕ) (r : Record n) : ℤ := if src.PassedUpTo req v then req.iSkip r else 0

/-- The indices from `j` on, `count` of them. -/
def indices (j : ℤ) (count : ℕ) : List ℤ := (List.range count).map fun k : ℕ => j + k

/-- The samples that record number `v` offers, by slot and index. -/
def offers (v : ℕ) : List (ℕ × ℤ) :=
  match src.visit req v with
  | .gives r => (indices (src.start req v r)
      ((req.decoder.samples r).length - src.start req v r).toNat).map (src.slotAt v, ·)
  | _ => []

/-- The samples that the records before number `v` offer. -/
def offered (v : ℕ) : List (ℕ × ℤ) := (List.range v).flatMap (src.offers req)

/-- The number of samples after which the transfer ends: those of the request, or those that are
sent when the client is found to be gone. -/
def limit : ℕ := min req.iSamples.toNat (req.gone.getD req.iSamples.toNat)

/-- The transfer ends with record number `v`. -/
def EndsAt (v : ℕ) : Prop :=
  match src.visit req v with
  | .ends => True
  | .passes => False
  | .gives _ => limit req ≤ (src.offered req (v + 1)).length

/-- `TransferSamples` on these records. -/
def transfer (fuel : ℕ) : Option TransferResult :=
  req.transferSamples (some (recordRange src.first src.last c)) (some src.ring.slots) fuel

/-! ### The samples of one record -/

variable {src req}

lemma limit_le : limit req ≤ req.iSamples.toNat := min_le_left _ _

lemma limit_le_of_gone {m : ℕ} (h : req.gone = some m) : limit req ≤ m := by
  rw [limit, h]
  exact min_le_right _ _

/-- Either the client is found to be gone after as many lines, or all that was asked for is sent. -/
lemma limit_cases : req.gone = some (limit req) ∨ limit req = req.iSamples.toNat := by
  rw [limit]
  cases req.gone with
  | none => exact Or.inr (min_self _)
  | some m =>
    rcases le_total m req.iSamples.toNat with h | h
    · exact Or.inl (by rw [Option.getD_some, min_eq_right h])
    · exact Or.inr (min_eq_left h)

lemma connected_of_lt {s : TransferState} (h : s.iLine < limit req) : req.connected s = true := by
  rw [SampleRequest.connected, Option.all_eq_true]
  intro m hm
  exact decide_eq_true (h.trans_le (limit_le_of_gone hm))

lemma not_connected {s : TransferState} (hgone : req.gone = some (limit req))
    (h : s.iLine = limit req) : req.connected s = false := by
  rw [SampleRequest.connected, hgone]
  simp [h]

@[simp] lemma indices_zero (j : ℤ) : indices j 0 = [] := rfl

lemma indices_succ (j : ℤ) (count : ℕ) : indices j (count + 1) = j :: indices (j + 1) count := by
  simp only [indices, List.range_succ_eq_map, List.map_cons, List.map_map, Nat.cast_zero, add_zero]
  congr 1
  apply List.map_congr_left
  intro k _
  simp only [Function.comp_apply, Nat.cast_succ]
  ring

@[simp] lemma length_indices (j : ℤ) (count : ℕ) : (indices j count).length = count := by
  simp [indices]

/-- The samples that were sent, by slot and index. -/
def sentKeys (s : TransferState) : List (ℕ × ℤ) := s.sent.map fun x => (x.iRecord.toNat, x.index)

/-- Every sample that was sent was read, within what was decoded or before it. -/
structure ReadsSent (s : TransferState) : Prop where
  index_eq : s.accesses.map SampleAccess.index = s.sent.map SentSample.index
  lt : ∀ a ∈ s.accesses, a.index < a.rectotal

lemma ReadsSent.snoc {s : TransferState} (h : ReadsSent s) {x : SentSample} {a : SampleAccess}
    (hindex : a.index = x.index) (hlt : a.index < a.rectotal) {i iSample iLine : ℕ} :
    ReadsSent { s with
      i, iSample, iLine, sent := s.sent ++ [x], accesses := s.accesses ++ [a] } := by
  refine ⟨?_, ?_⟩
  · simp [h.index_eq, hindex]
  · intro a' ha'
    rcases List.mem_append.mp ha' with ha' | ha'
    · exact h.lt a' ha'
    · rwa [List.mem_singleton.mp ha']

lemma sendSamples_of_le {iRecord : ℤ} {data : List ℤ} {s : TransferState}
    (h : req.iSamples ≤ s.iSample) (count : ℕ) (j : ℤ) :
    req.sendSamples iRecord data count j s = (s, false) := by
  cases count with
  | zero => rfl
  | succ count => exact if_neg (not_lt.mpr h)

/-- The loop over the samples of a record sends them up to the limit, and when it reaches the limit
the transfer ends. -/
lemma sendSamples_spec {iRecord : ℤ} {data : List ℤ} {count : ℕ} {j : ℤ} {s : TransferState}
    (hj : ∀ k < count, j + (k : ℤ) < data.length) (hline : s.iLine = s.iSample)
    (hlt : s.iSample < limit req) (hreads : ReadsSent s) :
    ∃ s' gone, req.sendSamples iRecord data count j s = (s', gone) ∧ s'.i = s.i ∧
      s'.iEmpty = s.iEmpty ∧ ReadsSent s' ∧
      sentKeys s' = sentKeys s ++
        ((indices j count).take (limit req - s.iSample)).map (iRecord.toNat, ·) ∧
      (s.iSample + count < limit req →
        gone = false ∧ s'.iLine = s'.iSample ∧ s'.iSample = s.iSample + count) ∧
      (limit req ≤ s.iSample + count → gone = true ∨ req.iSamples ≤ s'.iSample) := by
  induction count generalizing j s with
  | zero =>
    refine ⟨s, false, rfl, rfl, rfl, hreads, by simp, fun _ => ⟨rfl, hline, rfl⟩, ?_⟩
    intro hle
    exact absurd hlt (not_lt.mpr hle)
  | succ count ih =>
    have hasked : (s.iSample : ℤ) < req.iSamples := by
      have := hlt.trans_le limit_le
      omega
    have hroom : limit req - s.iSample = limit req - (s.iSample + 1) + 1 := by omega
    rw [SampleRequest.sendSamples, if_pos hasked, indices_succ, hroom, List.take_succ_cons]
    have hindex : j < data.length := by simpa using hj 0 (Nat.succ_pos count)
    generalize hs₁ : ({ s with
      sent := s.sent ++ [⟨iRecord, j, s.iLine, req.myData data j⟩]
      accesses := s.accesses ++ [⟨j, data.length⟩]
      iLine := s.iLine + 1 } : TransferState) = s₁
    have hline₁ : s₁.iLine = s.iSample + 1 := by rw [← hs₁, ← hline]
    have hkeys₁ : sentKeys s₁ = sentKeys s ++ [(iRecord.toNat, j)] := by simp [← hs₁, sentKeys]
    have hreads₁ : ReadsSent s₁ := by
      rw [← hs₁]
      exact hreads.snoc rfl hindex
    have hsame₁ : s₁.i = s.i ∧ s₁.iEmpty = s.iEmpty ∧ s₁.iSample = s.iSample := by simp [← hs₁]
    simp only
    by_cases hmore : s.iSample + 1 < limit req
    · rw [if_pos (connected_of_lt (hline₁.trans_lt hmore)), hsame₁.2.2]
      obtain ⟨s', gone, hrun, hi, hempty, hreads', hkeys, hunder, hover⟩ :=
        @ih (j + 1) { s₁ with iSample := s.iSample + 1 } (fun k hk => by
          have := hj (k + 1) (Nat.succ_lt_succ hk)
          push_cast at this
          omega) hline₁ hmore ⟨hreads₁.index_eq, hreads₁.lt⟩
      refine ⟨s', gone, hrun, hi.trans hsame₁.1, hempty.trans hsame₁.2.1, hreads', ?_, ?_, ?_⟩
      · rw [hkeys]
        show sentKeys s₁ ++ _ = _
        rw [hkeys₁]
        simp
      · intro h
        obtain ⟨hgone, hline', hsample⟩ := hunder (by simp only; omega)
        exact ⟨hgone, hline', hsample.trans (by simp only; omega)⟩
      · intro h
        exact hover (by simp only; omega)
    have hlast : s.iSample + 1 = limit req := by omega
    have hkeys : sentKeys s₁ = sentKeys s ++
        (j :: (indices (j + 1) count).take (limit req - (s.iSample + 1))).map
          (iRecord.toNat, ·) := by
      rw [hkeys₁, hlast]
      simp
    by_cases hconn : req.connected s₁ = true
    · have hfull : limit req = req.iSamples.toNat := limit_cases.resolve_left fun hgone => by
        rw [not_connected hgone (hline₁.trans hlast)] at hconn
        cases hconn
      have hle : req.iSamples ≤ (s.iSample + 1 : ℕ) := by omega
      rw [if_pos hconn, hsame₁.2.2, sendSamples_of_le hle]
      exact ⟨_, _, rfl, hsame₁.1, hsame₁.2.1, ⟨hreads₁.index_eq, hreads₁.lt⟩, hkeys,
        fun h => absurd h (by omega), fun _ => Or.inr hle⟩
    · rw [if_neg hconn]
      exact ⟨_, _, rfl, hsame₁.1, hsame₁.2.1, hreads₁, hkeys, fun h => absurd h (by omega),
        fun _ => Or.inl rfl⟩

/-! ### One record -/

/-- The state before record number `v`, when the transfer has not ended. -/
structure WalkAt (src : SampleSource n c) (req : SampleRequest n) (v : ℕ) (s : TransferState) :
    Prop where
  count : s.i + s.iEmpty = v
  passed : s.i = 0 ↔ src.PassedUpTo req v
  iLine : s.iLine = s.iSample
  iSample : s.iSample = (src.offered req v).length
  keys : sentKeys s = src.offered req v
  reads : ReadsSent s
  under : src.PassedUpTo req v ∨ s.iSample < limit req

variable {v : ℕ} {s : TransferState}

lemma offered_succ (v : ℕ) : src.offered req (v + 1) = src.offered req v ++ src.offers req v := by
  simp [offered, List.range_succ]

lemma passedUpTo_succ : src.PassedUpTo req (v + 1) ↔
    src.PassedUpTo req v ∧ src.visit req v = .passes := by
  simp only [PassedUpTo, Nat.forall_lt_succ_right]

lemma offered_of_passed (h : src.PassedUpTo req v) : src.offered req v = [] := by
  refine List.flatMap_eq_nil_iff.mpr fun u hu => ?_
  rw [offers, h u (List.mem_range.mp hu)]

/-- The record that is read as number `v`. -/
lemma WalkAt.slot (h : WalkAt src req v s) :
    ((s.i : ℤ) + (recordRange src.first src.last c).iFirst + s.iEmpty).tmod
      (recordRange src.first src.last c).iLoopSize = src.slotAt v := by
  simp only [recordRange, slotAt, Int.ofNat_tmod]
  congr 1
  have := h.count
  omega

/-- One turn of the loop, by what becomes of the record. -/
lemma WalkAt.transferRecord (h : WalkAt src req v s) :
    match src.visit req v with
    | .ends => ∃ stop, req.transferRecord (recordRange src.first src.last c) src.ring.slots s
        = .error ⟨stop, s⟩
    | .passes => req.transferRecord (recordRange src.first src.last c) src.ring.slots s
        = .ok { s with iEmpty := s.iEmpty + 1 }
    | .gives r => req.transferRecord (recordRange src.first src.last c) src.ring.slots s =
        if req.connected s = false then .error ⟨.returned s.iSample, s⟩
        else
          let out := req.sendSamples (src.slotAt v) (req.decoder.samples r)
            ((req.decoder.samples r).length - src.start req v r).toNat (src.start req v r) s
          if out.2 then .error ⟨.returned out.1.iSample, out.1⟩
          else .ok { out.1 with i := out.1.i + 1 } := by
  have hpos : ¬ (src.slotAt v : ℤ) < 0 := (Int.natCast_nonneg _).not_gt
  have hstart : ∀ r, (if s.i = 0 then req.iSkip r else 0) = src.start req v r := by
    intro r
    rw [start]
    by_cases hpassed : src.PassedUpTo req v
    · rw [if_pos hpassed, if_pos (h.passed.mpr hpassed)]
    · rw [if_neg hpassed, if_neg (h.passed.not.mpr hpassed)]
  simp only [SampleRequest.transferRecord, h.slot, if_neg hpos, Int.toNat_natCast, hstart, visit]
  cases src.ring.slots[src.slotAt v]? with
  | none => exact ⟨_, rfl⟩
  | some r =>
    simp only
    by_cases hframes : req.decoder.dframes r < 1 ∨ req.decoder.dframes r ≥ 64
    · simp only [if_pos hframes]
      exact ⟨_, rfl⟩
    by_cases hfirst : req.decoder.firstframe r < 0 ∨
        req.decoder.firstframe r > req.decoder.dframes r
    · simp only [if_neg hframes, if_pos hfirst]
    by_cases hlevel : req.decoder.level r < 1 ∨ req.decoder.level r > 3
    · simp only [if_neg hframes, if_neg hfirst, if_pos hlevel]
      exact ⟨_, rfl⟩
    · simp only [if_neg hframes, if_neg hfirst, if_neg hlevel]

/-- The loop goes on while the transfer has not ended. -/
lemma WalkAt.asked (h : WalkAt src req v s) (hasked : 0 < req.iSamples) :
    (s.iSample : ℤ) < req.iSamples := by
  rcases h.under with hpassed | hlimit
  · rw [h.iSample, offered_of_passed hpassed]
    exact hasked
  · have := hlimit.trans_le limit_le
    omega

lemma WalkAt.length_le (h : WalkAt src req v s) : (src.offered req v).length ≤ limit req := by
  rcases h.under with hpassed | hlimit
  · rw [offered_of_passed hpassed]
    exact Nat.zero_le _
  · exact h.iSample ▸ hlimit.le

/-- The samples of a record are sent up to the limit. -/
lemma WalkAt.sendSamples (h : WalkAt src req v s) {r : Record n}
    (hvisit : src.visit req v = .gives r) (hlimit : s.iSample < limit req) :
    ∃ s' gone, req.sendSamples (src.slotAt v) (req.decoder.samples r)
        ((req.decoder.samples r).length - src.start req v r).toNat (src.start req v r) s
          = (s', gone) ∧
      s'.i = s.i ∧ s'.iEmpty = s.iEmpty ∧ ReadsSent s' ∧
      sentKeys s' = (src.offered req (v + 1)).take (limit req) ∧
      ((src.offered req (v + 1)).length < limit req → gone = false ∧ s'.iLine = s'.iSample ∧
        s'.iSample = (src.offered req (v + 1)).length) ∧
      (limit req ≤ (src.offered req (v + 1)).length → gone = true ∨ req.iSamples ≤ s'.iSample) := by
  have hoffers : src.offers req v = (indices (src.start req v r)
      ((req.decoder.samples r).length - src.start req v r).toNat).map (src.slotAt v, ·) := by
    rw [offers, hvisit]
  obtain ⟨s', gone, hrun, hi, hempty, hreads, hkeys, hunder, hover⟩ :=
    @sendSamples_spec n req (src.slotAt v) (req.decoder.samples r)
      ((req.decoder.samples r).length - src.start req v r).toNat (src.start req v r) s
      (fun k hk => by omega) h.iLine hlimit h.reads
  have hlength : (src.offered req (v + 1)).length
      = s.iSample + ((req.decoder.samples r).length - src.start req v r).toNat := by
    rw [offered_succ, hoffers, List.length_append, List.length_map, length_indices, h.iSample]
  rw [hlength]
  refine ⟨s', gone, hrun, hi, hempty, hreads, ?_, hunder, hover⟩
  rw [hkeys, h.keys, offered_succ, hoffers, List.take_append, Int.toNat_natCast, ← h.iSample,
    List.map_take, List.take_of_length_le (h.iSample.symm.trans_le hlimit.le)]

/-- A record before the last one leads to the state before the next record. -/
lemma WalkAt.succ (h : WalkAt src req v s) (hends : ¬ src.EndsAt req v) :
    ∃ s', req.transferRecord (recordRange src.first src.last c) src.ring.slots s = .ok s' ∧
      WalkAt src req (v + 1) s' := by
  have hrecord := h.transferRecord
  rw [EndsAt] at hends
  cases hvisit : src.visit req v with
  | ends =>
    rw [hvisit] at hends
    exact absurd trivial hends
  | passes =>
    rw [hvisit] at hrecord
    have hoffers : src.offers req v = [] := by rw [offers, hvisit]
    have hsame : src.offered req (v + 1) = src.offered req v := by
      rw [offered_succ, hoffers, List.append_nil]
    have hpassed : src.PassedUpTo req (v + 1) ↔ src.PassedUpTo req v := by
      rw [passedUpTo_succ, and_iff_left hvisit]
    refine ⟨_, hrecord, ?_, ?_, h.iLine, ?_, ?_, ⟨h.reads.index_eq, h.reads.lt⟩, ?_⟩
    · simp only [← h.count, Nat.add_assoc]
    · exact h.passed.trans hpassed.symm
    · rw [hsame]
      exact h.iSample
    · rw [hsame]
      exact h.keys
    · rw [hpassed]
      exact h.under
  | gives r =>
    rw [hvisit] at hends
    simp only [hvisit] at hrecord
    have hroom : (src.offered req (v + 1)).length < limit req := not_le.mp hends
    have hlimit : s.iSample < limit req := by
      rw [h.iSample]
      rw [offered_succ, List.length_append] at hroom
      omega
    obtain ⟨s', gone, hrun, hi, hempty, hreads, hkeys, hunder, -⟩ := h.sendSamples hvisit hlimit
    obtain ⟨rfl, hline, hsample⟩ := hunder hroom
    rw [connected_of_lt (h.iLine.trans_lt hlimit), if_neg (by decide), hrun] at hrecord
    have hpassed : ¬ src.PassedUpTo req (v + 1) := by
      rw [passedUpTo_succ, hvisit]
      exact fun h => by cases h.2
    refine ⟨_, hrecord, ?_, ?_, hline, hsample, ?_, ⟨hreads.index_eq, hreads.lt⟩, Or.inr ?_⟩
    · simp only [hi, hempty, ← h.count]
      omega
    · exact iff_of_false (Nat.succ_ne_zero _) hpassed
    · exact hkeys.trans (List.take_of_length_le hroom.le)
    · exact hsample.trans_lt hroom

/-- The last record ends the transfer, at the limit of the samples that are sent. -/
lemma WalkAt.ends (h : WalkAt src req v s) (hasked : 0 < req.iSamples)
    (hends : src.EndsAt req v) :
    ∃ result,
      (∀ fuel, req.transferLoop (recordRange src.first src.last c) src.ring.slots (fuel + 2) s
        = some result) ∧
      sentKeys result.state = (src.offered req (v + 1)).take (limit req) ∧
      ReadsSent result.state := by
  have hrecord := h.transferRecord
  have hloop : ∀ fuel, req.transferLoop (recordRange src.first src.last c) src.ring.slots
      (fuel + 2) s = _ := fun fuel => if_pos (h.asked hasked)
  have hstay : src.offers req v = [] →
      sentKeys s = (src.offered req (v + 1)).take (limit req) := by
    intro hoffers
    rw [offered_succ, hoffers, List.append_nil, List.take_of_length_le h.length_le, h.keys]
  rw [EndsAt] at hends
  cases hvisit : src.visit req v with
  | ends =>
    simp only [hvisit] at hrecord
    obtain ⟨stop, hrecord⟩ := hrecord
    refine ⟨⟨stop, s⟩, fun fuel => by rw [hloop, hrecord], hstay ?_, h.reads⟩
    rw [offers, hvisit]
  | passes =>
    rw [hvisit] at hends
    exact hends.elim
  | gives r =>
    simp only [hvisit] at hrecord hends
    rcases Nat.eq_zero_or_pos (limit req) with hzero | hpos
    · -- the client is gone behind the first line
      have hgone : req.gone = some (limit req) := limit_cases.resolve_right (by omega)
      have hline : s.iLine = limit req := by
        rw [h.iLine, h.iSample, hzero]
        exact Nat.le_zero.mp (hzero ▸ h.length_le)
      rw [not_connected hgone hline, if_pos rfl] at hrecord
      refine ⟨⟨.returned s.iSample, s⟩, fun fuel => by rw [hloop, hrecord], ?_, h.reads⟩
      rw [hzero, List.take_zero, h.keys]
      exact List.length_eq_zero_iff.mp (Nat.le_zero.mp (hzero ▸ h.length_le))
    have hlimit : s.iSample < limit req := by
      rcases h.under with hpassed | hlimit
      · rwa [h.iSample, offered_of_passed hpassed]
      · exact hlimit
    obtain ⟨s', gone, hrun, -, -, hreads, hkeys, -, hover⟩ := h.sendSamples hvisit hlimit
    rw [connected_of_lt (h.iLine.trans_lt hlimit), if_neg (by decide), hrun] at hrecord
    cases gone with
    | true =>
      refine ⟨⟨.returned s'.iSample, s'⟩, fun fuel => ?_, hkeys, hreads⟩
      rw [hloop, hrecord]
      rfl
    | false =>
      have hle : req.iSamples ≤ s'.iSample := (hover hends).resolve_left (by decide)
      refine ⟨⟨.returned s'.iSample, { s' with i := s'.i + 1 }⟩, fun fuel => ?_, hkeys,
        ⟨hreads.index_eq, hreads.lt⟩⟩
      rw [hloop, hrecord]
      exact if_neg (not_lt.mpr hle)

/-! ### The whole transfer -/

lemma walkAt_start : WalkAt src req 0 SampleRequest.transferStart where
  count := rfl
  passed := iff_of_true rfl (fun u hu => absurd hu (Nat.not_lt_zero u))
  iLine := rfl
  iSample := rfl
  keys := rfl
  reads := ⟨rfl, fun a ha => by cases ha⟩
  under := Or.inl fun u hu => absurd hu (Nat.not_lt_zero u)

/-- Up to the record that ends the transfer the loop goes from record to record. -/
lemma transferLoop_walk (hasked : 0 < req.iSamples) (v : ℕ)
    (hgoes : ∀ u < v, ¬ src.EndsAt req u) :
    ∃ s, WalkAt src req v s ∧ ∀ fuel,
      req.transferLoop (recordRange src.first src.last c) src.ring.slots (fuel + v)
          SampleRequest.transferStart
        = req.transferLoop (recordRange src.first src.last c) src.ring.slots fuel s := by
  induction v with
  | zero => exact ⟨_, walkAt_start, fun fuel => rfl⟩
  | succ v ih =>
    obtain ⟨s, hs, hloop⟩ := ih fun u hu => hgoes u (hu.trans (Nat.lt_succ_self v))
    obtain ⟨s', hrecord, hs'⟩ := hs.succ (hgoes v (Nat.lt_succ_self v))
    refine ⟨s', hs', fun fuel => ?_⟩
    rw [← Nat.add_assoc, Nat.add_right_comm, hloop, SampleRequest.transferLoop,
      if_pos (hs.asked hasked), hrecord]

lemma transfer_eq (fuel : ℕ) : src.transfer req fuel =
    req.transferLoop (recordRange src.first src.last c) src.ring.slots fuel
      SampleRequest.transferStart := by
  have hfirst := src.first_lt.trans_le src.ring.length_le
  have hcount : ¬ (recordRange src.first src.last c).iCount < 1 := by
    simp only [recordRange]
    split <;> omega
  exact if_neg hcount

/-- A transfer that ends sends the samples of the records up to the last one, up to the limit. -/
lemma transfer_ends (hasked : 0 < req.iSamples) {v : ℕ} (hgoes : ∀ u < v, ¬ src.EndsAt req u)
    (hends : src.EndsAt req v) :
    ∃ result, (∀ fuel, src.transfer req (fuel + 2 + v) = some result) ∧
      sentKeys result.state = (src.offered req (v + 1)).take (limit req) ∧
      ReadsSent result.state := by
  obtain ⟨s, hs, hloop⟩ := transferLoop_walk hasked v hgoes
  obtain ⟨result, hresult, hkeys, hreads⟩ := hs.ends hasked hends
  exact ⟨result, fun fuel => by rw [transfer_eq, hloop, hresult], hkeys, hreads⟩

end SampleSource

end StationProcessor
