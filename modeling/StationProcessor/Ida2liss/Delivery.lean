import StationProcessor.Ida2liss.Ring

/-!
# Delivery through the ring

With an unlimited queue depth the ring neither loses nor repeats a record, whatever the order in
which the two threads take their steps.
-/

namespace StationProcessor

/-! ### The invariant -/

/-- The records in the used slots of the ring. -/
def LissState.ring (s : LissState) (count : ℕ) : List (List UInt8) :=
  (SpareRing.slots s.iRecords s.iOldest count).map fun i => (s.seedrec i).bytes

/-- The record `raw()` has read and not stored yet. -/
def RawPc.inHand : RawPc → List (List UInt8)
  | .read => []
  | .check p => [p.bytes]
  | .pause p => [p.bytes]
  | .overwrite p => [p.bytes]
  | .copy p _ => [p.bytes]
  | .publish p => [p.bytes]

/-- The records in the ring that are not sent yet. -/
def LissState.unsent (s : LissState) (count : ℕ) : List (List UInt8) :=
  match s.listen with
  | .release => (s.ring count).tail
  | _ => s.ring count

/-- The producer writes to a free slot, and not to the last one. -/
def RawOk (s : LissState) (count : ℕ) : Prop :=
  match s.raw with
  | .overwrite _ => False
  | .copy p k => count + 1 < s.iRecords ∧ ∀ j < k, s.seedrec s.iNext j = p j
  | .publish p => count + 1 < s.iRecords ∧ ∀ j < seedRecLen, s.seedrec s.iNext j = p j
  | _ => True

/-- The listener sends the oldest record, and only while it is connected. -/
def ListenOk (s : LissState) (count : ℕ) : Prop :=
  match s.listen with
  | .accept => s.clientConnected = false
  | .wait iReturn => s.clientConnected = true ↔ 0 < iReturn
  | .sendAlive iSent _ => s.clientConnected = true ∧ iSent < seedRecLen
  | .sendRecord iSend iSent _ sent => s.clientConnected = true ∧ 0 < count ∧ iSend = s.iOldest ∧
      iSent < seedRecLen ∧ sent = (s.seedrec s.iOldest).bytes.take iSent
  | .release => s.clientConnected = true ∧ 0 < count
  | .stopped => s.clientConnected = false

/-- What holds in every state, for the number of used slots. -/
structure LissInv (s : LissState) (count : ℕ) : Prop where
  depth : s.depth < 0
  two : 2 ≤ s.iRecords
  count_lt : count < s.iRecords
  oldest_lt : s.iOldest < s.iRecords
  next : s.iNext = (s.iOldest + count) % s.iRecords
  raw : RawOk s count
  listen : ListenOk s count
  records : s.delivered ++ s.unsent count ++ s.raw.inHand = s.produced

section Basic

variable {s : LissState} {count : ℕ}

@[simp] lemma Payload.length_bytes (p : Payload) : p.bytes.length = seedRecLen := by
  simp [Payload.bytes]

lemma Payload.bytes_congr {p q : Payload} (h : ∀ j < seedRecLen, p j = q j) :
    p.bytes = q.bytes := by
  simp only [Payload.bytes]
  exact List.map_congr_left fun j hj => h j (List.mem_range.mp hj)

lemma LissInv.empty_iff (h : LissInv s count) : s.iNext = s.iOldest ↔ count = 0 := by
  rw [h.next]
  exact SpareRing.next_eq_oldest_iff h.count_lt h.oldest_lt

lemma LissInv.full_iff (h : LissInv s count) : s.Full ↔ count + 1 = s.iRecords := by
  rw [LissState.Full, h.next]
  exact SpareRing.next_succ_eq_oldest_iff h.count_lt h.oldest_lt

lemma LissInv.next_notMem (h : LissInv s count) :
    s.iNext ∉ SpareRing.slots s.iRecords s.iOldest count := by
  rw [h.next]
  exact SpareRing.next_notMem h.count_lt

lemma LissInv.ring_pop (h : LissInv s count) (hc : 0 < count) :
    s.ring count = (s.seedrec s.iOldest).bytes ::
      (SpareRing.slots s.iRecords ((s.iOldest + 1) % s.iRecords) (count - 1)).map
        fun i => (s.seedrec i).bytes := by
  obtain ⟨rest, rfl⟩ := Nat.exists_eq_succ_of_ne_zero hc.ne'
  rw [LissState.ring, SpareRing.slots_pop h.oldest_lt]
  rfl

end Basic

/-- The start: an empty ring. -/
lemma initLiss_inv {depth : ℤ} (h : depth < 0) : LissInv (initLiss depth) 0 := by
  have hdepth : depth < 4 := h.trans (by norm_num)
  refine ⟨h, ?_, ?_, ?_, ?_, trivial, rfl, rfl⟩ <;> simp [initLiss, hdepth]

/-! ### Steps of the producer -/

section Raw

variable {s : LissState} {count : ℕ}

lemma unsent_push {s' : LissState} {count' : ℕ} {record : List UInt8}
    (hring : s'.ring count' = s.ring count ++ [record]) (hlisten : s'.listen = s.listen)
    (hne : s.listen = .release → s.ring count ≠ []) :
    s'.unsent count' = s.unsent count ++ [record] := by
  simp only [LissState.unsent, hring, hlisten]
  cases hpc : s.listen with
  | release => exact List.tail_append_of_ne_nil (hne hpc)
  | _ => rfl

/-- A step that changes neither the ring nor the listener. -/
lemma LissInv.of_same {s' : LissState} (h : LissInv s count) (hdepth : s'.depth = s.depth)
    (hrecords : s'.iRecords = s.iRecords) (holdest : s'.iOldest = s.iOldest)
    (hnext : s'.iNext = s.iNext) (hslots : ∀ i ∈ SpareRing.slots s.iRecords s.iOldest count,
      s'.seedrec i = s.seedrec i) (hconnected : s'.clientConnected = s.clientConnected)
    (hlisten : s'.listen = s.listen) (hdelivered : s'.delivered = s.delivered)
    (hraw : RawOk s' count)
    (hproduced : s.delivered ++ s.unsent count ++ s'.raw.inHand = s'.produced) :
    LissInv s' count := by
  have hring : s'.ring count = s.ring count := by
    simp only [LissState.ring, hrecords, holdest]
    exact List.map_congr_left fun i hi => by rw [hslots i hi]
  have holdestSlot : 0 < count → s'.seedrec s.iOldest = s.seedrec s.iOldest := by
    intro hc
    apply hslots
    obtain ⟨rest, rfl⟩ := Nat.exists_eq_succ_of_ne_zero hc.ne'
    rw [SpareRing.slots_pop h.oldest_lt]
    exact List.mem_cons_self
  refine ⟨by rw [hdepth]; exact h.depth, by rw [hrecords]; exact h.two,
    by rw [hrecords]; exact h.count_lt,
    by rw [holdest, hrecords]; exact h.oldest_lt, by rw [hnext, holdest, hrecords]; exact h.next,
    hraw, ?_, ?_⟩
  · have hok := h.listen
    simp only [ListenOk, hlisten, hconnected, holdest] at hok ⊢
    cases hpc : s.listen with
    | sendRecord iSend iSent sendAttempts sent =>
      simp only [hpc] at hok ⊢
      rwa [holdestSlot hok.2.1]
    | _ => simpa only [hpc] using hok
  · simp only [LissState.unsent, hring, hlisten, hdelivered] at hproduced ⊢
    exact hproduced

/-- The slots a step of `raw()` adds to the used ones. -/
def RawPc.adds : RawPc → ℕ
  | .publish _ => 1
  | _ => 0

lemma LissInv.rawStep (h : LissInv s count) (packet : Option Payload) :
    ∃ count', LissInv (rawStep packet s) count' ∧ count' = count + s.raw.adds := by
  have hraw := h.raw
  have hrecords := h.records
  simp only [RawOk] at hraw
  unfold StationProcessor.rawStep
  cases hpc : s.raw with
  | read =>
    cases packet with
    | none => exact ⟨count, h, rfl⟩
    | some p =>
      refine ⟨count, h.of_same rfl rfl rfl rfl (fun _ _ => rfl) rfl rfl rfl trivial ?_, rfl⟩
      simp only [hpc, RawPc.inHand, List.append_nil] at hrecords
      simp only [RawPc.inHand, hrecords]
  | check p =>
    have hsame : ∀ pc, pc.inHand = [p.bytes] → RawOk { s with raw := pc } count →
        LissInv { s with raw := pc } count := fun pc hpc' hok =>
      h.of_same rfl rfl rfl rfl (fun _ _ => rfl) rfl rfl rfl hok (by
        rw [hpc']
        rw [hpc] at hrecords
        exact hrecords)
    dsimp only
    split_ifs with hfull hdepth
    · exact ⟨count, hsame _ rfl trivial, rfl⟩
    · exact absurd h.depth hdepth
    · refine ⟨count, hsame _ rfl ⟨?_, fun j hj => absurd hj (Nat.not_lt_zero j)⟩, rfl⟩
      exact lt_of_le_of_ne h.count_lt (mt h.full_iff.mpr hfull)
  | pause p =>
    dsimp only
    split_ifs with hfull
    · exact ⟨count, h, rfl⟩
    · refine ⟨count, h.of_same rfl rfl rfl rfl (fun _ _ => rfl) rfl rfl rfl
        ⟨?_, fun j hj => absurd hj (Nat.not_lt_zero j)⟩ ?_, rfl⟩
      · exact lt_of_le_of_ne h.count_lt (mt h.full_iff.mpr hfull)
      · rw [hpc] at hrecords
        exact hrecords
  | overwrite p =>
    rw [hpc] at hraw
    exact hraw.elim
  | copy p k =>
    rw [hpc] at hraw hrecords
    obtain ⟨hfree, hcopied⟩ := hraw
    dsimp only
    split_ifs with hk
    · refine ⟨count, h.of_same rfl rfl rfl rfl ?_ rfl rfl rfl ⟨hfree, ?_⟩ hrecords, rfl⟩
      · intro i hi
        have hne : i ≠ s.iNext := fun heq => h.next_notMem (heq ▸ hi)
        simp [LissState.store, hne]
      · intro j hj
        rcases Nat.lt_succ_iff_lt_or_eq.mp hj with hlt | rfl
        · simp [LissState.store, hlt.ne, hcopied j hlt]
        · simp [LissState.store]
    · refine ⟨count, h.of_same rfl rfl rfl rfl (fun _ _ => rfl) rfl rfl rfl ⟨hfree, ?_⟩ hrecords,
        rfl⟩
      exact fun j hj => hcopied j (hj.trans_le (not_lt.mp hk))
  | publish p =>
    rw [hpc] at hraw hrecords
    obtain ⟨hfree, hcopied⟩ := hraw
    have hslot : (s.seedrec s.iNext).bytes = p.bytes := Payload.bytes_congr hcopied
    have hring : ({ s with iNext := (s.iNext + 1) % s.iRecords, raw := .read } : LissState).ring
        (count + 1) = s.ring count ++ [p.bytes] := by
      simp only [LissState.ring, SpareRing.slots_push, ← h.next, List.map_append,
        List.map_singleton, hslot]
    have hok := h.listen
    simp only [ListenOk] at hok
    refine ⟨count + 1, ⟨h.depth, h.two, hfree, h.oldest_lt, ?_, trivial, ?_, ?_⟩, rfl⟩
    · show (s.iNext + 1) % s.iRecords = _
      rw [h.next, Nat.mod_add_mod, Nat.add_assoc]
    · simp only [ListenOk]
      cases hl : s.listen with
      | sendRecord iSend iSent sendAttempts sent =>
        simp only [hl] at hok ⊢
        exact ⟨hok.1, Nat.succ_pos _, hok.2.2⟩
      | release =>
        simp only [hl] at hok ⊢
        exact ⟨hok.1, Nat.succ_pos _⟩
      | _ => simpa only [hl] using hok
    · rw [unsent_push hring rfl, ← hrecords]
      · simp [RawPc.inHand]
      · intro hl
        simp only [hl] at hok
        rw [h.ring_pop hok.2]
        exact List.cons_ne_nil _ _

end Raw

/-! ### Steps of the listener -/

section Listen

variable {s : LissState} {count : ℕ}

/-- A step that changes the listener and its connection only. -/
lemma LissInv.of_listen {s' : LissState} (h : LissInv s count) (hdepth : s'.depth = s.depth)
    (hrecords : s'.iRecords = s.iRecords) (holdest : s'.iOldest = s.iOldest)
    (hnext : s'.iNext = s.iNext) (hmemory : s'.seedrec = s.seedrec) (hraw : s'.raw = s.raw)
    (hproduced : s'.produced = s.produced) (hlisten : ListenOk s' count)
    (hdelivered : s'.delivered ++ s'.unsent count = s.delivered ++ s.unsent count) :
    LissInv s' count := by
  refine ⟨by rw [hdepth]; exact h.depth, by rw [hrecords]; exact h.two,
    by rw [hrecords]; exact h.count_lt,
    by rw [holdest, hrecords]; exact h.oldest_lt, by rw [hnext, holdest, hrecords]; exact h.next,
    ?_, hlisten, by rw [hdelivered, hraw, hproduced]; exact h.records⟩
  have hok := h.raw
  simp only [RawOk, hraw, hrecords, hnext, hmemory] at hok ⊢
  exact hok

/-- Between two places of the listener other than the last one no record is dealt with. -/
lemma unsent_eq {s' : LissState} (hrecords : s'.iRecords = s.iRecords)
    (holdest : s'.iOldest = s.iOldest) (hmemory : s'.seedrec = s.seedrec)
    (hl : s.listen ≠ .release) (hl' : s'.listen ≠ .release) : s'.unsent count = s.unsent count := by
  have hring : s'.ring count = s.ring count := by
    simp only [LissState.ring, hrecords, holdest, hmemory]
  simp only [LissState.unsent, hring]

lemma sendRound_none {iSent sendAttempts i : ℕ} {r : LissSend} (hi : iSent < seedRecLen)
    (h : sendRound iSent sendAttempts r = (i, none)) : iSent + i < seedRecLen := by
  cases r with
  | failed => simp [sendRound] at h
  | again =>
    simp only [sendRound] at h
    split at h
    · simp at h
    · obtain ⟨rfl, -⟩ := Prod.mk.inj h
      exact hi
  | wrote k =>
    simp only [sendRound] at h
    split at h
    · rename_i hgo
      obtain ⟨rfl, -⟩ := Prod.mk.inj h
      exact hgo.2
    · split at h <;> simp at h

/-- A round of `send_record` that ends it either has sent all bytes or fails. -/
lemma sendRound_some {iSent sendAttempts i : ℕ} {r : LissSend} {iReturn : ℤ}
    (h : sendRound iSent sendAttempts r = (i, some iReturn)) (hi : iSent < seedRecLen) :
    iReturn = -1 ∨ iReturn = 1 ∧ iSent + i = seedRecLen := by
  cases r with
  | failed =>
    obtain ⟨-, hret⟩ := Prod.mk.inj h
    exact Or.inl (Option.some.inj hret).symm
  | again =>
    simp only [sendRound] at h
    split at h
    · obtain ⟨-, hret⟩ := Prod.mk.inj h
      exact Or.inl (Option.some.inj hret).symm
    · simp at h
  | wrote k =>
    simp only [sendRound] at h
    split at h
    · simp at h
    · split at h
      · obtain ⟨-, hret⟩ := Prod.mk.inj h
        exact Or.inl (Option.some.inj hret).symm
      · rename_i hshort
        obtain ⟨rfl, hret⟩ := Prod.mk.inj h
        refine Or.inr ⟨(Option.some.inj hret).symm, le_antisymm ?_ (not_lt.mp hshort)⟩
        calc iSent + min k (seedRecLen - iSent) ≤ iSent + (seedRecLen - iSent) :=
              Nat.add_le_add_left (min_le_right _ _) _
          _ = seedRecLen := Nat.add_sub_cancel' hi.le

/-- The slots a step of `ListenThread` removes from the used ones. -/
def ListenPc.frees : ListenPc → ℕ
  | .release => 1
  | _ => 0

lemma LissInv.listenStep (h : LissInv s count) (env : ListenEnv) :
    ∃ count', LissInv (listenStep env s) count' ∧ count = count' + s.listen.frees := by
  have hok := h.listen
  simp only [ListenOk] at hok
  unfold StationProcessor.listenStep
  cases hpc : s.listen with
  | accept =>
    have hne : s.listen ≠ .release := by simp [hpc]
    simp only [hpc] at hok
    cases env.accept with
    | client =>
      refine ⟨count, h.of_listen rfl rfl rfl rfl rfl rfl rfl (by simp [ListenOk]) ?_, rfl⟩
      exact congrArg _ (unsent_eq rfl rfl rfl hne (by simp))
    | notOnWhitelist =>
      refine ⟨count, h.of_listen rfl rfl rfl rfl rfl rfl rfl (by simp [ListenOk]) ?_, rfl⟩
      exact congrArg _ (unsent_eq rfl rfl rfl hne (by simp))
    | failure =>
      refine ⟨count, h.of_listen rfl rfl rfl rfl rfl rfl rfl hok ?_, rfl⟩
      exact congrArg _ (unsent_eq rfl rfl rfl hne (by simp))
  | wait iReturn =>
    have hne : s.listen ≠ .release := by simp [hpc]
    simp only [hpc] at hok
    dsimp only
    split_ifs with hwait hdue hconnected hconnected
    · refine ⟨count, h.of_listen rfl rfl rfl rfl rfl rfl rfl ⟨hconnected, by decide⟩ ?_, rfl⟩
      exact congrArg _ (unsent_eq rfl rfl rfl hne (by simp))
    · exact absurd (hok.mpr hwait.2) hconnected
    · exact ⟨count, h, rfl⟩
    · have hfilled : 0 < count := by
        apply Nat.pos_of_ne_zero
        intro h0
        exact hwait ⟨h.empty_iff.mpr h0, hok.mp hconnected⟩
      refine ⟨count, h.of_listen rfl rfl rfl rfl rfl rfl rfl
        ⟨hconnected, hfilled, rfl, by decide, by simp⟩ ?_, rfl⟩
      exact congrArg _ (unsent_eq rfl rfl rfl hne (by simp))
    · refine ⟨count, h.of_listen rfl rfl rfl rfl rfl rfl rfl
        (by simpa [ListenOk] using hconnected) ?_,
        rfl⟩
      exact congrArg _ (unsent_eq rfl rfl rfl hne (by simp))
  | sendAlive iSent sendAttempts =>
    have hne : s.listen ≠ .release := by simp [hpc]
    simp only [hpc] at hok
    obtain ⟨hconnected, hi⟩ := hok
    dsimp only
    cases hround : sendRound iSent sendAttempts env.send with
    | mk i result =>
      cases result with
      | none =>
        refine ⟨count, h.of_listen rfl rfl rfl rfl rfl rfl rfl
          ⟨hconnected, sendRound_none hi hround⟩ ?_, rfl⟩
        exact congrArg _ (unsent_eq rfl rfl rfl hne (by simp))
      | some iReturn =>
        refine ⟨count, h.of_listen rfl rfl rfl rfl rfl rfl rfl ?_ ?_, rfl⟩
        · rcases sendRound_some hround hi with rfl | ⟨rfl, -⟩
          · simp [ListenOk]
          · simp [ListenOk, hconnected]
        · exact congrArg _ (unsent_eq rfl rfl rfl hne (by simp))
  | sendRecord iSend iSent sendAttempts sent =>
    have hne : s.listen ≠ .release := by simp [hpc]
    simp only [hpc] at hok
    obtain ⟨hconnected, hfilled, rfl, hi, rfl⟩ := hok
    dsimp only
    cases hround : sendRound iSent sendAttempts env.send with
    | mk i result =>
      have hsent : (s.seedrec s.iOldest).bytes.take iSent
          ++ ((s.seedrec s.iOldest).bytes.drop iSent).take i
            = (s.seedrec s.iOldest).bytes.take (iSent + i) := (List.take_add).symm
      cases result with
      | none =>
        refine ⟨count, h.of_listen rfl rfl rfl rfl rfl rfl rfl
          ⟨hconnected, hfilled, rfl, sendRound_none hi hround, hsent⟩ ?_, rfl⟩
        exact congrArg _ (unsent_eq rfl rfl rfl hne (by simp))
      | some iReturn =>
        rcases sendRound_some hround hi with rfl | ⟨rfl, hall⟩
        · refine ⟨count, h.of_listen rfl rfl rfl rfl rfl rfl rfl (by simp [ListenOk]) ?_, rfl⟩
          exact congrArg _ (unsent_eq rfl rfl rfl hne (by simp))
        · have hrecord : (s.seedrec s.iOldest).bytes.take (iSent + i)
              = (s.seedrec s.iOldest).bytes := by
            apply List.take_of_length_le
            rw [Payload.length_bytes, hall]
          refine ⟨count, h.of_listen rfl rfl rfl rfl rfl rfl rfl ⟨hconnected, hfilled⟩ ?_, rfl⟩
          have hring := h.ring_pop hfilled
          simp only [LissState.unsent, hpc, hsent, hrecord]
          show s.delivered ++ [_] ++ (s.ring count).tail = s.delivered ++ s.ring count
          rw [hring, List.tail_cons, List.append_assoc, List.singleton_append]
  | release =>
    simp only [hpc] at hok
    obtain ⟨hconnected, hfilled⟩ := hok
    obtain ⟨rest, rfl⟩ := Nat.exists_eq_succ_of_ne_zero hfilled.ne'
    have hpos : 0 < s.iRecords := (Nat.zero_le _).trans_lt h.oldest_lt
    refine ⟨rest, ⟨h.depth, h.two, (Nat.lt_succ_self rest).trans h.count_lt, Nat.mod_lt _ hpos, ?_,
      ?_, ?_, ?_⟩, rfl⟩
    · show s.iNext = ((s.iOldest + 1) % s.iRecords + rest) % s.iRecords
      rw [h.next, Nat.mod_add_mod, Nat.add_assoc, Nat.add_comm 1 rest]
    · have hraw := h.raw
      simp only [RawOk] at hraw ⊢
      cases hr : s.raw with
      | overwrite p => simp only [hr] at hraw
      | copy p k =>
        simp only [hr] at hraw ⊢
        exact ⟨(Nat.lt_succ_self _).trans hraw.1, hraw.2⟩
      | publish p =>
        simp only [hr] at hraw ⊢
        exact ⟨(Nat.lt_succ_self _).trans hraw.1, hraw.2⟩
      | _ => trivial
    · simpa [ListenOk] using hconnected
    · have hrecords := h.records
      simp only [LissState.unsent, hpc] at hrecords ⊢
      rw [h.ring_pop hfilled] at hrecords
      exact hrecords
  | stopped => exact ⟨count, h, rfl⟩

end Listen

/-! ### What a run delivers -/

/-- The number of used slots. -/
def LissState.used (s : LissState) : ℕ := (s.iNext + s.iRecords - s.iOldest) % s.iRecords

/-- The records that were read and are not delivered yet. -/
def LissState.pending (s : LissState) : List (List UInt8) := s.unsent s.used ++ s.raw.inHand

/-- What the ring promises in a state: the records delivered, followed by those waiting, are the
records read, in order; the slot `raw()` writes to holds no record that waits, nor would it make
the ring look empty; and the slot that is sent holds the oldest record, all of it. -/
structure LissSafe (s : LissState) : Prop where
  conserved : s.delivered ++ s.pending = s.produced
  written : ∀ p, (∃ k, s.raw = .copy p k) ∨ s.raw = .publish p →
    s.iNext ∉ SpareRing.slots s.iRecords s.iOldest s.used ∧ ¬ s.Full
  sending : ∀ iSend iSent sendAttempts sent, s.listen = .sendRecord iSend iSent sendAttempts sent →
    ∃ rest, s.pending = (s.seedrec iSend).bytes :: rest ∧
      sent = (s.seedrec iSend).bytes.take iSent

section Run

variable {s : LissState} {count : ℕ}

lemma LissInv.used_eq (h : LissInv s count) : s.used = count := by
  have hc := h.count_lt
  have ho := h.oldest_lt
  rw [LissState.used, h.next]
  rcases Nat.lt_or_ge (s.iOldest + count) s.iRecords with hlt | hge
  · rw [Nat.mod_eq_of_lt hlt,
      show s.iOldest + count + s.iRecords - s.iOldest = count + s.iRecords by
      omega, Nat.add_mod_right, Nat.mod_eq_of_lt hc]
  · have hwrap : (s.iOldest + count) % s.iRecords = s.iOldest + count - s.iRecords := by
      rw [Nat.mod_eq_sub_mod hge]
      exact Nat.mod_eq_of_lt (by omega)
    rw [hwrap, Nat.sub_add_cancel hge, Nat.add_sub_cancel_left, Nat.mod_eq_of_lt hc]

lemma LissInv.pending_eq (h : LissInv s count) :
    s.pending = s.unsent count ++ s.raw.inHand := by
  rw [LissState.pending, h.used_eq]

lemma LissInv.conserved (h : LissInv s count) : s.delivered ++ s.pending = s.produced := by
  rw [h.pending_eq, ← List.append_assoc]
  exact h.records

lemma LissInv.safe (h : LissInv s count) : LissSafe s where
  conserved := h.conserved
  written p hp := by
    have hfree : count + 1 < s.iRecords := by
      have hraw := h.raw
      simp only [RawOk] at hraw
      rcases hp with ⟨k, hk⟩ | hk
      · simp only [hk] at hraw
        exact hraw.1
      · simp only [hk] at hraw
        exact hraw.1
    rw [h.used_eq]
    exact ⟨h.next_notMem, fun hfull => hfree.ne (h.full_iff.mp hfull)⟩
  sending iSend iSent sendAttempts sent hl := by
    have hok := h.listen
    simp only [ListenOk, hl] at hok
    obtain ⟨-, hfilled, rfl, -, hsent⟩ := hok
    have hpending : s.pending = s.ring count ++ s.raw.inHand := by
      simp only [h.pending_eq, LissState.unsent, hl]
    rw [hpending, h.ring_pop hfilled]
    exact ⟨_, rfl, hsent⟩

lemma LissInv.step (h : LissInv s count) (e : LissEvent) : ∃ count', LissInv (e.step s) count' := by
  cases e with
  | raw packet =>
    obtain ⟨count', h', -⟩ := h.rawStep packet
    exact ⟨count', h'⟩
  | listen env =>
    obtain ⟨count', h', -⟩ := h.listenStep env
    exact ⟨count', h'⟩

lemma LissInv.run (h : LissInv s count) (events : List LissEvent) :
    ∃ count', LissInv (lissRun events s) count' := by
  induction events generalizing s count with
  | nil => exact ⟨count, h⟩
  | cons e events ih =>
    obtain ⟨count', h'⟩ := h.step e
    exact ih h'

lemma lissRun_append (before after : List LissEvent) (s : LissState) :
    lissRun (before ++ after) s = lissRun after (lissRun before s) := List.foldl_append

/-- Records are only added to those read, and to those delivered. -/
lemma step_grows (e : LissEvent) (s : LissState) :
    s.delivered <+: (e.step s).delivered ∧ s.produced <+: (e.step s).produced := by
  cases e with
  | raw packet =>
    simp only [LissEvent.step, rawStep]
    cases s.raw with
    | read => cases packet <;> simp
    | check p =>
      dsimp only
      split_ifs <;> simp
    | pause p =>
      dsimp only
      split_ifs <;> simp
    | overwrite p => simp
    | copy p k =>
      dsimp only
      split_ifs <;> simp [LissState.store]
    | publish p => simp
  | listen env =>
    simp only [LissEvent.step, listenStep]
    cases s.listen with
    | accept => cases env.accept <;> simp
    | wait iReturn =>
      dsimp only
      split_ifs <;> simp
    | sendAlive iSent sendAttempts =>
      dsimp only
      cases sendRound iSent sendAttempts env.send with
      | mk i result => cases result <;> simp
    | sendRecord iSend iSent sendAttempts sent =>
      dsimp only
      cases sendRound iSent sendAttempts env.send with
      | mk i result =>
        cases result with
        | none => simp
        | some iReturn =>
          dsimp only
          split_ifs <;> simp
    | release => simp
    | stopped => simp

lemma run_grows (events : List LissEvent) (s : LissState) :
    s.delivered <+: (lissRun events s).delivered ∧ s.produced <+: (lissRun events s).produced := by
  induction events generalizing s with
  | nil => exact ⟨List.prefix_rfl, List.prefix_rfl⟩
  | cons e events ih =>
    have hstep := step_grows e s
    have hrest := ih (e.step s)
    exact ⟨hstep.1.trans hrest.1, hstep.2.trans hrest.2⟩

end Run

end StationProcessor
