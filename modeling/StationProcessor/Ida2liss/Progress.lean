import StationProcessor.Ida2liss.Delivery
import StationProcessor.Lib.FairRuns

/-!
# Every record is delivered

While a client stays connected, every record that was read reaches it, for any order in which the
two threads take turns.
-/

namespace StationProcessor

/-- The two threads. -/
inductive LissThread
  | raw
  | listen
deriving DecidableEq

def LissEvent.thread : LissEvent → LissThread
  | .raw _ => .raw
  | .listen _ => .listen

/-! ### The rank -/

/-- How far the listener is from having sent a record. -/
def ListenPc.rank : ListenPc → ℕ
  | .sendRecord _ _ sendAttempts _ => 1 + (200 - sendAttempts)
  | .wait _ => 202
  | .sendAlive _ sendAttempts => 203 + (200 - sendAttempts)
  | .release => 404
  | _ => 0

/-- How far `raw()` is from having stored a record. -/
def RawPc.rank : RawPc → ℕ
  | .read => 0
  | .publish _ => 405
  | .copy _ k => 406 + (seedRecLen - k)
  | .overwrite _ => 919
  | .pause _ => 919
  | .check _ => 920

/-- The number of records in the ring that are not sent yet. -/
def LissState.waiting (s : LissState) (count : ℕ) : ℕ := count - s.listen.frees

/-- How far the threads are from having sent a record. -/
def LissState.rest (s : LissState) (count : ℕ) : ℕ :=
  if 0 < s.waiting count then s.listen.rank else s.raw.rank + s.listen.frees

/-- How far the threads are from having sent `target` records. -/
def LissState.rank (target : ℕ) (s : LissState) : ℕ :=
  1000 * (target - s.delivered.length) + s.rest s.used

/-- The thread whose step brings the next record further. -/
def LissState.helpful (s : LissState) : LissThread := if s.used = 0 then .raw else .listen

section Rank

variable {s s' : LissState} {count count' target : ℕ}

lemma ListenPc.rank_le (pc : ListenPc) : pc.rank ≤ 404 := by
  cases pc <;> simp only [ListenPc.rank] <;> omega

lemma ListenPc.frees_le (pc : ListenPc) : pc.frees ≤ 1 := by
  cases pc <;> simp [ListenPc.frees]

lemma RawPc.rank_le (pc : RawPc) : pc.rank ≤ 920 := by
  cases pc <;> simp only [RawPc.rank, seedRecLen] <;> omega

lemma LissState.rest_le (s : LissState) (count : ℕ) : s.rest count ≤ 921 := by
  have hlisten := s.listen.rank_le
  have hfrees := s.listen.frees_le
  have hraw := s.raw.rank_le
  unfold LissState.rest
  split_ifs <;> omega

lemma LissInv.rank_eq (h : LissInv s count) :
    s.rank target = 1000 * (target - s.delivered.length) + s.rest count := by
  rw [LissState.rank, h.used_eq]

/-- Another record sent makes up for everything else. -/
lemma rank_lt_of_sent (hgoal : s.delivered.length < target)
    (hsent : s'.delivered.length = s.delivered.length + 1) : s'.rank target < s.rank target := by
  have hrest := s'.rest_le s'.used
  simp only [LissState.rank, hsent]
  omega

lemma rank_lt_of_rest (h : LissInv s count) (h' : LissInv s' count')
    (hdelivered : s'.delivered = s.delivered) (hrest : s'.rest count' < s.rest count) :
    s'.rank target < s.rank target := by
  rw [h.rank_eq, h'.rank_eq, hdelivered]
  exact Nat.add_lt_add_left hrest _

lemma rank_eq_of_rest (h : LissInv s count) (h' : LissInv s' count')
    (hdelivered : s'.delivered = s.delivered) (hrest : s'.rest count' = s.rest count) :
    s'.rank target = s.rank target := by
  rw [h.rank_eq, h'.rank_eq, hdelivered, hrest]

end Rank

/-! ### Steps of the threads -/

section Steps

variable {s : LissState} {count target : ℕ}

/-- With nothing unsent in the ring, a record that was read is in the hands of `raw()`. -/
lemma LissInv.inHand_ne (h : LissInv s count) (hproduced : s.delivered.length < s.produced.length)
    (hwaiting : s.waiting count = 0) : s.raw.inHand ≠ [] := by
  intro hnone
  have hunsent : s.unsent count = [] := by
    apply List.length_eq_zero_iff.mp
    simp only [LissState.waiting, LissState.unsent] at hwaiting ⊢
    cases hl : s.listen <;>
      simpa [hl, ListenPc.frees, LissState.ring, SpareRing.slots] using hwaiting
  have hrecords := h.records
  rw [hunsent, hnone, List.append_nil, List.append_nil] at hrecords
  rw [hrecords] at hproduced
  exact hproduced.false

lemma rawStep_frame (packet : Option Payload) (s : LissState) :
    (rawStep packet s).delivered = s.delivered ∧ (rawStep packet s).listen = s.listen := by
  unfold rawStep
  cases s.raw with
  | read => cases packet <;> exact ⟨rfl, rfl⟩
  | overwrite p => exact ⟨rfl, rfl⟩
  | publish p => exact ⟨rfl, rfl⟩
  | _ =>
    dsimp only
    split_ifs <;> exact ⟨rfl, rfl⟩

/-- With nothing unsent in the ring a step of `raw()` brings its record closer to the ring, unless
the ring is full. -/
lemma rawStep_rest (h : LissInv s count) (hwaiting : s.waiting count = 0)
    (hhand : s.raw.inHand ≠ []) (packet : Option Payload) {count' : ℕ}
    (hcount : count' = count + s.raw.adds) :
    (rawStep packet s).rest count' < s.rest count ∨ rawStep packet s = s ∧ 0 < count := by
  have hrest : s.rest count = s.raw.rank + s.listen.frees := by
    rw [LissState.rest, hwaiting]
    rfl
  have hzero : count - s.listen.frees = 0 := hwaiting
  have hfilled : s.Full → 0 < count := by
    intro hfull
    have htwo := h.two
    have := h.full_iff.mp hfull
    omega
  have hsame : ∀ pc : RawPc, pc.rank < s.raw.rank →
      ({ s with raw := pc } : LissState).rest count < s.rest count := by
    intro pc hlt
    have hzero' : ({ s with raw := pc } : LissState).waiting count = 0 := hwaiting
    rw [hrest, LissState.rest, hzero']
    exact Nat.add_lt_add_right hlt _
  unfold rawStep
  cases hpc : s.raw with
  | read =>
    rw [hpc] at hhand
    exact absurd rfl hhand
  | check p =>
    simp only [hpc, RawPc.adds, Nat.add_zero] at hcount hsame
    subst hcount
    dsimp only
    split_ifs
    · exact Or.inl (hsame _ (by simp [RawPc.rank]))
    · exact Or.inl (hsame _ (by simp [RawPc.rank]))
    · exact Or.inl (hsame _ (by simp [RawPc.rank, seedRecLen]))
  | pause p =>
    simp only [hpc, RawPc.adds, Nat.add_zero] at hcount hsame
    subst hcount
    dsimp only
    split_ifs with hfull
    · exact Or.inr ⟨rfl, hfilled hfull⟩
    · exact Or.inl (hsame _ (by simp [RawPc.rank, seedRecLen]))
  | overwrite p =>
    have hraw := h.raw
    simp only [RawOk, hpc] at hraw
  | copy p k =>
    simp only [hpc, RawPc.adds, Nat.add_zero] at hcount hsame
    subst hcount
    dsimp only
    split_ifs with hk
    · exact Or.inl (hsame (.copy p (k + 1)) (by simp only [RawPc.rank]; omega))
    · exact Or.inl (hsame _ (by simp only [RawPc.rank]; omega))
  | publish p =>
    simp only [hpc, RawPc.adds] at hcount
    subst hcount
    refine Or.inl ?_
    have hfrees := s.listen.frees_le
    have hpos : 0 < count + 1 - s.listen.frees := by
      have hok := h.listen
      simp only [ListenOk] at hok
      cases hl : s.listen with
      | release =>
        simp only [hl] at hok
        exact Nat.sub_pos_of_lt (Nat.succ_lt_succ hok.2)
      | _ => exact Nat.succ_pos _
    rw [hrest, hpc, LissState.rest, LissState.waiting, if_pos hpos]
    calc s.listen.rank ≤ 404 := s.listen.rank_le
      _ < 405 := by norm_num
      _ ≤ 405 + s.listen.frees := Nat.le_add_right _ _

/-- A step of `raw()` lowers the rank, unless a record waits for the listener. -/
lemma raw_progress (h : LissInv s count) (hproduced : s.delivered.length < s.produced.length)
    (packet : Option Payload) :
    (rawStep packet s).rank target < s.rank target ∨
      (rawStep packet s).rank target = s.rank target ∧ 0 < s.used ∧
        0 < (rawStep packet s).used := by
  obtain ⟨count', h', hcount⟩ := h.rawStep packet
  obtain ⟨hdelivered, hlisten⟩ := rawStep_frame packet s
  rw [h.used_eq, h'.used_eq]
  rcases Nat.eq_zero_or_pos (s.waiting count) with hnone | hsome
  · rcases rawStep_rest h hnone (h.inHand_ne hproduced hnone) packet hcount with hlt | ⟨hsame, hpos⟩
    · exact Or.inl (rank_lt_of_rest h h' hdelivered hlt)
    · refine Or.inr ⟨by rw [hsame], hpos, ?_⟩
      rw [hcount]
      exact hpos.trans_le (Nat.le_add_right _ _)
  · have hpos : 0 < count := hsome.trans_le (Nat.sub_le _ _)
    have hsome' : 0 < (rawStep packet s).waiting count' := by
      rw [LissState.waiting, hlisten, hcount]
      exact hsome.trans_le (Nat.sub_le_sub_right (Nat.le_add_right _ _) _)
    refine Or.inr ⟨rank_eq_of_rest h h' hdelivered ?_, hpos, ?_⟩
    · simp only [LissState.rest, hsome, hsome', if_true, hlisten]
    · rw [hcount]
      exact hpos.trans_le (Nat.le_add_right _ _)

lemma sendRound_attempts {iSent sendAttempts i : ℕ} {r : LissSend}
    (h : sendRound iSent sendAttempts r = (i, none)) : sendAttempts + 1 < 200 := by
  cases r with
  | failed => simp [sendRound] at h
  | again =>
    simp only [sendRound] at h
    split_ifs at h with hattempts
    · simp at h
    · exact (not_le.mp hattempts).trans (by norm_num)
  | wrote k =>
    simp only [sendRound] at h
    split_ifs at h with hgo
    · exact hgo.1
    · simp at h
    · simp at h

/-- A step of the listener that changes only where it is. -/
lemma rest_of_listen {s' : LissState} (hraw : s'.raw = s.raw) (hfrees : s.listen.frees = 0)
    (hfrees' : s'.listen.frees = 0) :
    (0 < count → s'.listen.rank < s.listen.rank → s'.rest count < s.rest count) ∧
      (count = 0 → s'.rest count = s.rest count) := by
  simp only [LissState.rest, LissState.waiting, hfrees, hfrees', hraw, Nat.sub_zero]
  constructor
  · intro hpos hlt
    rwa [if_pos hpos, if_pos hpos]
  · rintro rfl
    rfl

/-- A step of a connected listener lowers the rank, unless the ring is empty. -/
lemma listen_progress (h : LissInv s count) (env : ListenEnv)
    (hconnected : s.clientConnected = true)
    (hconnected' : (listenStep env s).clientConnected = true)
    (hgoal : s.delivered.length < target) :
    (listenStep env s).rank target < s.rank target ∨
      (listenStep env s).rank target = s.rank target ∧ s.used = 0 ∧
        (listenStep env s).used = 0 := by
  obtain ⟨count', h', hcount⟩ := h.listenStep env
  have hok := h.listen
  simp only [ListenOk] at hok
  rw [h.used_eq, h'.used_eq]
  have hmove : ∀ pc, listenStep env s = { s with listen := pc } → s.listen.frees = 0 →
      pc.frees = 0 → (0 < count → pc.rank < s.listen.rank) →
      (listenStep env s).rank target < s.rank target ∨
        (listenStep env s).rank target = s.rank target ∧ count = 0 ∧ count' = 0 := by
    intro pc hstep hfrees hfrees' hrank
    have hsame : count' = count := by rw [hcount, hfrees, Nat.add_zero]
    subst hsame
    have hlisten : (listenStep env s).listen = pc := by rw [hstep]
    have hdelivered : (listenStep env s).delivered = s.delivered := by rw [hstep]
    have hraw : (listenStep env s).raw = s.raw := by rw [hstep]
    obtain ⟨hlower, hequal⟩ := @rest_of_listen s count' (listenStep env s) hraw hfrees
      (hlisten ▸ hfrees')
    rcases Nat.eq_zero_or_pos count' with hzero | hpos
    · exact Or.inr ⟨rank_eq_of_rest h h' hdelivered (hequal hzero), hzero, hzero⟩
    · exact Or.inl (rank_lt_of_rest h h' hdelivered (hlower hpos (hlisten ▸ hrank hpos)))
  cases hpc : s.listen with
  | accept =>
    simp only [hpc, hconnected] at hok
    cases hok
  | stopped =>
    simp only [hpc, hconnected] at hok
    cases hok
  | wait iReturn =>
    simp only [hpc, hconnected, true_iff] at hok
    have hfrees : s.listen.frees = 0 := by rw [hpc]; rfl
    by_cases hzero : count = 0
    · have hwait : s.iNext = s.iOldest ∧ iReturn > 0 := ⟨h.empty_iff.mpr hzero, hok⟩
      have hnever : ∀ pc : ListenPc, 0 < count → pc.rank < s.listen.rank :=
        fun _ hpos => absurd hzero hpos.ne'
      by_cases hdue : env.due = true
      · exact hmove (.sendAlive 0 0) (by simp [listenStep, hpc, hwait, hdue, hconnected]) hfrees rfl
          (hnever _)
      · have hsame : listenStep env s = s := by simp [listenStep, hpc, hwait, hdue]
        exact hmove s.listen hsame hfrees hfrees (hnever _)
    · have hfilled : ¬ (s.iNext = s.iOldest ∧ iReturn > 0) := fun hwait =>
        hzero (h.empty_iff.mp hwait.1)
      refine hmove (.sendRecord s.iOldest 0 0 []) ?_ hfrees rfl fun _ => ?_
      · simp only [listenStep, hpc, if_neg hfilled, if_pos hconnected]
      · rw [hpc]
        simp [ListenPc.rank]
  | sendAlive iSent sendAttempts =>
    simp only [hpc] at hok
    have hfrees : s.listen.frees = 0 := by rw [hpc]; rfl
    cases hround : sendRound iSent sendAttempts env.send with
    | mk i result =>
      cases result with
      | none =>
        have hattempts := sendRound_attempts hround
        refine hmove (.sendAlive (iSent + i) (sendAttempts + 1)) ?_ hfrees rfl fun _ => ?_
        · simp only [listenStep, hpc, hround]
        · rw [hpc]
          simp only [ListenPc.rank]
          omega
      | some iReturn =>
        rcases sendRound_some hround hok.2 with rfl | ⟨rfl, -⟩
        · simp [listenStep, hpc, hround] at hconnected'
        · refine hmove (.wait 1) ?_ hfrees rfl fun _ => ?_
          · simp only [listenStep, hpc, hround, hok.1]
            rfl
          · rw [hpc]
            exact Nat.lt_add_right _ (by decide)
  | sendRecord iSend iSent sendAttempts sent =>
    simp only [hpc] at hok
    have hfrees : s.listen.frees = 0 := by rw [hpc]; rfl
    cases hround : sendRound iSent sendAttempts env.send with
    | mk i result =>
      cases result with
      | none =>
        have hattempts := sendRound_attempts hround
        refine hmove (.sendRecord iSend (iSent + i) (sendAttempts + 1)
          (sent ++ (((s.seedrec iSend).bytes.drop iSent).take i))) ?_ hfrees rfl fun _ => ?_
        · simp only [listenStep, hpc, hround]
        · rw [hpc]
          simp only [ListenPc.rank]
          omega
      | some iReturn =>
        rcases sendRound_some hround hok.2.2.2.1 with rfl | ⟨rfl, -⟩
        · simp [listenStep, hpc, hround] at hconnected'
        · refine Or.inl (rank_lt_of_sent hgoal ?_)
          simp [listenStep, hpc, hround]
  | release =>
    simp only [hpc] at hok
    have hfrees : s.listen.frees = 1 := by rw [hpc]; rfl
    have hcount' : count - 1 = count' := by rw [hcount, hfrees, Nat.add_sub_cancel]
    have hlisten : (listenStep env s).listen = .wait 1 := by simp only [listenStep, hpc]
    have hraw : (listenStep env s).raw = s.raw := by simp only [listenStep, hpc]
    refine Or.inl (rank_lt_of_rest h h' (by simp only [listenStep, hpc]) ?_)
    have hwaiting : s.waiting count = count' := by rw [LissState.waiting, hfrees, hcount']
    have hwaiting' : (listenStep env s).waiting count' = count' := by
      rw [LissState.waiting, hlisten]
      rfl
    rw [LissState.rest, LissState.rest, hwaiting, hwaiting', hlisten, hraw, hpc]
    split_ifs
    · simp [ListenPc.rank]
    · exact Nat.lt_succ_self _

end Steps

/-! ### Delivery -/

/-- What the ring does for a client from a state on. The state is safe; what the client gets from
then on are the records pending now and those read later, in order; and if it stays connected while
both threads take their turns, every record read so far reaches it. -/
structure LissDelivers (s : LissState) : Prop where
  safe : LissSafe s
  inOrder : ∀ events, ∃ sent read, (lissRun events s).delivered = s.delivered ++ sent ∧
    (lissRun events s).produced = s.produced ++ read ∧
    sent ++ (lissRun events s).pending = s.pending ++ read
  all : ∀ events : ℕ → LissEvent, FairRuns.Fair LissEvent.thread events →
    (∀ n, (FairRuns.after LissEvent.step events s n).clientConnected = true) →
    ∃ n, s.produced <+: (FairRuns.after LissEvent.step events s n).delivered

section Delivery

variable {s : LissState} {count target : ℕ}

/-- The states of a client that stays connected and waits for `target` records. -/
def Attached (target : ℕ) (s : LissState) : Prop :=
  (∃ count, LissInv s count) ∧ s.clientConnected = true ∧ target ≤ s.produced.length

lemma step_progress (target : ℕ) (e : LissEvent) (h : Attached target s)
    (h' : Attached target (e.step s)) (hgoal : ¬ target ≤ s.delivered.length) :
    (e.step s).rank target < s.rank target ∨
      (e.step s).rank target = s.rank target ∧ (e.step s).helpful = s.helpful ∧
        e.thread ≠ s.helpful := by
  obtain ⟨⟨count, hinv⟩, hconnected, hproduced⟩ := h
  cases e with
  | raw packet =>
    rcases raw_progress hinv ((not_le.mp hgoal).trans_le hproduced) packet with
      hlt | ⟨heq, hpos, hpos'⟩
    · exact Or.inl hlt
    · refine Or.inr ⟨heq, ?_, ?_⟩
      · simp only [LissState.helpful, LissEvent.step, hpos.ne', hpos'.ne', if_false]
      · simp [LissState.helpful, LissEvent.thread, hpos.ne']
  | listen env =>
    rcases listen_progress hinv env hconnected h'.2.1 (not_le.mp hgoal) with
      hlt | ⟨heq, hzero, hzero'⟩
    · exact Or.inl hlt
    · refine Or.inr ⟨heq, ?_, ?_⟩
      · simp only [LissState.helpful, LissEvent.step, hzero, hzero', if_true]
      · simp [LissState.helpful, LissEvent.thread, hzero]

lemma liss_progress (target : ℕ) : FairRuns.Progress LissEvent.step LissEvent.thread
    (Attached target) (fun s => target ≤ s.delivered.length) (LissState.rank target)
    LissState.helpful where
  le s e h h' hgoal := by
    rcases step_progress target e h h' hgoal with hlt | ⟨heq, -⟩
    · exact hlt.le
    · exact heq.le
  lt s e h h' hgoal hthread := by
    rcases step_progress target e h h' hgoal with hlt | ⟨-, -, hother⟩
    · exact hlt
    · exact absurd hthread hother
  stays s e h h' hgoal hrank := by
    rcases step_progress target e h h' hgoal with hlt | ⟨-, hsame, -⟩
    · exact absurd hrank hlt.ne
    · exact hsame

lemma after_eq_run (events : ℕ → LissEvent) (s : LissState) (n : ℕ) :
    FairRuns.after LissEvent.step events s n = lissRun ((List.range n).map events) s := by
  induction n with
  | zero => rfl
  | succ n ih =>
    rw [List.range_succ, List.map_append, lissRun_append, ← ih]
    rfl

lemma LissInv.inOrder (h : LissInv s count) (events : List LissEvent) : ∃ sent read,
    (lissRun events s).delivered = s.delivered ++ sent ∧
      (lissRun events s).produced = s.produced ++ read ∧
      sent ++ (lissRun events s).pending = s.pending ++ read := by
  obtain ⟨count', h'⟩ := h.run events
  obtain ⟨⟨sent, hsent⟩, read, hread⟩ := run_grows events s
  refine ⟨sent, read, hsent.symm, hread.symm, ?_⟩
  have hconserved := h'.conserved
  rw [← hsent, ← hread, ← h.conserved, List.append_assoc, List.append_assoc] at hconserved
  exact List.append_cancel_left hconserved

lemma LissInv.all (h : LissInv s count) (events : ℕ → LissEvent)
    (hfair : FairRuns.Fair LissEvent.thread events)
    (hconnected : ∀ n, (FairRuns.after LissEvent.step events s n).clientConnected = true) :
    ∃ n, s.produced <+: (FairRuns.after LissEvent.step events s n).delivered := by
  have hgrows : ∀ n, s.produced <+: (FairRuns.after LissEvent.step events s n).produced := by
    intro n
    rw [after_eq_run]
    exact (run_grows _ s).2
  have hinv : ∀ n, ∃ count', LissInv (FairRuns.after LissEvent.step events s n) count' := by
    intro n
    rw [after_eq_run]
    exact h.run _
  obtain ⟨n, hn⟩ := (liss_progress s.produced.length).reaches hfair fun n =>
    ⟨hinv n, hconnected n, (hgrows n).length_le⟩
  obtain ⟨count', h'⟩ := hinv n
  exact ⟨n, List.prefix_of_prefix_length_le (hgrows n) ⟨_, h'.conserved⟩ hn⟩

end Delivery

/-- With an unlimited queue depth, in every state the two threads can reach, in any order of their
steps and with any packets, clients and results of `send()`. -/
theorem liss_delivery {depth : ℤ} (hdepth : depth < 0) (before : List LissEvent) :
    LissDelivers (lissRun before (initLiss depth)) := by
  obtain ⟨count, h⟩ := (initLiss_inv hdepth).run before
  exact ⟨h.safe, h.inOrder, h.all⟩

/-- A client that has attached to the ring of `depth=-1`. -/
theorem liss_delivery_attached :
    LissDelivers (lissRun [.listen ⟨.client, false, .again⟩] (initLiss (-1))) :=
  liss_delivery (by decide) _

end StationProcessor
