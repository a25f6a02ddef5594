import StationProcessor.Pcomm.Closed
import StationProcessor.Pcomm.Writes

/-!
# Managed reads

A descriptor that pcomm reads from: what a turn passes to its callback and does with its context,
as `_read_fd` and `_process_selected_fds` have it. Its callback may remove it.
-/

namespace StationProcessor

/-! ### Turns -/

/-- What happens at a turn: bytes are passed to `io_callback`, the context is freed, it is used
after that, and `close_callback` is called. -/
inductive ReadEvent
  | passed (data : List UInt8)
  | released
  | used
  | closed
deriving DecidableEq

/-- The environment of a turn, and whether the `io_callback` removes the descriptor. -/
structure ReadTurn where
  outcome : ReadOutcome
  removes : Bool

/-- What a turn does to a managed read, and the context it leaves. -/
def readTurn (t : ReadTurn) (c : PcommFd) : List ReadEvent × Option PcommFd :=
  match readFd t.outcome c with
  | (.success, c') =>
    let c' := { c' with lastReadEmpty := false }
    if c'.ioCallback then
      -- `_pcomm_clean_read_buffer` writes to the context also when it was removed
      if t.removes then ([.passed c'.buffered, .released, .used], none)
      else ([.passed c'.buffered], some (cleanReadBuffer c'))
    else ([], some c')
  | (.noDataFromRead, _) =>
    if c.lastReadEmpty then
      -- `close_callback` is read from the context that was removed
      (.released :: .used :: if c.closeCallback then [.closed] else [], none)
    else ([], some { c with lastReadEmpty := true })
  | (_, _) => ([], some c)

/-- A context as `pcomm_add_read_fd` makes it. -/
def newReadFd (address : ℕ) (fd : ℤ) (close : Bool) : PcommFd where
  address := address
  fileDescriptor := fd
  readyCallback := false
  ioCallback := true
  closeCallback := close
  buffer := none
  length := 0
  used := 0
  lastReadEmpty := false
  checkOnly := false

/-! ### Turns in a pass -/

section Pass

variable {ctx : PcommContext} {c : PcommFd}

lemma find?_updateFd {fds : List PcommFd} {c c' : PcommFd} (h : c ∈ fds)
    (haddress : c'.address = c.address) :
    (updateFd fds c').find? (·.address = c.address) = some c' := by
  obtain ⟨e, he⟩ : ∃ e, (updateFd fds c').find? (·.address = c.address) = some e := by
    refine Option.isSome_iff_exists.mp (List.find?_isSome.mpr ⟨c', ?_, by simpa using haddress⟩)
    exact List.mem_map.mpr ⟨c, h, if_pos haddress.symm⟩
  rw [he]
  have hmem := List.mem_of_find?_eq_some he
  have hsame : e.address = c'.address := by simpa [haddress] using List.find?_some he
  obtain ⟨e', -, rfl⟩ := List.mem_map.mp hmem
  split_ifs at hsame ⊢ with heq
  · rfl
  · exact absurd hsame heq

lemma updateFd_updateFd (fds : List PcommFd) {c c' : PcommFd} (haddress : c'.address = c.address) :
    updateFd (updateFd fds c) c' = updateFd fds c' := by
  rw [updateFd, updateFd, List.map_map]
  refine List.map_congr_left fun e _ => ?_
  by_cases heq : e.address = c.address
  · simp [heq, haddress]
  · simp [heq, haddress]

lemma readFd_callbacks (o : ReadOutcome) (c : PcommFd) :
    (readFd o c).2.ioCallback = c.ioCallback ∧ (readFd o c).2.closeCallback = c.closeCallback := by
  unfold readFd
  split_ifs
  · cases o.result with
    | data first rest => dsimp only; split_ifs <;> exact ⟨rfl, rfl⟩
    | _ => exact ⟨rfl, rfl⟩
  · exact ⟨rfl, rfl⟩

lemma updateFd_same {fds : List PcommFd} {c : PcommFd}
    (h : ∀ e ∈ fds, e.address = c.address → e = c) : updateFd fds c = fds := by
  refine (List.map_congr_left fun e he => ?_).trans (List.map_id fds)
  split_ifs with heq
  · exact (h e he heq).symm
  · rfl

/-- The reads of the context after a turn are those that `readTurn` leaves, when the callbacks leave
the reads and the freed blocks as they are. -/
lemma processInputFd_readTurn {ready io close : PcommContext → PcommContext} {fd : ℤ}
    (hfd : 0 ≤ fd) (hseek : seekFd ctx.readFds fd = some c) (hcheck : c.checkOnly = false)
    (hunique : ∀ e ∈ ctx.readFds, e.address = c.address → e = c) (t : ReadTurn)
    (hremoves : t.removes = false)
    (hio : ∀ ctx, (io ctx).readFds = ctx.readFds ∧ (io ctx).freed = ctx.freed)
    (hclose : ∀ ctx, (close ctx).readFds = ctx.readFds) :
    (processInputFd .read ready io close t.outcome fd ctx).readFds
      = match (readTurn t c).2 with
        | some c' => updateFd ctx.readFds c'
        | none => ctx.readFds.eraseP (·.fileDescriptor = fd) := by
  have hc : c ∈ ctx.readFds := List.mem_of_find?_eq_some hseek
  have hread := readFd_address t.outcome c
  have hcallbacks := (readFd_callbacks t.outcome c).1
  unfold processInputFd
  rw [show seekFd (ctx.fds .read) fd = some c from hseek, readTurn]
  dsimp only
  rw [if_neg (show ¬ c.checkOnly = true by simp [hcheck])]
  generalize readFd t.outcome c = read at hread hcallbacks ⊢
  obtain ⟨result, c'⟩ := read
  dsimp only at hread hcallbacks ⊢
  cases result with
  | success =>
    dsimp only
    by_cases hset : c.ioCallback = true
    · have hset' : c'.ioCallback = true := hcallbacks.trans hset
      rw [if_pos hset, if_pos hset', if_neg (by simp [hremoves])]
      -- the buffer is released in the context that the callback leaves
      obtain ⟨hfds, hfreed⟩ := hio
        ((ctx.setFds .read (updateFd ctx.readFds { c' with lastReadEmpty := false })).log
          (.dispatched .read fd))
      have hfound : (updateFd ctx.readFds { c' with lastReadEmpty := false }).find?
          (·.address = c.address) = some { c' with lastReadEmpty := false } :=
        find?_updateFd hc hread
      have hderef : (io ((ctx.setFds .read (updateFd ctx.readFds
          { c' with lastReadEmpty := false })).log (.dispatched .read fd))).deref .read c.address
            = some { c' with lastReadEmpty := false } := by
        rw [PcommContext.deref, List.find?_append]
        simp only [PcommContext.fds, hfds]
        exact congrArg (Option.or · _) hfound
      unfold PcommContext.modify
      simp only [PcommContext.fds] at hderef ⊢
      rw [hderef]
      exact (congrArg (updateFd · _) hfds).trans (updateFd_updateFd _ rfl)
    · rw [if_neg hset, if_neg fun h => hset (hcallbacks.symm.trans h)]
      rfl
  | noDataFromRead =>
    have hderef : ctx.deref .read c.address = some c := by
      have hfound : (updateFd ctx.readFds c).find? (·.address = c.address) = some c :=
        find?_updateFd hc rfl
      rw [updateFd_same hunique] at hfound
      rw [PcommContext.deref, List.find?_append]
      exact congrArg (Option.or · _) hfound
    cases hflag : c.lastReadEmpty with
    | false =>
      unfold PcommContext.modify
      simp only [hderef, Bool.false_eq_true, if_false]
      rfl
    | true =>
      have hremove : (removeFd ctx .read fd).2.readFds
          = ctx.readFds.eraseP (·.fileDescriptor = fd) := by
        rw [removeFd, if_neg (not_lt.mpr hfd), show seekFd (ctx.fds .read) fd = some c from hseek]
        rfl
      simp only [if_true]
      split_ifs
      · exact (hclose _).trans hremove
      · exact hremove
  | _ => exact (updateFd_same hunique).symm

end Pass

/-! ### What reads promise -/

namespace ReadTurn

variable (t : ReadTurn)

/-- The bytes that `read()` returned. -/
def bytes : List UInt8 :=
  match t.outcome.page, t.outcome.result with
  | true, .data first rest => first :: rest
  | _, _ => []

/-- `read()` returned 0 or -1. -/
def Empty : Prop :=
  t.outcome.page = true ∧ t.bytes = []

instance : Decidable t.Empty := inferInstanceAs (Decidable (_ ∧ _))

/-- Whether the last result was empty, after a turn. -/
def emptyAfter (emptyBefore : Bool) : Bool :=
  if t.outcome.page then decide t.Empty else emptyBefore

end ReadTurn

/-- The bytes passed in some events. -/
def passedBytes (events : List ReadEvent) : List UInt8 :=
  events.flatMap fun
    | .passed data => data
    | _ => []

/-- What is promised of a turn: the bytes that were read are passed, none are kept; at the second of
two empty results, and only then, the descriptor is removed and closed once; and a context that was
freed is not used. A callback may have removed the descriptor too. -/
structure TurnRight (emptyBefore : Bool) (c : PcommFd) (t : ReadTurn)
    (turn : List ReadEvent × Option PcommFd) : Prop where
  passed : passedBytes turn.1 = t.bytes
  kept : ∀ c' ∈ turn.2, c'.buffered = []
  removed : turn.2 = none ↔
    (t.Empty ∧ emptyBefore = true) ∨ (t.bytes ≠ [] ∧ t.removes = true)
  closed : turn.1.count .closed
    = if t.Empty ∧ emptyBefore = true ∧ c.closeCallback = true then 1 else 0
  unused : .used ∉ turn.1

/-- All turns of a descriptor up to its removal. -/
def TurnsRight : Bool → PcommFd → List ReadTurn → Prop
  | _, _, [] => True
  | emptyBefore, c, t :: ts => TurnRight emptyBefore c t (readTurn t c) ∧
      ∀ c' ∈ (readTurn t c).2, TurnsRight (t.emptyAfter emptyBefore) c' ts

/-- The events of a run, and the bytes that were read in it. -/
def readRun : PcommFd → List ReadTurn → List ReadEvent × List UInt8
  | _, [] => ([], [])
  | c, t :: ts =>
    let (events, left) := readTurn t c
    let (rest, bytes) := (left.map (readRun · ts)).getD ([], [])
    (events ++ rest, t.bytes ++ bytes)

/-- The bytes of a run are passed in their order, each once, and all its turns are right. -/
structure ReadsRight (c : PcommFd) (ts : List ReadTurn) : Prop where
  stream : passedBytes (readRun c ts).1 = (readRun c ts).2
  turns : TurnsRight false c ts

/-- No two results in a row are empty, there is memory for the bytes of each, and the callback they
are passed to does not remove the descriptor. -/
def ReadsFit : Bool → List ReadTurn → Prop
  | _, [] => True
  | emptyBefore, t :: ts =>
    (t.Empty → emptyBefore = false) ∧
    (t.bytes ≠ [] → allocates t.outcome.memory t.bytes.length = true ∧ t.removes = false) ∧
    ReadsFit (t.emptyAfter emptyBefore) ts

/-! ### One turn -/

section Turn

variable {c : PcommFd} {t : ReadTurn} {emptyBefore : Bool}

/-- A managed read between its turns; a result that was empty may not be noted. -/
structure ReadyFd (emptyBefore : Bool) (c : PcommFd) : Prop where
  ioCallback : c.ioCallback = true
  buffer : c.buffer = none
  used : c.used = 0
  noted : c.lastReadEmpty = true → emptyBefore = true

lemma readyFd_new (address : ℕ) (fd : ℤ) (close : Bool) :
    ReadyFd false (newReadFd address fd close) :=
  ⟨rfl, rfl, rfl, id⟩

lemma buffered_of_none (h : c.buffer = none) : c.buffered = [] := by
  rw [PcommFd.buffered, h]

/-- What a turn does, by the result of `read()`. -/
inductive TurnCases (c : PcommFd) (t : ReadTurn) : List ReadEvent × Option PcommFd → Prop
  | unread (hpage : t.outcome.page = false) : TurnCases c t ([], some c)
  | error (hempty : t.Empty) : TurnCases c t ([], some c)
  | first (hempty : t.Empty) (hflag : c.lastReadEmpty = false) :
      TurnCases c t ([], some { c with lastReadEmpty := true })
  | second (hempty : t.Empty) (hflag : c.lastReadEmpty = true) :
      TurnCases c t (.released :: .used :: if c.closeCallback then [.closed] else [], none)
  | lost (hbytes : t.bytes ≠ []) (hmemory : allocates t.outcome.memory t.bytes.length = false) :
      TurnCases c t ([], some c)
  | removed (hbytes : t.bytes ≠ []) (hmemory : allocates t.outcome.memory t.bytes.length = true)
      (hremoves : t.removes = true) : TurnCases c t ([.passed t.bytes, .released, .used], none)
  | passed (hbytes : t.bytes ≠ []) (hmemory : allocates t.outcome.memory t.bytes.length = true)
      (hremoves : t.removes = false) :
      TurnCases c t ([.passed t.bytes], some { c with length := 0, lastReadEmpty := false })

lemma ReadyFd.turnCases (h : ReadyFd emptyBefore c) (t : ReadTurn) :
    TurnCases c t (readTurn t c) := by
  obtain ⟨⟨result, page, memory⟩, removes⟩ := t
  cases page with
  | false =>
    have hturn : readTurn ⟨⟨result, false, memory⟩, removes⟩ c = ([], some c) := rfl
    rw [hturn]
    exact .unread rfl
  | true =>
    cases result with
    | error => exact .error ⟨rfl, rfl⟩
    | eof =>
      have hempty : ReadTurn.Empty ⟨⟨.eof, true, memory⟩, removes⟩ := ⟨rfl, rfl⟩
      simp only [readTurn, readFd, not_true_eq_false, if_false]
      cases hflag : c.lastReadEmpty with
      | false => exact .first hempty hflag
      | true => exact .second hempty hflag
    | data first rest =>
      have hbytes :
          ReadTurn.bytes ⟨⟨.data first rest, true, memory⟩, removes⟩ = first :: rest := rfl
      have hne : ReadTurn.bytes ⟨⟨.data first rest, true, memory⟩, removes⟩ ≠ [] := by
        rw [hbytes]
        exact List.cons_ne_nil _ _
      obtain ⟨address, fd, ready, io, close, buffer, length, used, last, check⟩ := c
      obtain ⟨hio, hbuffer, hused, -⟩ := h
      dsimp only at hio hbuffer hused
      subst hio hbuffer hused
      simp only [readTurn, readFd, not_true_eq_false, if_false, Nat.zero_add, Option.getD_none,
        List.take_nil, List.nil_append]
      cases hmemory : allocates memory (rest.length + 1) with
      | false => exact .lost hne hmemory
      | true =>
        have hbuffered : List.take (rest.length + 1) (first :: rest) = first :: rest :=
          List.take_of_length_le (List.length_cons ▸ le_rfl)
        simp only [if_true, PcommFd.buffered, hbuffered, cleanReadBuffer]
        cases removes with
        | true => exact .removed hne hmemory rfl
        | false => exact .passed hne hmemory rfl

lemma ReadTurn.emptyAfter_of_empty (h : t.Empty) : t.emptyAfter emptyBefore = true := by
  rw [emptyAfter, if_pos h.1, decide_eq_true h]

lemma ReadTurn.of_unread (h : t.outcome.page = false) :
    t.bytes = [] ∧ ¬ t.Empty ∧ ∀ emptyBefore, t.emptyAfter emptyBefore = emptyBefore := by
  refine ⟨by simp [bytes, h], fun hempty => ?_, fun emptyBefore => by simp [emptyAfter, h]⟩
  rw [hempty.1] at h
  cases h

/-- A turn at which nothing is passed and nothing happens to the descriptor. -/
lemma TurnRight.quiet {c' : PcommFd} (hbytes : t.bytes = []) (hkept : c'.buffered = [])
    (hsecond : ¬(t.Empty ∧ emptyBefore = true)) : TurnRight emptyBefore c t ([], some c') where
  passed := hbytes.symm
  kept e he := by
    obtain rfl : c' = e := Option.some.inj he
    exact hkept
  removed := by simp [hbytes, hsecond]
  closed := by
    rw [if_neg fun h => hsecond ⟨h.1, h.2.1⟩]
    rfl
  unused := List.not_mem_nil

/-- A turn that fits is right, and leaves a managed read. -/
lemma ReadyFd.turnRight (h : ReadyFd emptyBefore c) (hempty : t.Empty → emptyBefore = false)
    (hbytes : t.bytes ≠ [] → allocates t.outcome.memory t.bytes.length = true ∧ t.removes = false) :
    TurnRight emptyBefore c t (readTurn t c) ∧
      ∃ c', (readTurn t c).2 = some c' ∧ ReadyFd (t.emptyAfter emptyBefore) c' := by
  have hkept : c.buffered = [] := buffered_of_none h.buffer
  have hsecond : ¬(t.Empty ∧ emptyBefore = true) := by
    rintro ⟨he, hbefore⟩
    rw [hempty he] at hbefore
    cases hbefore
  have hcases := h.turnCases t
  generalize readTurn t c = turn at hcases
  cases hcases with
  | unread hpage =>
    obtain ⟨hnone, -, hafter⟩ := ReadTurn.of_unread hpage
    exact ⟨.quiet hnone hkept hsecond, c, rfl, (hafter emptyBefore).symm ▸ h⟩
  | error he =>
    refine ⟨.quiet he.2 hkept hsecond, c, rfl, h.ioCallback, h.buffer, h.used, fun _ => ?_⟩
    exact t.emptyAfter_of_empty he
  | first he hflag =>
    refine ⟨.quiet he.2 hkept hsecond, _, rfl, h.ioCallback, h.buffer, h.used, fun _ => ?_⟩
    exact t.emptyAfter_of_empty he
  | second he hflag => exact absurd ⟨he, h.noted hflag⟩ hsecond
  | lost hne hmemory =>
    rw [(hbytes hne).1] at hmemory
    cases hmemory
  | removed hne hmemory hremoves =>
    rw [(hbytes hne).2] at hremoves
    cases hremoves
  | passed hne hmemory hremoves =>
    have hfull : ¬ t.Empty := fun he => hne he.2
    refine ⟨⟨by simp [passedBytes], fun e he => ?_, ?_, ?_, by simp⟩, _, rfl, h.ioCallback,
      h.buffer, h.used, fun hflag => by cases hflag⟩
    · obtain rfl := Option.some.inj he
      exact buffered_of_none h.buffer
    · simp [hfull, hremoves]
    · rw [if_neg fun h => hfull h.1]
      simp

/-- A right turn fits. -/
lemma TurnRight.fits (h : TurnRight emptyBefore c t (readTurn t c)) (hc : ReadyFd emptyBefore c) :
    (t.Empty → emptyBefore = false) ∧
      (t.bytes ≠ [] → allocates t.outcome.memory t.bytes.length = true ∧ t.removes = false) := by
  have hcases := hc.turnCases t
  generalize readTurn t c = turn at h hcases
  constructor
  · intro he
    by_contra hbefore
    have hnone := h.removed.mpr (Or.inl ⟨he, by simpa using hbefore⟩)
    cases hcases with
    | second _ _ => exact h.unused (by simp)
    | removed hne _ _ => exact hne he.2
    | _ => cases hnone
  · intro hne
    cases hcases with
    | unread hpage => exact absurd (ReadTurn.of_unread hpage).1 hne
    | error he => exact absurd he.2 hne
    | first he _ => exact absurd he.2 hne
    | second he _ => exact absurd he.2 hne
    | lost _ _ => exact absurd h.passed.symm hne
    | removed _ _ _ => exact absurd (by simp) h.unused
    | passed _ hmemory hremoves => exact ⟨hmemory, hremoves⟩

end Turn

/-! ### Runs -/

lemma passedBytes_append (events events' : List ReadEvent) :
    passedBytes (events ++ events') = passedBytes events ++ passedBytes events' :=
  List.flatMap_append

/-- Right turns pass the bytes of the run. -/
lemma TurnsRight.stream {emptyBefore : Bool} {c : PcommFd} {ts : List ReadTurn}
    (h : TurnsRight emptyBefore c ts) : passedBytes (readRun c ts).1 = (readRun c ts).2 := by
  induction ts generalizing emptyBefore c with
  | nil => rfl
  | cons t ts ih =>
    obtain ⟨hturn, hrest⟩ := h
    have hpassed := hturn.passed
    rw [readRun]
    show passedBytes ((readTurn t c).1 ++ _) = t.bytes ++ _
    rw [passedBytes_append, hpassed]
    cases hleft : (readTurn t c).2 with
    | none => rfl
    | some c' =>
      have hrun := ih (hrest c' hleft)
      simp only [Option.map_some, Option.getD_some, hrun]

lemma ReadyFd.turnsRight_iff {emptyBefore : Bool} {c : PcommFd} (hc : ReadyFd emptyBefore c)
    (ts : List ReadTurn) : TurnsRight emptyBefore c ts ↔ ReadsFit emptyBefore ts := by
  induction ts generalizing emptyBefore c with
  | nil => exact iff_of_true trivial trivial
  | cons t ts ih =>
    constructor
    · rintro ⟨hturn, hrest⟩
      obtain ⟨hempty, hbytes⟩ := hturn.fits hc
      obtain ⟨-, c', hleft, hc'⟩ := hc.turnRight hempty hbytes
      exact ⟨hempty, hbytes, (ih hc').mp (hrest c' hleft)⟩
    · rintro ⟨hempty, hbytes, hrest⟩
      obtain ⟨hturn, c', hleft, hc'⟩ := hc.turnRight hempty hbytes
      refine ⟨hturn, fun e he => ?_⟩
      obtain rfl : c' = e := Option.some.inj (hleft.symm.trans he)
      exact (ih hc').mpr hrest

/-- **Managed reads.** The bytes of a managed read are passed as promised, whatever `read()` returns
at its turns, if and only if no two results in a row are empty, the bytes of every result find
memory, and the callback that gets them does not remove the descriptor. -/
theorem readsRight_iff (address : ℕ) (fd : ℤ) (close : Bool) (ts : List ReadTurn) :
    ReadsRight (newReadFd address fd close) ts ↔ ReadsFit false ts := by
  have hiff := (readyFd_new address fd close).turnsRight_iff ts
  exact ⟨fun h => hiff.mp h.turns, fun h => ⟨(hiff.mpr h).stream, hiff.mpr h⟩⟩

/-- A turn with this result. -/
def turnWith (result : ReadResult) : ReadTurn := ⟨⟨result, true, true⟩, false⟩

/-- The second end of file removes the descriptor, and its context is used after that; two errors
do not remove it. -/
theorem readsRight_not :
    ¬ ReadsRight (newReadFd 0 5 true) [turnWith (.data 1 []), turnWith .eof, turnWith .eof] ∧
      ¬ ReadsRight (newReadFd 0 5 true) [turnWith .error, turnWith .error] := by
  constructor
  · rintro ⟨-, -, hrest⟩
    obtain ⟨-, hrest⟩ := hrest _ rfl
    obtain ⟨hturn, -⟩ := hrest _ rfl
    exact hturn.unused (by decide)
  · rintro ⟨-, -, hrest⟩
    obtain ⟨hturn, -⟩ := hrest _ rfl
    exact absurd (hturn.removed.mpr (Or.inl (by decide))) (by decide)

end StationProcessor
