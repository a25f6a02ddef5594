import StationProcessor.Archd.Seedmsg
import StationProcessor.Diskloop.ChannelKey

/-!
# Requests

`read_socket` and `parse_request`, which `netreq/netreq.c` and `netseed/netseed.c` have alike. A
request is read into 80 bytes, one byte at a time, and its words are copied into 80 other ones. A
request of 80 characters is not refused, and its null is written behind the buffer.
-/

namespace StationProcessor

/-! ### `read_socket` -/

/-- What a call of `recv` for one byte returns: the byte, or no byte, with the error `EAGAIN` or
without. -/
inductive Recv
  | byte (b : UInt8)
  | failed (again : Bool)
deriving DecidableEq

/-- The variables of `read_socket`, with the places of `incmdbuf` it has used. -/
structure Reading where
  incmdbuf : Record 80
  cbufsiz : ℕ
  readAttempts : ℕ
  used : List ℕ

/-- How `read_socket` ends: with a request, or with the connection closed. -/
inductive ReadEnd
  | request
  | closed
deriving DecidableEq

/-- One turn of the loop. A `char` has a sign. -/
def readStep (s : Reading) : Recv → Except ReadEnd Reading
  | .byte b =>
    if 1 + s.cbufsiz > 80 then .error .closed
    else if toByte b.toNat < 32 then .error .request
    else
      .ok { s with
        incmdbuf := overwrite (overwrite s.incmdbuf s.cbufsiz [b]) (s.cbufsiz + 1) [0]
        cbufsiz := s.cbufsiz + 1
        used := s.used ++ [s.cbufsiz, s.cbufsiz + 1] }
  | .failed again =>
    if again then
      if s.cbufsiz > 0 then .error .request
      else if s.readAttempts + 1 = 100 then .error .closed
      else .ok { s with readAttempts := s.readAttempts + 1 }
    else .error .closed

/-- The loop, as far as there are results of `recv`. -/
def readLoop (s : Reading) : List Recv → Reading × Option ReadEnd
  | [] => (s, none)
  | r :: rs =>
    match readStep s r with
    | .error e => (s, some e)
    | .ok s => readLoop s rs

/-- `read_socket`, over what an earlier request left in the buffer. -/
def readSocket (old : Record 80) (rs : List Recv) : Reading × Option ReadEnd :=
  readLoop ⟨overwrite old 0 [0], 0, 0, [0]⟩ rs

/-! ### `parse_request` -/

/-- What `parse_request` leaves in `prsbuf` and `cmdcnt`, and the places of both buffers it has
used. -/
structure ParsedWord where
  prsbuf : Bytes
  cmdcnt : ℕ
  incmdUsed : List ℕ
  prsUsed : List ℕ

/-- The loop of `parse_request`, behind the characters that are already in `prsbuf`. -/
def parseLoop (incmdbuf : Record 80) (cmdlen : ℕ) (srch : UInt8) (prsbuf : Bytes) (cmdcnt : ℕ) :
    ParsedWord :=
  if cmdcnt < cmdlen then
    let c := incmdbuf.toList.getD cmdcnt 0
    if c = srch then ⟨prsbuf, cmdcnt, [cmdcnt], [prsbuf.length]⟩
    else
      let rest := parseLoop incmdbuf cmdlen srch (prsbuf ++ [toUpper c]) (cmdcnt + 1)
      { rest with
        incmdUsed := cmdcnt :: rest.incmdUsed
        prsUsed := prsbuf.length :: rest.prsUsed }
  else ⟨prsbuf, cmdcnt, [], [prsbuf.length]⟩
termination_by cmdlen - cmdcnt

/-- `parse_request`. -/
def parseRequest (incmdbuf : Record 80) (cmdlen : ℕ) (srch : UInt8) (cmdcnt : ℕ) : ParsedWord :=
  parseLoop incmdbuf cmdlen srch [] cmdcnt

/-- Calls of `parse_request` for one word after the other, each behind the character that ended
the one before. -/
def parseRequests (incmdbuf : Record 80) (cmdlen : ℕ) : List UInt8 → ℕ → List ParsedWord
  | [], _ => []
  | srch :: more, cmdcnt =>
    let word := parseRequest incmdbuf cmdlen srch cmdcnt
    word :: parseRequests incmdbuf cmdlen more (word.cmdcnt + 1)

/-- `strlen(incmdbuf)`, where it has a null. -/
def cmdlenOf (incmdbuf : Record 80) : ℕ := (cString incmdbuf.toList).length

lemma parseLoop_used (incmdbuf : Record 80) (cmdlen : ℕ) (srch : UInt8) (prsbuf : Bytes)
    (cmdcnt : ℕ) :
    (∀ i ∈ (parseLoop incmdbuf cmdlen srch prsbuf cmdcnt).incmdUsed, i < cmdlen) ∧
      ∀ i ∈ (parseLoop incmdbuf cmdlen srch prsbuf cmdcnt).prsUsed,
        i ≤ prsbuf.length + (cmdlen - cmdcnt) := by
  induction prsbuf, cmdcnt using parseLoop.induct incmdbuf cmdlen srch with
  | case1 prsbuf cmdcnt hlt c heq =>
    rw [parseLoop, if_pos hlt, if_pos heq]
    exact ⟨by simpa using hlt, by simp⟩
  | case2 prsbuf cmdcnt hlt c hne ih =>
    rw [parseLoop, if_pos hlt, if_neg hne]
    obtain ⟨hincmd, hprs⟩ := ih
    refine ⟨fun i hi => ?_, fun i hi => ?_⟩
    · rcases List.mem_cons.mp hi with rfl | hi
      · exact hlt
      · exact hincmd i hi
    · rcases List.mem_cons.mp hi with rfl | hi
      · exact Nat.le_add_right _ _
      · have hle := hprs i hi
        rw [List.length_append, List.length_singleton] at hle
        omega
  | case3 prsbuf cmdcnt hlt =>
    rw [parseLoop, if_neg hlt]
    simp

/-- The words of a request are within its length. -/
lemma parseRequests_used (incmdbuf : Record 80) {cmdlen : ℕ} (separators : List UInt8)
    (cmdcnt : ℕ) : ∀ word ∈ parseRequests incmdbuf cmdlen separators cmdcnt,
      (∀ i ∈ word.incmdUsed, i < cmdlen) ∧ ∀ i ∈ word.prsUsed, i ≤ cmdlen := by
  induction separators generalizing cmdcnt with
  | nil => simp [parseRequests]
  | cons srch more ih =>
    intro word hword
    rcases List.mem_cons.mp hword with rfl | hmore
    · obtain ⟨hincmd, hprs⟩ := parseLoop_used incmdbuf cmdlen srch [] cmdcnt
      refine ⟨hincmd, fun i hi => (hprs i hi).trans ?_⟩
      simp
    · exact ih _ word hmore

/-! ### Staying inside the buffers -/

/-- Everything is read and written inside the buffers, and what is parsed has a null. -/
structure StaysInside (old : Record 80) (rs : List Recv) : Prop where
  read : ∀ i ∈ (readSocket old rs).1.used, i < 80
  terminated : (readSocket old rs).2 = some .request → 0 ∈ (readSocket old rs).1.incmdbuf.toList
  parsed : (readSocket old rs).2 = some .request → ∀ separators,
    ∀ word ∈ parseRequests (readSocket old rs).1.incmdbuf
        (cmdlenOf (readSocket old rs).1.incmdbuf) separators 0,
      (∀ i ∈ word.incmdUsed, i < 80) ∧ ∀ i ∈ word.prsUsed, i < 80

/-- The characters that a request is made of. -/
def IsText (b : UInt8) : Prop := 32 ≤ toByte b.toNat

/-- From a request with `size` characters, after `attempts` calls without a byte, 80 characters
come in before the request ends. -/
def Fills (size attempts : ℕ) (rs : List Recv) : Prop :=
  ∃ (k : ℕ) (line : Bytes) (rest : List Recv),
    rs = List.replicate k (.failed true) ++ (line.map .byte ++ rest) ∧
      (∀ b ∈ line, IsText b) ∧ size + line.length = 80 ∧ attempts + k < 100 ∧ (0 < size → k = 0)

/-- The first 80 bytes that come in are characters of a request, without a pause between them. -/
def FullLine (rs : List Recv) : Prop := Fills 0 0 rs

/-- Where the loop is: the buffer is not overfull, and ends with a null if it is not full. -/
structure Reading.Sound (s : Reading) : Prop where
  used : ∀ i ∈ s.used, i ≤ s.cbufsiz
  size : s.cbufsiz ≤ 80
  full : s.cbufsiz = 80 → 80 ∈ s.used
  null : s.cbufsiz < 80 → 0 ∈ s.incmdbuf.toList
  attempts : s.readAttempts < 100

lemma zero_mem_overwrite {n : ℕ} (r : Record n) {i : ℕ} (hi : i < n) :
    0 ∈ (overwrite r i [0]).toList := by
  have hget : (overwrite r i [0]).get ⟨i, hi⟩ = 0 := by
    rw [overwrite, List.Vector.get_ofFn]
    simp
  rw [List.Vector.get_eq_get_toList] at hget
  have hmem := List.get_mem (overwrite r i [0]).toList (Fin.cast (by simp) (⟨i, hi⟩ : Fin n))
  rwa [hget] at hmem

lemma sound_start (old : Record 80) : Reading.Sound ⟨overwrite old 0 [0], 0, 0, [0]⟩ :=
  ⟨by simp, by simp, by simp, fun _ => zero_mem_overwrite old (by norm_num), by simp⟩

lemma Reading.Sound.step {s s' : Reading} {r : Recv} (h : s.Sound) (hstep : readStep s r = .ok s') :
    s'.Sound := by
  cases r with
  | byte b =>
    simp only [readStep] at hstep
    split_ifs at hstep with hfull htext
    obtain rfl := Except.ok.inj hstep
    refine ⟨fun i hi => ?_, by dsimp only; omega, fun heq => ?_, fun hlt => ?_, h.attempts⟩
    · rcases List.mem_append.mp hi with hold | hnew
      · exact (h.used i hold).trans (Nat.le_succ _)
      · simp only [List.mem_cons, List.not_mem_nil, or_false] at hnew
        dsimp only
        omega
    · dsimp only at heq
      simp [heq]
    · have hsize : s.cbufsiz + 1 < 80 := hlt
      exact zero_mem_overwrite (overwrite s.incmdbuf s.cbufsiz [b]) hsize
  | failed again =>
    simp only [readStep] at hstep
    split_ifs at hstep with hagain hsize hlast
    obtain rfl := Except.ok.inj hstep
    have hattempts := h.attempts
    exact ⟨h.used, h.size, h.full, h.null, by dsimp only; omega⟩

lemma fills_of_full {size attempts : ℕ} (hsize : size = 80) (hattempts : attempts < 100)
    (rs : List Recv) : Fills size attempts rs :=
  ⟨0, [], rs, rfl, by simp, by simpa using hsize, hattempts, fun _ => rfl⟩

lemma not_fills_nil {size attempts : ℕ} (hsize : size ≠ 80) : ¬ Fills size attempts [] := by
  rintro ⟨k, line, rest, hrs, -, hsum, -, -⟩
  have hline := (List.append_eq_nil_iff.mp (List.append_eq_nil_iff.mp hrs.symm).2).1
  rw [List.map_eq_nil_iff.mp hline] at hsum
  exact hsize hsum

lemma fills_byte_iff {size attempts : ℕ} (hsize : size ≠ 80) (b : UInt8) (rs : List Recv) :
    Fills size attempts (.byte b :: rs) ↔ IsText b ∧ Fills (size + 1) attempts rs := by
  constructor
  · rintro ⟨k, line, rest, hrs, htext, hsum, hattempts, -⟩
    cases k with
    | succ k => simp [List.replicate_succ] at hrs
    | zero =>
      cases line with
      | nil => exact absurd hsum hsize
      | cons c line =>
        simp only [List.replicate_zero, List.nil_append, List.map_cons, List.cons_append,
          List.cons.injEq, Recv.byte.injEq] at hrs
        obtain ⟨rfl, rfl⟩ := hrs
        obtain ⟨hb, hline⟩ := List.forall_mem_cons.mp htext
        rw [List.length_cons] at hsum
        exact ⟨hb, 0, line, rest, rfl, hline, by omega, hattempts, fun _ => rfl⟩
  · rintro ⟨hb, k, line, rest, rfl, htext, hsum, hattempts, hk⟩
    obtain rfl := hk (Nat.succ_pos size)
    refine ⟨0, b :: line, rest, rfl, List.forall_mem_cons.mpr ⟨hb, htext⟩, ?_, hattempts,
      fun _ => rfl⟩
    rw [List.length_cons]
    omega

lemma fills_failed_iff {size attempts : ℕ} (hsize : size ≠ 80) (again : Bool) (rs : List Recv) :
    Fills size attempts (.failed again :: rs) ↔
      again = true ∧ size = 0 ∧ Fills size (attempts + 1) rs := by
  constructor
  · rintro ⟨k, line, rest, hrs, htext, hsum, hattempts, hk⟩
    cases k with
    | zero =>
      cases line with
      | nil => exact absurd hsum hsize
      | cons c line => simp at hrs
    | succ k =>
      simp only [List.replicate_succ, List.cons_append, List.cons.injEq, Recv.failed.injEq] at hrs
      obtain ⟨rfl, rfl⟩ := hrs
      have hzero : size = 0 := by
        by_contra hne
        cases hk (Nat.pos_of_ne_zero hne)
      exact ⟨rfl, hzero, k, line, rest, rfl, htext, hsum, by omega,
        fun hpos => absurd hzero hpos.ne'⟩
  · rintro ⟨rfl, hzero, k, line, rest, rfl, htext, hsum, hattempts, -⟩
    exact ⟨k + 1, line, rest, rfl, htext, hsum, by omega, fun hpos => absurd hzero hpos.ne'⟩

/-- Where the loop ends, and whether it filled the buffer. -/
lemma readLoop_sound {s : Reading} (h : s.Sound) (rs : List Recv) :
    (readLoop s rs).1.Sound ∧
      ((readLoop s rs).1.cbufsiz = 80 ↔ Fills s.cbufsiz s.readAttempts rs) := by
  induction rs generalizing s with
  | nil =>
    refine ⟨h, fun heq => fills_of_full heq h.attempts [], fun hfills => ?_⟩
    by_contra hne
    exact not_fills_nil hne hfills
  | cons r rs ih =>
    rcases eq_or_ne s.cbufsiz 80 with hfull | hroom
    · -- every turn ends the loop
      have hstep : ∃ e, readStep s r = .error e := by
        cases r with
        | byte b => exact ⟨.closed, by simp [readStep, hfull]⟩
        | failed again => cases again <;> simp [readStep, hfull]
      obtain ⟨e, hstep⟩ := hstep
      simp only [readLoop, hstep]
      exact ⟨h, fun _ => fills_of_full hfull h.attempts _, fun _ => hfull⟩
    cases hstep : readStep s r with
    | error e =>
      simp only [readLoop, hstep]
      refine ⟨h, fun heq => absurd heq hroom, fun hfills => ?_⟩
      cases r with
      | byte b =>
        have htext := ((fills_byte_iff hroom b rs).mp hfills).1
        have hsize := h.size
        simp only [readStep] at hstep
        split_ifs at hstep with hover hnot
        · omega
        · exact absurd hnot (not_lt.mpr htext)
      | failed again =>
        obtain ⟨rfl, hzero, hmore⟩ := (fills_failed_iff hroom again rs).mp hfills
        obtain ⟨k, -, -, -, -, -, hattempts, -⟩ := hmore
        simp only [readStep, if_true] at hstep
        split_ifs at hstep with hpos hlast
        · omega
        · omega
    | ok s' =>
      obtain ⟨hsound, hiff⟩ := ih (h.step hstep)
      simp only [readLoop, hstep]
      refine ⟨hsound, hiff.trans ?_⟩
      cases r with
      | byte b =>
        rw [fills_byte_iff hroom]
        simp only [readStep] at hstep
        split_ifs at hstep with hover hnot
        obtain rfl := Except.ok.inj hstep
        exact (and_iff_right (not_lt.mp hnot)).symm
      | failed again =>
        rw [fills_failed_iff hroom]
        simp only [readStep] at hstep
        split_ifs at hstep with hagain hpos hlast
        obtain rfl := Except.ok.inj hstep
        have hzero : s.cbufsiz = 0 := by omega
        exact ⟨fun hmore => ⟨hagain, hzero, hmore⟩, fun hmore => hmore.2.2⟩

lemma cmdlenOf_lt {incmdbuf : Record 80} (h : 0 ∈ incmdbuf.toList) : cmdlenOf incmdbuf < 80 := by
  have hlen := List.Vector.toList_length incmdbuf
  by_contra hge
  have hall : cString incmdbuf.toList = incmdbuf.toList := by
    refine (List.takeWhile_prefix _).eq_of_length_le ?_
    rw [hlen]
    exact not_lt.mp hge
  have hmem := hall ▸ h
  simpa using List.mem_takeWhile_imp hmem

/-- A request of 80 characters uses the place behind the buffer. -/
lemma not_staysInside_of_fullLine (old : Record 80) {rs : List Recv} (h : FullLine rs) :
    ¬ StaysInside old rs := by
  obtain ⟨hsound, hfull⟩ := readLoop_sound (sound_start old) rs
  exact fun hinside => absurd (hinside.read 80 (hsound.full (hfull.mpr h))) (lt_irrefl 80)

/-- The buffers are kept exactly as long as no request of 80 characters comes in at once. -/
theorem staysInside_iff (old : Record 80) (rs : List Recv) :
    StaysInside old rs ↔ ¬ FullLine rs := by
  refine ⟨fun h hline => not_staysInside_of_fullLine old hline h, fun hline => ?_⟩
  obtain ⟨hsound, hfull⟩ := readLoop_sound (sound_start old) rs
  have hlt : (readSocket old rs).1.cbufsiz < 80 :=
    lt_of_le_of_ne hsound.size fun heq => hline (hfull.mp heq)
  have hnull := hsound.null hlt
  refine ⟨fun i hi => (hsound.used i hi).trans_lt hlt, fun _ => hnull, ?_⟩
  intro _ separators word hword
  obtain ⟨hincmd, hprs⟩ := parseRequests_used _ separators 0 word hword
  have hlen := cmdlenOf_lt hnull
  exact ⟨fun i hi => (hincmd i hi).trans hlen, fun i hi => (hprs i hi).trans_lt hlen⟩

/-- After 80 letters the null is written behind the buffer. -/
theorem eighty_letters_not_inside :
    ¬ StaysInside (List.Vector.replicate 80 0) (List.replicate 80 (.byte 65)) := by
  refine not_staysInside_of_fullLine _ ⟨0, List.replicate 80 65, [], by simp, ?_, by simp, by simp,
    fun _ => rfl⟩
  intro b hb
  rw [List.eq_of_mem_replicate hb]
  show (32 : ℤ) ≤ toByte 65
  decide

end StationProcessor
