import StationProcessor.Archd.Seedmsg
import StationProcessor.Diskloop.Context
import StationProcessor.Ida2arch.Seqno
import StationProcessor.Ida2liss.CheckFilter

/-!
# Resuming the import feed

`ida2arch` stores the records it receives and writes the sequence number of each one to `isi.seq`;
when it starts it reads the number back and asks for the records from the next one on. The lines are
read to buffers that are not set before, and the result of `WriteChan` is only logged.
-/

namespace StationProcessor

open Seqno

/-! ### The import -/

/-- A packet after it was decompressed, with what the stack holds at its calls of `WildMatch`, and
the message of `WriteChan` unless it stores the record. -/
structure ArchPacket where
  seqno : Seqno
  payload : Record 512
  stack : ℕ → ℕ → ℤ
  retmsg : Option Bytes

/-- How `ida2arch` was started: its filter and what it prints. -/
structure ArchOptions where
  filter : Option CString
  gDebug : ℤ
  verbose : Bool

/-- `%2.2s/%3.3s` of the location and the channel of a record. -/
def archLocStation (payload : Record 512) : CString :=
  bufferString ((cString ((payload.toList.drop 13).take 2)).leftpad 2 32 ++
    47 :: (cString ((payload.toList.drop 15).take 3)).leftpad 3 32)

/-- Whether a packet is stored: there is no filter, or its channel matches. -/
def ArchPacket.matches (opts : ArchOptions) (p : ArchPacket) : Except WildError Bool :=
  match opts.filter with
  | none => .ok true
  | some filter => do
    let answer ← archCheckFilter opts.gDebug opts.verbose p.stack (some filter)
      (archLocStation p.payload)
    return answer.answer = 1

/-- `sequence_str` of a record. -/
def sequenceText (s : Seqno) : Bytes := s.text ++ 10 :: (s.text ++ 10 :: (s.text ++ [10]))

/-- The packets that were passed to `WriteChan`, and the file `isi.seq`. -/
structure RawState where
  written : List ArchPacket
  isiSeq : Option Bytes

/-- One turn of the loop of `raw()`. -/
def rawPacket (opts : ArchOptions) (s : RawState) (p : ArchPacket) : Except WildError RawState := do
  if ← p.matches opts then return ⟨s.written ++ [p], some (sequenceText p.seqno)⟩ else return s

/-- The loop of `raw()`. -/
def rawLoop (opts : ArchOptions) (packets : List ArchPacket) (s : RawState) :
    Except WildError RawState :=
  packets.foldlM (rawPacket opts) s

/-! ### The restart -/

/-- The buffers of the lines. -/
structure SequenceRows where
  first : Record 28
  second : Record 28
  third : Record 28

/-- `fgets` of at most 27 characters: the buffer, and what is left of the file. -/
def fgetsRow (row : Record 28) (file : Bytes) : Record 28 × Bytes :=
  let line := (file.take (file.idxOf 10 + 1)).take 27
  if line = [] then (row, file) else (overwrite row 0 (line ++ [0]), file.drop line.length)

def readRows (rows : SequenceRows) (file : Bytes) : SequenceRows :=
  let (first, file) := fgetsRow rows.first file
  let (second, file) := fgetsRow rows.second file
  let (third, _) := fgetsRow rows.third file
  ⟨first, second, third⟩

def rowLength (row : Record 28) : ℕ := (cString row.toList).length

/-- The line that is taken: the first one if the first two agree, else the third one. -/
def chooseRow (rows : SequenceRows) : Option (Record 28) :=
  if rowLength rows.first ≥ 24 ∧ rowLength rows.second ≥ 24 then
    if strncmpEqual rows.first.toList rows.second.toList 24 then some rows.first
    else if rowLength rows.third ≥ 24 then some rows.third
    else none
  else none

inductive RestartEnd
  | exits
  | begins (begseqno : Seqno)
deriving DecidableEq

/-- The start of `main` without a `beg=` argument: where the import begins. -/
def restart (plat : Platform) (isiSeq : Option Bytes) (rows : SequenceRows) : RestartEnd :=
  match isiSeq with
  | none => .begins Seqno.oldest
  | some file =>
    match chooseRow (readRows rows file) with
    | none => .begins Seqno.oldest
    | some row =>
      match isiStringToSeqno plat (cString (overwrite row 24 [0]).toList) with
      | (false, _) => .exits
      | (true, seqno) =>
        -- the text of the next one is read again where the request is made
        match isiStringToSeqno plat seqno.next.text with
        | (false, _) => .exits
        | (true, begseqno) => .begins begseqno

/-! ### The property -/

/-- A run of the import that a crash ends while it writes the file for a packet, or behind it. -/
structure ArchCrash (opts : ArchOptions) where
  packets : List ArchPacket
  start : RawState
  before : RawState
  reached : rawLoop opts packets start = .ok before
  packet : ArchPacket
  matching : packet.matches opts = .ok true
  bytes : ℕ

namespace ArchCrash

variable {opts : ArchOptions} (plat : Platform) (crash : ArchCrash opts) (rows : SequenceRows)

/-- What the crash leaves of the file. -/
def file : Bytes := (sequenceText crash.packet.seqno).take crash.bytes

/-- `WriteChan` stored the record of the last packet and of all others that were passed to it. -/
def AllStored : Prop := ∀ p ∈ crash.before.written ++ [crash.packet], p.retmsg = none

/-- Where the import may begin: with the next record when all were stored, or with the oldest. -/
def BeginsRight (begseqno : Seqno) : Prop :=
  (begseqno.IsAfter crash.packet.seqno ∨ begseqno.isOldest = true) ∧
    (begseqno.IsAfter crash.packet.seqno → crash.AllStored)

/-- The restart does not exit, and begins where it may. -/
def ResumesRight : Prop :=
  ∃ begseqno, restart plat (some crash.file) rows = .begins begseqno ∧ crash.BeginsRight begseqno

/-- The restart takes the text of the last packet. -/
def TakesOwn : Prop :=
  49 ≤ crash.bytes ∨ (crash.bytes = 24 ∨ crash.bytes = 25) ∧
    (cString rows.second.toList).take 24 = crash.packet.seqno.text

/-- What the restart takes from the lines when it takes the first or the third one. -/
def takenOf (first second third : Bytes) : Option Bytes :=
  if 24 ≤ first.length ∧ 24 ≤ second.length then
    if first.take 24 = second.take 24 then some (first.take 24)
    else if 24 ≤ third.length then some (third.take 24)
    else none
  else none

/-- What the restart takes from the buffers as they were before, when the file ends before the
second line. -/
def staleText : Option Bytes :=
  if crash.bytes = 0 then
    takenOf (cString rows.first.toList) (cString rows.second.toList) (cString rows.third.toList)
  else if crash.bytes = 24 ∨ crash.bytes = 25 then
    takenOf crash.packet.seqno.text (cString rows.second.toList) (cString rows.third.toList)
  else none

/-- When the restart is right: with the text of the last packet the signature fits a `long` and the
next counter a `long long`, and all records were stored; and a text that it takes from the buffers
as they were happens to lead to a right place. -/
structure ResumesWhen : Prop where
  own : crash.TakesOwn rows →
    (crash.packet.seqno.signature.toNat : ℤ) < 2 ^ (plat.longBits - 1) ∧
      if crash.packet.seqno.counter.toNat < 2 ^ 63 - 1 then crash.AllStored
      else crash.packet.seqno.isOldest = true
  stale : ¬ crash.TakesOwn rows → ∀ text, crash.staleText rows = some text →
    crash.BeginsRight (resumedSeqno plat text)

end ArchCrash

/-! ### The lines -/

lemma cString_of_take {s line : Bytes} {k : ℕ} (h : s.take k = line ++ [0]) (h0 : 0 ∉ line) :
    cString s = line := by
  have hline : ∀ b ∈ line, (b != 0) = true := fun b hb => bne_iff_ne.mpr fun heq => h0 (heq ▸ hb)
  rw [← List.take_append_drop k s, h, cString, List.append_assoc,
    List.takeWhile_append_of_pos hline]
  simp

/-- What a buffer holds after a line was read to it. -/
lemma cString_overwrite_zero (row : Record 28) {line : Bytes} (hlength : line.length ≤ 27)
    (h0 : 0 ∉ line) : cString (overwrite row 0 (line ++ [0])).toList = line := by
  apply cString_of_take _ h0
  · exact line.length + 1
  · have htake := @take_overwrite_add 28 row 0 (line ++ [0]) (by simp; omega)
    simpa using htake

/-- `begstr[24] = 0`. -/
lemma cString_overwrite_24 {row : Record 28} (h : 24 ≤ rowLength row) :
    cString (overwrite row 24 [0]).toList = (cString row.toList).take 24 := by
  have hfront : row.toList.take 24 = (cString row.toList).take 24 := by
    have heq : cString row.toList = row.toList.take (rowLength row) :=
      List.prefix_iff_eq_take.mp (List.takeWhile_prefix _)
    rw [heq, List.take_take, min_eq_left h]
  rw [← hfront]
  apply cString_of_take
  · exact @take_overwrite_add 28 row 24 [0] (by decide)
  · rw [hfront]
    exact fun h0 => zero_notMem_cString _ (List.mem_of_mem_take h0)

/-- What is left in a buffer when a line of 24 characters is cut behind `count` characters. -/
def rowAfter (row : Record 28) (line : Bytes) (count : ℕ) : Record 28 :=
  if count = 0 then row else overwrite row 0 ((line ++ [10]).take count ++ [0])

/-- `fgets` takes the line at the start of a file that was cut. -/
lemma fgetsRow_take (row : Record 28) {line : Bytes} (hlength : line.length = 24) (h10 : 10 ∉ line)
    (rest : Bytes) (count : ℕ) : fgetsRow row ((line ++ 10 :: rest).take count) =
      (rowAfter row line count, rest.take (count - 25)) := by
  rcases Nat.eq_zero_or_pos count with rfl | hcount
  · simp [fgetsRow, rowAfter]
  rcases Nat.lt_or_ge 24 count with hlong | hshort
  · have hfile : (line ++ 10 :: rest).take count = (line ++ [10]) ++ rest.take (count - 25) := by
      rw [List.take_append, List.take_of_length_le (by omega), hlength,
        show count - 24 = count - 25 + 1 by omega, List.take_succ_cons]
      simp
    have hindex : ((line ++ [10]) ++ rest.take (count - 25)).idxOf 10 = 24 := by
      rw [List.append_assoc, List.idxOf_append_of_notMem h10, hlength]
      simp
    have hline : (((line ++ [10]) ++ rest.take (count - 25)).take (24 + 1)).take 27
        = line ++ [10] := by
      rw [List.take_left' (by simp [hlength]), List.take_of_length_le (by simp [hlength])]
    have hcut : (line ++ [10]).take count = line ++ [10] :=
      List.take_of_length_le (by simp [hlength]; omega)
    rw [hfile, fgetsRow, hindex, hline, if_neg (by simp), rowAfter, if_neg (by omega),
      List.drop_left, hcut]
  · have hfile : (line ++ 10 :: rest).take count = line.take count :=
      List.take_append_of_le_length (by omega)
    have hlength' : (line.take count).length = count := by
      rw [List.length_take, hlength]
      omega
    have hindex : (line.take count).idxOf 10 = count := by
      rw [List.idxOf_of_notMem fun h => h10 (List.mem_of_mem_take h), hlength']
    have hline : ((line.take count).take (count + 1)).take 27 = line.take count := by
      rw [List.take_take, List.take_of_length_le (by rw [hlength']; omega)]
    have hne : line.take count ≠ [] := by
      intro h
      rw [h, List.length_nil] at hlength'
      omega
    rw [hfile, fgetsRow, hindex, hline, if_neg hne, rowAfter, if_neg (by omega),
      List.take_append_of_le_length (by omega), List.drop_length, Nat.sub_eq_zero_of_le (by omega),
      List.take_zero]

/-- The string in such a buffer. -/
lemma cString_rowAfter (row : Record 28) {line : Bytes} (hlength : line.length = 24)
    (h0 : 0 ∉ line) (count : ℕ) : cString (rowAfter row line count).toList =
      if count = 0 then cString row.toList else (line ++ [10]).take count := by
  rw [rowAfter]
  split_ifs
  · rfl
  · apply cString_overwrite_zero
    · rw [List.length_take, List.length_append, hlength]
      exact (min_le_right _ _).trans (by simp)
    · intro hmem
      have hmem' := List.mem_of_mem_take hmem
      simp [h0] at hmem'

/-! ### What the restart takes -/

variable {plat : Platform} {rows : SequenceRows}

lemma rowLength_of_chooseRow {row : Record 28} (h : chooseRow rows = some row) :
    24 ≤ rowLength row := by
  unfold chooseRow at h
  split_ifs at h with hlong hsame hthird
  · exact Option.some.inj h ▸ hlong.1
  · exact Option.some.inj h ▸ hthird

lemma map_chooseRow (rows : SequenceRows) :
    (chooseRow rows).map (fun row => (cString row.toList).take 24) =
      ArchCrash.takenOf (cString rows.first.toList) (cString rows.second.toList)
        (cString rows.third.toList) := by
  simp only [chooseRow, ArchCrash.takenOf, rowLength, strncmpEqual, decide_eq_true_eq, ge_iff_le]
  split_ifs <;> rfl

/-- The restart never exits: the text that it takes has 24 characters. -/
lemma restart_file (plat : Platform) (file : Bytes) (rows : SequenceRows) :
    restart plat (some file) rows = .begins
      (((chooseRow (readRows rows file)).map fun row => (cString row.toList).take 24).elim
        Seqno.oldest (resumedSeqno plat)) := by
  simp only [restart]
  cases hrow : chooseRow (readRows rows file) with
  | none => rfl
  | some row =>
    have hlong := rowLength_of_chooseRow hrow
    have hlength : ((cString row.toList).take 24).length = 24 := List.length_take_of_le hlong
    simp only [cString_overwrite_24 hlong, isiStringToSeqno_of_length plat hlength,
      isiStringToSeqno_of_length plat (length_text _), Option.map_some, Option.elim_some,
      resumedSeqno]

namespace ArchCrash

variable {opts : ArchOptions} {crash : ArchCrash opts}

lemma takenOf_short {first second third : Bytes} (h : first.length < 24 ∨ second.length < 24) :
    takenOf first second third = none := by
  rw [takenOf, if_neg (by omega)]

/-- A line that was cut, but not before its end. -/
lemma take_cutLine {line : Bytes} (hlength : line.length = 24) {count : ℕ} (h : 24 ≤ count) :
    ((line ++ [10]).take count).take 24 = line ∧ 24 ≤ ((line ++ [10]).take count).length := by
  constructor
  · rw [List.take_take, min_eq_left h, List.take_left' hlength]
  · simp only [List.length_take, List.length_append, hlength, List.length_singleton]
    omega

lemma length_cutLine {line : Bytes} (hlength : line.length = 24) {count : ℕ} (h : count ≤ 25) :
    ((line ++ [10]).take count).length = count := by
  simp only [List.length_take, List.length_append, hlength, List.length_singleton]
  omega

/-- What the restart takes from the file that the crash leaves. -/
lemma taken_file (crash : ArchCrash opts) (rows : SequenceRows) [Decidable (crash.TakesOwn rows)] :
    (chooseRow (readRows rows crash.file)).map (fun row => (cString row.toList).take 24) =
      if crash.TakesOwn rows then some crash.packet.seqno.text else crash.staleText rows := by
  have hlength := length_text crash.packet.seqno
  have h10 : 10 ∉ crash.packet.seqno.text := notMem_text (by decide)
  have h0 : 0 ∉ crash.packet.seqno.text := notMem_text (by decide)
  generalize hline : crash.packet.seqno.text = line at *
  have hrows : readRows rows crash.file = ⟨rowAfter rows.first line crash.bytes,
      rowAfter rows.second line (crash.bytes - 25),
      rowAfter rows.third line (crash.bytes - 25 - 25)⟩ := by
    simp only [file, sequenceText, hline, readRows, fgetsRow_take _ hlength h10]
  rw [map_chooseRow, hrows]
  simp only [cString_rowAfter _ hlength h0, TakesOwn, staleText, hline]
  generalize crash.bytes = count
  rcases Nat.eq_zero_or_pos count with rfl | hpos
  · simp
  simp only [hpos.ne', if_false]
  rcases lt_or_ge count 24 with hshort | hlong
  · rw [takenOf_short (Or.inl (by rwa [length_cutLine hlength (by omega)])), if_neg (by omega),
      if_neg (by omega)]
  obtain ⟨htake, hlong'⟩ := take_cutLine hlength hlong
  rcases le_or_gt count 25 with hfirst | hsecond
  · -- only the first line is there
    have hstale : count - 25 = 0 := by omega
    have hcount : count = 24 ∨ count = 25 := by omega
    simp only [hstale, Nat.zero_sub, if_true, hcount, true_and]
    by_cases hown : (cString rows.second.toList).take 24 = line
    · have hlength' : 24 ≤ (cString rows.second.toList).length := by
        have heq := congrArg List.length hown
        rw [List.length_take, hlength] at heq
        omega
      rw [if_pos (Or.inr hown), takenOf, if_pos ⟨hlong', hlength'⟩, htake, hown, if_pos rfl]
    · rw [if_neg (by simp [hown]; omega), takenOf, takenOf, htake,
        List.take_of_length_le hlength.le]
      simp only [hlong', hlength.ge, true_and]
  have hne : count - 25 ≠ 0 := by omega
  simp only [hne, if_false]
  rcases lt_or_ge count 49 with hcut | hwhole
  · rw [takenOf_short (Or.inr (by rw [length_cutLine hlength (by omega)]; omega)),
      if_neg (by omega), if_neg (by omega)]
  · obtain ⟨hsecond', hlength'⟩ := take_cutLine hlength (show 24 ≤ count - 25 by omega)
    rw [if_pos (Or.inl hwhole), takenOf, if_pos ⟨hlong', hlength'⟩, htake, hsecond', if_pos rfl]

lemma beginsRight_oldest (crash : ArchCrash opts) : crash.BeginsRight Seqno.oldest := by
  refine ⟨Or.inr rfl, fun hafter => ?_⟩
  exact absurd hafter.2.symm (Nat.succ_ne_zero _)

/-- The text of the last packet leads to a right place. -/
lemma beginsRight_own_iff : crash.BeginsRight (resumedSeqno plat crash.packet.seqno.text) ↔
    (crash.packet.seqno.signature.toNat : ℤ) < 2 ^ (plat.longBits - 1) ∧
      if crash.packet.seqno.counter.toNat < 2 ^ 63 - 1 then crash.AllStored
      else crash.packet.seqno.isOldest = true := by
  rw [BeginsRight, isAfter_resumed_iff, isOldest_resumed_iff]
  by_cases hsignature : (crash.packet.seqno.signature.toNat : ℤ) < 2 ^ (plat.longBits - 1)
  · by_cases hcounter : crash.packet.seqno.counter.toNat < 2 ^ 63 - 1
    · simp only [hsignature, hcounter, if_true, and_self, true_and, true_or, forall_const]
    · simp only [hsignature, hcounter, if_false, and_false, false_or, true_and, IsEmpty.forall_iff,
        and_true]
  · simp only [hsignature, false_and, or_self]

/-- A restart after a crash is right if and only if the text that it takes is. -/
theorem resumesRight_iff (plat : Platform) (crash : ArchCrash opts) (rows : SequenceRows) :
    crash.ResumesRight plat rows ↔ crash.ResumesWhen plat rows := by
  classical
  have hresumes : crash.ResumesRight plat rows ↔ ∀ text,
      (if crash.TakesOwn rows then some crash.packet.seqno.text else crash.staleText rows)
        = some text → crash.BeginsRight (resumedSeqno plat text) := by
    simp only [ResumesRight, restart_file, taken_file, RestartEnd.begins.injEq, exists_eq_left']
    cases (if crash.TakesOwn rows then some crash.packet.seqno.text
      else crash.staleText rows) with
    | none => simp [beginsRight_oldest]
    | some text => simp
  rw [hresumes]
  constructor
  · intro h
    refine ⟨fun hown => ?_, fun hother text htext => ?_⟩
    · exact beginsRight_own_iff.mp (h _ (if_pos hown))
    · exact h text ((if_neg hother).trans htext)
  · intro h text htext
    by_cases hown : crash.TakesOwn rows
    · rw [if_pos hown] at htext
      rw [← Option.some.inj htext]
      exact beginsRight_own_iff.mpr (h.own hown)
    · rw [if_neg hown] at htext
      exact h.stale hown text htext

/-! ### A record that was not stored -/

/-- `WriteChan` fails for the first record, and its sequence number is written. -/
def notStored : ArchCrash ⟨none, 0, false⟩ where
  packets := []
  start := ⟨[], none⟩
  before := ⟨[], none⟩
  reached := rfl
  packet := ⟨⟨0x45b56615, 0xa613a0⟩, logRecord 0 0, fun _ _ => 0, some (ascii "disk full")⟩
  matching := rfl
  bytes := 75

/-- Buffers that hold `1`s. -/
def oneRows : SequenceRows :=
  let row : Record 28 := List.Vector.replicate 28 49
  ⟨row, row, row⟩

/-- The import goes on behind the record that was not stored; and where the crash leaves the file
empty, it begins with a sequence number that was never received. -/
theorem notStored_skipped :
    ¬ notStored.ResumesRight hostConfig.plat oneRows ∧
      ¬ ({ notStored with bytes := 0 } : ArchCrash ⟨none, 0, false⟩).ResumesRight hostConfig.plat
        oneRows := by
  constructor
  · rintro ⟨begseqno, hrestart, -, hstored⟩
    have hbegin : restart hostConfig.plat (some notStored.file) oneRows
        = .begins ⟨0x45b56615, 0xa613a1⟩ := by
      decide +kernel
    rw [hbegin] at hrestart
    cases hrestart
    have hnone := hstored (by decide) notStored.packet (by simp)
    simp [notStored] at hnone
  · rintro ⟨begseqno, hrestart, hplace, -⟩
    have hbegin : restart hostConfig.plat
        (some ({ notStored with bytes := 0 } : ArchCrash ⟨none, 0, false⟩).file) oneRows
        = .begins ⟨0x11111111, 0x1111111111111112⟩ := by
      decide +kernel
    rw [hbegin] at hrestart
    cases hrestart
    revert hplace
    decide

end ArchCrash

end StationProcessor
