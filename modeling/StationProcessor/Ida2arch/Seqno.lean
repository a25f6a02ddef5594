import StationProcessor.Lib.Strtol
import StationProcessor.TimePrint

/-!
# ISI sequence numbers

`isiStringToSeqno` of the ISI library, and the text that `ida2arch` prints for a sequence number. A
text of 24 characters is read as two numbers in base 16, each limited to a signed type.
-/

namespace StationProcessor

open Strtol

/-- `ISI_SEQNO`. -/
structure Seqno where
  signature : UInt32
  counter : UInt64
deriving DecidableEq

namespace Seqno

/-- `ISI_OLDEST_SEQNO`. -/
def oldest : Seqno := ⟨0xFFFFFFFF, 0⟩

/-- `ISI_NEWEST_SEQNO`. -/
def newest : Seqno := ⟨0xFFFFFFFE, 0⟩

/-- `ISI_KEEPUP_SEQNO`. -/
def keepup : Seqno := ⟨0xFFFFFFFD, 0⟩

/-- `ISI_UNDEFINED_SEQNO`. -/
def undefined : Seqno := ⟨0, 0⟩

/-- `isiIsOldestSeqno`. -/
def isOldest (s : Seqno) : Bool := s.signature = oldest.signature

/-- `%08x%08x%08x` of the signature and the two halves of the counter, on a little-endian host. -/
def text (s : Seqno) : Bytes :=
  hexText 8 s.signature.toNat ++ (hexText 8 (s.counter.toNat / 2 ^ 32) ++
    hexText 8 (s.counter.toNat % 2 ^ 32))

/-- Counted on by one. -/
def next (s : Seqno) : Seqno := ⟨s.signature, s.counter + 1⟩

/-- Whether this is the sequence number after another, without an overflow. -/
def IsAfter (s t : Seqno) : Prop :=
  s.signature = t.signature ∧ s.counter.toNat = t.counter.toNat + 1

instance (s t : Seqno) : Decidable (s.IsAfter t) := inferInstanceAs (Decidable (_ ∧ _))

end Seqno

/-! ### Reading a text -/

/-- The sequence number of a text of 24 characters. -/
def hexSeqno (plat : Platform) (string : Bytes) : Seqno :=
  ⟨UInt32.ofInt (strtol plat.longBits 16 (string.take 8)),
    UInt64.ofInt (strtol 64 16 (string.drop 8))⟩

/-- `atol`, as the counter of a sequence number. -/
def atolCounter (plat : Platform) (string : Bytes) : UInt64 :=
  UInt64.ofInt (strtol plat.longBits 10 string)

/-- What `utilParse` finds between the delimiters, up to two. -/
def seqnoTokens (string : Bytes) : List Bytes :=
  ((string.splitOnP fun b => b ∈ ascii ":;.,/+-\\").filter (· ≠ [])).take 2

/-- `isiStringToSeqno`: whether it succeeds, and the sequence number it stores. -/
def isiStringToSeqno (plat : Platform) (string : Bytes) : Bool × Seqno :=
  let lower := string.map toLower
  if string.length = 24 then (true, hexSeqno plat string)
  else if lower = ascii "newest" then (true, Seqno.newest)
  else if lower = ascii "oldest" then (true, Seqno.oldest)
  else if lower = ascii "keepup" then (true, Seqno.keepup)
  else
    match seqnoTokens string with
    | [token] => (true, ⟨0xFFFFFFFA, atolCounter plat token⟩)
    | [token, count] =>
      if token.map toLower = ascii "beg" then (true, ⟨0xFFFFFFFC, atolCounter plat count⟩)
      else if token.map toLower = ascii "end" then (true, ⟨0xFFFFFFFB, atolCounter plat count⟩)
      else (true, ⟨UInt32.ofInt (strtol plat.longBits 10 token), atolCounter plat count⟩)
    | _ => (false, Seqno.undefined)

lemma isiStringToSeqno_of_length (plat : Platform) {string : Bytes} (h : string.length = 24) :
    isiStringToSeqno plat string = (true, hexSeqno plat string) := if_pos h

/-! ### Printing and reading -/

namespace Seqno

variable (plat : Platform) (s : Seqno)

@[simp] lemma length_text : s.text.length = 24 := by simp [text]

lemma digitValue_of_mem_text {s : Seqno} {b : UInt8} (h : b ∈ s.text) : digitValue b < 16 := by
  simp only [text, List.mem_append] at h
  rcases h with h | h | h <;> exact digitValue_of_mem_hexText h

lemma ofDigits_counter : ofDigits 16 (s.text.drop 8) = s.counter.toNat := by
  have hlt := s.counter.toNat_lt
  have hhigh : s.counter.toNat / 2 ^ 32 % 16 ^ 8 = s.counter.toNat / 2 ^ 32 :=
    Nat.mod_eq_of_lt (by norm_num at *; omega)
  have hlow : s.counter.toNat % 2 ^ 32 % 16 ^ 8 = s.counter.toNat % 2 ^ 32 :=
    Nat.mod_eq_of_lt (by norm_num at *; omega)
  rw [text, List.drop_left' (length_hexText 8 _), ofDigits_append, ofDigits_hexText,
    ofDigits_hexText, length_hexText, hhigh, hlow]
  omega

lemma ofDigits_signature : ofDigits 16 (s.text.take 8) = s.signature.toNat := by
  have hlt := s.signature.toNat_lt
  rw [text, List.take_left' (length_hexText 8 _), ofDigits_hexText]
  exact Nat.mod_eq_of_lt (by norm_num at *; omega)

/-- A printed sequence number is read back up to the limits of `long` and `long long`. -/
lemma hexSeqno_text : hexSeqno plat s.text =
    ⟨UInt32.ofInt (min (2 ^ (plat.longBits - 1) - 1) s.signature.toNat),
      UInt64.ofInt (min (2 ^ 63 - 1) s.counter.toNat)⟩ := by
  have hdigits : ∀ b ∈ s.text, digitValue b < 16 := fun b => digitValue_of_mem_text
  rw [hexSeqno, strtol_of_digits _ fun b hb => hdigits b (List.mem_of_mem_take hb),
    strtol_of_digits _ fun b hb => hdigits b (List.mem_of_mem_drop hb), ofDigits_signature,
    ofDigits_counter]

lemma notMem_text {s : Seqno} {b : UInt8} (h : 16 ≤ digitValue b) : b ∉ s.text :=
  fun hb => absurd (digitValue_of_mem_text hb) (not_lt.mpr h)

end Seqno

/-! ### The next sequence number -/

/-- What the restart makes of a text: it is read, counted on, printed and read again. -/
def resumedSeqno (plat : Platform) (string : Bytes) : Seqno :=
  hexSeqno plat (hexSeqno plat string).next.text

lemma toNat_ofInt32 {x : ℤ} (h0 : 0 ≤ x) (h : x < 2 ^ 32) : ((UInt32.ofInt x).toNat : ℤ) = x := by
  rw [UInt32.ofInt, Int.emod_eq_of_lt h0 h]
  simp only [UInt32.toNat_ofNat']
  omega

lemma toNat_ofInt64 {x : ℤ} (h0 : 0 ≤ x) (h : x < 2 ^ 64) : ((UInt64.ofInt x).toNat : ℤ) = x := by
  rw [UInt64.ofInt, Int.emod_eq_of_lt h0 h]
  simp only [UInt64.toNat_ofNat']
  omega

namespace Seqno

variable (plat : Platform) (s : Seqno)

lemma signature_hexSeqno_text : ((hexSeqno plat s.text).signature.toNat : ℤ)
    = min (2 ^ (plat.longBits - 1) - 1 : ℤ) s.signature.toNat := by
  have hlt := s.signature.toNat_lt
  have hpow : (1 : ℤ) ≤ 2 ^ (plat.longBits - 1) := one_le_pow₀ (by norm_num)
  rw [hexSeqno_text]
  apply toNat_ofInt32
  · exact le_min (by linarith) (Int.natCast_nonneg _)
  · exact (min_le_right _ _).trans_lt (by exact_mod_cast hlt)

lemma counter_hexSeqno_text : ((hexSeqno plat s.text).counter.toNat : ℤ)
    = min (2 ^ 63 - 1 : ℤ) s.counter.toNat := by
  have hlt := s.counter.toNat_lt
  rw [hexSeqno_text]
  apply toNat_ofInt64
  · exact le_min (by norm_num) (Int.natCast_nonneg _)
  · exact (min_le_right _ _).trans_lt (by exact_mod_cast hlt)

lemma signature_resumed : ((resumedSeqno plat s.text).signature.toNat : ℤ)
    = min (2 ^ (plat.longBits - 1) - 1 : ℤ) s.signature.toNat := by
  rw [resumedSeqno, signature_hexSeqno_text, next, signature_hexSeqno_text, ← min_assoc, min_self]

lemma counter_resumed : ((resumedSeqno plat s.text).counter.toNat : ℤ)
    = min (2 ^ 63 - 1 : ℤ) (min (2 ^ 63 - 1 : ℤ) s.counter.toNat + 1) := by
  have hread := counter_hexSeqno_text plat s
  have hsum : ((hexSeqno plat s.text).next.counter.toNat : ℤ)
      = (hexSeqno plat s.text).counter.toNat + 1 := by
    rw [next, UInt64.toNat_add, UInt64.toNat_one]
    omega
  rw [resumedSeqno, counter_hexSeqno_text, hsum, hread]

/-- The restart counts on when the signature fits a `long` and the next counter a `long long`. -/
lemma isAfter_resumed_iff : (resumedSeqno plat s.text).IsAfter s ↔
    (s.signature.toNat : ℤ) < 2 ^ (plat.longBits - 1) ∧ s.counter.toNat < 2 ^ 63 - 1 := by
  have hsignature := signature_resumed plat s
  have hcounter := counter_resumed plat s
  rw [IsAfter, ← UInt32.toNat_inj]
  generalize (resumedSeqno plat s.text).signature.toNat = a at *
  generalize (resumedSeqno plat s.text).counter.toNat = b at *
  generalize (2 : ℤ) ^ (plat.longBits - 1) = limit at *
  omega

lemma isOldest_resumed_iff : (resumedSeqno plat s.text).isOldest = true ↔
    (s.signature.toNat : ℤ) < 2 ^ (plat.longBits - 1) ∧ s.isOldest = true := by
  have hsignature := signature_resumed plat s
  have hlt := s.signature.toNat_lt
  have holdest : oldest.signature.toNat = 2 ^ 32 - 1 := rfl
  simp only [isOldest, decide_eq_true_eq, ← UInt32.toNat_inj, holdest]
  generalize (resumedSeqno plat s.text).signature.toNat = a at *
  generalize (2 : ℤ) ^ (plat.longBits - 1) = limit at *
  omega

end Seqno

end StationProcessor
