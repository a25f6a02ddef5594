import Mathlib.Data.List.TakeWhile
import StationProcessor.SeedHeader

/-!
# Keys of channels

`MakeKey` of `lib/disklooplib.c` and the code that it takes of each part of a channel's name. A
key determines the three codes.
-/

namespace StationProcessor

/-! ### Codes -/

def toUpper (b : UInt8) : UInt8 := if 97 ≤ b ∧ b ≤ 122 then b - 32 else b

/-- The letters and digits at the start of a name, in upper case. -/
def codeOf (s : Bytes) : Bytes := (s.takeWhile isAlnum).map toUpper

/-- What follows the first character that is no letter or digit, or the whole name where there
is none. -/
def behindSeparator (station : Bytes) : Bytes :=
  match station.dropWhile isAlnum with
  | [] => station
  | _ :: rest => rest

/-- `MakeKey`: the alphanumeric parts in upper case, the station without a leading network. -/
def makeKey (station location channel : Bytes) : Bytes :=
  let named := match station.dropWhile isAlnum with
    | [] => station
    | _ :: rest => rest
  (named.takeWhile isAlnum).map toUpper ++ 45 :: (location.takeWhile isAlnum).map toUpper
    ++ 45 :: (channel.takeWhile isAlnum).map toUpper

/-- A station, location and channel, as a caller passes them. -/
structure ChannelName where
  station : Bytes
  location : Bytes
  channel : Bytes
deriving DecidableEq

/-- A broadband channel of a station. -/
def bhz (station : String) : ChannelName := ⟨ascii station, ascii "00", ascii "BHZ"⟩

def ChannelName.key (x : ChannelName) : Bytes := makeKey x.station x.location x.channel

lemma makeKey_eq (station location channel : Bytes) : makeKey station location channel
    = codeOf (behindSeparator station) ++ 45 :: codeOf location ++ 45 :: codeOf channel := rfl

@[simp] lemma codeOf_nil : codeOf [] = [] := rfl

lemma isAlnum_iff (b : UInt8) : isAlnum b = true ↔ 48 ≤ b.toNat ∧ b.toNat ≤ 57 ∨
    65 ≤ b.toNat ∧ b.toNat ≤ 90 ∨ 97 ≤ b.toNat ∧ b.toNat ≤ 122 := by
  simp [isAlnum, Decimal.isDigit, UInt8.le_iff_toNat_le, or_assoc]

lemma toNat_toUpper (b : UInt8) : (toUpper b).toNat
    = if 97 ≤ b.toNat ∧ b.toNat ≤ 122 then b.toNat - 32 else b.toNat := by
  have hlower : 97 ≤ b ∧ b ≤ 122 ↔ 97 ≤ b.toNat ∧ b.toNat ≤ 122 := by
    simp [UInt8.le_iff_toNat_le]
  unfold toUpper
  simp only [hlower]
  by_cases h : 97 ≤ b.toNat ∧ b.toNat ≤ 122
  · rw [if_pos h, if_pos h]
    apply UInt8.toNat_sub_of_le
    rw [UInt8.le_iff_toNat_le]
    exact (by decide : (32 : UInt8).toNat ≤ 97).trans h.1
  · rw [if_neg h, if_neg h]

/-- Upper case of a letter or digit is one. -/
lemma isAlnum_toUpper {b : UInt8} (h : isAlnum b = true) : isAlnum (toUpper b) = true := by
  rw [isAlnum_iff] at h ⊢
  rw [toNat_toUpper]
  split_ifs <;> omega

@[simp] lemma toUpper_eq_zero_iff (b : UInt8) : toUpper b = 0 ↔ b = 0 := by
  rw [← UInt8.toNat_inj, ← UInt8.toNat_inj, toNat_toUpper]
  show _ = 0 ↔ _ = 0
  split_ifs <;> omega

lemma isAlnum_of_mem_codeOf {s : Bytes} {b : UInt8} (h : b ∈ codeOf s) : isAlnum b = true := by
  obtain ⟨c, hc, rfl⟩ := List.mem_map.mp h
  exact isAlnum_toUpper (List.mem_takeWhile_imp hc)

/-- A separator is in no code. -/
lemma notMem_codeOf {b : UInt8} (h : isAlnum b = false) (s : Bytes) : b ∉ codeOf s := by
  intro hmem
  rw [isAlnum_of_mem_codeOf hmem] at h
  cases h

@[simp] lemma codeOf_of_alnum {s : Bytes} (h : ∀ b ∈ s, isAlnum b = true) :
    codeOf s = s.map toUpper := by
  rw [codeOf, List.takeWhile_eq_self_iff.mpr h]

lemma behindSeparator_of_alnum {s : Bytes} (h : ∀ b ∈ s, isAlnum b = true) :
    behindSeparator s = s := by
  rw [behindSeparator, List.dropWhile_eq_nil_iff.mpr h]

/-! ### Keys -/

/-- Where the separator is not in the first parts, the parts are those of the whole. -/
lemma append_separator_inj {α : Type*} {a : α} {x y s t : List α} (hx : a ∉ x) (hy : a ∉ y) :
    x ++ a :: s = y ++ a :: t ↔ x = y ∧ s = t := by
  induction x generalizing y with
  | nil =>
    cases y with
    | nil => simp
    | cons c y =>
      have hne : a ≠ c := fun h => hy (h ▸ List.mem_cons_self)
      simp [hne]
  | cons b x ih =>
    have hrest : a ∉ x := fun h => hx (List.mem_cons_of_mem b h)
    cases y with
    | nil =>
      have hne : b ≠ a := fun h => hx (h ▸ List.mem_cons_self)
      simp [hne]
    | cons c y =>
      have hrest' : a ∉ y := fun h => hy (List.mem_cons_of_mem c h)
      simp [ih hrest hrest', and_assoc]

/-- Two keys are equal when the codes of the parts are. -/
lemma makeKey_eq_iff (station location channel station' location' channel' : Bytes) :
    makeKey station location channel = makeKey station' location' channel' ↔
      codeOf (behindSeparator station) = codeOf (behindSeparator station') ∧
        codeOf location = codeOf location' ∧ codeOf channel = codeOf channel' := by
  have hdash : isAlnum 45 = false := by decide
  simp only [makeKey_eq, List.append_assoc, List.cons_append]
  rw [append_separator_inj (notMem_codeOf hdash _) (notMem_codeOf hdash _),
    append_separator_inj (notMem_codeOf hdash _) (notMem_codeOf hdash _)]

/-! ### Texts -/

/-- A text of single-byte characters. -/
def textOf (s : Bytes) : String := String.ofList (s.map fun b => Char.ofNat b.toNat)

lemma textOf_injective : Function.Injective textOf := by
  have hchar : Function.Injective fun b : UInt8 => Char.ofNat b.toNat := by
    intro a b h
    have hvalid : ∀ c : UInt8, (Char.ofNat c.toNat).toNat = c.toNat := by
      intro c
      have hc : c.toNat.isValidChar := Or.inl (c.toNat_lt.trans (by decide))
      rw [Char.ofNat, dif_pos hc]
      rfl
    apply UInt8.toNat_inj.mp
    rw [← hvalid a, ← hvalid b]
    exact congrArg Char.toNat h
  intro s t h
  exact List.map_injective_iff.mpr hchar (String.ofList_injective h)

end StationProcessor
