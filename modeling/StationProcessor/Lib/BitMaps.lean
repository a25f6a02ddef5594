import Mathlib.Data.BitVec
import Mathlib.Tactic

/-!
# Bit maps in words

A map of bits kept in words of 32 bits: bit `i` is bit `i % 32` of word `i / 32`.
-/

namespace BitMap

variable {words : ℕ} [NeZero words]

/-- The word of a bit. -/
def word (words : ℕ) [NeZero words] (i : ℕ) : Fin words := Fin.ofNat words (i / 32)

/-- Bit `i` of the map. -/
def bit (map : Fin words → BitVec 32) (i : ℕ) : Bool := (map (word words i)).getLsbD (i % 32)

/-- Set bit `i` of the map. -/
def mark (map : Fin words → BitVec 32) (i : ℕ) : Fin words → BitVec 32 :=
  Function.update map (word words i) (map (word words i) ||| (1#32 <<< (i % 32)))

/-- Set the bits of a list that are to be set, one by one. -/
def markAll (sel : ℕ → Bool) (is : List ℕ) (map : Fin words → BitVec 32) :
    Fin words → BitVec 32 :=
  is.foldl (fun map i => if sel i then mark map i else map) map

end BitMap
