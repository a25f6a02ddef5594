import StationProcessor.Diskloop.Ends
import StationProcessor.Lib.Fallible

/-!
# Loops that are opened again

`adl_open` on the files an earlier run left. It finds the newest record of a loop that is not
full; on a full loop the outcome depends on bytes that happen to be on the stack, and with the
wrong ones on the search for the newest record. On a loop without records it fails.
-/

namespace StationProcessor

open Fallible

variable {n c : ℕ} {cfg : Config n} {ctx : DiskloopContext n} {ch : Channel}

/-! ### Opening existing files -/

/-- The files of a channel whose loop holds these slots, with an index file. -/
def loopFiles (slots : List (Record n)) (index capacity : ℤ) : ChannelFiles :=
  ⟨some (Blocks.layout slots), some (indexImage index capacity)⟩

section Located

variable {tempB : Bytes}

end Located

/-! ### When the newest record is found -/

end StationProcessor
