/-
Sets of code points given as ranges with both ends included, in increasing order.
-/

namespace LedgerLexer

abbrev CodeRanges := List (Nat × Nat)

def CodeRanges.contains (ranges : CodeRanges) (code : Nat) : Bool :=
  ranges.any (fun range => decide (range.1 ≤ code) && decide (code ≤ range.2))

end LedgerLexer
