/-!
# Sets of characters given by spans

Classes of characters are kept as ascending lists of closed spans of code points.
-/

namespace QueryGate
namespace Text

/-- Whether a span of the list holds the code point.  The spans ascend, so the search stops at
the first span that ends at or after it. -/
def inSpans : List (Nat × Nat) → Nat → Bool
  | [], _ => false
  | (low, high) :: rest, n => if n ≤ high then decide (low ≤ n) else inSpans rest n

end Text
end QueryGate
