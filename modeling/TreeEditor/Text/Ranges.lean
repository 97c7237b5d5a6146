/-! Character classes given as intervals of code points. -/

namespace TreeEditor.Text

/-- Inclusive intervals of code points, in increasing order and without overlap. -/
abbrev Ranges := List (Nat × Nat)

/-- Whether an interval holds the code point. The search stops at the first interval that starts
above it, so the intervals have to be in order. -/
def Ranges.cover : Ranges → Nat → Bool
  | [], _ => false
  | (first, last) :: rest, n =>
      if n < first then false else if n ≤ last then true else Ranges.cover rest n

end TreeEditor.Text
