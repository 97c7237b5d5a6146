import TreeEditor.Zipper.Cursor

/-! Selections: the frames between a node and one of its descendants, with one end that moves. -/

namespace TreeEditor

/-- The two ends of a selection. -/
inductive End where
  | top
  | bottom
deriving DecidableEq

def End.other : End → End
  | top => bottom
  | bottom => top

/-- The range between two nodes of a tree, one above the other. `above` leads from the root to the
top end, `below` from there to the bottom end, where `exp` stands. Nothing here keeps `below`
from being empty. -/
structure Selection (G : Grammar) where
  above : Path G
  below : Path G
  exp : Exp G
  freeEnd : End
deriving DecidableEq

namespace Selection

variable {G : Grammar}

/-- The cursor on the top end. -/
def top (s : Selection G) : Cursor G :=
  ⟨s.above, s.below.plug s.exp⟩

/-- The cursor on the bottom end. -/
def bottom (s : Selection G) : Cursor G :=
  ⟨s.below.append s.above, s.exp⟩

/-- The cursor on the end that moves. -/
def free (s : Selection G) : Cursor G :=
  match s.freeEnd with
  | .top => s.top
  | .bottom => s.bottom

/-- The cursor on the end that stays. -/
def fixed (s : Selection G) : Cursor G :=
  match s.freeEnd with
  | .top => s.bottom
  | .bottom => s.top

/-- Leaving a selection keeps the end that moves. -/
def escape (s : Selection G) : Cursor G :=
  s.free

/-- The same range with the other end free. -/
def flipped (s : Selection G) : Selection G :=
  { s with freeEnd := s.freeEnd.other }

/-- The whole tree. -/
def tree (s : Selection G) : Exp G :=
  s.above.plug (s.below.plug s.exp)

/-- Whether all frames fit into one another and the bottom tree fits into the innermost. -/
def wellFormed (s : Selection G) : Except (Fault G) Bool :=
  s.bottom.wellFormed

/-- The slot of the node at the top end. -/
def topSlot (s : Selection G) : G.Slot :=
  match s.below.outermost? with
  | some f => f.slot
  | none => s.exp.slot

end Selection

end TreeEditor
