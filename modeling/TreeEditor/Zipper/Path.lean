import TreeEditor.Zipper.Frame

/-! Paths: the frames from a position up to the root, innermost first. A path grows at its inner end
only, one frame at a time, so what changes its outer end builds the path anew. -/

namespace TreeEditor

abbrev Path (G : Grammar) := List (Frame G)

namespace Path

variable {G : Grammar}

/-- The frame around the open position. -/
def innermost? (p : Path G) : Option (Frame G) :=
  p.head?

/-- The frame nearest to the root. -/
def outermost? (p : Path G) : Option (Frame G) :=
  p.getLast?

/-- The path with one more frame, inside all the others. Every path comes about by as many pushes
as it is long. -/
def push (p : Path G) (f : Frame G) : Path G :=
  f :: p

/-- The path inside another one. Its frames are pushed onto the outer path, beginning with the one
nearest to the root. -/
def append (p outer : Path G) : Path G :=
  if outer.isEmpty then p else p.reverse.foldl push outer

/-- The outermost frame and the path inside it. -/
def splitOutermost? (p : Path G) : Option (Frame G × Path G) :=
  match p.reverse with
  | [] => none
  | f :: inner => some (f, inner.foldl push [])

/-- The child indices from the root down to the open position. -/
def route (p : Path G) : Route :=
  (p.map Frame.index).reverse

/-- Put a tree into the open position and rebuild every node above it. -/
def plug : Path G → Exp G → Exp G
  | [], e => e
  | f :: outer, e => plug outer (f.plug e)

/-- The slot that the open position asks for; there is none if the path is empty. -/
def focusSlot? : Path G → Except (Fault G) (Option G.Slot)
  | [] => .ok none
  | f :: _ => f.holeSlot.map some

/-- Whether every rule belongs to its slot and every frame fits into the one outside it, given the
slot of the node below the first frame. With no slot given the first frame may hold anything. -/
def chains : Option G.Slot → Path G → Except (Fault G) Bool
  | _, [] => .ok true
  | none, f :: outer =>
      if f.rule ∈ G.rules f.slot then chains (some f.slot) outer else .ok false
  | some inner, f :: outer =>
      if f.rule ∈ G.rules f.slot then do
        if inner = (← f.holeSlot) then chains (some f.slot) outer else .ok false
      else .ok false

/-- Whether every rule belongs to its slot and every frame fits into the one outside it. What stands
in the innermost position, and the siblings in the frames, are not looked at. -/
def wellFormed (p : Path G) : Except (Fault G) Bool :=
  chains none p

def summary (p : Path G) : String :=
  bracketed (p.map Frame.summary)

end Path

end TreeEditor
