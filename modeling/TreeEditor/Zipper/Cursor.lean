import TreeEditor.Direction
import TreeEditor.Zipper.Path

/-! Cursors: a tree seen from one of its nodes. -/

namespace TreeEditor

/-- The node in focus and the path that rebuilds everything above it. -/
structure Cursor (G : Grammar) where
  path : Path G
  exp : Exp G
deriving DecidableEq

namespace Cursor

variable {G : Grammar}

/-- The cursor on the root of a tree. -/
def root (e : Exp G) : Cursor G :=
  ⟨[], e⟩

/-- The whole tree. -/
def tree (c : Cursor G) : Exp G :=
  c.path.plug c.exp

def toRoot (c : Cursor G) : Cursor G :=
  root c.tree

def depth (c : Cursor G) : Nat :=
  c.path.length

/-- The same position with another tree in it. -/
def withExp (c : Cursor G) (e : Exp G) : Cursor G :=
  ⟨c.path, e⟩

def up? (c : Cursor G) : Option (Cursor G) :=
  match c.path with
  | [] => none
  | f :: outer => some ⟨outer, f.plug c.exp⟩

def down? (c : Cursor G) (index : Nat) : Option (Cursor G) :=
  (c.exp.split? index).map fun (f, e) => ⟨f :: c.path, e⟩

def left? (c : Cursor G) : Option (Cursor G) :=
  match c.path with
  | [] => none
  | f :: outer =>
      match f.left with
      | [] => none
      | e :: left => some ⟨{ f with left, right := c.exp :: f.right } :: outer, e⟩

def right? (c : Cursor G) : Option (Cursor G) :=
  match c.path with
  | [] => none
  | f :: outer =>
      match f.right with
      | [] => none
      | e :: right => some ⟨{ f with left := c.exp :: f.left, right } :: outer, e⟩

/-- One move; going down enters the first child. -/
def step? (c : Cursor G) : Direction → Option (Cursor G)
  | .up => c.up?
  | .down => c.down? 0
  | .left => c.left?
  | .right => c.right?

/-- Go down along a route. -/
def descend? : Cursor G → Route → Option (Cursor G)
  | c, [] => some c
  | c, index :: rest => (c.down? index).bind (·.descend? rest)

/-- The cursor at a route that is promised to stay in the tree. -/
def atRoute (e : Exp G) (route : Route) : Except (Fault G) (Cursor G) :=
  match (root e).descend? route with
  | some c => .ok c
  | none => .error (.offTree route)

/-- The slot that the position asks for. At the root this is the slot of the node there. -/
def requiredSlot (c : Cursor G) : Except (Fault G) G.Slot :=
  c.path.focusSlot?.map (·.getD c.exp.slot)

/-- Whether the frames fit into one another and the focus fits into the innermost. -/
def wellFormed (c : Cursor G) : Except (Fault G) Bool := do
  if ← c.path.wellFormed then
    return c.exp.slot = (← c.requiredSlot)
  else
    return false

end Cursor

end TreeEditor
