import TreeEditor.Selection.Basic

/-! Moving the free end of a selection by one step. The fixed end and the tree stay. -/

namespace TreeEditor

/-- What a move of the free end gives: another range, or one position when the ends meet. -/
inductive Moved (G : Grammar) where
  | range (selection : Selection G)
  | collapsed (cursor : Cursor G)
deriving DecidableEq

namespace Selection

variable {G : Grammar}

/-- Move the top end. It can only go up or down along the line between the root and the bottom. -/
def moveTop? (s : Selection G) : Direction → Option (Moved G)
  | .up =>
      match s.above with
      | [] => none
      | f :: above => some (.range ⟨above, s.below.append [f], s.exp, .top⟩)
  | .down =>
      match s.below.splitOutermost? with
      | none => none
      | some (f, []) => some (.collapsed ⟨f :: s.above, s.exp⟩)
      | some (f, below) => some (.range ⟨f :: s.above, below, s.exp, .top⟩)
  | .left => none
  | .right => none

/-- Move the bottom end. It goes where a cursor would go that sees the top end as the root. -/
def moveBottom? (s : Selection G) (direction : Direction) : Option (Moved G) :=
  match (Cursor.mk s.below s.exp).step? direction with
  | none => none
  | some ⟨[], e⟩ => some (.collapsed ⟨s.above, e⟩)
  | some ⟨below, e⟩ => some (.range ⟨s.above, below, e, .bottom⟩)

/-- Move the free end. There is no result if that would leave the tree or the line between the
two ends. -/
def move? (s : Selection G) (direction : Direction) : Option (Moved G) :=
  match s.freeEnd with
  | .top => s.moveTop? direction
  | .bottom => s.moveBottom? direction

end Selection

end TreeEditor
