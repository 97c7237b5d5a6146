import TreeEditor.Fault

/-! Checked construction of nodes, holes, and nodes whose children are all holes. -/

namespace TreeEditor.Exp

variable {G : Grammar}

/-- The first child, counted from `index`, whose slot is not the one asked for, with the slot
expected there and the slot found. Children without a partner are not looked at. -/
def misplaced? : Nat → List G.Slot → List (Exp G) → Option (Nat × G.Slot × G.Slot)
  | index, slot :: slots, e :: rest =>
      if slot = e.slot then misplaced? (index + 1) slots rest else some (index, slot, e.slot)
  | _, _, _ => none

/-- Build a node if its parts agree with the grammar. The rule is checked first, then the number of
children, then their slots from left to right. Only the node itself is checked. -/
def build? (slot : G.Slot) (rule : G.Rule) (value : G.Value) (children : List (Exp G)) :
    Except (NodeError G) (Exp G) :=
  if rule ∉ G.rules slot then
    .error (.foreignRule rule slot)
  else if children.length ≠ G.arity rule then
    .error (.arity rule (G.arity rule) children.length)
  else
    match misplaced? 0 (G.childSlots rule) children with
    | some (index, expected, got) => .error (.childSlot rule index expected got)
    | none => .ok (node slot rule value children)

/-- Build a node from parts that are promised to agree with the grammar. -/
def make (slot : G.Slot) (rule : G.Rule) (value : G.Value) (children : List (Exp G)) :
    Except (Fault G) (Exp G) :=
  (build? slot rule value children).mapError .malformed

/-- The empty position of a slot. Whether the slot lists its hole rule is not checked. -/
def hole (slot : G.Slot) : Except (Fault G) (Exp G) :=
  if G.arity (G.holeRule slot) = 0 then
    .ok (node slot (G.holeRule slot) (G.defaultValue (G.holeRule slot)) [])
  else
    .error (.holeWithChildren (G.holeRule slot) slot)

/-- A node of this rule whose children are all holes. -/
def template (slot : G.Slot) (rule : G.Rule) (value : G.Value) : Except (Fault G) (Exp G) := do
  make slot rule value (← (G.childSlots rule).mapM hole)

end TreeEditor.Exp
