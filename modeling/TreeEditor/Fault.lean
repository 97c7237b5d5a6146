import TreeEditor.Exp.Basic

/-! What can go wrong when trees are built. A `NodeError` says why parts do not make a node. A
`Fault` is a broken promise: a grammar whose holes cannot be built, or a caller that names a
position that does not exist. Faults are kept apart from the reasons for which an edit is refused,
so that their absence can be stated. -/

namespace TreeEditor

variable {G : Grammar}

/-- The first reason for which a slot, a rule and children do not make a node. -/
inductive NodeError (G : Grammar) where
  /-- The rule is not one of the slot's rules. -/
  | foreignRule (rule : G.Rule) (slot : G.Slot)
  /-- The rule takes another number of children. -/
  | arity (rule : G.Rule) (expected got : Nat)
  /-- The child at this index fills another slot than the rule asks for. -/
  | childSlot (rule : G.Rule) (index : Nat) (expected got : G.Slot)
deriving DecidableEq

namespace NodeError

def message : NodeError G → String
  | foreignRule rule slot =>
      "rule " ++ G.ruleName rule ++ " does not belong to slot " ++ G.slotName slot
  | arity rule expected got =>
      "rule " ++ G.ruleName rule ++ " expects " ++ expected.repr ++ " children, got " ++ got.repr
  | childSlot rule index expected got =>
      "child " ++ index.repr ++ " of rule " ++ G.ruleName rule ++ " has slot " ++
        G.slotName got ++ ", expected " ++ G.slotName expected

end NodeError

/-- A list of numbers in brackets, as messages show a route. -/
def Route.text (route : Route) : String :=
  "[" ++ ", ".intercalate (route.map Nat.repr) ++ "]"

/-- A promise that the grammar or a caller did not keep. -/
inductive Fault (G : Grammar) where
  /-- The hole rule of the slot has children. -/
  | holeWithChildren (rule : G.Rule) (slot : G.Slot)
  /-- A frame was asked for at a position that the rule does not have. -/
  | noPosition (rule : G.Rule) (index : Nat)
  /-- A frame has more left siblings than its rule has children. -/
  | beyondSignature (length index : Nat)
  /-- Parts that do not make a node. -/
  | malformed (error : NodeError G)
  /-- The route ends outside the tree. -/
  | offTree (route : Route)
deriving DecidableEq

namespace Fault

def message : Fault G → String
  | holeWithChildren rule slot =>
      "hole rule " ++ G.ruleName rule ++ " of slot " ++ G.slotName slot ++
        " must have no children"
  | noPosition rule index =>
      "rule " ++ G.ruleName rule ++ " has no child position " ++ index.repr
  | beyondSignature length index =>
      "index out of bounds: the len is " ++ length.repr ++ " but the index is " ++ index.repr
  | malformed error => "malformed expression: " ++ error.message
  | offTree route => "route " ++ route.text ++ " leaves the tree"

end Fault

end TreeEditor
