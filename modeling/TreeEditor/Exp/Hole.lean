import TreeEditor.Exp.Basic

/-! The search for the first empty position of a tree. -/

namespace TreeEditor

/-- What is left of a route after its first step, provided that step goes to child `index`. -/
def Route.under? (index : Nat) : Option Route → Option Route
  | some (first :: rest) => if first = index then some rest else none
  | _ => none

namespace Exp

variable {G : Grammar}

def isHole (e : Exp G) : Bool :=
  G.isHole e.slot e.rule

mutual

/-- The route to the first hole in pre-order, leaving out the whole subtree at the route `skip`.
The children of a hole are not searched. -/
def firstHole : Option Route → Exp G → Option Route
  | skip, node slot rule _ children =>
      if skip = some [] then none
      else if G.isHole slot rule then some []
      else firstHoleAmong skip 0 children

/-- The same search through siblings, the first of which is child `index`. -/
def firstHoleAmong : Option Route → Nat → List (Exp G) → Option Route
  | _, _, [] => none
  | skip, index, e :: rest =>
      match firstHole (Route.under? index skip) e with
      | some route => some (index :: route)
      | none => firstHoleAmong skip (index + 1) rest

end

end Exp

end TreeEditor
