import TreeEditor.Editing.Editor
import TreeEditor.Text.Blank

/-! Queries: text typed at the focus that stands for one of several candidate actions. -/

namespace TreeEditor

variable {G : Grammar}

/-- The typed text and which candidate is wanted. The index may be any 64-bit integer; it is taken
modulo the number of candidates. -/
structure Query where
  text : String
  index : Int64 := 0
deriving DecidableEq

namespace Query

def isBlank (q : Query) : Bool :=
  Text.isBlank q.text

/-- Go on to another candidate. The index wraps around in 64 bits. -/
def cycle (q : Query) (delta : Int64) : Query :=
  { q with index := q.index + delta }

/-- The place of the wanted candidate among `count`. There is none among no candidates, nor among
more than a signed 64-bit integer can count. -/
def position? (q : Query) (count : Nat) : Option Nat :=
  if 0 < count ∧ count ≤ Int64.maxValue.toInt then some (q.index.toInt % count).toNat else none

end Query

/-- The candidate actions for a text. -/
abbrev Resolver (G : Grammar) := State G → String → Except (Fault G) (List (Action G))

namespace Resolver

/-- The candidates for a text; blank text has none. -/
def candidates (r : Resolver G) (s : State G) (text : String) :
    Except (Fault G) (List (Action G)) :=
  if Text.isBlank text then .ok [] else r s text

/-- The candidate that a query asks for. -/
def resolve? (r : Resolver G) (s : State G) (q : Query) : Except (Fault G) (Option (Action G)) := do
  let actions ← r.candidates s q.text
  return (q.position? actions.length).bind (actions[·]?)

end Resolver

/-- Apply the candidate that a query asks for. -/
def Editor.applyQuery (ed : Editor G) (r : Resolver G) (s : State G) (q : Query) :
    Except (Refusal G) (State G) := do
  match ← r.resolve? s q with
  | some action => ed.apply s action
  | none => .error (.rejected .noCandidate)

end TreeEditor
