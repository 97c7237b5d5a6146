import TreeEditor.Exp.Build
import TreeEditor.Text.Quoted

/-! Alpha, a language of variables, applications and holes. -/

namespace TreeEditor.Alpha

/-- Every position of Alpha takes every rule. -/
inductive Slot where
  | exp
deriving DecidableEq

inductive Rule where
  | var
  | app
  | hol
deriving DecidableEq

/-- What a node carries: the name of a variable, or whether the argument of an application stands on
a line of its own. -/
inductive Value where
  | var (label : String)
  | app (indented : Bool)
  | hol
deriving DecidableEq

namespace Rule

def name : Rule → String
  | var => "Var"
  | app => "App"
  | hol => "Hol"

def childSlots : Rule → List Slot
  | var => []
  | app => [.exp, .exp]
  | hol => []

def defaultValue : Rule → Value
  | var => .var ""
  | app => .app false
  | hol => .hol

end Rule

def Value.text : Value → String
  | var label => "Var \x7b label: " ++ Text.quote label ++ " \x7d"
  | app indented => "App \x7b indented_arg: " ++ (if indented then "true" else "false") ++ " \x7d"
  | hol => "Hol"

abbrev grammar : Grammar where
  Slot := Slot
  Rule := Rule
  Value := Value
  rules := fun _ => [.var, .app, .hol]
  childSlots := Rule.childSlots
  defaultValue := Rule.defaultValue
  holeRule := fun _ => .hol
  slotName := fun _ => "Exp"
  ruleName := Rule.name
  valueText := Value.text

def var (label : String) : Exp grammar :=
  .node Slot.exp Rule.var (Value.var label) []

/-- An application with its argument on the same line. -/
def app (function argument : Exp grammar) : Exp grammar :=
  .node Slot.exp Rule.app (Value.app false) [function, argument]

def hole : Exp grammar :=
  .node Slot.exp Rule.hol Value.hol []

theorem hole_eq : Exp.hole (G := grammar) Slot.exp = .ok hole := rfl

theorem grammar_consistent : grammar.Consistent := by
  intro slot
  exact ⟨by simp, rfl⟩

end TreeEditor.Alpha
