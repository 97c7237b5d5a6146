import TreeEditor.Exp.Build
import TreeEditor.Markup.Layout
import TreeEditor.Text.Quoted

/-! Lambda, a language with two slots: expressions, and the names that abstractions bind. -/

namespace TreeEditor.Lambda

inductive Slot where
  | exp
  | bnd
deriving DecidableEq

inductive Rule where
  | var
  | app
  | lam
  | hol
  | name
  | bndHol
deriving DecidableEq

inductive Value where
  | label (text : String)
  | unit
deriving DecidableEq

namespace Slot

def title : Slot → String
  | exp => "Exp"
  | bnd => "Bnd"

def rules : Slot → List Rule
  | exp => [.var, .app, .lam, .hol]
  | bnd => [.name, .bndHol]

def holeRule : Slot → Rule
  | exp => .hol
  | bnd => .bndHol

end Slot

namespace Rule

def title : Rule → String
  | var => "Var"
  | app => "App"
  | lam => "Lam"
  | hol => "Hol"
  | name => "Name"
  | bndHol => "BndHol"

def childSlots : Rule → List Slot
  | app => [.exp, .exp]
  | lam => [.bnd, .exp]
  | _ => []

def defaultValue : Rule → Value
  | var => .label ""
  | name => .label ""
  | _ => .unit

end Rule

namespace Value

def text : Value → String
  | label text => "Label(" ++ Text.quote text ++ ")"
  | unit => "Unit"

def label? : Value → Option String
  | label text => some text
  | unit => none

end Value

abbrev grammar : Grammar where
  Slot := Slot
  Rule := Rule
  Value := Value
  rules := Slot.rules
  childSlots := Rule.childSlots
  defaultValue := Rule.defaultValue
  holeRule := Slot.holeRule
  slotName := Slot.title
  ruleName := Rule.title
  valueText := Value.text

def var (label : String) : Exp grammar :=
  .node Slot.exp Rule.var (Value.label label) []

def hole : Exp grammar :=
  .node Slot.exp Rule.hol Value.unit []

def name (label : String) : Exp grammar :=
  .node Slot.bnd Rule.name (Value.label label) []

/-- An application; both parts must be expressions. -/
def app (function argument : Exp grammar) : Except (Fault grammar) (Exp grammar) :=
  Exp.make (G := grammar) Slot.exp Rule.app Value.unit [function, argument]

/-- An abstraction; its body must be an expression. -/
def lam (binder : String) (body : Exp grammar) : Except (Fault grammar) (Exp grammar) :=
  Exp.make (G := grammar) Slot.exp Rule.lam Value.unit [name binder, body]

/-- The function `f` on `g x`, then on `y`. -/
def sample : Except (Fault grammar) (Exp grammar) := do
  app (← app (var "f") (← app (var "g") (var "x"))) (var "y")

def layout : Layout grammar :=
  Layout.functional Value.label?

theorem grammar_consistent : grammar.Consistent := by
  intro slot
  cases slot with
  | exp => exact ⟨by simp [grammar, Slot.rules, Slot.holeRule], rfl⟩
  | bnd => exact ⟨by simp [grammar, Slot.rules, Slot.holeRule], rfl⟩

end TreeEditor.Lambda
