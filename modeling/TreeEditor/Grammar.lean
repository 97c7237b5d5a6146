/-! Grammars describe which trees can be edited. A slot is a kind of position, a rule is a kind of
node, and every node carries one value. Nothing here says that a grammar is sensible: `Consistent`
is the separate statement that every hole can be built. -/

namespace TreeEditor

/-- The description of a language: the rules that may stand in each slot, the slots of the children
of each rule, the value that a fresh node of a rule carries, and the rule that marks an empty
position of each slot. The last three fields give the words used for these in messages. -/
structure Grammar where
  Slot : Type
  Rule : Type
  Value : Type
  [decEqSlot : DecidableEq Slot]
  [decEqRule : DecidableEq Rule]
  [decEqValue : DecidableEq Value]
  rules : Slot → List Rule
  childSlots : Rule → List Slot
  defaultValue : Rule → Value
  holeRule : Slot → Rule
  slotName : Slot → String
  ruleName : Rule → String
  valueText : Value → String

attribute [instance] Grammar.decEqSlot Grammar.decEqRule Grammar.decEqValue

namespace Grammar

variable (G : Grammar)

/-- The number of children of a node of this rule. -/
def arity (rule : G.Rule) : Nat :=
  (G.childSlots rule).length

/-- Whether a node of this rule is an empty position of this slot. -/
def isHole (slot : G.Slot) (rule : G.Rule) : Bool :=
  G.holeRule slot = rule

/-- Every slot has a hole: its hole rule is one of its rules and has no children. -/
def Consistent : Prop :=
  ∀ slot, G.holeRule slot ∈ G.rules slot ∧ G.childSlots (G.holeRule slot) = []

end Grammar

end TreeEditor
