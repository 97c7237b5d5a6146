import TreeEditor.Markup.Layout
import TreeEditor.Text.Quoted

/-! Grammars given as data. Slots and rules are names, and a value is a text or nothing. -/

namespace TreeEditor

/-- What a table says about a slot. -/
structure Table.SlotEntry where
  name : String
  rules : List String
  holeRule : String

/-- What a table says about a rule. -/
structure Table.RuleEntry where
  name : String
  childSlots : List String
  defaultValue : Option String

/-- The entries of a grammar. Nothing asks the entries to agree with one another. -/
structure Table where
  slots : List Table.SlotEntry
  rules : List Table.RuleEntry

namespace Table

def slot? (t : Table) (name : String) : Option SlotEntry :=
  t.slots.find? (·.name = name)

def rule? (t : Table) (name : String) : Option RuleEntry :=
  t.rules.find? (·.name = name)

def valueText : Option String → String
  | some text => "Some(" ++ Text.quote text ++ ")"
  | none => "None"

/-- The grammar of a table. A slot without an entry has no rules, a rule without one has no
children. -/
abbrev grammar (t : Table) : Grammar where
  Slot := String
  Rule := String
  Value := Option String
  rules := fun slot => ((t.slot? slot).map (·.rules)).getD []
  childSlots := fun rule => ((t.rule? rule).map (·.childSlots)).getD []
  defaultValue := fun rule => (t.rule? rule).bind (·.defaultValue)
  holeRule := fun slot => ((t.slot? slot).map (·.holeRule)).getD ""
  slotName := id
  ruleName := id
  valueText := valueText

def layout (t : Table) : Layout t.grammar :=
  Layout.functional id

end Table

end TreeEditor
