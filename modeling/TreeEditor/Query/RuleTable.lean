import TreeEditor.Query.Basic

/-! A resolver given rule by rule: the texts that wrap the focus in a rule, and the texts that replace
it by a rule. -/

namespace TreeEditor

/-- For each rule, whether a text asks to wrap the focus in it, and the value that a text gives to a
node of the rule put in place of the focus. -/
structure RuleTable (G : Grammar) where
  inserts : G.Rule → Cursor G → String → Bool := fun _ _ _ => false
  replaces : G.Rule → Cursor G → String → Option G.Value := fun _ _ _ => none

namespace RuleTable

variable {G : Grammar}

/-- Let the texts that satisfy a test wrap the focus in a rule. An earlier test of that rule is
forgotten. -/
def insertWhen (t : RuleTable G) (rule : G.Rule) (test : Cursor G → String → Bool) :
    RuleTable G :=
  { t with inserts := fun r => if r = rule then test else t.inserts r }

/-- Let the texts that have a value put a node of a rule in place of the focus. What the rule
accepted earlier is forgotten. -/
def replaceWith (t : RuleTable G) (rule : G.Rule) (read : Cursor G → String → Option G.Value) :
    RuleTable G :=
  { t with replaces := fun r => if r = rule then read else t.replaces r }

/-- The child positions of a rule that ask for this slot. -/
def positions (rule : G.Rule) (slot : G.Slot) : List Nat :=
  (List.range (G.arity rule)).filter fun index => (G.childSlots rule)[index]? = some slot

/-- One way to wrap the focus for each child position that takes its slot. -/
def insertions (slot : G.Slot) (rule : G.Rule) : Except (Fault G) (List (Action G)) :=
  (positions rule slot).mapM fun index => do
    return .insert [← Frame.template slot rule (G.defaultValue rule) index]

/-- The replacement by the first rule that has a value for the text. -/
def replacements (t : RuleTable G) (c : Cursor G) (text : String) :
    List G.Rule → Except (Fault G) (List (Action G))
  | [] => .ok []
  | rule :: rest =>
      match t.replaces rule c text with
      | some value => do return [.replaceExp (← Exp.template c.exp.slot rule value)]
      | none => t.replacements c text rest

/-- The first rule of the focus's slot that is asked to wrap it gives all candidates, even if there
are none. Without such a rule, the first rule that has a value for the text gives one. -/
def candidatesAt (t : RuleTable G) (c : Cursor G) (text : String) :
    Except (Fault G) (List (Action G)) :=
  match (G.rules c.exp.slot).find? fun rule => t.inserts rule c text with
  | some rule => insertions c.exp.slot rule
  | none => t.replacements c text (G.rules c.exp.slot)

/-- The resolver of a table. A selection has no candidates. -/
def resolver (t : RuleTable G) : Resolver G := fun s text =>
  match s.mode with
  | .cursor c => t.candidatesAt c text
  | .select _ => .ok []

end RuleTable

end TreeEditor
