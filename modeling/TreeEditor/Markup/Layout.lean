import TreeEditor.Markup.Node

/-! The text of marked trees. A language says how a node is laid out; the marks are the same for all
languages. -/

namespace TreeEditor

/-- How a language writes a node from the texts of its children. Before that, `kid` may change the
text of a child, given the rule of the parent, the index of the child and its rule. -/
structure Layout (G : Grammar) where
  node : G.Rule → G.Value → List String → String
  kid : G.Rule → Nat → G.Rule → String → String := fun _ _ _ text => text

variable {G : Grammar}

/-- Function notation: the rule, a colon and the text of the value if it has one, and the children
in parentheses. -/
def Layout.functional (valueText? : G.Value → Option String) : Layout G where
  node rule value kids :=
    G.ruleName rule ++
      (match valueText? value with
        | some text => ":" ++ text
        | none => "") ++
      (if kids.isEmpty then "" else "(" ++ ",".intercalate kids ++ ")")

namespace Node

mutual

/-- The text of a marked tree. The cursor stands in braces, the ends of a selection in numbered
braces, and a preview in angle brackets. -/
def print (l : Layout G) : Node G → String
  | exp _ rule value kids => l.node rule value (printKids l rule 0 kids)
  | cursor kid => "\x7b" ++ kid.print l ++ "\x7d"
  | top _ kid => "[0]\x7b" ++ kid.print l ++ "\x7d[0]"
  | bottom kid => "[1]\x7b" ++ kid.print l ++ "\x7d[1]"
  | replace preview kid => "<" ++ preview.print l ++ "|" ++ kid.print l ++ ">"
  | insert kid => "<" ++ kid.print l ++ ">"
  | invalid text kid => "<?" ++ text ++ "|" ++ kid.print l ++ ">"

/-- The texts of siblings, the first of which is child `index` of a node of rule `parent`. -/
def printKids (l : Layout G) (parent : G.Rule) : Nat → List (Node G) → List String
  | _, [] => []
  | index, n :: rest =>
      l.kid parent index n.rule (n.print l) :: printKids l parent (index + 1) rest

end

end Node

end TreeEditor
