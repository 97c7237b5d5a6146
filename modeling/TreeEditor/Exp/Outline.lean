import TreeEditor.Exp.Basic

/-! Two texts of a tree for inspection: `summary` on one line and `outline` with one line for each
node. Both name the rule and the value of every node; neither shows slots. -/

namespace TreeEditor

/-- Items in brackets, with a comma and a blank between them. -/
def bracketed (items : List String) : String :=
  "[" ++ ", ".intercalate items ++ "]"

/-- The blanks in front of a line at this depth. -/
def indentation (depth : Nat) : String :=
  String.ofList (List.replicate (4 * depth) ' ')

/-- Put the indentation of this depth after every line end of the text. -/
def hang (depth : Nat) (text : String) : String :=
  String.ofList <| text.toList.flatMap fun c =>
    if c = '\n' then c :: List.replicate (4 * depth) ' ' else [c]

namespace Exp

variable {G : Grammar}

/-- The rule and value of a node. -/
def label (rule : G.Rule) (value : G.Value) : String :=
  G.ruleName rule ++ "(" ++ G.valueText value ++ ")"

mutual

/-- One line: the label, then the children in brackets if there are any. -/
def summary : Exp G → String
  | node _ rule value [] => label rule value
  | node _ rule value (e :: rest) => label rule value ++ bracketed (e.summary :: summaries rest)

def summaries : List (Exp G) → List String
  | [] => []
  | e :: rest => e.summary :: summaries rest

end

mutual

/-- The outline of a tree whose first line already stands at the given depth. -/
def outlineAt : Nat → Exp G → String
  | depth, node _ rule value [] => hang depth (label rule value)
  | depth, node _ rule value (e :: rest) =>
      hang depth (label rule value) ++ "[\n" ++
        (indentation (depth + 1) ++ outlineAt (depth + 1) e ++ ",\n" ++
          outlinesAt (depth + 1) rest) ++ indentation depth ++ "]"

/-- Outlines of siblings, each on lines of its own and followed by a comma. -/
def outlinesAt : Nat → List (Exp G) → String
  | _, [] => ""
  | depth, e :: rest =>
      indentation depth ++ outlineAt depth e ++ ",\n" ++ outlinesAt depth rest

end

/-- A tree with one line for each node, children indented by four blanks. -/
def outline (e : Exp G) : String :=
  e.outlineAt 0

end Exp

end TreeEditor
