import TreeEditor.Language.Alpha.Basic
import TreeEditor.Markup.Layout

/-! The text of Alpha programs. -/

namespace TreeEditor.Alpha

/-- Put two blanks after every line end. -/
def indent (text : String) : String :=
  String.ofList (text.toList.flatMap fun c => if c = '\n' then ['\n', ' ', ' '] else [c])

/-- How the value of a node is laid out. An application without exactly two children shows as
a hole. -/
def layoutNode : Value → List String → String
  | .var label, _ => label
  | .app true, [function, argument] => function ++ "\n  " ++ indent argument
  | .app false, [function, argument] => function ++ " " ++ argument
  | .app _, _ => "?"
  | .hol, _ => "?"

/-- An application inside an application stands in parentheses. -/
def layoutKid : Rule → Rule → String → String
  | .app, .app, text => "(" ++ text ++ ")"
  | _, _, text => text

def layout : Layout grammar where
  node := fun _ value kids => layoutNode value kids
  kid := fun parent _ kid text => layoutKid parent kid text

end TreeEditor.Alpha
