import TreeEditor.Language.Alpha.Basic
import TreeEditor.Query.RuleTable
import TreeEditor.Text.Letter
import TreeEditor.Text.Number

/-! What can be typed at the focus of an Alpha program, and the change of an application's layout. -/

namespace TreeEditor.Alpha

/-- Whether a name can start with the character. -/
def startsLabel (c : Char) : Bool :=
  Text.isLetter c || c = '_'

/-- Whether a name can go on with the character. -/
def continuesLabel (c : Char) : Bool :=
  Text.isLetter c || Text.isNumber c || c = '_' || c = '\x27'

/-- Whether a text is the name of a variable. -/
def isLabel (text : String) : Bool :=
  match text.toList with
  | [] => false
  | c :: rest => startsLabel c && rest.all continuesLabel

/-- An opening parenthesis wraps the focus in an application; a name puts a variable in its place. -/
def rules : RuleTable grammar where
  inserts := fun rule _ text => rule = Rule.app && text = "("
  replaces := fun rule _ text =>
    if rule = Rule.var && isLabel text then some (Value.var text) else none

/-- The replacement of a focused application by one whose argument is laid out the other way. The
value decides whether the focus is an application. -/
def toggleIndent? (c : Cursor grammar) : Option (Action grammar) :=
  match c.exp.value with
  | Value.app indented => some (.replaceExp (c.exp.withValue (Value.app (!indented))))
  | _ => none

end TreeEditor.Alpha
