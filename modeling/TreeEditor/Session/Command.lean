import TreeEditor.Language.Alpha.Basic
import TreeEditor.Query.Basic
import TreeEditor.Text.Lines
import TreeEditor.Text.Numeral

/-! The lines that a user types. A line that starts with a colon names a command, one that starts with
a question mark previews a query, and any other line is a query. A query may end in `#` and the
index of the candidate wanted. -/

namespace TreeEditor

inductive Command where
  | apply (action : Action Alpha.grammar)
  /-- Lay out the focused application the other way. -/
  | indent
  /-- Go to the root. -/
  | root
  | quit
  | preview (query : Query)
  | query (query : Query)
deriving DecidableEq

inductive CommandError where
  | unknown (name : String)
  | emptyQuery
deriving DecidableEq

def CommandError.message : CommandError → String
  | unknown name => "unknown command ':" ++ name ++ "'"
  | emptyQuery => "empty query"

namespace Command

def named (name : String) : Except CommandError Command :=
  match name with
  | "up" => .ok (.apply (.moveCursor .up))
  | "down" => .ok (.apply (.moveCursor .down))
  | "left" => .ok (.apply (.moveCursor .left))
  | "right" => .ok (.apply (.moveCursor .right))
  | "sup" => .ok (.apply (.moveSelect .up))
  | "sdown" => .ok (.apply (.moveSelect .down))
  | "sleft" => .ok (.apply (.moveSelect .left))
  | "sright" => .ok (.apply (.moveSelect .right))
  | "esc" => .ok (.apply .escape)
  | "undo" => .ok (.apply .undo)
  | "redo" => .ok (.apply .redo)
  | "copy" => .ok (.apply .copy)
  | "cut" => .ok (.apply .cut)
  | "paste" => .ok (.apply .paste)
  | "delete" => .ok (.apply .delete)
  | "indent" => .ok .indent
  | "root" => .ok .root
  | "quit" => .ok .quit
  | "q" => .ok .quit
  | name => .error (.unknown name)

/-- Cut off the index at the end of a query. Without text before the `#`, or without a 64-bit integer
after it, the whole line is the text of the query. -/
def splitIndex (line : List Char) : Query :=
  match Text.splitLast? '#' line with
  | some (text, index) =>
      match text, Text.int64? index with
      | _ :: _, some index => ⟨String.ofList text, index⟩
      | _, _ => ⟨String.ofList line, 0⟩
  | none => ⟨String.ofList line, 0⟩

/-- The query of a line. A blank text is refused. -/
def readQuery (line : List Char) : Except CommandError Query :=
  if (splitIndex line).isBlank then .error .emptyQuery else .ok (splitIndex line)

def parse (line : String) : Except CommandError Command :=
  match line.toList with
  | ':' :: name => named (Text.trim (String.ofList name))
  | '?' :: text => (readQuery text).map .preview
  | text => (readQuery text).map .query

end Command

end TreeEditor
