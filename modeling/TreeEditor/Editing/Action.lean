import TreeEditor.Selection.Basic

/-! The requests that an editor understands. -/

namespace TreeEditor

inductive Action (G : Grammar) where
  /-- Move the cursor; from a selection, leave it at its free end and move. -/
  | moveCursor (direction : Direction)
  /-- Start a selection, or move its free end. -/
  | moveSelect (direction : Direction)
  | setCursor (cursor : Cursor G)
  | setSelect (selection : Selection G)
  /-- Put another tree in place of the focus, or of the whole range. -/
  | replaceExp (exp : Exp G)
  /-- Put other frames in place of the selected ones, or around the focus. -/
  | replacePath (path : Path G)
  /-- Put frames around the focus and go to the first hole they bring. -/
  | insert (path : Path G)
  | undo
  | redo
  | copy
  | cut
  | paste
  | delete
  /-- Leave a selection at its free end. -/
  | escape
deriving DecidableEq

namespace Action

variable {G : Grammar}

def name : Action G → String
  | moveCursor _ => "move_cursor"
  | moveSelect _ => "move_select"
  | setCursor _ => "set_cursor"
  | setSelect _ => "set_select"
  | replaceExp _ => "replace_exp"
  | replacePath _ => "replace_path"
  | insert _ => "insert"
  | undo => "undo"
  | redo => "redo"
  | copy => "copy"
  | cut => "cut"
  | paste => "paste"
  | delete => "delete"
  | escape => "escape"

/-- The rule nearest to the root and the number of frames. -/
def describePath (path : Path G) : String :=
  match path.outermost? with
  | some f => G.ruleName f.rule ++ "+" ++ path.length.repr
  | none => "empty"

/-- The name with a hint at what the action carries. -/
def describe (a : Action G) : String :=
  match a with
  | moveCursor direction | moveSelect direction => a.name ++ ":" ++ direction.name
  | setCursor cursor => a.name ++ "@" ++ cursor.depth.repr
  | replaceExp exp => a.name ++ ":" ++ G.ruleName exp.rule
  | replacePath path | insert path => a.name ++ ":" ++ describePath path
  | _ => a.name

/-- Whether the action can be undone: it leaves an entry in the history when it is accepted. -/
def isRecorded : Action G → Bool
  | replaceExp _ | replacePath _ | insert _ | copy | cut | paste | delete => true
  | _ => false

/-- Whether the action only moves the focus. -/
def isNavigation : Action G → Bool
  | moveCursor _ | moveSelect _ | setCursor _ | setSelect _ | escape => true
  | _ => false

end Action

end TreeEditor
