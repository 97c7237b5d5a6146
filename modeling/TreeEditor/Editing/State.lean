import TreeEditor.History
import TreeEditor.Selection.Basic

/-! What an editor holds between two actions. -/

namespace TreeEditor

variable {G : Grammar}

/-- Where work is done: at one position, or on a range. -/
inductive Mode (G : Grammar) where
  | cursor (cursor : Cursor G)
  | select (selection : Selection G)
deriving DecidableEq

namespace Mode

def name : Mode G → String
  | cursor _ => "cursor"
  | select _ => "select"

/-- The cursor, or the free end of the selection. -/
def focus : Mode G → Cursor G
  | cursor c => c
  | select s => s.free

/-- The cursor, or the top end of the selection: the position that an edit changes. -/
def target : Mode G → Cursor G
  | cursor c => c
  | select s => s.top

def tree : Mode G → Exp G
  | cursor c => c.tree
  | select s => s.tree

end Mode

/-- Material that was copied or cut. -/
inductive Clipboard (G : Grammar) where
  | empty
  /-- A tree, taken from a cursor. -/
  | exp (exp : Exp G)
  /-- Frames, taken from a selection. -/
  | path (path : Path G)
deriving DecidableEq

/-- The part of a state that undo and redo bring back. -/
structure Snapshot (G : Grammar) where
  mode : Mode G
  clipboard : Clipboard G
deriving DecidableEq

structure State (G : Grammar) where
  mode : Mode G
  clipboard : Clipboard G
  history : History (Snapshot G)
deriving DecidableEq

namespace State

/-- The state at the start of a session. -/
def start (mode : Mode G) (historyLimit : Nat) : State G :=
  ⟨mode, .empty, .new historyLimit⟩

def tree (s : State G) : Exp G :=
  s.mode.tree

def snapshot (s : State G) : Snapshot G :=
  ⟨s.mode, s.clipboard⟩

end State

end TreeEditor
