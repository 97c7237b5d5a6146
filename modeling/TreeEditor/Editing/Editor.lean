import TreeEditor.Editing.Action
import TreeEditor.Editing.Rejection
import TreeEditor.Editing.State
import TreeEditor.Exp.Hole
import TreeEditor.Selection.Move
import TreeEditor.Selection.Span

/-! The editor: what each action does to a state, or why it is refused. -/

namespace TreeEditor

variable {G : Grammar}

/-- What the host of an editor decides: which selections are allowed, and how many changes can be
undone. -/
structure Editor (G : Grammar) where
  accepts : Selection G → Bool := fun _ => true
  historyLimit : Nat := History.defaultLimit

/-- What an accepted action does to a state. -/
inductive Effect (G : Grammar) where
  /-- Record the state and go on with this one. -/
  | edit (next : Snapshot G)
  /-- Move to another position without a record. -/
  | navigate (mode : Mode G)
  | undo
  | redo
deriving DecidableEq

/-- The state after an effect. Only undo and redo can be refused here. -/
def State.commit (s : State G) : Effect G → Except (Refusal G) (State G)
  | .edit next => .ok ⟨next.mode, next.clipboard, s.history.record s.snapshot⟩
  | .navigate mode => .ok { s with mode, history := s.history.clearFuture }
  | .undo =>
      match s.history.undo? s.snapshot with
      | some (previous, history) => .ok ⟨previous.mode, previous.clipboard, history⟩
      | none => .error (.rejected .nothingToUndo)
  | .redo =>
      match s.history.redo? s.snapshot with
      | some (next, history) => .ok ⟨next.mode, next.clipboard, history⟩
      | none => .error (.rejected .nothingToRedo)

/-- Check that frames fit one another, around a node of slot `inner`, into a position of slot
`outer`. -/
def Path.fits (p : Path G) (inner outer : G.Slot) : Except (Refusal G) Unit := do
  match p.innermost?, p.outermost? with
  | some innermost, some outermost =>
      if (← innermost.holeSlot) ≠ inner then .error (.rejected .slotMismatch)
      else if outermost.slot ≠ outer then .error (.rejected .slotMismatch)
      else if ← p.wellFormed then .ok ()
      else .error (.rejected .slotMismatch)
  | _, _ => .error (.rejected .emptyPath)

namespace Cursor

/-- Put frames around the focus, which stays in focus. -/
def wrap (c : Cursor G) (p : Path G) : Except (Refusal G) (Cursor G) := do
  p.fits c.exp.slot (← c.requiredSlot)
  return ⟨p.append c.path, c.exp⟩

/-- Put frames around the focus and go to the first hole outside it, if the frames bring one. -/
def insert (c : Cursor G) (p : Path G) : Except (Refusal G) (Cursor G) := do
  let wrapped ← c.wrap p
  let wider : Cursor G := ⟨c.path, p.plug c.exp⟩
  return ((wider.exp.firstHole (some p.route)).bind wider.descend?).getD wrapped

/-- Put the hole of its slot in place of the focus. -/
def clear (c : Cursor G) : Except (Refusal G) (Cursor G) := do
  return c.withExp (← Exp.hole c.exp.slot)

end Cursor

/-- Put a hole in place of the whole range. -/
def Selection.clear (s : Selection G) : Except (Refusal G) (Cursor G) := do
  return ⟨s.above, ← Exp.hole s.topSlot⟩

/-- Put a tree in place of the focus, or of the whole range, if it fills the same slot. -/
def Mode.replaceExp (mode : Mode G) (e : Exp G) : Except (Refusal G) (Mode G) := do
  match mode with
  | .cursor c =>
      if e.slot ≠ (← c.requiredSlot) then .error (.rejected .slotMismatch)
      else return .cursor (c.withExp e)
  | .select s =>
      if e.slot ≠ s.topSlot then .error (.rejected .slotMismatch)
      else return .cursor ⟨s.above, e⟩

namespace Editor

/-- Whether a selection is not empty and the host allows it. -/
def isValid (ed : Editor G) (s : Selection G) : Bool :=
  !s.below.isEmpty && ed.accepts s

/-- A selection that is not empty and that the host allows. -/
def checked (ed : Editor G) (s : Selection G) : Except (Refusal G) (Selection G) :=
  if s.below.isEmpty then .error (.rejected .emptySelection)
  else if !ed.accepts s then .error (.rejected .invalidSelection)
  else .ok s

/-- The state on an empty tree. -/
def initial (ed : Editor G) (slot : G.Slot) : Except (Fault G) (State G) := do
  return .start (.cursor (.root (← Exp.hole slot))) ed.historyLimit

/-- Select from a cursor to the position one step away. -/
def startSelection (ed : Editor G) (c : Cursor G) (direction : Direction) :
    Except (Refusal G) (Selection G) :=
  match c.step? direction with
  | none => .error (.rejected (.atBoundary direction))
  | some moved =>
      match moved.span c with
      | .range s => ed.checked s
      | .same => .error (.rejected .emptySelection)
      | .apart => .error (.rejected .divergentCursors)

/-- Move the free end of a selection, or start one at the cursor. -/
def moveSelect (ed : Editor G) (direction : Direction) : Mode G → Except (Refusal G) (Mode G)
  | .cursor c => (ed.startSelection c direction).map .select
  | .select s =>
      match s.move? direction with
      | none => .error (.rejected (.atBoundary direction))
      | some (.range s) => (ed.checked s).map .select
      | some (.collapsed c) => .ok (.cursor c)

/-- Put other frames between the two ends of a selection. -/
def replaceBelow (ed : Editor G) (s : Selection G) (p : Path G) :
    Except (Refusal G) (Mode G) := do
  p.fits s.exp.slot s.topSlot
  return .select (← ed.checked { s with below := p })

/-- Put frames around the focus, or in place of the selected ones. -/
def replacePath (ed : Editor G) (p : Path G) : Mode G → Except (Refusal G) (Mode G)
  | .cursor c => (c.wrap p).map .cursor
  | .select s => ed.replaceBelow s p

/-- Put a hole in place of the focus, or of a whole allowed range. -/
def delete (ed : Editor G) : Mode G → Except (Refusal G) (Cursor G)
  | .cursor c => c.clear
  | .select s => do (← ed.checked s).clear

/-- What a copy puts on the clipboard: the tree in focus, or the selected frames. -/
def copied (ed : Editor G) : Mode G → Except (Refusal G) (Clipboard G)
  | .cursor c => .ok (.exp c.exp)
  | .select s => (ed.checked s).map fun s => .path s.below

/-- Put the clipboard at the focus. A tree goes in place of the focus, frames go around it or in
place of the selected ones. Frames are pasted around a focus only if the host allows to select
them there. -/
def paste (ed : Editor G) : Clipboard G → Mode G → Except (Refusal G) (Mode G)
  | .empty, _ => .error (.rejected .clipboardEmpty)
  | .exp e, .cursor c => (Mode.cursor c).replaceExp e
  | .exp _, .select _ => .error (.rejected .clipboardMismatch)
  | .path p, .cursor c => do
      let wrapped ← c.wrap p
      let _ ← ed.checked ⟨c.path, p, c.exp, .top⟩
      return .cursor wrapped
  | .path p, .select s => ed.replaceBelow s p

/-- What an action does to a state, or why it does not apply. -/
def effect (ed : Editor G) (s : State G) : Action G → Except (Refusal G) (Effect G)
  | .undo => .ok .undo
  | .redo => .ok .redo
  | .moveCursor direction =>
      match s.mode.focus.step? direction with
      | some c => .ok (.navigate (.cursor c))
      | none => .error (.rejected (.atBoundary direction))
  | .moveSelect direction => (ed.moveSelect direction s.mode).map .navigate
  | .setCursor c => do
      if ← c.wellFormed then return .navigate (.cursor c)
      else .error (.rejected .slotMismatch)
  | .setSelect sel => do
      if ← sel.wellFormed then return .navigate (.select (← ed.checked sel))
      else .error (.rejected .slotMismatch)
  | .escape =>
      match s.mode with
      | .select sel => .ok (.navigate (.cursor sel.escape))
      | .cursor _ => .error (.rejected .needsSelection)
  | .replaceExp e => do return .edit ⟨← s.mode.replaceExp e, s.clipboard⟩
  | .replacePath p => do return .edit ⟨← ed.replacePath p s.mode, s.clipboard⟩
  | .insert p => do return .edit ⟨.cursor (← s.mode.target.insert p), s.clipboard⟩
  | .delete => do return .edit ⟨.cursor (← ed.delete s.mode), s.clipboard⟩
  | .copy => do return .edit ⟨s.mode, ← ed.copied s.mode⟩
  | .cut => do return .edit ⟨.cursor (← ed.delete s.mode), ← ed.copied s.mode⟩
  | .paste => do return .edit ⟨← ed.paste s.clipboard s.mode, s.clipboard⟩

/-- The state after an action, or why it does not apply. -/
def apply (ed : Editor G) (s : State G) (a : Action G) : Except (Refusal G) (State G) := do
  s.commit (← ed.effect s a)

end Editor

end TreeEditor
