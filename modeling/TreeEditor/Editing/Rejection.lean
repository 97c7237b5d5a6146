import TreeEditor.Direction
import TreeEditor.Fault

/-! Why an action has no effect. A rejection is the editor's answer to an action that does not apply;
a fault means that the grammar or the action was not what it promised to be. -/

namespace TreeEditor

inductive Rejection where
  | atBoundary (direction : Direction)
  | needsSelection
  | invalidSelection
  | emptySelection
  | divergentCursors
  | emptyPath
  | clipboardEmpty
  | clipboardMismatch
  | slotMismatch
  | nothingToUndo
  | nothingToRedo
  | noCandidate
deriving DecidableEq

def Rejection.message : Rejection → String
  | atBoundary direction => "cannot move " ++ direction.name ++ " from here"
  | needsSelection => "action requires select mode"
  | invalidSelection => "selection refused by validator"
  | emptySelection => "selection is empty"
  | divergentCursors => "cursors diverge; no selection spans both"
  | emptyPath => "path is empty"
  | clipboardEmpty => "clipboard is empty"
  | clipboardMismatch => "clipboard contents do not fit the current mode"
  | slotMismatch => "slot mismatch at the focus"
  | nothingToUndo => "nothing to undo"
  | nothingToRedo => "nothing to redo"
  | noCandidate => "query has no candidate"

inductive Refusal (G : Grammar) where
  | rejected (reason : Rejection)
  | fault (fault : Fault G)
deriving DecidableEq

variable {G : Grammar}

def Refusal.message : Refusal G → String
  | rejected reason => reason.message
  | fault f => f.message

/-- A fault met while an action is carried out refuses the action. -/
instance : MonadLift (Except (Fault G)) (Except (Refusal G)) where
  monadLift result := result.mapError .fault

@[simp]
theorem Refusal.lift_ok {α : Type} (a : α) :
    (liftM (.ok a : Except (Fault G) α) : Except (Refusal G) α) = .ok a := rfl

@[simp]
theorem Refusal.lift_error {α : Type} (f : Fault G) :
    (liftM (.error f : Except (Fault G) α) : Except (Refusal G) α) = .error (.fault f) := rfl

end TreeEditor
