import TreeEditor.Selection.Basic

/-! The range spanned by two cursors of one tree. -/

namespace TreeEditor

variable {G : Grammar}

/-- How two cursors lie to one another: on the same node, on branches that part, or one above the
other. -/
inductive Span (G : Grammar) where
  | same
  | apart
  | range (selection : Selection G)
deriving DecidableEq

/-- The number of equal frames at the front of two lists of frames. -/
def sharedFrames : List (Frame G) → List (Frame G) → Nat
  | f :: fs, g :: gs => if f = g then sharedFrames fs gs + 1 else 0
  | _, _ => 0

/-- The range between two cursors, the first of which is the end that moves. The paths are compared
frame by frame from the root; the trees in focus are not compared. -/
def Cursor.span (free fixed : Cursor G) : Span G :=
  let shared := sharedFrames free.path.reverse fixed.path.reverse
  let freeRest := free.path.length - shared
  let fixedRest := fixed.path.length - shared
  let above := free.path.drop freeRest
  match freeRest, fixedRest with
  | 0, 0 => .same
  | 0, _ + 1 =>
      .range { above, below := fixed.path.take fixedRest, exp := fixed.exp, freeEnd := .top }
  | _ + 1, 0 =>
      .range { above, below := free.path.take freeRest, exp := free.exp, freeEnd := .bottom }
  | _ + 1, _ + 1 => .apart

end TreeEditor
