import TreeEditor.Markup.Node
import TreeEditor.Query.Basic

/-! The marked tree of a state, with or without the preview of a query. -/

namespace TreeEditor

variable {G : Grammar}

/-- Mark what a query would do at the focus. A candidate that neither replaces nor wraps the focus
leaves no mark. -/
def Query.mark (q : Query) (candidate : Option (Action G)) (focus : Node G) : Node G :=
  match candidate with
  | some (.replaceExp e) => .replace (.ofExp e) focus
  | some (.insert p) => .insert (focus.within p)
  | some _ => focus
  | none => .invalid q.text focus

namespace Editor

/-- The tree with the cursor or both ends of the selection marked; `mark` may add to the marks at the
cursor or around the whole selection. -/
def markedTree (ed : Editor G) (s : State G) (mark : Node G → Node G) : Node G :=
  match s.mode with
  | .cursor c => (mark (.cursor (.ofExp c.exp))).within c.path
  | .select sel =>
      let range := (Node.bottom (.ofExp sel.exp)).within sel.below
      (mark (.top (ed.isValid sel) range)).within sel.above

def render (ed : Editor G) (s : State G) : Node G :=
  ed.markedTree s id

/-- The marked tree with a preview of what a query would do. A blank query has no preview. -/
def preview (ed : Editor G) (r : Resolver G) (s : State G) (q : Query) :
    Except (Fault G) (Node G) :=
  if q.isBlank then .ok (ed.render s)
  else do return ed.markedTree s (q.mark (← r.resolve? s q))

end Editor

end TreeEditor
