import TreeEditor.Language.Alpha.Basic
import TreeEditor.Proofs.Editing.Run

/-! Every accepted edit is one replacement in the plain tree. What the tree becomes is said here with
lookup and replacement at the route of the target alone. The position in which an edit leaves the
cursor does not enter. -/

namespace TreeEditor

variable {G : Grammar}

open Outcome

namespace Mode

/-- The route of the position that an edit changes: the cursor, or the top end of the selection. -/
def route : Mode G → Route
  | cursor c => c.path.route
  | select s => s.above.route

theorem route_eq (mode : Mode G) : mode.route = mode.target.path.route := by
  cases mode with
  | cursor c => rfl
  | select s => rfl

theorem at?_route (mode : Mode G) : mode.tree.at? mode.route = some mode.target.exp := by
  rw [route_eq, ← target_tree]
  exact Path.at?_plug_route _ _

theorem subst_route (mode : Mode G) (new : Exp G) :
    mode.tree.subst mode.route new = mode.target.path.plug new := by
  rw [route_eq, ← target_tree]
  exact Path.subst_plug_route _ _ _

end Mode

namespace Action

/-- What the tree is after an accepted action, where `u` is the subtree at the route of the target.
An edit replaces `u`; a move or a copy changes nothing. -/
def TreeAfter (s : State G) (u after : Exp G) : Action G → Prop
  | replaceExp e => after = s.tree.subst s.mode.route e
  | insert p => after = s.tree.subst s.mode.route (p.plug u)
  | replacePath p =>
      match s.mode with
      | .cursor _ => after = s.tree.subst s.mode.route (p.plug u)
      | .select sel => after = s.tree.subst s.mode.route (p.plug sel.exp)
  | paste =>
      match s.clipboard, s.mode with
      | .empty, _ => False
      | .exp e, _ => after = s.tree.subst s.mode.route e
      | .path p, .cursor _ => after = s.tree.subst s.mode.route (p.plug u)
      | .path p, .select sel => after = s.tree.subst s.mode.route (p.plug sel.exp)
  | delete | cut => ∃ hole, Exp.hole u.slot = .ok hole ∧ after = s.tree.subst s.mode.route hole
  | copy | moveCursor _ | moveSelect _ | escape => after = s.tree
  | setCursor c => after = c.tree
  | setSelect sel => after = sel.tree
  | undo => s.history.past.head?.map (·.mode.tree) = some after
  | redo => s.history.future.head?.map (·.mode.tree) = some after

/-- Frames around the focus in one mode, and in place of the selected ones in the other, are put
around what the mode keeps. -/
theorem replacePath_treeAfter {s : State G} {after : Exp G} {p : Path G}
    (h : after = s.mode.target.path.plug (p.plug s.mode.kept)) :
    TreeAfter s s.mode.target.exp after (.replacePath p) := by
  rw [← s.mode.subst_route] at h
  obtain ⟨mode, clipboard, history⟩ := s
  cases mode with
  | cursor c => exact h
  | select sel => exact h

/-- A paste does what putting the same material there by hand would do. -/
theorem paste_treeAfter_path {s : State G} {after : Exp G} {p : Path G}
    (hClipboard : s.clipboard = .path p)
    (h : TreeAfter s s.mode.target.exp after (.replacePath p)) :
    TreeAfter s s.mode.target.exp after .paste := by
  obtain ⟨mode, clipboard, history⟩ := s
  cases hClipboard
  cases mode with
  | cursor c => exact h
  | select sel => exact h

/-- After an edit in place the tree differs from the one before by one replacement. -/
theorem TreeAfter.exists_subst {s : State G} {u after : Exp G} {a : Action G}
    (h : a.TreeAfter s u after) (hPlace : a.editsInPlace = true)
    (hu : s.tree.at? s.mode.route = some u) :
    ∃ new, after = s.tree.subst s.mode.route new := by
  have hSame : after = s.tree → ∃ new, after = s.tree.subst s.mode.route new := by
    intro hAfter
    exact ⟨u, hAfter.trans (Exp.subst_self hu).symm⟩
  cases a with
  | undo => cases hPlace
  | redo => cases hPlace
  | setCursor c => cases hPlace
  | setSelect sel => cases hPlace
  | moveCursor direction => exact hSame h
  | moveSelect direction => exact hSame h
  | copy => exact hSame h
  | escape => exact hSame h
  | replaceExp e => exact ⟨e, h⟩
  | insert p => exact ⟨p.plug u, h⟩
  | delete =>
      obtain ⟨hole, _, hAfter⟩ := h
      exact ⟨hole, hAfter⟩
  | cut =>
      obtain ⟨hole, _, hAfter⟩ := h
      exact ⟨hole, hAfter⟩
  | replacePath p =>
      simp only [TreeAfter] at h
      split at h
      · exact ⟨_, h⟩
      · exact ⟨_, h⟩
  | paste =>
      simp only [TreeAfter] at h
      split at h
      · exact h.elim
      · exact ⟨_, h⟩
      · exact ⟨_, h⟩
      · exact ⟨_, h⟩

end Action

namespace Editor

variable {ed : Editor G} {s s' : State G} {a : Action G}

/-- The snapshot that an accepted action brings holds the tree that the plain edit gives. -/
theorem Brings.treeAfter {x : Snapshot G} (h : ed.Brings s a x) :
    a.TreeAfter s s.mode.target.exp x.mode.tree := by
  cases h with
  | moveCursor hStep => exact (Cursor.step?_tree hStep).trans s.mode.focus_tree
  | moveSelect hMode => exact (moveSelect_eq_ok hMode).1
  | setCursor hCheck => rfl
  | setSelect hCheck hValid => rfl
  | escape hMode =>
      change (Selection.free _).tree = s.mode.tree
      rw [hMode, Selection.free_tree]
      rfl
  | replaceExp hMode =>
      rw [(Mode.replaceExp_eq_ok hMode).1]
      exact (s.mode.subst_route _).symm
  | replacePath hMode => exact Action.replacePath_treeAfter (replacePath_eq_ok hMode).1
  | insert hCursor => exact (Cursor.insert_eq_ok hCursor).2.trans (s.mode.subst_route _).symm
  | delete hCursor =>
      obtain ⟨hole, hHole, rfl⟩ := delete_eq_ok hCursor
      exact ⟨hole, hHole, (s.mode.subst_route hole).symm⟩
  | copy hCopied => rfl
  | cut hCursor hCopied =>
      obtain ⟨hole, hHole, rfl⟩ := delete_eq_ok hCursor
      exact ⟨hole, hHole, (s.mode.subst_route hole).symm⟩
  | paste hMode =>
      cases hClipboard : s.clipboard with
      | empty =>
          rw [hClipboard] at hMode
          cases hMode
      | exp e =>
          rw [hClipboard] at hMode
          rw [(Mode.replaceExp_eq_ok (paste_exp_eq_ok hMode)).1]
          simp only [Action.TreeAfter, hClipboard]
          exact (s.mode.subst_route e).symm
      | path p =>
          rw [hClipboard] at hMode
          have hPath := (replacePath_eq_ok (paste_path_eq_ok hMode)).1
          exact Action.paste_treeAfter_path hClipboard (Action.replacePath_treeAfter hPath)

/-- Every accepted action has the effect of a plain edit at one position. The subtree `u` is the one
at the route of the cursor or of the top end of the selection. Nodes that are not at or below
that route keep all they show of themselves, their number of children included. -/
theorem apply_treeAfter (h : ed.apply s a = .ok s') :
    ∃ u, s.tree.at? s.mode.route = some u ∧ a.TreeAfter s u s'.tree ∧
      (a.editsInPlace = true → ∀ q, ¬ s.mode.route <+: q →
        (s'.tree.at? q).map Exp.face = (s.tree.at? q).map Exp.face) := by
  have hu : s.tree.at? s.mode.route = some s.mode.target.exp := s.mode.at?_route
  have hAfter : a.TreeAfter s s.mode.target.exp s'.tree := by
    by_cases hUndo : a = .undo
    · subst hUndo
      obtain ⟨previous, history, hStep, rfl⟩ := State.commit_undo_eq_ok.mp h
      simp only [Action.TreeAfter, (History.undo?_eq_some.mp hStep).1]
      rfl
    · by_cases hRedo : a = .redo
      · subst hRedo
        obtain ⟨next, history, hStep, rfl⟩ := State.commit_redo_eq_ok.mp h
        simp only [Action.TreeAfter, (History.redo?_eq_some.mp hStep).1]
        rfl
      · exact (apply_brings h hUndo hRedo).treeAfter
  refine ⟨s.mode.target.exp, hu, hAfter, fun hPlace q hq => ?_⟩
  obtain ⟨new, hNew⟩ := hAfter.exists_subst hPlace hu
  rw [hNew]
  exact Exp.face_subst hq

/-- Two frames put around the argument of an inner application, with the cursor sent to the hole
that they bring. -/
theorem apply_treeAfter_insert :
    let inner : Frame Alpha.grammar := ⟨.exp, .app, .app false, [Alpha.var "f"], []⟩
    let outer : Frame Alpha.grammar := ⟨.exp, .app, .app false, [], [Alpha.var "y"]⟩
    let s : State Alpha.grammar := .start (.cursor ⟨[inner, outer], Alpha.var "x"⟩) 5
    let p : Path Alpha.grammar :=
      [⟨.exp, .app, .app false, [], [Alpha.hole]⟩, ⟨.exp, .app, .app true, [Alpha.var "g"], []⟩]
    ∃ s' : State Alpha.grammar, ({} : Editor Alpha.grammar).apply s (.insert p) = .ok s' ∧
      s.mode.route = [0, 1] ∧ s'.mode.route = [0, 1, 1, 1] ∧
      ∃ u, s.tree.at? s.mode.route = some u ∧ (Action.insert p).TreeAfter s u s'.tree ∧
        ((Action.insert p).editsInPlace = true → ∀ q, ¬ s.mode.route <+: q →
          (s'.tree.at? q).map Exp.face = (s.tree.at? q).map Exp.face) := by
  intro inner outer s p
  have h : ({} : Editor Alpha.grammar).apply s (.insert p) = .ok _ := rfl
  exact ⟨_, h, rfl, rfl, apply_treeAfter h⟩

end Editor

end TreeEditor
