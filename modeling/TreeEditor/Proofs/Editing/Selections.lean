import TreeEditor.Language.Alpha.Basic
import TreeEditor.Markup.Render
import TreeEditor.Proofs.Editing.Soundness

/-! Every selection that the editor holds has been allowed. A selection comes up when one is started
or moved, when one is set, when frames replace the selected ones, and when undo or redo brings
one back. In each of these places the very selection that is installed has passed the check. -/

namespace TreeEditor

variable {G : Grammar}

open Outcome

namespace Editor

variable {ed : Editor G} {s : State G} {a : Action G}

/-- A mode that is on a range is on one that is not empty and that the host allows. -/
def Admits (ed : Editor G) (mode : Mode G) : Prop :=
  ∀ sel, mode = .select sel → ed.isValid sel = true

theorem admits_cursor (c : Cursor G) : ed.Admits (.cursor c) := by
  intro sel h
  cases h

theorem admits_select {sel : Selection G} (h : ed.isValid sel = true) :
    ed.Admits (.select sel) := by
  intro found hFound
  cases hFound
  exact h

theorem replaceExp_admits {mode mode' : Mode G} {e : Exp G} (h : mode.replaceExp e = .ok mode') :
    ed.Admits mode' := by
  rw [(Mode.replaceExp_eq_ok h).1]
  exact admits_cursor _

theorem replacePath_admits {mode mode' : Mode G} {p : Path G}
    (h : ed.replacePath p mode = .ok mode') : ed.Admits mode' := by
  cases mode with
  | cursor c =>
      obtain ⟨wrapped, _, rfl⟩ := map_eq_ok.mp h
      exact admits_cursor wrapped
  | select sel =>
      obtain ⟨_, hValid, rfl⟩ := replaceBelow_eq_ok.mp h
      exact admits_select hValid

theorem paste_admits {clipboard : Clipboard G} {mode mode' : Mode G}
    (h : ed.paste clipboard mode = .ok mode') : ed.Admits mode' := by
  cases clipboard with
  | empty => cases h
  | exp e => exact replaceExp_admits (paste_exp_eq_ok h)
  | path p => exact replacePath_admits (paste_path_eq_ok h)

/-- Every place at which an accepted action installs a selection checks that selection. Only a copy
keeps the one that is there. -/
theorem Brings.admits {x : Snapshot G} (hs : ed.Admits s.mode) (h : ed.Brings s a x) :
    ed.Admits x.mode := by
  cases h with
  | moveSelect hMode => exact (moveSelect_eq_ok hMode).2
  | setSelect hCheck hValid => exact admits_select hValid
  | replaceExp hMode => exact replaceExp_admits hMode
  | replacePath hMode => exact replacePath_admits hMode
  | paste hMode => exact paste_admits hMode
  | copy hCopied => exact hs
  | _ => exact admits_cursor _

theorem copied_select {sel : Selection G} (hValid : ed.isValid sel = true) :
    ed.copied (.select sel) = .ok (.path sel.below) := by
  rw [copied, checked_eq_ok.mpr ⟨hValid, rfl⟩]
  rfl

theorem delete_cursor {c : Cursor G} {hole : Exp G} (hHole : Exp.hole c.exp.slot = .ok hole) :
    ed.delete (.cursor c) = .ok (c.withExp hole) := by
  rw [delete, Cursor.clear, hHole]
  rfl

theorem delete_select {sel : Selection G} (hValid : ed.isValid sel = true) {hole : Exp G}
    (hHole : Exp.hole sel.topSlot = .ok hole) :
    ed.delete (.select sel) = .ok ⟨sel.above, hole⟩ := by
  rw [delete, checked_eq_ok.mpr ⟨hValid, rfl⟩]
  change sel.clear = _
  rw [Selection.clear, hHole]
  rfl

theorem apply_copy {clipboard : Clipboard G} (hCopied : ed.copied s.mode = .ok clipboard) :
    ed.apply s .copy = .ok ⟨s.mode, clipboard, s.history.record s.snapshot⟩ :=
  apply_eq_ok.mpr ⟨_, bind_eq_ok.mpr ⟨_, hCopied, rfl⟩, rfl⟩

theorem apply_cut {clipboard : Clipboard G} {c : Cursor G}
    (hCopied : ed.copied s.mode = .ok clipboard) (hDelete : ed.delete s.mode = .ok c) :
    ed.apply s .cut = .ok ⟨.cursor c, clipboard, s.history.record s.snapshot⟩ :=
  apply_eq_ok.mpr ⟨_, bind_eq_ok.mpr ⟨_, hDelete, bind_eq_ok.mpr ⟨_, hCopied, rfl⟩⟩, rfl⟩

/-- Taking material out succeeds if it can be copied and something can be left in its place. -/
theorem takeOut_accepts {clipboard : Clipboard G} {c : Cursor G}
    (hCopied : ed.copied s.mode = .ok clipboard) (hDelete : ed.delete s.mode = .ok c)
    (ha : a = .copy ∨ a = .cut ∨ a = .delete) : ∃ s', ed.apply s a = .ok s' := by
  rcases ha with rfl | rfl | rfl
  · exact ⟨_, apply_copy hCopied⟩
  · exact ⟨_, apply_cut hCopied hDelete⟩
  · exact ⟨_, apply_eq_ok.mpr ⟨_, bind_eq_ok.mpr ⟨_, hDelete, rfl⟩, rfl⟩⟩

theorem cursor_accepts (hG : G.Consistent) {c : Cursor G} (hMode : s.mode = .cursor c)
    (ha : a = .copy ∨ a = .cut ∨ a = .delete) : ∃ s', ed.apply s a = .ok s' := by
  obtain ⟨hole, hHole, _⟩ := Exp.hole_wellFormed hG c.exp.slot
  have hCopied : ed.copied s.mode = .ok (.exp c.exp) := by
    rw [hMode]
    rfl
  have hDelete : ed.delete s.mode = .ok (c.withExp hole) := by
    rw [hMode]
    exact delete_cursor hHole
  exact takeOut_accepts hCopied hDelete ha

/-- Material can be taken out of an allowed selection. -/
theorem select_accepts (hG : G.Consistent) {sel : Selection G} (hMode : s.mode = .select sel)
    (hValid : ed.isValid sel = true) (ha : a = .copy ∨ a = .cut ∨ a = .delete) :
    ∃ s', ed.apply s a = .ok s' := by
  obtain ⟨hole, hHole, _⟩ := Exp.hole_wellFormed hG sel.topSlot
  have hCopied : ed.copied s.mode = .ok (.path sel.below) := by
    rw [hMode]
    exact copied_select hValid
  have hDelete : ed.delete s.mode = .ok ⟨sel.above, hole⟩ := by
    rw [hMode]
    exact delete_select hValid hHole
  exact takeOut_accepts hCopied hDelete ha

/-- Whenever a run that starts in a well-formed tree, at a cursor or on an allowed selection, holds a
selection in its present, past or future, that selection has frames, fits into its tree, and is
allowed as it stands. So taking material out of the present selection is never refused, and the
display marks it as allowed. -/
theorem run_selection_valid (hG : G.Consistent) (ed : Editor G) {mode : Mode G}
    (hTree : mode.tree.WellFormed) (hAdmits : ed.Admits mode) (limit : Nat)
    {actions : List (Action G)} (hActions : ∀ a ∈ actions, a.WellFormed) :
    let s := ed.run (.start mode limit) actions
    (∀ x ∈ s.snapshots, ∀ sel, x.mode = .select sel →
        sel.below ≠ [] ∧ sel.wellFormed = .ok true ∧ ed.accepts sel = true) ∧
      ∀ sel, s.mode = .select sel →
        (∀ a, a = Action.copy ∨ a = .cut ∨ a = .delete → ∃ s', ed.apply s a = .ok s') ∧
          ed.render s =
            (Node.top true ((Node.bottom (.ofExp sel.exp)).within sel.below)).within sel.above := by
  intro s
  have hWellFormed : s.WellFormed := wellFormed_run hG ed (start_wellFormed hTree limit) hActions
  have hAll : ∀ x ∈ s.snapshots, ed.Admits x.mode := by
    refine run_snapshots ?_ fun t a x _ hPresent hBrings => hBrings.admits hPresent
    intro x hx
    rw [List.mem_singleton.mp hx]
    exact hAdmits
  refine ⟨fun x hx sel hMode => ?_, fun sel hMode => ⟨fun a ha => ?_, ?_⟩⟩
  · obtain ⟨hBelow, hAccepts⟩ := isValid_eq_true.mp (hAll x hx sel hMode)
    have hSel : sel.tree.WellFormed := by
      have h := (hWellFormed x hx).tree
      rwa [hMode] at h
    exact ⟨hBelow, Selection.wellFormed_of_tree hSel, hAccepts⟩
  · exact select_accepts hG hMode (hAll s.snapshot (List.mem_cons_self ..) sel hMode) ha
  · rw [render, markedTree, hMode]
    simp only [id_eq, hAll s.snapshot (List.mem_cons_self ..) sel hMode]

/-- A host that allows ranges with a free top end only. A range with a free bottom end is refused on
the way, and the present selection is one that undo has brought back. -/
theorem run_selection_valid_undo :
    let application : Frame Alpha.grammar := ⟨.exp, .app, .app false, [Alpha.var "f"], []⟩
    let sel : Selection Alpha.grammar := ⟨[], [application], Alpha.var "x", .top⟩
    let ed : Editor Alpha.grammar := { accepts := fun sel => sel.freeEnd = .top }
    let mode : Mode Alpha.grammar := .cursor ⟨[application], Alpha.var "x"⟩
    let actions : List (Action Alpha.grammar) :=
      [.moveSelect .up, .copy, .escape, .moveSelect .down, .undo]
    let s := ed.run (.start mode 3) actions
    mode.tree.WellFormed ∧ ed.Admits mode ∧ (∀ a ∈ actions, a.WellFormed) ∧
      s.mode = .select sel ∧
      (sel.below ≠ [] ∧ sel.wellFormed = .ok true ∧ ed.accepts sel = true) ∧
      (∀ a, a = Action.copy ∨ a = .cut ∨ a = .delete → ∃ s', ed.apply s a = .ok s') ∧
      ed.render s =
        (Node.top true ((Node.bottom (.ofExp sel.exp)).within sel.below)).within sel.above := by
  intro application sel ed mode actions s
  have hTree : mode.tree.WellFormed := by decide
  have hAdmits : ed.Admits mode := admits_cursor _
  have hActions : ∀ a ∈ actions, a.WellFormed := by decide
  have hMode : s.mode = .select sel := rfl
  obtain ⟨hAll, hPresent⟩ :=
    run_selection_valid Alpha.grammar_consistent ed hTree hAdmits 3 hActions
  obtain ⟨hAccepted, hRender⟩ := hPresent sel hMode
  exact ⟨hTree, hAdmits, hActions, hMode, hAll s.snapshot (List.mem_cons_self ..) sel hMode,
    hAccepted, hRender⟩

end Editor

end TreeEditor
