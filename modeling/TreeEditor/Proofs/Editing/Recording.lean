import TreeEditor.Proofs.Editing.Soundness
import TreeEditor.Proofs.Editing.TreeEdit

/-! What accepted actions leave in the history. A recorded action leaves the state before it as the
newest entry, so that undo gives it back. A navigation leaves the past as it was. Most
navigations keep the tree, but a cursor or a selection that is set may bring another one, and then
there is no entry from which undo could give the old tree back. -/

namespace TreeEditor

variable {G : Grammar}

open Outcome

theorem Action.isNavigation_of_isRecorded {a : Action G} (h : a.isRecorded = true) :
    a.isNavigation = false := by
  cases a with
  | replaceExp e => rfl
  | replacePath p => rfl
  | insert p => rfl
  | copy => rfl
  | cut => rfl
  | paste => rfl
  | delete => rfl
  | _ => cases h

/-- An action that brings a tree of its own, and does not take it from the history, is a
navigation. -/
theorem Action.isNavigation_of_brought {a : Action G} (hPlace : a.editsInPlace = false)
    (hUndo : a ≠ .undo) (hRedo : a ≠ .redo) : a.isNavigation = true := by
  cases a with
  | setCursor c => rfl
  | setSelect sel => rfl
  | undo => exact absurd rfl hUndo
  | redo => exact absurd rfl hRedo
  | _ => cases hPlace

/-- Whether the action steps along the history. -/
def Action.isHistoryStep : Action G → Bool
  | .undo | .redo => true
  | _ => false

/-- The three classes of actions leave none out and do not overlap. -/
theorem Action.one_class (a : Action G) :
    [a.isRecorded, a.isNavigation, a.isHistoryStep].count true = 1 := by
  cases a <;> rfl

namespace Editor

variable {ed : Editor G} {s s' : State G} {a : Action G}

theorem history_of_recorded (h : ed.apply s a = .ok s') (ha : a.isRecorded = true) :
    s'.history = s.history.record s.snapshot := by
  obtain ⟨eff, hEffect, hCommit⟩ := apply_eq_ok.mp h
  rcases effect_cases hEffect with ⟨next, rfl, _⟩ | ⟨mode, _, hNavigation, _⟩ | ⟨_, rfl⟩ | ⟨_, rfl⟩
  · cases hCommit
    rfl
  · rw [Action.isNavigation_of_isRecorded ha] at hNavigation
    cases hNavigation
  · cases ha
  · cases ha

theorem history_of_navigation (h : ed.apply s a = .ok s') (ha : a.isNavigation = true) :
    s'.history = s.history.clearFuture := by
  obtain ⟨eff, hEffect, hCommit⟩ := apply_eq_ok.mp h
  rcases effect_cases hEffect with ⟨next, _, hRecorded, _⟩ | ⟨mode, rfl, _⟩ | ⟨_, rfl⟩ | ⟨_, rfl⟩
  · rw [Action.isNavigation_of_isRecorded hRecorded] at ha
    cases ha
  · cases hCommit
    rfl
  · cases ha
  · cases ha

/-- Undo gives back the newest snapshot of the past, whatever the present is. -/
theorem undo_snapshot (ed : Editor G) (s : State G) :
    (ed.apply s .undo).map State.snapshot =
      match s.history.past with
      | [] => .error (.rejected .nothingToUndo)
      | previous :: _ => .ok previous := by
  change (s.commit .undo).map State.snapshot = _
  simp only [State.commit]
  cases hUndo : s.history.undo? s.snapshot with
  | none =>
      rw [History.undo?_eq_none.mp hUndo]
      rfl
  | some stepped =>
      rw [(History.undo?_eq_some.mp hUndo).1]
      rfl

/-- Moves of a cursor or of a free end, and leaving a selection, keep the tree. -/
theorem Brings.navigation_tree {x : Snapshot G} (h : ed.Brings s a x)
    (ha : a.isNavigation = true) (hPlace : a.editsInPlace = true) : x.mode.tree = s.tree := by
  have hAfter := h.treeAfter
  cases a with
  | moveCursor direction => exact hAfter
  | moveSelect direction => exact hAfter
  | escape => exact hAfter
  | setCursor c => cases hPlace
  | setSelect sel => cases hPlace
  | _ => cases ha

/-- What changes the tree at hand is recorded. -/
theorem isRecorded_of_change (h : ed.apply s a = .ok s') (hPlace : a.editsInPlace = true)
    (hChange : s'.tree ≠ s.tree) : a.isRecorded = true := by
  obtain ⟨eff, hEffect, hCommit⟩ := apply_eq_ok.mp h
  rcases effect_cases hEffect with
    ⟨_, _, hRecorded, _⟩ | ⟨mode, rfl, hNavigation, hBrings⟩ | ⟨_, rfl⟩ | ⟨_, rfl⟩
  · exact hRecorded
  · cases hCommit
    exact absurd (hBrings.navigation_tree hNavigation hPlace) hChange
  · cases hPlace
  · cases hPlace

theorem undo_after_recorded (h : ed.apply s a = .ok s') (ha : a.isRecorded = true) :
    ∃ t, ed.apply s' .undo = .ok t ∧ t.snapshot = s.snapshot := by
  have hUndo := ed.undo_snapshot s'
  rw [history_of_recorded h ha, History.past_record] at hUndo
  exact map_eq_ok.mp hUndo

theorem undo_after_navigation (h : ed.apply s a = .ok s') (ha : a.isNavigation = true) :
    (ed.apply s' .undo).map State.snapshot = (ed.apply s .undo).map State.snapshot := by
  rw [undo_snapshot, undo_snapshot, history_of_navigation h ha]
  rfl

/-- An accepted undo takes the newest entry of the past as the present and leaves the old present as
the next one to redo. -/
theorem history_of_undo (h : ed.apply s .undo = .ok s') :
    s.history.past = s'.snapshot :: s'.history.past ∧
      s'.history.future = s.snapshot :: s.history.future.take (s.history.limit - 1) := by
  obtain ⟨previous, history, hStep, rfl⟩ := State.commit_undo_eq_ok.mp h
  obtain ⟨hPast, hFuture, _⟩ := History.undo?_eq_some.mp hStep
  exact ⟨hPast, hFuture.trans (List.take_cons s.history.limit_pos)⟩

/-- An accepted redo takes the next entry of the future as the present and leaves the old present as
the newest one to undo. -/
theorem history_of_redo (h : ed.apply s .redo = .ok s') :
    s.history.future = s'.snapshot :: s'.history.future ∧
      s'.history.past = s.snapshot :: s.history.past.take (s.history.limit - 1) := by
  obtain ⟨next, history, hStep, rfl⟩ := State.commit_redo_eq_ok.mp h
  obtain ⟨hFuture, hPast, _⟩ := History.redo?_eq_some.mp hStep
  exact ⟨hFuture, hPast.trans (List.take_cons s.history.limit_pos)⟩

/-- Of the actions that bring a snapshot of their own, only those that copy bring another
clipboard. -/
theorem Brings.copies {x : Snapshot G} (h : ed.Brings s a x) (hChange : x.clipboard ≠ s.clipboard) :
    a = .copy ∨ a = .cut := by
  cases h with
  | copy hCopied => exact .inl rfl
  | cut hCursor hCopied => exact .inr rfl
  | _ => exact absurd rfl hChange

theorem clipboard_of_change (h : ed.apply s a = .ok s') (hChange : s'.clipboard ≠ s.clipboard) :
    a = .copy ∨ a = .cut ∨ a = .undo ∨ a = .redo := by
  by_cases hUndo : a = .undo
  · exact .inr (.inr (.inl hUndo))
  · by_cases hRedo : a = .redo
    · exact .inr (.inr (.inr hRedo))
    · rcases (apply_brings h hUndo hRedo).copies hChange with hCopy | hCut
      · exact .inl hCopy
      · exact .inr (.inl hCut)

theorem clipboard_of_navigation (h : ed.apply s a = .ok s') (ha : a.isNavigation = true) :
    s'.clipboard = s.clipboard := by
  by_cases hSame : s'.clipboard = s.clipboard
  · exact hSame
  · rcases clipboard_of_change h hSame with rfl | rfl | rfl | rfl <;> cases ha

/-- Every action that changes the tree at hand can be undone. If an accepted action other than undo
and redo changes the tree, and does not come with a cursor or a selection of its own, then undo is
accepted after it and gives back the tree, and with it the mode and the clipboard. A cursor or a
selection that is set leaves no entry: undo does after it what it would have done before it. -/
theorem undo_after_change (h : ed.apply s a = .ok s') (hUndo : a ≠ .undo) (hRedo : a ≠ .redo)
    (hChange : s'.tree ≠ s.tree) :
    (a.editsInPlace = true →
        ∃ t, ed.apply s' .undo = .ok t ∧ t.tree = s.tree ∧ t.snapshot = s.snapshot) ∧
      (a.editsInPlace = false →
        (ed.apply s' .undo).map State.snapshot = (ed.apply s .undo).map State.snapshot) := by
  refine ⟨fun hPlace => ?_, fun hPlace => ?_⟩
  · have hRecorded := isRecorded_of_change h hPlace hChange
    obtain ⟨t, hOk, hSnapshot⟩ := undo_after_recorded h hRecorded
    exact ⟨t, hOk, congrArg (·.mode.tree) hSnapshot, hSnapshot⟩
  · exact undo_after_navigation h (Action.isNavigation_of_brought hPlace hUndo hRedo)

/-- A history of one entry, in which the insertion has to drop the entry of an earlier edit. Undo
still gives back the state before the insertion, and a cursor in another tree that is set there
instead leaves only that earlier edit to be undone. -/
theorem undo_after_change_full :
    let ed : Editor Alpha.grammar := { historyLimit := 1 }
    let s := ed.run (.start (.cursor (.root Alpha.hole)) 1) [.replaceExp (Alpha.var "x")]
    let application : Frame Alpha.grammar := ⟨.exp, .app, .app false, [], [Alpha.hole]⟩
    ∃ s' s'' : State Alpha.grammar, ed.apply s (.insert [application]) = .ok s' ∧
      ed.apply s (.setCursor (.root (Alpha.var "y"))) = .ok s'' ∧
      s.history.past.length = 1 ∧ s'.history.past.length = 1 ∧ s'.tree ≠ s.tree ∧
      s''.tree ≠ s.tree ∧
      (∃ t, ed.apply s' .undo = .ok t ∧ t.tree = s.tree ∧ t.snapshot = s.snapshot) ∧
      (ed.apply s'' .undo).map State.snapshot = (ed.apply s .undo).map State.snapshot := by
  intro ed s application
  have hInsert : ed.apply s (.insert [application]) = .ok _ := rfl
  have hSet : ed.apply s (.setCursor (.root (Alpha.var "y"))) = .ok _ := rfl
  refine ⟨_, _, hInsert, hSet, rfl, rfl, by decide, by decide, ?_, ?_⟩
  · exact (undo_after_change hInsert (by decide) (by decide) (by decide)).1 rfl
  · exact (undo_after_change hSet (by decide) (by decide) (by decide)).2 rfl

/-- Not every change of the tree can be undone. On the empty program, a cursor on the root of another
well-formed tree is accepted and brings that tree, and undo is refused after it. -/
theorem setCursor_not_undone :
    let ed : Editor Alpha.grammar := {}
    let start : State Alpha.grammar := .start (.cursor (.root Alpha.hole)) 500
    let a : Action Alpha.grammar := .setCursor (.root (Alpha.var "x"))
    ed.initial Alpha.Slot.exp = .ok start ∧ ed.run start [] = start ∧ a.WellFormed ∧
      a ≠ .undo ∧ a ≠ .redo ∧
      ∃ s', ed.apply start a = .ok s' ∧ s'.tree ≠ start.tree ∧
        ed.apply s' .undo = .error (.rejected .nothingToUndo) ∧
        ¬ ∃ t, ed.apply s' .undo = .ok t ∧ t.tree = start.tree := by
  intro ed start a
  have hSet : ed.apply start a = .ok _ := rfl
  refine ⟨rfl, rfl, by decide, by decide, by decide, _, hSet, by decide, rfl, ?_⟩
  intro hAccepted
  obtain ⟨t, hOk, _⟩ := hAccepted
  cases hOk

/-- The history does what the class of an action says, and every action has exactly one class. A
recorded action puts the old snapshot on the past, as far as the limit allows, empties the future
and can be undone. A navigation keeps the past and the clipboard and empties the future. Undo and
redo exchange the present with the top of one stack and leave the old present on top of the other.
The clipboard changes under no other actions than these two and those that copy. -/
theorem history_discipline (ed : Editor G) :
    (∀ a : Action G, [a.isRecorded, a.isNavigation, a.isHistoryStep].count true = 1) ∧
      ∀ (s s' : State G) (a : Action G), ed.apply s a = .ok s' →
        (a.isRecorded = true →
          s'.history.past = (s.snapshot :: s.history.past).take s.history.limit ∧
            s'.history.future = [] ∧
            ∃ t, ed.apply s' .undo = .ok t ∧ t.mode = s.mode ∧ t.clipboard = s.clipboard) ∧
        (a.isNavigation = true →
          s'.history.past = s.history.past ∧ s'.clipboard = s.clipboard ∧
            s'.history.future = []) ∧
        (a = .undo →
          s.history.past = s'.snapshot :: s'.history.past ∧
            s'.history.future = s.snapshot :: s.history.future.take (s.history.limit - 1)) ∧
        (a = .redo →
          s.history.future = s'.snapshot :: s'.history.future ∧
            s'.history.past = s.snapshot :: s.history.past.take (s.history.limit - 1)) ∧
        (s'.clipboard ≠ s.clipboard → a = .copy ∨ a = .cut ∨ a = .undo ∨ a = .redo) := by
  refine ⟨Action.one_class, fun s s' a h => ⟨fun ha => ?_, fun ha => ?_, ?_, ?_, ?_⟩⟩
  · obtain ⟨t, hUndo, hSnapshot⟩ := undo_after_recorded h ha
    rw [history_of_recorded h ha]
    exact ⟨rfl, rfl, t, hUndo, congrArg (·.mode) hSnapshot, congrArg (·.clipboard) hSnapshot⟩
  · rw [history_of_navigation h ha]
    exact ⟨rfl, clipboard_of_navigation h ha, rfl⟩
  · rintro rfl
    exact history_of_undo h
  · rintro rfl
    exact history_of_redo h
  · exact clipboard_of_change h

/-- A history of one entry that is full, with a name on the clipboard. The deletion drops the entry
of the copy and can still be undone, and the undo after it puts the hole on top of the future. -/
theorem history_discipline_full :
    let ed : Editor Alpha.grammar := { historyLimit := 1 }
    let s := ed.run (.start (.cursor (.root (Alpha.var "x"))) 1) [.copy]
    let s' := ed.request s .delete
    let s'' := ed.request s' .undo
    ed.apply s .delete = .ok s' ∧ ed.apply s' .undo = .ok s'' ∧ s.history.past.length = 1 ∧
      s'.history.past = [s.snapshot] ∧ s'.history.future = [] ∧
      (∃ t, ed.apply s' .undo = .ok t ∧ t.mode = s.mode ∧ t.clipboard = s.clipboard) ∧
      s'.history.past = s''.snapshot :: s''.history.past ∧
      s''.history.future = [s'.snapshot] := by
  intro ed s s' s''
  have hDelete : ed.apply s .delete = .ok s' := rfl
  have hUndo : ed.apply s' .undo = .ok s'' := rfl
  obtain ⟨hRecorded, _⟩ := (history_discipline ed).2 s s' .delete hDelete
  obtain ⟨hPast, hFuture, hBack⟩ := hRecorded rfl
  obtain ⟨_, _, hStep, _⟩ := (history_discipline ed).2 s' s'' .undo hUndo
  obtain ⟨hTaken, hNext⟩ := hStep rfl
  exact ⟨hDelete, hUndo, rfl, hPast, hFuture, hBack, hTaken, hNext⟩

end Editor

end TreeEditor
