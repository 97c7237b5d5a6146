import TreeEditor.Proofs.Editing.Recording
import TreeEditor.Proofs.Editing.Timeline

/-! Sessions unwind. As long as a run records no more than the history can keep, the oldest snapshot
that undo can reach holds the tree that the run began with. Moves before the first record change
that snapshot but not its tree, and a run cannot tell it apart from the others: the present may be
any entry of the line when the next action comes. So what is kept is said about the oldest entry of
the whole line, wherever the present stands. -/

namespace TreeEditor

variable {G : Grammar}

namespace State

/-- The snapshot to which undo leads in the end. -/
def oldest (s : State G) : Snapshot G :=
  s.history.past.getLastD s.snapshot

theorem head?_timeline (s : State G) : s.timeline.head? = some s.oldest := by
  rw [timeline, History.timeline, oldest]
  cases hPast : s.history.past.getLast? with
  | none =>
      rw [List.getLast?_eq_none_iff.mp hPast]
      rfl
  | some last => simp [List.getLastD_eq_getLast?, hPast]

theorem oldest_of_past_nil {s : State G} (h : s.history.past = []) : s.oldest = s.snapshot := by
  rw [oldest, h]
  rfl

/-- A step along the line that loses no entry does not change where undo leads in the end. -/
theorem oldest_of_past_cons {s s' : State G}
    (h : s'.history.past = s.snapshot :: s.history.past) : s'.oldest = s.oldest := by
  rw [oldest, h, List.getLastD_cons, oldest]

/-- Undo leads back to a tree, and the stacks hold no more entries than were recorded. -/
structure Unwinds (tree : Exp G) (limit recorded : Nat) (s : State G) : Prop where
  tree : s.oldest.mode.tree = tree
  entries : s.history.past.length + s.history.future.length ≤ recorded
  limit : s.history.limit = limit

end State

namespace Editor

variable {ed : Editor G} {s s' : State G} {a : Action G} {tree : Exp G} {limit recorded : Nat}

/-- The number of history entries that a request makes. -/
def records (ed : Editor G) (s : State G) (a : Action G) : Nat :=
  if a.isRecorded && (ed.apply s a).isOk then 1 else 0

/-- The number of actions of a run that are accepted and recorded. -/
def recordings (ed : Editor G) : State G → List (Action G) → Nat
  | _, [] => 0
  | s, a :: rest => ed.records s a + ed.recordings (ed.request s a) rest

theorem apply_limit (h : ed.apply s a = .ok s') : s'.history.limit = s.history.limit := by
  obtain ⟨eff, _, hCommit⟩ := apply_eq_ok.mp h
  exact State.commit_limit hCommit

/-- A recorded action for which there is room adds one entry, and none gets lost. -/
theorem unwinds_of_recorded (hs : s.Unwinds tree limit recorded) (h : ed.apply s a = .ok s')
    (ha : a.isRecorded = true) (hRoom : recorded < limit) :
    s'.Unwinds tree limit (recorded + 1) := by
  have hEntries := hs.entries
  have hLimit := hs.limit
  have hHistory := history_of_recorded h ha
  have hPast : s'.history.past = s.snapshot :: s.history.past := by
    rw [hHistory, History.past_record, List.take_of_length_le]
    omega
  have hFuture : s'.history.future = [] := by
    rw [hHistory]
    rfl
  refine ⟨?_, ?_, (apply_limit h).trans hLimit⟩
  · rw [State.oldest_of_past_cons hPast]
    exact hs.tree
  · rw [hPast, hFuture, List.length_cons, List.length_nil]
    omega

/-- A navigation that keeps the tree may change the oldest snapshot, but not its tree. -/
theorem unwinds_of_navigation (hs : s.Unwinds tree limit recorded) (h : ed.apply s a = .ok s')
    (ha : a.isNavigation = true) (hTree : s'.tree = s.tree) :
    s'.Unwinds tree limit recorded := by
  have hEntries := hs.entries
  have hOldest := hs.tree
  have hHistory := history_of_navigation h ha
  have hPast : s'.history.past = s.history.past := by
    rw [hHistory]
    rfl
  have hFuture : s'.history.future = [] := by
    rw [hHistory]
    rfl
  refine ⟨?_, ?_, (apply_limit h).trans hs.limit⟩
  · rw [State.oldest] at hOldest ⊢
    rw [hPast]
    -- Without a past the oldest snapshot is the present, which is the one that moves.
    cases hCons : s.history.past with
    | nil =>
        rw [hCons] at hOldest
        exact hTree.trans hOldest
    | cons newest rest =>
        rw [hCons] at hOldest
        exact hOldest
  · rw [hPast, hFuture, List.length_nil]
    omega

theorem unwinds_of_undo (hs : s.Unwinds tree limit recorded) (h : ed.apply s .undo = .ok s') :
    s'.Unwinds tree limit recorded := by
  have hEntries := hs.entries
  obtain ⟨hPast, hFuture⟩ := history_of_undo h
  refine ⟨?_, ?_, (apply_limit h).trans hs.limit⟩
  · rw [← State.oldest_of_past_cons hPast]
    exact hs.tree
  · rw [hPast, List.length_cons] at hEntries
    rw [hFuture, List.length_cons, List.length_take]
    omega

/-- A redo finds room for the present in the past: it has just taken an entry from the future. -/
theorem unwinds_of_redo (hs : s.Unwinds tree limit recorded) (h : ed.apply s .redo = .ok s')
    (hRoom : recorded ≤ limit) : s'.Unwinds tree limit recorded := by
  have hEntries := hs.entries
  have hLimit := hs.limit
  obtain ⟨hFuture, hPast⟩ := history_of_redo h
  rw [hFuture, List.length_cons] at hEntries
  have hKept : s'.history.past = s.snapshot :: s.history.past := by
    rw [hPast, List.take_of_length_le]
    omega
  refine ⟨?_, ?_, (apply_limit h).trans hLimit⟩
  · rw [State.oldest_of_past_cons hKept]
    exact hs.tree
  · rw [hKept, List.length_cons]
    omega

theorem records_of_ok (h : ed.apply s a = .ok s') :
    ed.records s a = if a.isRecorded then 1 else 0 := by
  simp [records, h, Except.isOk, Except.toBool]

/-- What one accepted action leaves to unwind, where no cursor and no selection is set. -/
theorem apply_unwinds (hs : s.Unwinds tree limit recorded) (h : ed.apply s a = .ok s')
    (hCursor : ∀ c, a ≠ .setCursor c) (hSelect : ∀ sel, a ≠ .setSelect sel)
    (hRoom : recorded + ed.records s a ≤ limit) :
    s'.Unwinds tree limit (recorded + ed.records s a) := by
  rw [records_of_ok h] at hRoom ⊢
  obtain ⟨eff, hEffect, hCommit⟩ := apply_eq_ok.mp h
  rcases effect_cases hEffect with
    ⟨_, _, hRecorded, _⟩ | ⟨mode, rfl, hNavigation, hBrings⟩ | ⟨_, rfl⟩ | ⟨_, rfl⟩
  · rw [if_pos hRecorded] at hRoom ⊢
    exact unwinds_of_recorded hs h hRecorded hRoom
  · have hPlace : a.editsInPlace = true := by
      cases a with
      | setCursor c => exact absurd rfl (hCursor c)
      | setSelect sel => exact absurd rfl (hSelect sel)
      | undo => cases hNavigation
      | redo => cases hNavigation
      | _ => rfl
    have hNot : ¬ a.isRecorded = true := by
      intro hRecorded
      rw [Action.isNavigation_of_isRecorded hRecorded] at hNavigation
      cases hNavigation
    rw [if_neg hNot]
    cases hCommit
    exact unwinds_of_navigation hs h hNavigation (hBrings.navigation_tree hNavigation hPlace)
  · exact unwinds_of_undo hs h
  · exact unwinds_of_redo hs h (Nat.le_of_add_right_le hRoom)

theorem request_unwinds (hs : s.Unwinds tree limit recorded)
    (hCursor : ∀ c, a ≠ .setCursor c) (hSelect : ∀ sel, a ≠ .setSelect sel)
    (hRoom : recorded + ed.records s a ≤ limit) :
    (ed.request s a).Unwinds tree limit (recorded + ed.records s a) := by
  unfold request
  cases hApply : ed.apply s a with
  | ok s' => exact apply_unwinds hs hApply hCursor hSelect hRoom
  | error reason =>
      have hNone : ed.records s a = 0 := by simp [records, hApply, Except.isOk, Except.toBool]
      rw [hNone]
      exact hs

theorem unwinds_run (ed : Editor G) {actions : List (Action G)} (hs : s.Unwinds tree limit recorded)
    (hCursor : ∀ c, .setCursor c ∉ actions) (hSelect : ∀ sel, .setSelect sel ∉ actions)
    (hRoom : recorded + ed.recordings s actions ≤ limit) :
    (ed.run s actions).Unwinds tree limit (recorded + ed.recordings s actions) := by
  induction actions generalizing s recorded with
  | nil => exact hs
  | cons a rest ih =>
      rw [recordings, ← Nat.add_assoc] at hRoom ⊢
      have hNext : (ed.request s a).Unwinds tree limit (recorded + ed.records s a) := by
        refine request_unwinds hs (fun c hc => hCursor c ?_) (fun sel hSel => hSelect sel ?_)
          (Nat.le_of_add_right_le hRoom)
        · exact hc ▸ List.mem_cons_self ..
        · exact hSel ▸ List.mem_cons_self ..
      exact ih hNext (fun c hc => hCursor c (List.mem_cons_of_mem _ hc))
        (fun sel hSel => hSelect sel (List.mem_cons_of_mem _ hSel)) hRoom

/-- Undo is accepted as often as there are entries in the past, then refused, and the state in which
that happens is the oldest one. -/
theorem undo_all (ed : Editor G) (hRoom : s.HasRoom) :
    ∃ t, ed.applyAll s (List.replicate s.history.past.length .undo) = .ok t ∧
      ed.apply t .undo = .error (.rejected .nothingToUndo) ∧ t.snapshot = s.oldest := by
  have hs : s.Stands s.timeline s.history.limit (0 + s.history.past.length) :=
    ⟨rfl, (Nat.zero_add _).symm, rfl⟩
  obtain ⟨t, hUndos, ht⟩ := undos_stand ed (hs.hasRoom_iff.mp hRoom) _ hs
  have hPast : t.history.past = [] := List.length_eq_zero_iff.mp ht.place
  refine ⟨t, hUndos, ?_, ?_⟩
  · change t.commit .undo = _
    rw [State.commit, History.undo?_eq_none.mpr hPast]
  · have hHead := t.head?_timeline
    rw [ht.timeline, s.head?_timeline, State.oldest_of_past_nil hPast] at hHead
    exact (Option.some.inj hHead).symm

/-- A run from an empty history that sets neither cursor nor selection, and in which no more actions
are recorded than the history keeps, can be undone to the end, however undos, redos, moves and
refused requests are mixed in. Undo is accepted once for each entry of the past, then refused, and
the tree is the one of the start. Nothing is asked of the grammar or of the trees. -/
theorem run_unwinds (ed : Editor G) {start : State G} (hPast : start.history.past = [])
    (hFuture : start.history.future = []) {actions : List (Action G)}
    (hCursor : ∀ c, .setCursor c ∉ actions) (hSelect : ∀ sel, .setSelect sel ∉ actions)
    (hRecordings : ed.recordings start actions ≤ start.history.limit) :
    let s := ed.run start actions
    ∃ t, ed.applyAll s (List.replicate s.history.past.length .undo) = .ok t ∧
      ed.apply t .undo = .error (.rejected .nothingToUndo) ∧ t.tree = start.tree := by
  intro s
  have hStart : start.Unwinds start.tree start.history.limit 0 := by
    refine ⟨?_, ?_, rfl⟩
    · rw [State.oldest_of_past_nil hPast]
      rfl
    · rw [hPast, hFuture]
      exact Nat.le_refl 0
  have hRun := unwinds_run ed hStart hCursor hSelect (by omega)
  have hRoom : s.HasRoom := by
    have hEntries : s.history.past.length + s.history.future.length ≤ _ := hRun.entries
    rw [State.HasRoom, hRun.limit]
    omega
  obtain ⟨t, hUndos, hRefused, hOldest⟩ := undo_all ed hRoom
  refine ⟨t, hUndos, hRefused, ?_⟩
  calc t.tree = s.oldest.mode.tree := congrArg (·.mode.tree) hOldest
    _ = start.tree := hRun.tree

/-- The history keeps two entries, and two actions are recorded. The first comes after a move, is
undone and redone, and has a refused paste behind it; the second is undone and redone before the
run ends on a selection. -/
theorem run_unwinds_interleaved :
    let ed : Editor Alpha.grammar := {}
    let start : State Alpha.grammar :=
      .start (.cursor (.root (Alpha.app (Alpha.var "f") (Alpha.var "x")))) 2
    let actions : List (Action Alpha.grammar) :=
      [.moveCursor .down, .replaceExp (Alpha.var "g"), .paste, .undo, .redo, .moveCursor .right,
        .delete, .undo, .redo, .moveSelect .up]
    let s := ed.run start actions
    ed.recordings start actions = 2 ∧ s.history.limit = 2 ∧ s.history.past.length = 2 ∧
      s.tree ≠ start.tree ∧
      ∃ t, ed.applyAll s [.undo, .undo] = .ok t ∧
        ed.apply t .undo = .error (.rejected .nothingToUndo) ∧ t.tree = start.tree := by
  intro ed start actions s
  have hRecordings : ed.recordings start actions = 2 := by decide +kernel
  have hPast : start.history.past = [] := rfl
  have hFuture : start.history.future = [] := rfl
  have hLength : (ed.run start actions).history.past.length = 2 := by decide +kernel
  obtain ⟨t, hUndos, hRest⟩ := run_unwinds ed hPast hFuture (by simp [actions]) (by simp [actions])
    (Nat.le_of_eq hRecordings)
  simp only [hLength, List.replicate] at hUndos
  exact ⟨hRecordings, by decide +kernel, hLength, by decide +kernel, t, hUndos, hRest⟩

end Editor

end TreeEditor
