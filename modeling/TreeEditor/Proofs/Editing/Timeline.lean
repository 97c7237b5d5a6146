import TreeEditor.Language.Alpha.Basic
import TreeEditor.Proofs.Editing.Run

/-! Undo and redo as steps along one line of snapshots. Each stack is capped on its own, yet in
every state that a run reaches the two of them together keep within the limit. So no step along
the line drops an entry, and steps back and forth cancel out exactly. -/

namespace TreeEditor

variable {G : Grammar}

namespace State

/-- The snapshots of the state in the order in which undo and redo pass through them. -/
def timeline (s : State G) : List (Snapshot G) :=
  s.history.timeline s.snapshot

/-- Both stacks together have no more entries than each of them may have. -/
def HasRoom (s : State G) : Prop :=
  s.history.past.length + s.history.future.length ≤ s.history.limit

/-- The state stands at a place of a line: as many of its entries lie in the past. -/
structure Stands (line : List (Snapshot G)) (limit place : Nat) (s : State G) : Prop where
  timeline : s.timeline = line
  place : s.history.past.length = place
  limit : s.history.limit = limit

/-- There is only one state at each place of a line. -/
theorem Stands.unique {line : List (Snapshot G)} {limit place : Nat} {s t : State G}
    (hs : s.Stands line limit place) (ht : t.Stands line limit place) : s = t := by
  obtain ⟨hSnapshot, hHistory⟩ := History.eq_of_timeline (hs.timeline.trans ht.timeline.symm)
    (hs.place.trans ht.place.symm) (hs.limit.trans ht.limit.symm)
  obtain ⟨mode, clipboard, history⟩ := s
  obtain ⟨mode', clipboard', history'⟩ := t
  cases hSnapshot
  cases hHistory
  rfl

/-- Having room is a property of the line alone. -/
theorem Stands.hasRoom_iff {line : List (Snapshot G)} {limit place : Nat} {s : State G}
    (hs : s.Stands line limit place) : s.HasRoom ↔ line.length ≤ limit + 1 := by
  rw [← hs.timeline, ← hs.limit, State.timeline, History.length_timeline, HasRoom]
  omega

theorem commit_limit {s s' : State G} {eff : Effect G} (h : s.commit eff = .ok s') :
    s'.history.limit = s.history.limit := by
  cases eff with
  | edit next =>
      cases h
      rfl
  | navigate mode =>
      cases h
      rfl
  | undo =>
      obtain ⟨previous, history, hStep, rfl⟩ := commit_undo_eq_ok.mp h
      exact (History.undo?_eq_some.mp hStep).2.2
  | redo =>
      obtain ⟨next, history, hStep, rfl⟩ := commit_redo_eq_ok.mp h
      exact (History.redo?_eq_some.mp hStep).2.2

/-- No effect overfills the two stacks: an edit or a move empties one of them, and a step along the
line takes from one what it adds to the other. -/
theorem commit_hasRoom {s s' : State G} {eff : Effect G} (hRoom : s.HasRoom)
    (h : s.commit eff = .ok s') : s'.HasRoom := by
  cases eff with
  | edit next =>
      cases h
      exact (s.history.record s.snapshot).past_le
  | navigate mode =>
      cases h
      exact s.history.clearFuture.past_le
  | undo =>
      obtain ⟨previous, history, hStep, rfl⟩ := commit_undo_eq_ok.mp h
      obtain ⟨hPast, hFuture, hLimit⟩ := History.undo?_eq_some.mp hStep
      simp only [HasRoom, hPast, hFuture, hLimit, List.length_take, List.length_cons] at hRoom ⊢
      omega
  | redo =>
      obtain ⟨next, history, hStep, rfl⟩ := commit_redo_eq_ok.mp h
      obtain ⟨hFuture, hPast, hLimit⟩ := History.redo?_eq_some.mp hStep
      simp only [HasRoom, hPast, hFuture, hLimit, List.length_take, List.length_cons] at hRoom ⊢
      omega

end State

namespace Editor

variable (ed : Editor G) {s : State G} {line : List (Snapshot G)} {limit place : Nat}

theorem run_hasRoom (hRoom : s.HasRoom) (actions : List (Action G)) :
    (ed.run s actions).HasRoom ∧ (ed.run s actions).history.limit = s.history.limit := by
  refine run_invariant (P := fun t => t.HasRoom ∧ t.history.limit = s.history.limit)
    ⟨hRoom, rfl⟩ ?_
  intro t t' a _ hBefore hApply
  obtain ⟨hTRoom, hTLimit⟩ := hBefore
  obtain ⟨eff, _, hCommit⟩ := apply_eq_ok.mp hApply
  exact ⟨State.commit_hasRoom hTRoom hCommit, (State.commit_limit hCommit).trans hTLimit⟩

/-- One undo goes one place back. -/
theorem undo_stands (hLine : line.length ≤ limit + 1) (hs : s.Stands line limit (place + 1)) :
    ∃ t, ed.apply s .undo = .ok t ∧ t.Stands line limit place := by
  have hRoom := hs.hasRoom_iff.mpr hLine
  have hPlace := hs.place
  obtain ⟨previous, history, hStep, hTimeline, hPast, hLimit⟩ :=
    History.exists_undo? s.snapshot hRoom (by omega)
  refine ⟨⟨previous.mode, previous.clipboard, history⟩, ?_, ?_, ?_, ?_⟩
  · exact State.commit_undo_eq_ok.mpr ⟨previous, history, hStep, rfl⟩
  · exact hTimeline.trans hs.timeline
  · change history.past.length = place
    omega
  · exact hLimit.trans hs.limit

/-- One redo goes one place forward. -/
theorem redo_stands (hLine : line.length ≤ limit + 1) (hs : s.Stands line limit place)
    (hPlace : place + 1 < line.length) :
    ∃ t, ed.apply s .redo = .ok t ∧ t.Stands line limit (place + 1) := by
  have hRoom := hs.hasRoom_iff.mpr hLine
  have hFuture : 0 < s.history.future.length := by
    rw [← hs.timeline, ← hs.place, State.timeline, History.length_timeline] at hPlace
    omega
  obtain ⟨next, history, hStep, hTimeline, hPast, hLimit⟩ :=
    History.exists_redo? s.snapshot hRoom hFuture
  refine ⟨⟨next.mode, next.clipboard, history⟩, ?_, ?_, ?_, ?_⟩
  · exact State.commit_redo_eq_ok.mpr ⟨next, history, hStep, rfl⟩
  · exact hTimeline.trans hs.timeline
  · exact hPast.trans (by rw [hs.place])
  · exact hLimit.trans hs.limit

theorem applyAll_cons_eq_ok {a : Action G} {rest : List (Action G)} {t' : State G} :
    ed.applyAll s (a :: rest) = .ok t' ↔
      ∃ t, ed.apply s a = .ok t ∧ ed.applyAll t rest = .ok t' := by
  rw [applyAll, List.foldlM_cons]
  exact Outcome.bind_eq_ok

theorem applyAll_cons {a : Action G} {rest : List (Action G)} {t t' : State G}
    (hFirst : ed.apply s a = .ok t) (hRest : ed.applyAll t rest = .ok t') :
    ed.applyAll s (a :: rest) = .ok t' :=
  (applyAll_cons_eq_ok ed).mpr ⟨t, hFirst, hRest⟩

/-- As many undos as there are places before this one are all accepted. -/
theorem undos_stand (hLine : line.length ≤ limit + 1) (count : Nat)
    (hs : s.Stands line limit (place + count)) :
    ∃ t, ed.applyAll s (List.replicate count .undo) = .ok t ∧ t.Stands line limit place := by
  induction count generalizing s with
  | zero => exact ⟨s, rfl, hs⟩
  | succ count ih =>
      obtain ⟨t, hFirst, hStands⟩ := undo_stands ed hLine hs
      obtain ⟨t', hRest, hStands'⟩ := ih hStands
      exact ⟨t', applyAll_cons ed hFirst hRest, hStands'⟩

/-- As many redos as there are places after this one are all accepted. -/
theorem redos_stand (hLine : line.length ≤ limit + 1) (count : Nat)
    (hs : s.Stands line limit place) (hCount : place + count < line.length) :
    ∃ t, ed.applyAll s (List.replicate count .redo) = .ok t ∧
      t.Stands line limit (place + count) := by
  induction count generalizing s place with
  | zero => exact ⟨s, rfl, hs⟩
  | succ count ih =>
      obtain ⟨t, hFirst, hStands⟩ := redo_stands ed hLine hs (by omega)
      obtain ⟨t', hRest, hStands'⟩ := ih hStands (by omega)
      refine ⟨t', applyAll_cons ed hFirst hRest, ?_⟩
      rwa [show place + (count + 1) = place + 1 + count by omega]

/-- In every state that a run of any actions reaches, the two stacks together keep within the limit.
So any number of undos, up to the length of the past, is accepted, loses no snapshot of the line,
and is taken back exactly by as many redos; and likewise the other way round. A limit of zero
counts as one. -/
theorem undo_redo_inverse (mode : Mode G) (limit : Nat)
    (actions : List (Action G)) :
    let s := ed.run (.start mode limit) actions
    s.history.past.length + s.history.future.length ≤ s.history.limit ∧
      s.history.limit = max limit 1 ∧
      (∀ k ≤ s.history.past.length, ∃ t, ed.applyAll s (List.replicate k .undo) = .ok t ∧
        t.timeline = s.timeline ∧ ed.applyAll t (List.replicate k .redo) = .ok s) ∧
      (∀ k ≤ s.history.future.length, ∃ t, ed.applyAll s (List.replicate k .redo) = .ok t ∧
        t.timeline = s.timeline ∧ ed.applyAll t (List.replicate k .undo) = .ok s) := by
  intro s
  have hStart : (State.start mode limit).HasRoom := Nat.zero_le _
  obtain ⟨hRoom, hLimit⟩ := run_hasRoom ed hStart actions
  have hs : s.Stands s.timeline s.history.limit s.history.past.length := ⟨rfl, rfl, rfl⟩
  have hLine := hs.hasRoom_iff.mp hRoom
  have hLength : s.timeline.length = s.history.past.length + s.history.future.length + 1 :=
    History.length_timeline _ _
  refine ⟨hRoom, hLimit, ?_, ?_⟩
  · intro k hk
    have hFrom : s.Stands s.timeline s.history.limit (s.history.past.length - k + k) := by
      rwa [Nat.sub_add_cancel hk]
    obtain ⟨t, hUndos, ht⟩ := undos_stand ed hLine k hFrom
    obtain ⟨s', hRedos, hBack⟩ := redos_stand ed hLine k ht (by omega)
    rw [hBack.unique hFrom] at hRedos
    exact ⟨t, hUndos, ht.timeline, hRedos⟩
  · intro k hk
    obtain ⟨t, hRedos, ht⟩ := redos_stand ed hLine k hs (by omega)
    obtain ⟨s', hUndos, hBack⟩ := undos_stand ed hLine k ht
    rw [hBack.unique hs] at hUndos
    exact ⟨t, hRedos, ht.timeline, hUndos⟩

/-- Three edits where the history keeps two, the last of them undone. The first snapshot is gone, yet
from here one undo and one redo, in either order, lead back to the same state. -/
theorem undo_redo_inverse_evicted :
    let ed : Editor Alpha.grammar := {}
    let actions : List (Action Alpha.grammar) :=
      [.replaceExp (Alpha.var "a"), .replaceExp (Alpha.var "b"), .replaceExp (Alpha.var "c"), .undo]
    let s := ed.run (.start (.cursor (.root Alpha.hole)) 2) actions
    s.history.past.length = 1 ∧ s.history.future.length = 1 ∧
      (∃ t, ed.applyAll s [.undo] = .ok t ∧ t.timeline = s.timeline ∧
        ed.applyAll t [.redo] = .ok s) ∧
      ∃ t, ed.applyAll s [.redo] = .ok t ∧ t.timeline = s.timeline ∧
        ed.applyAll t [.undo] = .ok s := by
  intro ed actions s
  have hPast : s.history.past.length = 1 := by decide +kernel
  have hFuture : s.history.future.length = 1 := by decide +kernel
  obtain ⟨_, _, hBack, hForth⟩ := undo_redo_inverse ed (.cursor (.root Alpha.hole)) 2 actions
  exact ⟨hPast, hFuture, hBack 1 (Nat.le_of_eq hPast.symm), hForth 1 (Nat.le_of_eq hFuture.symm)⟩

end Editor

end TreeEditor
