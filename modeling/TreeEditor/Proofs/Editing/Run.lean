import TreeEditor.Proofs.Editing.Accepted
import TreeEditor.Proofs.History

/-! Runs of requests. `Brings` says once what an accepted action can do: which snapshot it puts in
place of the present one, and what it has checked for that. Undo and redo bring in no snapshot
that the history did not hold. -/

namespace TreeEditor

variable {G : Grammar}

open Outcome

/-- Whether the action works on the tree at hand. The others go to another tree: one that they
carry, or one that the history holds. -/
def Action.editsInPlace : Action G → Bool
  | .undo | .redo | .setCursor _ | .setSelect _ => false
  | _ => true

namespace State

/-- The present and all that undo and redo can bring back. -/
def snapshots (s : State G) : List (Snapshot G) :=
  s.snapshot :: (s.history.past ++ s.history.future)

theorem commit_undo_eq_ok {s s' : State G} :
    s.commit .undo = .ok s' ↔
      ∃ previous history, s.history.undo? s.snapshot = some (previous, history) ∧
        s' = ⟨previous.mode, previous.clipboard, history⟩ := by
  simp only [commit]
  cases s.history.undo? s.snapshot with
  | none => simp
  | some stepped =>
      constructor
      · intro h
        cases h
        exact ⟨stepped.1, stepped.2, rfl, rfl⟩
      · intro hParts
        obtain ⟨entry, history, hStep, hState⟩ := hParts
        cases hStep
        rw [hState]

theorem commit_redo_eq_ok {s s' : State G} :
    s.commit .redo = .ok s' ↔
      ∃ next history, s.history.redo? s.snapshot = some (next, history) ∧
        s' = ⟨next.mode, next.clipboard, history⟩ := by
  simp only [commit]
  cases s.history.redo? s.snapshot with
  | none => simp
  | some stepped =>
      constructor
      · intro h
        cases h
        exact ⟨stepped.1, stepped.2, rfl, rfl⟩
      · intro hParts
        obtain ⟨entry, history, hStep, hState⟩ := hParts
        cases hStep
        rw [hState]

end State

namespace Editor

/-- The accepted action leads from the state to the snapshot. -/
inductive Brings (ed : Editor G) (s : State G) : Action G → Snapshot G → Prop where
  | moveCursor {direction : Direction} {c : Cursor G}
      (h : s.mode.focus.step? direction = some c) :
      Brings ed s (.moveCursor direction) ⟨.cursor c, s.clipboard⟩
  | moveSelect {direction : Direction} {mode : Mode G}
      (h : ed.moveSelect direction s.mode = .ok mode) :
      Brings ed s (.moveSelect direction) ⟨mode, s.clipboard⟩
  | setCursor {c : Cursor G} (h : c.wellFormed = .ok true) :
      Brings ed s (.setCursor c) ⟨.cursor c, s.clipboard⟩
  | setSelect {sel : Selection G} (h : sel.wellFormed = .ok true) (hValid : ed.isValid sel = true) :
      Brings ed s (.setSelect sel) ⟨.select sel, s.clipboard⟩
  | escape {sel : Selection G} (h : s.mode = .select sel) :
      Brings ed s .escape ⟨.cursor sel.escape, s.clipboard⟩
  | replaceExp {e : Exp G} {mode : Mode G} (h : s.mode.replaceExp e = .ok mode) :
      Brings ed s (.replaceExp e) ⟨mode, s.clipboard⟩
  | replacePath {p : Path G} {mode : Mode G} (h : ed.replacePath p s.mode = .ok mode) :
      Brings ed s (.replacePath p) ⟨mode, s.clipboard⟩
  | insert {p : Path G} {c : Cursor G} (h : s.mode.target.insert p = .ok c) :
      Brings ed s (.insert p) ⟨.cursor c, s.clipboard⟩
  | delete {c : Cursor G} (h : ed.delete s.mode = .ok c) :
      Brings ed s .delete ⟨.cursor c, s.clipboard⟩
  | copy {clipboard : Clipboard G} (h : ed.copied s.mode = .ok clipboard) :
      Brings ed s .copy ⟨s.mode, clipboard⟩
  | cut {c : Cursor G} {clipboard : Clipboard G} (h : ed.delete s.mode = .ok c)
      (hCopied : ed.copied s.mode = .ok clipboard) :
      Brings ed s .cut ⟨.cursor c, clipboard⟩
  | paste {mode : Mode G} (h : ed.paste s.clipboard s.mode = .ok mode) :
      Brings ed s .paste ⟨mode, s.clipboard⟩

variable {ed : Editor G} {s s' : State G} {a : Action G}

theorem apply_eq_ok : ed.apply s a = .ok s' ↔ ∃ eff, ed.effect s a = .ok eff ∧ s.commit eff = .ok s' :=
  bind_eq_ok

/-- An effect records the state before a snapshot that a recorded action brings, moves to one that a
navigation brings, or steps along the history because that was asked for. -/
theorem effect_cases {eff : Effect G} (h : ed.effect s a = .ok eff) :
    (∃ next, eff = .edit next ∧ a.isRecorded = true ∧ ed.Brings s a next) ∨
      (∃ mode, eff = .navigate mode ∧ a.isNavigation = true ∧
        ed.Brings s a ⟨mode, s.clipboard⟩) ∨
      (eff = .undo ∧ a = .undo) ∨ (eff = .redo ∧ a = .redo) := by
  cases a with
  | undo =>
      cases h
      exact .inr (.inr (.inl ⟨rfl, rfl⟩))
  | redo =>
      cases h
      exact .inr (.inr (.inr ⟨rfl, rfl⟩))
  | moveCursor direction =>
      simp only [effect] at h
      split at h
      · next c hStep =>
          cases h
          exact .inr (.inl ⟨_, rfl, rfl, .moveCursor hStep⟩)
      · cases h
  | moveSelect direction =>
      obtain ⟨mode, hMode, rfl⟩ := map_eq_ok.mp h
      exact .inr (.inl ⟨_, rfl, rfl, .moveSelect hMode⟩)
  | setCursor c =>
      obtain ⟨answer, hAnswer, h⟩ := bind_eq_ok.mp h
      split at h
      · next hTrue =>
          cases h
          exact .inr (.inl ⟨_, rfl, rfl, .setCursor (hTrue ▸ lift_eq_ok.mp hAnswer)⟩)
      · cases h
  | setSelect sel =>
      obtain ⟨answer, hAnswer, h⟩ := bind_eq_ok.mp h
      split at h
      · next hTrue =>
          obtain ⟨found, hChecked, h⟩ := bind_eq_ok.mp h
          cases h
          obtain ⟨hValid, rfl⟩ := checked_eq_ok.mp hChecked
          exact .inr (.inl ⟨_, rfl, rfl, .setSelect (hTrue ▸ lift_eq_ok.mp hAnswer) hValid⟩)
      · cases h
  | escape =>
      simp only [effect] at h
      split at h
      · next sel hMode =>
          cases h
          exact .inr (.inl ⟨_, rfl, rfl, .escape hMode⟩)
      · cases h
  | replaceExp e =>
      obtain ⟨mode, hMode, h⟩ := bind_eq_ok.mp h
      cases h
      exact .inl ⟨_, rfl, rfl, .replaceExp hMode⟩
  | replacePath p =>
      obtain ⟨mode, hMode, h⟩ := bind_eq_ok.mp h
      cases h
      exact .inl ⟨_, rfl, rfl, .replacePath hMode⟩
  | insert p =>
      obtain ⟨c, hCursor, h⟩ := bind_eq_ok.mp h
      cases h
      exact .inl ⟨_, rfl, rfl, .insert hCursor⟩
  | delete =>
      obtain ⟨c, hCursor, h⟩ := bind_eq_ok.mp h
      cases h
      exact .inl ⟨_, rfl, rfl, .delete hCursor⟩
  | copy =>
      obtain ⟨clipboard, hCopied, h⟩ := bind_eq_ok.mp h
      cases h
      exact .inl ⟨_, rfl, rfl, .copy hCopied⟩
  | cut =>
      obtain ⟨c, hCursor, h⟩ := bind_eq_ok.mp h
      obtain ⟨clipboard, hCopied, h⟩ := bind_eq_ok.mp h
      cases h
      exact .inl ⟨_, rfl, rfl, .cut hCursor hCopied⟩
  | paste =>
      obtain ⟨mode, hMode, h⟩ := bind_eq_ok.mp h
      cases h
      exact .inl ⟨_, rfl, rfl, .paste hMode⟩

/-- An accepted action that is neither undo nor redo leaves the snapshot it brings as the present. -/
theorem apply_brings (h : ed.apply s a = .ok s') (hUndo : a ≠ .undo) (hRedo : a ≠ .redo) :
    ed.Brings s a s'.snapshot := by
  obtain ⟨eff, hEffect, hCommit⟩ := apply_eq_ok.mp h
  rcases effect_cases hEffect with
    ⟨next, rfl, _, hBrings⟩ | ⟨mode, rfl, _, hBrings⟩ | ⟨_, ha⟩ | ⟨_, ha⟩
  · cases hCommit
    exact hBrings
  · cases hCommit
    exact hBrings
  · exact absurd ha hUndo
  · exact absurd ha hRedo

/-- Every snapshot that an accepted action leaves in the state was there before, or is the one that
the action brings. -/
theorem apply_snapshots (h : ed.apply s a = .ok s') {x : Snapshot G} (hx : x ∈ s'.snapshots) :
    x ∈ s.snapshots ∨ ed.Brings s a x := by
  obtain ⟨eff, hEffect, hCommit⟩ := apply_eq_ok.mp h
  rcases effect_cases hEffect with
    ⟨next, rfl, _, hBrings⟩ | ⟨mode, rfl, _, hBrings⟩ | ⟨rfl, _⟩ | ⟨rfl, _⟩
  · cases hCommit
    rcases List.mem_cons.mp hx with rfl | hx
    · exact .inr hBrings
    · simp only [History.record, List.append_nil] at hx
      rcases List.mem_cons.mp (List.mem_of_mem_take hx) with rfl | hx
      · exact .inl (List.mem_cons_self ..)
      · exact .inl (List.mem_cons_of_mem _ (List.mem_append_left _ hx))
  · cases hCommit
    rcases List.mem_cons.mp hx with rfl | hx
    · exact .inr hBrings
    · simp only [History.clearFuture, List.append_nil] at hx
      exact .inl (List.mem_cons_of_mem _ (List.mem_append_left _ hx))
  · left
    obtain ⟨previous, history, hStep, rfl⟩ := State.commit_undo_eq_ok.mp hCommit
    obtain ⟨hPast, hFuture, _⟩ := History.undo?_eq_some.mp hStep
    simp only [State.snapshots, hPast, hFuture] at hx ⊢
    rcases List.mem_cons.mp hx with rfl | hx
    · exact List.mem_cons_of_mem _ (List.mem_append_left _ (List.mem_cons_self ..))
    · rcases List.mem_append.mp hx with hx | hx
      · simp [hx]
      · rcases List.mem_cons.mp (List.mem_of_mem_take hx) with rfl | hx
        · exact List.mem_cons_self ..
        · simp [hx]
  · left
    obtain ⟨next, history, hStep, rfl⟩ := State.commit_redo_eq_ok.mp hCommit
    obtain ⟨hFuture, hPast, _⟩ := History.redo?_eq_some.mp hStep
    simp only [State.snapshots, hPast, hFuture] at hx ⊢
    rcases List.mem_cons.mp hx with rfl | hx
    · exact List.mem_cons_of_mem _ (List.mem_append_right _ (List.mem_cons_self ..))
    · rcases List.mem_append.mp hx with hx | hx
      · rcases List.mem_cons.mp (List.mem_of_mem_take hx) with rfl | hx
        · exact List.mem_cons_self ..
        · simp [hx]
      · simp [hx]

/-- The state after a request. A refused one changes nothing. -/
def request (ed : Editor G) (s : State G) (a : Action G) : State G :=
  match ed.apply s a with
  | .ok next => next
  | .error _ => s

/-- The state after a run of requests, each of them accepted or refused. -/
def run (ed : Editor G) (s : State G) (actions : List (Action G)) : State G :=
  actions.foldl ed.request s

/-- The state after a run of requests, provided that all of them are accepted. -/
def applyAll (ed : Editor G) (s : State G) (actions : List (Action G)) :
    Except (Refusal G) (State G) :=
  actions.foldlM ed.apply s

/-- What accepted actions keep, every run keeps. -/
theorem run_invariant {P : State G → Prop} {actions : List (Action G)} (hStart : P s)
    (hStep : ∀ s s' a, a ∈ actions → P s → ed.apply s a = .ok s' → P s') :
    P (ed.run s actions) := by
  induction actions generalizing s with
  | nil => exact hStart
  | cons a rest ih =>
      have hNext : P (ed.request s a) := by
        unfold request
        split
        · next s' hApply => exact hStep s s' a (List.mem_cons_self ..) hStart hApply
        · exact hStart
      exact ih hNext fun s s' b hb => hStep s s' b (List.mem_cons_of_mem _ hb)

/-- A property of snapshots that every snapshot brought in has, as long as the present one has it,
holds of all snapshots of every state that a run reaches. -/
theorem run_snapshots {P : Snapshot G → Prop} {actions : List (Action G)}
    (hStart : ∀ x ∈ s.snapshots, P x)
    (hBrings : ∀ s a x, a ∈ actions → P s.snapshot → ed.Brings s a x → P x) :
    ∀ x ∈ (ed.run s actions).snapshots, P x := by
  refine run_invariant (P := fun s => ∀ x ∈ s.snapshots, P x) hStart ?_
  intro s s' a ha hAll hApply x hx
  rcases apply_snapshots hApply hx with hOld | hNew
  · exact hAll x hOld
  · exact hBrings s a x ha (hAll s.snapshot (List.mem_cons_self ..)) hNew

end Editor

end TreeEditor
