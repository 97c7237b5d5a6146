import TreeEditor.Proofs.Editing.Decision
import TreeEditor.Proofs.Editing.Selections
import TreeEditor.Proofs.FreeEnd

/-! What is ordinary to be refused for. A user who asks for a move or a change that does not apply at
the place at hand meets ordinary refusals. The other reasons tell that somebody brought material
that does not fit, or a range that is empty or not allowed. Where the host allows every range, no
move and no taking out of material is refused for one of those. -/

namespace TreeEditor

variable {G : Grammar}

/-- Whether the reason says that the action does not apply here, and not that something is wrong with
what the action works on. -/
def Rejection.isOrdinary : Rejection → Bool
  | atBoundary _ | needsSelection | divergentCursors | clipboardEmpty | clipboardMismatch
  | nothingToUndo | nothingToRedo | noCandidate => true
  | invalidSelection | emptySelection | emptyPath | slotMismatch => false

/-- A fault is never ordinary. -/
def Refusal.isOrdinary : Refusal G → Bool
  | rejected reason => reason.isOrdinary
  | fault _ => false

namespace Outcome

variable {α β : Type}

/-- The computation succeeds, or is refused for an ordinary reason. -/
def Ordinary (x : Except (Refusal G) α) : Prop :=
  ∀ refusal, x = .error refusal → refusal.isOrdinary = true

theorem ordinary_ok {x : Except (Refusal G) α} (h : ∃ a, x = .ok a) : Ordinary x := by
  intro refusal hError
  obtain ⟨a, ha⟩ := h
  rw [ha] at hError
  cases hError

theorem ordinary_rejected {reason : Rejection} (h : reason.isOrdinary = true) :
    Ordinary (.error (.rejected reason) : Except (Refusal G) α) := by
  intro refusal hError
  cases hError
  exact h

theorem Ordinary.bind {x : Except (Refusal G) α} {next : α → Except (Refusal G) β}
    (hFirst : Ordinary x) (hNext : ∀ a, x = .ok a → Ordinary (next a)) :
    Ordinary (x >>= next) := by
  intro refusal h
  rcases bind_eq_error.mp h with hError | ⟨a, ha, hError⟩
  · exact hFirst refusal hError
  · exact hNext a ha refusal hError

theorem Ordinary.map {x : Except (Refusal G) α} (h : Ordinary x) (f : α → β) :
    Ordinary (x.map f) := by
  intro refusal hError
  exact h refusal (map_eq_error.mp hError)

end Outcome

open Outcome

/-- A free end that moves leaves a range with frames, unless the ends have met. -/
theorem Selection.below_of_move? {s t : Selection G} {direction : Direction} (hBelow : s.below ≠ [])
    (h : s.move? direction = some (.range t)) : t.below ≠ [] := by
  rw [move?_eq hBelow] at h
  obtain ⟨moved, _, hSpan⟩ := Option.bind_eq_some_iff.mp h
  unfold respan? at hSpan
  split at hSpan
  · cases hSpan
  · cases hSpan
  · next found hRange =>
      cases hSpan
      exact (Cursor.span_range hRange).1

namespace Editor

variable {ed : Editor G} {s : State G}

section AllowAll

variable (hAll : ∀ sel, ed.accepts sel = true)

include hAll

theorem checked_of_below {sel : Selection G} (hBelow : sel.below ≠ []) :
    ∃ found, ed.checked sel = .ok found :=
  (checked_decided hBelow).accepted (hAll sel)

/-- A selection that starts at a cursor has the two ends of a move, which are never the same. -/
theorem startSelection_ordinary (c : Cursor G) (direction : Direction) :
    Ordinary (ed.startSelection c direction) := by
  unfold startSelection
  split
  · exact ordinary_rejected rfl
  · next moved hStep =>
      split
      · next sel hSpan => exact ordinary_ok (checked_of_below hAll (Cursor.span_range hSpan).1)
      · next hSame => exact absurd (Cursor.span_eq_same.mp hSame) (Cursor.step?_path_ne hStep)
      · exact ordinary_rejected rfl

theorem moveSelect_ordinary {mode : Mode G} (hAdmits : ed.Admits mode) (direction : Direction) :
    Ordinary (ed.moveSelect direction mode) := by
  cases mode with
  | cursor c => exact (startSelection_ordinary hAll c direction).map _
  | select sel =>
      have hBelow : sel.below ≠ [] := (isValid_eq_true.mp (hAdmits sel rfl)).1
      simp only [moveSelect]
      split
      · exact ordinary_rejected rfl
      · next range hMove =>
          have hRange : range.below ≠ [] := Selection.below_of_move? hBelow hMove
          exact (ordinary_ok (checked_of_below hAll hRange)).map _
      · exact ordinary_ok ⟨_, rfl⟩

end AllowAll

/-- Material can be taken out of every mode that a run can be in. -/
theorem takeOut_ordinary (hG : G.Consistent) (hAdmits : ed.Admits s.mode) {a : Action G}
    (ha : a = .copy ∨ a = .cut ∨ a = .delete) : Ordinary (ed.apply s a) := by
  apply ordinary_ok
  cases hMode : s.mode with
  | cursor c => exact cursor_accepts hG hMode ha
  | select sel => exact select_accepts hG hMode (hAdmits sel hMode) ha

theorem commit_ordinary (s : State G) (eff : Effect G) : Ordinary (s.commit eff) := by
  cases eff with
  | edit next => exact ordinary_ok ⟨_, rfl⟩
  | navigate mode => exact ordinary_ok ⟨_, rfl⟩
  | undo =>
      simp only [State.commit]
      split
      · exact ordinary_ok ⟨_, rfl⟩
      · exact ordinary_rejected rfl
  | redo =>
      simp only [State.commit]
      split
      · exact ordinary_ok ⟨_, rfl⟩
      · exact ordinary_rejected rfl

theorem apply_ordinary {a : Action G} (h : Ordinary (ed.effect s a)) : Ordinary (ed.apply s a) :=
  h.bind fun eff _ => commit_ordinary s eff

theorem setCursor_accepts (ed : Editor G) (s : State G) {c : Cursor G}
    (h : c.wellFormed = .ok true) : ∃ s', ed.apply s (.setCursor c) = .ok s' := by
  rw [apply, effect, h]
  exact ⟨_, rfl⟩

theorem moveCursor_ordinary (s : State G) (direction : Direction) :
    Ordinary (ed.effect s (.moveCursor direction)) := by
  simp only [effect]
  split
  · exact ordinary_ok ⟨_, rfl⟩
  · exact ordinary_rejected rfl

theorem escape_ordinary (s : State G) : Ordinary (ed.effect s .escape) := by
  simp only [effect]
  split
  · exact ordinary_ok ⟨_, rfl⟩
  · exact ordinary_rejected rfl

end Editor

section OneSlot

variable (hOne : ∀ slot slot' : G.Slot, slot = slot')

include hOne

/-- If there is one slot only, frames that chain can be put around every node. -/
theorem Path.wellFormed_plug_of_oneSlot {p : Path G} {e : Exp G} (hPath : p.Complete)
    (hChain : p.wellFormed = .ok true) (he : e.WellFormed) : (p.plug e).WellFormed := by
  refine wellFormed_plug.mpr ⟨hPath, chains_some_iff.mpr ⟨hChain, fun f hf => ?_⟩, he⟩
  obtain ⟨slot, hSlot⟩ := (hPath f (List.mem_of_head? hf)).exists_holeSlot
  rwa [hOne slot e.slot] at hSlot

theorem Mode.keepsForm_of_oneSlot {mode : Mode G} {new : Exp G} (hTree : mode.tree.WellFormed)
    (hNew : new.WellFormed) : mode.KeepsForm new :=
  (keepsForm_iff hTree).mpr ⟨hNew, hOne _ _⟩

namespace Editor

variable {ed : Editor G} {s : State G} {p : Path G}

theorem replaceExp_accepts (hTree : s.tree.WellFormed) {e : Exp G} (he : e.WellFormed) :
    ∃ s', ed.apply s (.replaceExp e) = .ok s' :=
  (apply_replaceExp_decided hTree he).accepted (Mode.keepsForm_of_oneSlot hOne hTree he)

theorem insert_accepts (hTree : s.tree.WellFormed) (hPath : p.Complete) (hSome : p ≠ [])
    (hChain : p.wellFormed = .ok true) : ∃ s', ed.apply s (.insert p) = .ok s' := by
  obtain ⟨f, hEffect⟩ := ed.effect_insert s p
  have hNew : (p.plug s.mode.target.exp).WellFormed :=
    Path.wellFormed_plug_of_oneSlot hOne hPath hChain (Mode.target_wellFormed hTree)
  exact (apply_decided hEffect (Mode.wrap_decided hTree hPath hSome)).accepted
    (Mode.keepsForm_of_oneSlot hOne hTree hNew)

/-- Material that was copied can be pasted wherever there is some and it is of the right kind. -/
theorem paste_ordinary (hAll : ∀ sel, ed.accepts sel = true) {clipboard : Clipboard G}
    {mode : Mode G} (hTree : mode.tree.WellFormed) (hClipboard : clipboard.WellFormed) :
    Ordinary (ed.paste clipboard mode) := by
  cases clipboard with
  | empty => exact ordinary_rejected rfl
  | exp e =>
      cases mode with
      | select sel => exact ordinary_rejected rfl
      | cursor c =>
          apply ordinary_ok
          exact (Mode.replaceExp_decided hTree hClipboard).accepted
            (Mode.keepsForm_of_oneSlot hOne hTree hClipboard)
  | path p =>
      obtain ⟨hSome, hPath, hChain⟩ := hClipboard
      have hForm : mode.KeepsForm (p.plug mode.kept) :=
        Mode.keepsForm_of_oneSlot hOne hTree
          (Path.wellFormed_plug_of_oneSlot hOne hPath hChain (Mode.kept_wellFormed hTree))
      cases mode with
      | select sel =>
          apply ordinary_ok
          exact (replaceBelow_decided hTree hPath hSome hForm).accepted (hAll _)
      | cursor c =>
          -- The frames are also looked at as the range that they would be once they are there.
          have hWrap := ordinary_ok ((Mode.wrap_decided hTree hPath hSome).accepted hForm)
          refine hWrap.bind fun wrapped _ => ?_
          have hChecked : ∃ found, ed.checked ⟨c.path, p, c.exp, .top⟩ = .ok found :=
            checked_of_below hAll hSome
          exact (ordinary_ok hChecked).bind fun _ _ => ordinary_ok ⟨_, rfl⟩

end Editor

end OneSlot

end TreeEditor
