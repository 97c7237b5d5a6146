import TreeEditor.Language.Lambda
import TreeEditor.Proofs.Editing.TreeEdit

/-! When edits are accepted. The editor looks at the slots at both ends of what it puts in and at the
frames between them, and at nothing else. In a well-formed tree that is enough: the edit is
accepted exactly if the whole tree stays well formed and its root keeps its slot. -/

namespace TreeEditor

variable {G : Grammar}

open Outcome

namespace Path

/-- The check of frames decides whether the node that they rebuild obeys the grammar and has the slot
asked for. -/
theorem fits_decided {p : Path G} (hPath : p.Complete) (hSome : p ≠ []) {e : Exp G}
    (he : e.WellFormed) (outer : G.Slot) :
    DecidedBy (p.fits e.slot outer) ((p.plug e).WellFormed ∧ (p.plug e).slot = outer)
      .slotMismatch where
  accepted := by
    intro hParts
    obtain ⟨hPlug, hOuter⟩ := hParts
    obtain ⟨_, hChain, _⟩ := wellFormed_plug.mp hPlug
    exact ⟨(), fits_eq_ok.mpr ⟨hSome, hChain, hOuter⟩⟩
  refused := by
    intro hNot
    rcases fits_answer hPath hSome e.slot outer with hOk | hRefused
    · exact absurd (wellFormed_of_fits hPath he hOk) hNot
    · exact hRefused

/-- Trees that can stand at one position have one slot. Below the root the frame around the position
asks for it, and at the root the slot of the whole tree does. -/
theorem slot_unique {p : Path G} {u new : Exp G} (h : (p.plug u).WellFormed)
    (hNew : (p.plug new).WellFormed) (hRoot : (p.plug new).slot = (p.plug u).slot) :
    new.slot = u.slot := by
  cases p with
  | nil => exact hRoot
  | cons f outer =>
      obtain ⟨_, hChain, _⟩ := wellFormed_plug.mp h
      obtain ⟨_, hNewChain, _⟩ := wellFormed_plug.mp hNew
      obtain ⟨_, hSlot, _⟩ := chains_some_cons.mp hChain
      obtain ⟨_, hNewSlot, _⟩ := chains_some_cons.mp hNewChain
      rw [hSlot] at hNewSlot
      exact (Except.ok.inj hNewSlot).symm

end Path

namespace Mode

theorem target_wellFormed {mode : Mode G} (hTree : mode.tree.WellFormed) :
    mode.target.exp.WellFormed := by
  rw [← target_tree] at hTree
  exact (Path.wellFormed_plug.mp hTree).2.2

theorem kept_wellFormed {mode : Mode G} (hTree : mode.tree.WellFormed) : mode.kept.WellFormed := by
  have hTarget := target_wellFormed hTree
  cases mode with
  | cursor c => exact hTarget
  | select s => exact (Path.wellFormed_plug.mp hTarget).2.2

/-- With another subtree at the target, the tree obeys the grammar and its root has the slot it
had. -/
structure KeepsForm (mode : Mode G) (new : Exp G) : Prop where
  wellFormed : (mode.tree.subst mode.route new).WellFormed
  slot : (mode.tree.subst mode.route new).slot = mode.tree.slot

instance (mode : Mode G) (new : Exp G) : Decidable (mode.KeepsForm new) :=
  decidable_of_iff
    ((mode.tree.subst mode.route new).WellFormed ∧
      (mode.tree.subst mode.route new).slot = mode.tree.slot)
    ⟨fun ⟨hForm, hRoot⟩ => ⟨hForm, hRoot⟩, fun ⟨hForm, hRoot⟩ => ⟨hForm, hRoot⟩⟩

/-- In a well-formed tree the form is kept exactly by well-formed subtrees of the slot that is
there. -/
theorem keepsForm_iff {mode : Mode G} (hTree : mode.tree.WellFormed) {new : Exp G} :
    mode.KeepsForm new ↔ new.WellFormed ∧ new.slot = mode.target.exp.slot := by
  constructor
  · intro h
    obtain ⟨hForm, hRoot⟩ := h
    rw [subst_route] at hForm hRoot
    rw [← target_tree] at hTree hRoot
    exact ⟨(Path.wellFormed_plug.mp hForm).2.2, Path.slot_unique hTree hForm hRoot⟩
  · intro hParts
    obtain ⟨hNew, hSlot⟩ := hParts
    obtain ⟨hForm, hRoot⟩ := wellFormed_swap hTree hNew hSlot
    rw [← subst_route] at hForm hRoot
    exact ⟨hForm, hRoot⟩

/-- A replacement is decided by whether the tree keeps its form. -/
theorem replaceExp_decided {mode : Mode G} (hTree : mode.tree.WellFormed) {e : Exp G}
    (he : e.WellFormed) : DecidedBy (mode.replaceExp e) (mode.KeepsForm e) .slotMismatch := by
  have hSlots : DecidedBy (mode.replaceExp e) (e.slot = mode.target.exp.slot) .slotMismatch := by
    cases mode with
    | cursor c =>
        have hRequired : c.requiredSlot = .ok c.exp.slot := Cursor.requiredSlot_of_wellFormed hTree
        refine DecidedBy.after ?_ (lift_eq_ok.mpr hRequired)
        exact decidedBy_ite .slotMismatch _
    | select s =>
        rw [target, ← s.topSlot_eq]
        exact decidedBy_ite .slotMismatch _
  refine hSlots.congr ?_
  rw [keepsForm_iff hTree, and_iff_right he]

end Mode

namespace Cursor

variable {c : Cursor G} {p : Path G}

theorem wrap_nil (hTree : c.tree.WellFormed) : c.wrap [] = .error (.rejected .emptyPath) := by
  rw [wrap, requiredSlot_of_wellFormed hTree]
  rfl

/-- Putting frames around the focus is decided by the node that they rebuild. -/
theorem wrap_decided (hTree : c.tree.WellFormed) (hPath : p.Complete) (hSome : p ≠ []) :
    DecidedBy (c.wrap p) ((p.plug c.exp).WellFormed ∧ (p.plug c.exp).slot = c.exp.slot)
      .slotMismatch := by
  have hExp : c.exp.WellFormed := (Path.wellFormed_plug.mp hTree).2.2
  refine DecidedBy.after ?_ (lift_eq_ok.mpr (requiredSlot_of_wellFormed hTree))
  exact (Path.fits_decided hPath hSome hExp c.exp.slot).bind fun _ => ⟨_, rfl⟩

end Cursor

theorem Mode.wrap_decided {mode : Mode G} {p : Path G} (hTree : mode.tree.WellFormed)
    (hPath : p.Complete) (hSome : p ≠ []) :
    DecidedBy (mode.target.wrap p) (mode.KeepsForm (p.plug mode.target.exp)) .slotMismatch := by
  have hTarget : mode.target.tree.WellFormed := by rwa [target_tree]
  exact (Cursor.wrap_decided hTarget hPath hSome).congr (keepsForm_iff hTree).symm

/-- Frames in place of the selected ones are checked against both ends of the selection. -/
theorem Selection.fits_decided {sel : Selection G} {p : Path G} (hTree : sel.tree.WellFormed)
    (hPath : p.Complete) (hSome : p ≠ []) :
    DecidedBy (p.fits sel.exp.slot sel.topSlot) ((Mode.select sel).KeepsForm (p.plug sel.exp))
      .slotMismatch := by
  have hMode : (Mode.select sel).tree.WellFormed := hTree
  have hExp : sel.exp.WellFormed := Mode.kept_wellFormed hMode
  refine (Path.fits_decided hPath hSome hExp sel.topSlot).congr ?_
  rw [sel.topSlot_eq]
  exact (Mode.keepsForm_iff hMode).symm

namespace Editor

variable {ed : Editor G} {s : State G} {p : Path G}

theorem checked_decided {sel : Selection G} (hBelow : sel.below ≠ []) :
    DecidedBy (ed.checked sel) (ed.accepts sel = true) .invalidSelection where
  accepted := fun hAccepts =>
    ⟨sel, checked_eq_ok.mpr ⟨isValid_eq_true.mpr ⟨hBelow, hAccepts⟩, rfl⟩⟩
  refused := fun hRefuses => by simp [checked, hBelow, hRefuses]

section Edits

variable {α : Type} {a : Action G} {x : Except (Refusal G) α} {f : α → Snapshot G}

/-- An action whose effect is an edit is answered as the edit is: committing the edit cannot fail. -/
theorem apply_of_edit (hEffect : ed.effect s a = x >>= fun found => pure (.edit (f found))) :
    ed.apply s a =
      x.map fun found => ⟨(f found).mode, (f found).clipboard, s.history.record s.snapshot⟩ := by
  rw [apply, hEffect]
  cases x <;> rfl

theorem apply_decided (hEffect : ed.effect s a = x >>= fun found => pure (.edit (f found)))
    {P : Prop} {reason : Rejection} (h : DecidedBy x P reason) :
    DecidedBy (ed.apply s a) P reason := by
  rw [apply_of_edit hEffect]
  exact h.map _

theorem apply_refused (hEffect : ed.effect s a = x >>= fun found => pure (.edit (f found)))
    {refusal : Refusal G} (h : x = .error refusal) : ed.apply s a = .error refusal := by
  rw [apply_of_edit hEffect, h]
  rfl

end Edits

theorem apply_replaceExp_decided (hTree : s.tree.WellFormed) {e : Exp G} (he : e.WellFormed) :
    DecidedBy (ed.apply s (.replaceExp e)) (s.mode.KeepsForm e) .slotMismatch :=
  apply_decided (f := fun mode => ⟨mode, s.clipboard⟩) rfl (Mode.replaceExp_decided hTree he)

/-- An insertion is a wrapping of the target, wherever it leaves the cursor. -/
theorem effect_insert (ed : Editor G) (s : State G) (p : Path G) :
    ∃ f : Cursor G → Snapshot G, ed.effect s (.insert p) =
      s.mode.target.wrap p >>= fun wrapped => pure (.edit (f wrapped)) := by
  refine ⟨fun wrapped => ⟨.cursor ((((p.plug s.mode.target.exp).firstHole (some p.route)).bind
    (Cursor.mk s.mode.target.path (p.plug s.mode.target.exp)).descend?).getD wrapped),
    s.clipboard⟩, ?_⟩
  rw [effect, Cursor.insert]
  cases s.mode.target.wrap p <;> rfl

/-- At a cursor, frames in place of the selected ones are frames around the focus. -/
theorem effect_replacePath (ed : Editor G) {c : Cursor G} (hMode : s.mode = .cursor c)
    (p : Path G) :
    ∃ f : Cursor G → Snapshot G, ed.effect s (.replacePath p) =
      s.mode.target.wrap p >>= fun wrapped => pure (.edit (f wrapped)) := by
  refine ⟨fun wrapped => ⟨.cursor wrapped, s.clipboard⟩, ?_⟩
  rw [effect, hMode, replacePath, Mode.target]
  cases c.wrap p <;> rfl

/-- Wrapping the target is refused if there are no frames, and is decided by the form of the tree if
there are some. -/
theorem wrapping_accepted_iff {a : Action G} {f : Cursor G → Snapshot G}
    (hEffect : ed.effect s a =
      s.mode.target.wrap p >>= fun wrapped => pure (.edit (f wrapped)))
    (hTree : s.tree.WellFormed) (hPath : p.Complete) :
    ((∃ s', ed.apply s a = .ok s') ↔ p ≠ [] ∧ s.mode.KeepsForm (p.plug s.mode.target.exp)) ∧
      (p = [] → ed.apply s a = .error (.rejected .emptyPath)) ∧
      (p ≠ [] → ¬ s.mode.KeepsForm (p.plug s.mode.target.exp) →
        ed.apply s a = .error (.rejected .slotMismatch)) := by
  have hNone : p = [] → ed.apply s a = .error (.rejected .emptyPath) := by
    intro hNil
    have hTarget : s.mode.target.tree.WellFormed := by rwa [Mode.target_tree]
    rw [hNil] at hEffect
    exact apply_refused hEffect (Cursor.wrap_nil hTarget)
  have hSome : p ≠ [] → DecidedBy (ed.apply s a)
      (s.mode.KeepsForm (p.plug s.mode.target.exp)) .slotMismatch :=
    fun hFrames => apply_decided hEffect (Mode.wrap_decided hTree hPath hFrames)
  refine ⟨?_, hNone, fun hFrames => (hSome hFrames).refused⟩
  exact ok_iff_and (fun hNil => hNone (Decidable.not_not.mp hNil)) fun hFrames =>
    (hSome hFrames).ok_iff

section ReplaceBelow

variable {sel : Selection G}

theorem replaceBelow_nil : ed.replaceBelow sel [] = .error (.rejected .emptyPath) := rfl

theorem replaceBelow_refused (hTree : sel.tree.WellFormed) (hPath : p.Complete) (hSome : p ≠ [])
    (hForm : ¬ (Mode.select sel).KeepsForm (p.plug sel.exp)) :
    ed.replaceBelow sel p = .error (.rejected .slotMismatch) := by
  rw [replaceBelow, (Selection.fits_decided hTree hPath hSome).refused hForm]
  rfl

/-- Once the frames fit, the host decides. -/
theorem replaceBelow_decided (hTree : sel.tree.WellFormed) (hPath : p.Complete) (hSome : p ≠ [])
    (hForm : (Mode.select sel).KeepsForm (p.plug sel.exp)) :
    DecidedBy (ed.replaceBelow sel p) (ed.accepts { sel with below := p } = true)
      .invalidSelection := by
  obtain ⟨_, hFits⟩ := (Selection.fits_decided hTree hPath hSome).accepted hForm
  refine DecidedBy.after ?_ hFits
  exact (checked_decided hSome).bind fun _ => ⟨_, rfl⟩

theorem replacing_accepted_iff (hMode : s.mode = .select sel) (hTree : s.tree.WellFormed)
    (hPath : p.Complete) :
    ((∃ s', ed.apply s (.replacePath p) = .ok s') ↔
        p ≠ [] ∧ s.mode.KeepsForm (p.plug sel.exp) ∧
          ed.accepts { sel with below := p } = true) ∧
      (p = [] → ed.apply s (.replacePath p) = .error (.rejected .emptyPath)) ∧
      (p ≠ [] → ¬ s.mode.KeepsForm (p.plug sel.exp) →
        ed.apply s (.replacePath p) = .error (.rejected .slotMismatch)) ∧
      (p ≠ [] → s.mode.KeepsForm (p.plug sel.exp) → ¬ ed.accepts { sel with below := p } = true →
        ed.apply s (.replacePath p) = .error (.rejected .invalidSelection)) := by
  have hEffect : ed.effect s (.replacePath p) =
      ed.replaceBelow sel p >>= fun mode => pure (.edit ⟨mode, s.clipboard⟩) := by
    rw [effect, hMode]
    rfl
  have hSel : sel.tree.WellFormed := by
    rw [State.tree, hMode] at hTree
    exact hTree
  rw [hMode]
  -- Three checks follow one another: that there are frames, that they fit, and that the host allows
  -- the new range.
  have hNone : p = [] → ed.apply s (.replacePath p) = .error (.rejected .emptyPath) := by
    intro hNil
    subst hNil
    exact apply_refused hEffect replaceBelow_nil
  have hMismatch : p ≠ [] → ¬ (Mode.select sel).KeepsForm (p.plug sel.exp) →
      ed.apply s (.replacePath p) = .error (.rejected .slotMismatch) :=
    fun hSome hForm => apply_refused hEffect (replaceBelow_refused hSel hPath hSome hForm)
  have hDecided : p ≠ [] → (Mode.select sel).KeepsForm (p.plug sel.exp) →
      DecidedBy (ed.apply s (.replacePath p)) (ed.accepts { sel with below := p } = true)
        .invalidSelection :=
    fun hSome hForm => apply_decided hEffect (replaceBelow_decided hSel hPath hSome hForm)
  refine ⟨?_, hNone, hMismatch, fun hSome hForm => (hDecided hSome hForm).refused⟩
  exact ok_iff_and (fun hNil => hNone (Decidable.not_not.mp hNil)) fun hSome =>
    ok_iff_and (hMismatch hSome) fun hForm => (hDecided hSome hForm).ok_iff

end ReplaceBelow

/-- Edits are accepted exactly if their result is well formed. The result is the tree with another
subtree in place of the one at the target, and it has to keep the slot of its root. A replacement
puts a tree there; an insertion, and at a cursor the replacement of frames, put the subtree back
with frames around it; on a selection new frames go around the tree under the selected ones, and
the host has to allow the new range as well. What is refused because of its form is refused for its
slots, and what brings no frames is refused for that. -/
theorem edits_accepted_iff (ed : Editor G) {s : State G} (hTree : s.tree.WellFormed) {e : Exp G}
    (he : e.WellFormed) {p : Path G} (hPath : p.Complete) :
    ∃ u, s.tree.at? s.mode.route = some u ∧
      (((∃ s', ed.apply s (.replaceExp e) = .ok s') ↔ s.mode.KeepsForm e) ∧
        (¬ s.mode.KeepsForm e →
          ed.apply s (.replaceExp e) = .error (.rejected .slotMismatch))) ∧
      (∀ a, a = .insert p ∨ (a = .replacePath p ∧ ∃ c, s.mode = .cursor c) →
        ((∃ s', ed.apply s a = .ok s') ↔ p ≠ [] ∧ s.mode.KeepsForm (p.plug u)) ∧
          (p = [] → ed.apply s a = .error (.rejected .emptyPath)) ∧
          (p ≠ [] → ¬ s.mode.KeepsForm (p.plug u) →
            ed.apply s a = .error (.rejected .slotMismatch))) ∧
      ∀ sel, s.mode = .select sel →
        ((∃ s', ed.apply s (.replacePath p) = .ok s') ↔
            p ≠ [] ∧ s.mode.KeepsForm (p.plug sel.exp) ∧
              ed.accepts { sel with below := p } = true) ∧
          (p = [] → ed.apply s (.replacePath p) = .error (.rejected .emptyPath)) ∧
          (p ≠ [] → ¬ s.mode.KeepsForm (p.plug sel.exp) →
            ed.apply s (.replacePath p) = .error (.rejected .slotMismatch)) ∧
          (p ≠ [] → s.mode.KeepsForm (p.plug sel.exp) →
            ¬ ed.accepts { sel with below := p } = true →
            ed.apply s (.replacePath p) = .error (.rejected .invalidSelection)) := by
  have hReplace : DecidedBy (ed.apply s (.replaceExp e)) (s.mode.KeepsForm e) .slotMismatch :=
    apply_replaceExp_decided hTree he
  refine ⟨s.mode.target.exp, s.mode.at?_route, ⟨hReplace.ok_iff, hReplace.refused⟩, ?_,
    fun sel hMode => replacing_accepted_iff hMode hTree hPath⟩
  intro a ha
  rcases ha with rfl | ⟨rfl, c, hMode⟩
  · obtain ⟨f, hEffect⟩ := ed.effect_insert s p
    exact wrapping_accepted_iff hEffect hTree hPath
  · obtain ⟨f, hEffect⟩ := ed.effect_replacePath hMode p
    exact wrapping_accepted_iff hEffect hTree hPath

/-- An application selected in the body of an abstraction, and a host that allows ranges of one frame
only. A name cannot stand in place of the application. Two frames that chain can be put around it,
but not be selected in its place, and two that do not chain are refused in both places. -/
theorem edits_accepted_iff_lambda :
    let body : Frame Lambda.grammar := ⟨.exp, .lam, .unit, [Lambda.name "x"], []⟩
    let binder : Frame Lambda.grammar := ⟨.exp, .lam, .unit, [], [Lambda.hole]⟩
    let application : Frame Lambda.grammar := ⟨.exp, .app, .unit, [Lambda.var "f"], []⟩
    let chained : Path Lambda.grammar := [application, body]
    let broken : Path Lambda.grammar := [application, binder]
    let ed : Editor Lambda.grammar := { accepts := fun sel => sel.below.length = 1 }
    let sel : Selection Lambda.grammar := ⟨[body], [application], Lambda.var "y", .bottom⟩
    let s : State Lambda.grammar := .start (.select sel) 5
    s.tree.WellFormed ∧ (Lambda.name "z").WellFormed ∧ chained.Complete ∧ broken.Complete ∧
      ed.apply s (.replaceExp (Lambda.name "z")) = .error (.rejected .slotMismatch) ∧
      (∃ s', ed.apply s (.insert chained) = .ok s') ∧
      ed.apply s (.insert broken) = .error (.rejected .slotMismatch) ∧
      ed.apply s (.replacePath chained) = .error (.rejected .invalidSelection) ∧
      ed.apply s (.replacePath broken) = .error (.rejected .slotMismatch) := by
  intro body binder application chained broken ed sel s
  have hTree : s.tree.WellFormed := by decide
  have hName : (Lambda.name "z").WellFormed := by decide
  have hChained : chained.Complete := by decide
  have hBroken : broken.Complete := by decide
  obtain ⟨u, hu, ⟨_, hReplace⟩, hInsert, hSelect⟩ := edits_accepted_iff ed hTree hName hChained
  obtain ⟨v, hv, _, hInsert', hSelect'⟩ := edits_accepted_iff ed hTree hName hBroken
  cases hu
  cases hv
  refine ⟨hTree, hName, hChained, hBroken, hReplace (by decide), ?_, ?_, ?_, ?_⟩
  · exact (hInsert _ (.inl rfl)).1.mpr (by decide)
  · exact (hInsert' _ (.inl rfl)).2.2 (by decide) (by decide)
  · exact (hSelect sel rfl).2.2.2 (by decide) (by decide) (by decide)
  · exact (hSelect' sel rfl).2.2.1 (by decide) (by decide)

end Editor

end TreeEditor
