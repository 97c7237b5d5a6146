import TreeEditor.Language.Lambda
import TreeEditor.Proofs.Editing.Decision
import TreeEditor.Proofs.Editing.Selections
import TreeEditor.Proofs.Editing.Unwinding

/-! How cut, copy and paste fit together. What is pasted right after it was taken out finds the
position as it was, or a hole of the same slot. A tree always fits there again, and so do copied
frames. Frames that were cut go around the hole that stands for the whole range, and a hole of the
slot at the top fits into them only if they do not change the slot. -/

namespace TreeEditor

variable {G : Grammar}

open Outcome

/-- So many undos lead back to a snapshot. -/
def State.Recalls (s : State G) (count : Nat) (x : Snapshot G) : Prop :=
  (s.snapshot :: s.history.past)[count]? = some x

/-- A hole of the slot at the top fits into the frames of a range that were around another tree
exactly if that tree had the slot at the top as well. -/
theorem Cursor.wrap_below_eq_ok {sel : Selection G} (hTree : sel.tree.WellFormed)
    (hBelow : sel.below ≠ []) {e : Exp G} (he : e.WellFormed) (hSlot : e.slot = sel.topSlot)
    {c : Cursor G} :
    (Cursor.mk sel.above e).wrap sel.below = .ok c ↔
      sel.exp.slot = sel.topSlot ∧ c = ⟨sel.bottom.path, e⟩ := by
  rw [sel.bottom_eq]
  have hTop : (sel.below.plug sel.exp).WellFormed := (Path.wellFormed_plug.mp hTree).2.2
  have hTopSlot : e.slot = (sel.below.plug sel.exp).slot := hSlot.trans sel.topSlot_eq
  have hLeft : (Cursor.mk sel.above e).tree.WellFormed := Path.wellFormed_swap hTree he hTopSlot
  have hDecided := wrap_decided hLeft (Path.wellFormed_plug.mp hTop).1 hBelow
  constructor
  · intro hWrap
    obtain ⟨hForm, hRoot⟩ := hDecided.ok_iff.mp ⟨c, hWrap⟩
    have hInner : e.slot = sel.exp.slot := Path.slot_unique hTop hForm (hRoot.trans hTopSlot)
    exact ⟨hInner.symm.trans hSlot, (wrap_eq_ok.mp hWrap).2⟩
  · rintro ⟨hSame, rfl⟩
    have hInner : e.slot = sel.exp.slot := hSlot.trans hSame.symm
    have hRoot : (sel.below.plug e).slot = e.slot :=
      (Path.plug_slot_congr sel.below hInner).trans hTopSlot.symm
    obtain ⟨c, hWrap⟩ := hDecided.accepted ⟨Path.wellFormed_swap hTop he hInner, hRoot⟩
    rwa [(wrap_eq_ok.mp hWrap).2] at hWrap

namespace Editor

variable {ed : Editor G} {s s' : State G} {a : Action G} {x : Snapshot G} {count : Nat}

theorem recalls_of_recorded (hs : s.Recalls count x) (h : ed.apply s a = .ok s')
    (ha : a.isRecorded = true) (hRoom : count < s.history.limit) : s'.Recalls (count + 1) x := by
  rw [State.Recalls, history_of_recorded h ha, History.past_record, List.getElem?_cons_succ]
  cases count with
  | zero => exact hs
  | succ count =>
      -- The entry sought is not among those for which the history has no room any more.
      rw [List.getElem?_cons_succ, List.getElem?_take_of_lt (by omega)]
      exact hs

theorem recalls_of_applyAll {actions : List (Action G)} (hs : s.Recalls count x)
    (h : ed.applyAll s actions = .ok s') (hRecorded : ∀ a ∈ actions, a.isRecorded = true)
    (hRoom : count + actions.length ≤ s.history.limit) :
    s'.Recalls (count + actions.length) x := by
  induction actions generalizing s count with
  | nil =>
      cases h
      exact hs
  | cons a rest ih =>
      obtain ⟨t, hFirst, hRest⟩ := (applyAll_cons_eq_ok ed).mp h
      obtain ⟨ha, hOthers⟩ := List.forall_mem_cons.mp hRecorded
      rw [List.length_cons, Nat.add_comm rest.length, ← Nat.add_assoc] at hRoom ⊢
      have ht : t.Recalls (count + 1) x := recalls_of_recorded hs hFirst ha (by omega)
      exact ih ht hRest hOthers ((apply_limit hFirst).symm ▸ hRoom)

theorem undos_recall (ed : Editor G) (hs : s.Recalls count x) :
    ∃ t, ed.applyAll s (List.replicate count .undo) = .ok t ∧ t.snapshot = x := by
  induction count generalizing s with
  | zero => exact ⟨s, rfl, Option.some.inj hs⟩
  | succ count ih =>
      have hUndo := ed.undo_snapshot s
      cases hPast : s.history.past with
      | nil =>
          rw [State.Recalls, hPast] at hs
          cases hs
      | cons previous rest =>
          rw [hPast] at hUndo
          obtain ⟨t, hUndo, _⟩ := map_eq_ok.mp hUndo
          have ht : t.Recalls count x := by
            rw [State.Recalls, ← (history_of_undo hUndo).1]
            exact hs
          obtain ⟨t', hRest, hSnapshot⟩ := ih ht
          exact ⟨t', applyAll_cons ed hUndo hRest, hSnapshot⟩

/-- Recorded actions can be taken back together as long as the history has kept the first of them. -/
theorem undos_after_recorded {actions : List (Action G)} (h : ed.applyAll s actions = .ok s')
    (hRecorded : ∀ a ∈ actions, a.isRecorded = true) (hRoom : actions.length ≤ s.history.limit) :
    ∃ t, ed.applyAll s' (List.replicate actions.length .undo) = .ok t ∧
      t.snapshot = s.snapshot := by
  have hs : s.Recalls 0 s.snapshot := rfl
  have hs' := recalls_of_applyAll hs h hRecorded (by omega)
  rw [Nat.zero_add] at hs'
  exact undos_recall ed hs'

theorem apply_paste_eq_ok :
    ed.apply s .paste = .ok s' ↔
      ∃ mode, ed.paste s.clipboard s.mode = .ok mode ∧
        ⟨mode, s.clipboard, s.history.record s.snapshot⟩ = s' := by
  rw [apply_of_edit (f := fun mode => ⟨mode, s.clipboard⟩) rfl, map_eq_ok]

/-- A tree goes back to its position, over itself or over what was left there in its slot. -/
theorem paste_focus {c : Cursor G} (hTree : c.tree.WellFormed) {e : Exp G} (he : e.WellFormed)
    (hSlot : e.slot = c.exp.slot) :
    ed.paste (.exp c.exp) (.cursor (c.withExp e)) = .ok (.cursor c) := by
  have hExp : c.exp.WellFormed := (Path.wellFormed_plug.mp hTree).2.2
  have hLeft : (Mode.cursor (c.withExp e)).tree.WellFormed := Path.wellFormed_swap hTree he hSlot
  have hForm : (Mode.cursor (c.withExp e)).KeepsForm c.exp :=
    (Mode.keepsForm_iff hLeft).mpr ⟨hExp, hSlot.symm⟩
  obtain ⟨mode, hMode⟩ := (Mode.replaceExp_decided hLeft hExp).accepted hForm
  rw [(Mode.replaceExp_eq_ok hMode).1] at hMode
  exact hMode

theorem paste_selected {sel : Selection G} (hTree : sel.tree.WellFormed)
    (hValid : ed.isValid sel = true) :
    ed.paste (.path sel.below) (.select sel) = .ok (.select sel) := by
  have hTop : (sel.below.plug sel.exp).WellFormed := (Path.wellFormed_plug.mp hTree).2.2
  have hFits : sel.below.fits sel.exp.slot sel.topSlot = .ok () :=
    Path.fits_eq_ok.mpr ⟨(isValid_eq_true.mp hValid).1, (Path.wellFormed_plug.mp hTop).2.1,
      sel.topSlot_eq.symm⟩
  exact replaceBelow_eq_ok.mpr ⟨hFits, hValid, rfl⟩

theorem paste_around_eq_ok {c : Cursor G} {p : Path G} {mode : Mode G} :
    ed.paste (.path p) (.cursor c) = .ok mode ↔
      ∃ wrapped, c.wrap p = .ok wrapped ∧ ed.isValid ⟨c.path, p, c.exp, .top⟩ = true ∧
        mode = .cursor wrapped := by
  simp only [paste, bind_eq_ok, checked_eq_ok, pure, Except.pure]
  constructor
  · rintro ⟨wrapped, hWrap, _, ⟨hValid, _⟩, hMode⟩
    exact ⟨wrapped, hWrap, hValid, (Except.ok.inj hMode).symm⟩
  · rintro ⟨wrapped, hWrap, hValid, rfl⟩
    exact ⟨wrapped, hWrap, _, ⟨hValid, rfl⟩, rfl⟩

/-- Frames go back around what was left in place of their range if they keep its slot and the host
allows to select them there. -/
theorem paste_cut_eq_ok {sel : Selection G} (hTree : sel.tree.WellFormed) (hBelow : sel.below ≠ [])
    {e : Exp G} (he : e.WellFormed) (hSlot : e.slot = sel.topSlot) {mode : Mode G} :
    ed.paste (.path sel.below) (.cursor ⟨sel.above, e⟩) = .ok mode ↔
      (sel.exp.slot = sel.topSlot ∧ ed.accepts ⟨sel.above, sel.below, e, .top⟩ = true) ∧
        mode = .cursor ⟨sel.bottom.path, e⟩ := by
  simp only [paste_around_eq_ok, Cursor.wrap_below_eq_ok hTree hBelow he hSlot, isValid_eq_true]
  constructor
  · rintro ⟨_, ⟨hSame, rfl⟩, ⟨_, hAccepts⟩, hMode⟩
    exact ⟨⟨hSame, hAccepts⟩, hMode⟩
  · rintro ⟨⟨hSame, hAccepts⟩, hMode⟩
    exact ⟨_, ⟨hSame, rfl⟩, ⟨hBelow, hAccepts⟩, hMode⟩

/-- Taking out the focus leaves a tree of its slot in its place: a hole, or the focus itself. -/
theorem takeOut_focus (hG : G.Consistent) (ed : Editor G) (hTree : s.tree.WellFormed) {c : Cursor G}
    (hMode : s.mode = .cursor c) (ha : a = .cut ∨ a = .copy) :
    ∃ t e, ed.apply s a = .ok t ∧ t.mode = .cursor (c.withExp e) ∧ t.clipboard = .exp c.exp ∧
      e.WellFormed ∧ e.slot = c.exp.slot := by
  have hCopied : ed.copied s.mode = .ok (.exp c.exp) := by
    rw [hMode]
    rfl
  rcases ha with rfl | rfl
  · obtain ⟨hole, hHole, hSlot, hForm⟩ := Exp.hole_wellFormed hG c.exp.slot
    have hDelete : ed.delete s.mode = .ok (c.withExp hole) := by
      rw [hMode]
      exact delete_cursor hHole
    exact ⟨_, hole, apply_cut hCopied hDelete, rfl, rfl, hForm, hSlot⟩
  · rw [State.tree, hMode] at hTree
    exact ⟨_, c.exp, apply_copy hCopied, hMode, rfl, (Path.wellFormed_plug.mp hTree).2.2, rfl⟩

theorem focus_round_trip (hG : G.Consistent) (hTree : s.tree.WellFormed) {c : Cursor G}
    (hMode : s.mode = .cursor c) (ha : a = .cut ∨ a = .copy) :
    ∃ s', ed.applyAll s [a, .paste] = .ok s' ∧ s'.mode = s.mode ∧ s'.clipboard = .exp c.exp := by
  obtain ⟨t, e, hTake, htMode, htClipboard, he, hSlot⟩ := takeOut_focus hG ed hTree hMode ha
  rw [State.tree, hMode] at hTree
  have hPaste : ed.paste t.clipboard t.mode = .ok (.cursor c) := by
    rw [htMode, htClipboard]
    exact paste_focus hTree he hSlot
  exact ⟨_, applyAll_cons ed hTake (applyAll_cons ed (apply_paste_eq_ok.mpr ⟨_, hPaste, rfl⟩) rfl),
    hMode.symm, htClipboard⟩

theorem selection_round_trip (hTree : s.tree.WellFormed) {sel : Selection G}
    (hMode : s.mode = .select sel) (hValid : ed.isValid sel = true) :
    ∃ s', ed.applyAll s [.copy, .paste] = .ok s' ∧ s'.mode = s.mode := by
  rw [State.tree, hMode] at hTree
  have hCopied : ed.copied s.mode = .ok (.path sel.below) := by
    rw [hMode]
    exact copied_select hValid
  have hPaste : ed.paste (.path sel.below) s.mode = .ok (.select sel) := by
    rw [hMode]
    exact paste_selected hTree hValid
  exact ⟨_, applyAll_cons ed (apply_copy hCopied)
    (applyAll_cons ed (apply_paste_eq_ok.mpr ⟨_, hPaste, rfl⟩) rfl), hMode.symm⟩

/-- What a paste does right after a cut of a range. -/
theorem paste_after_cut (hG : G.Consistent) (hTree : s.tree.WellFormed) {sel : Selection G}
    (hMode : s.mode = .select sel) (hValid : ed.isValid sel = true) :
    ∃ t hole, ed.apply s .cut = .ok t ∧ Exp.hole sel.topSlot = .ok hole ∧
      ((∃ s', ed.apply t .paste = .ok s') ↔
        sel.exp.slot = sel.topSlot ∧ ed.accepts ⟨sel.above, sel.below, hole, .top⟩ = true) ∧
      ∀ s', ed.apply t .paste = .ok s' →
        s'.mode = .cursor ⟨sel.bottom.path, hole⟩ ∧
          s'.tree = s.tree.subst sel.bottom.path.route hole := by
  rw [State.tree, hMode] at hTree
  obtain ⟨hole, hHole, hSlot, hForm⟩ := Exp.hole_wellFormed hG sel.topSlot
  have hCopied : ed.copied s.mode = .ok (.path sel.below) := by
    rw [hMode]
    exact copied_select hValid
  have hDelete : ed.delete s.mode = .ok ⟨sel.above, hole⟩ := by
    rw [hMode]
    exact delete_select hValid hHole
  -- The cut leaves the cursor on the hole and the frames on the clipboard.
  have hPaste : ∀ mode, ed.paste (.path sel.below) (.cursor ⟨sel.above, hole⟩) = .ok mode ↔ _ :=
    fun _ => paste_cut_eq_ok hTree (isValid_eq_true.mp hValid).1 hForm hSlot
  refine ⟨_, hole, apply_cut hCopied hDelete, hHole, ⟨?_, fun hFits => ?_⟩, fun s' hApply => ?_⟩
  · rintro ⟨s', hApply⟩
    obtain ⟨mode, hOk, _⟩ := apply_paste_eq_ok.mp hApply
    exact ((hPaste mode).mp hOk).1
  · exact ⟨_, apply_paste_eq_ok.mpr ⟨_, (hPaste _).mpr ⟨hFits, rfl⟩, rfl⟩⟩
  · obtain ⟨mode, hOk, rfl⟩ := apply_paste_eq_ok.mp hApply
    obtain ⟨_, rfl⟩ := (hPaste mode).mp hOk
    refine ⟨rfl, ?_⟩
    calc Path.plug sel.bottom.path hole
        = sel.bottom.tree.subst sel.bottom.path.route hole :=
          (Path.subst_plug_route sel.bottom.path sel.exp hole).symm
      _ = s.tree.subst sel.bottom.path.route hole := by
          rw [sel.bottom_tree, State.tree, hMode, Mode.tree]

/-- Cut, copy and paste fit together wherever a run has got to. At a cursor, a paste right after a
cut or a copy gives back the very mode. On a selection it does so after a copy. After a cut it is
accepted exactly if the range does not change the slot and the host allows the range around the hole
that is left, and then only the tree at the bottom end has given way to that hole. In all
cases two undos restore the mode and the clipboard, if the history keeps two entries. -/
theorem take_out_and_paste (hG : G.Consistent) (ed : Editor G) {mode : Mode G}
    (hTree : mode.tree.WellFormed) (hAdmits : ed.Admits mode) (limit : Nat)
    {actions : List (Action G)} (hActions : ∀ a ∈ actions, a.WellFormed) :
    let s := ed.run (.start mode limit) actions
    (∀ c, s.mode = .cursor c → ∀ a, a = Action.cut ∨ a = .copy →
        ∃ s', ed.applyAll s [a, .paste] = .ok s' ∧ s'.mode = s.mode ∧
          s'.clipboard = .exp c.exp) ∧
      (∀ sel, s.mode = .select sel →
        (∃ s', ed.applyAll s [.copy, .paste] = .ok s' ∧ s'.mode = s.mode) ∧
          ∃ t hole, ed.apply s .cut = .ok t ∧ Exp.hole sel.topSlot = .ok hole ∧
            ((∃ s', ed.apply t .paste = .ok s') ↔
              sel.exp.slot = sel.topSlot ∧
                ed.accepts ⟨sel.above, sel.below, hole, .top⟩ = true) ∧
            ∀ s', ed.apply t .paste = .ok s' →
              s'.mode = .cursor ⟨sel.bottom.path, hole⟩ ∧
                s'.tree = s.tree.subst sel.bottom.path.route hole) ∧
      ∀ a, a = Action.cut ∨ a = .copy → ∀ s', ed.applyAll s [a, .paste] = .ok s' → 2 ≤ limit →
        ∃ t, ed.applyAll s' [.undo, .undo] = .ok t ∧ t.mode = s.mode ∧
          t.clipboard = s.clipboard := by
  intro s
  have hForm : s.tree.WellFormed :=
    (wellFormed_run hG ed (start_wellFormed hTree limit) hActions _ (List.mem_cons_self ..)).tree
  have hPresent : ed.Admits s.mode := by
    refine run_snapshots (P := fun x => ed.Admits x.mode) ?_
      (fun _ _ _ _ hBefore hBrings => hBrings.admits hBefore) s.snapshot (List.mem_cons_self ..)
    intro x hx
    rw [List.mem_singleton.mp hx]
    exact hAdmits
  refine ⟨fun c hMode a ha => focus_round_trip hG hForm hMode ha, fun sel hMode => ?_,
    fun a ha s' hPair hLimit => ?_⟩
  · have hValid := hPresent sel hMode
    exact ⟨selection_round_trip hForm hMode hValid, paste_after_cut hG hForm hMode hValid⟩
  · have hRecorded : ∀ b ∈ [a, .paste], b.isRecorded = true := by
      rcases ha with rfl | rfl <;> simp [Action.isRecorded]
    have hRoom : 2 ≤ s.history.limit := by
      have hStart : (State.start mode limit).HasRoom := Nat.zero_le _
      rw [(run_hasRoom ed hStart actions).2]
      exact Nat.le_trans hLimit (Nat.le_max_left limit 1)
    obtain ⟨t, hUndos, hSnapshot⟩ := undos_after_recorded hPair hRecorded hRoom
    exact ⟨t, hUndos, congrArg Snapshot.mode hSnapshot, congrArg Snapshot.clipboard hSnapshot⟩

/-- A selected abstraction is cut with the body as the bottom end, and with the bound name. The first
range keeps its slot and can be pasted, which leaves a hole as the body; the other changes it. -/
theorem take_out_and_paste_abstraction :
    let body := Lambda.var "x"
    let bodyFrame : Frame Lambda.grammar := ⟨.exp, .lam, .unit, [Lambda.name "x"], []⟩
    let nameFrame : Frame Lambda.grammar := ⟨.exp, .lam, .unit, [], [body]⟩
    let ed : Editor Lambda.grammar := {}
    let mode : Mode Lambda.grammar := .cursor ⟨[bodyFrame], body⟩
    let onBody := ed.run (.start mode 2) [.moveSelect .up]
    let onName := ed.run (.start mode 2) [.moveCursor .left, .moveSelect .up]
    mode.tree.WellFormed ∧
      onBody.mode = .select ⟨[], [bodyFrame], body, .top⟩ ∧
      (∃ t s', ed.apply onBody .cut = .ok t ∧ ed.apply t .paste = .ok s' ∧
        s'.mode = .cursor ⟨[bodyFrame], Lambda.hole⟩ ∧
        ∃ u, ed.applyAll s' [.undo, .undo] = .ok u ∧ u.mode = onBody.mode) ∧
      onName.mode = .select ⟨[], [nameFrame], Lambda.name "x", .top⟩ ∧
      ∃ t, ed.apply onName .cut = .ok t ∧ ¬ ∃ s', ed.apply t .paste = .ok s' := by
  intro body bodyFrame nameFrame ed mode onBody onName
  have hTree : mode.tree.WellFormed := by decide
  have hAdmits : ed.Admits mode := admits_cursor _
  have hToBody : ∀ a ∈ [Action.moveSelect .up], Action.WellFormed (G := Lambda.grammar) a := by
    decide
  have hToName : ∀ a ∈ [Action.moveCursor .left, .moveSelect .up],
      Action.WellFormed (G := Lambda.grammar) a := by decide
  have hOnBody : onBody.mode = .select ⟨[], [bodyFrame], body, .top⟩ := rfl
  have hOnName : onName.mode = .select ⟨[], [nameFrame], Lambda.name "x", .top⟩ := rfl
  obtain ⟨_, hBody, hUndo⟩ :=
    take_out_and_paste Lambda.grammar_consistent ed hTree hAdmits 2 hToBody
  obtain ⟨_, hName, _⟩ :=
    take_out_and_paste Lambda.grammar_consistent ed hTree hAdmits 2 hToName
  obtain ⟨_, t, hole, hCut, hHole, hIff, hPasted⟩ := hBody _ hOnBody
  obtain ⟨s', hPaste⟩ := hIff.mpr ⟨rfl, rfl⟩
  obtain ⟨u, hUndos, hRestored, _⟩ := hUndo .cut (.inl rfl) s'
    (applyAll_cons ed hCut (applyAll_cons ed hPaste rfl)) (Nat.le_refl 2)
  obtain ⟨_, t', _, hCut', _, hIff', _⟩ := hName _ hOnName
  have hBodyHole : Lambda.hole = hole := Except.ok.inj hHole
  refine ⟨hTree, hOnBody, ⟨t, s', hCut, hPaste, ?_, u, hUndos, hRestored⟩, hOnName, t', hCut', ?_⟩
  · rw [hBodyHole]
    exact (hPasted s' hPaste).1
  · intro hPaste'
    have hSlots : Lambda.Slot.bnd = Lambda.Slot.exp := (hIff'.mp hPaste').1
    cases hSlots

end Editor

end TreeEditor
