import TreeEditor.Editing.Editor
import TreeEditor.Proofs.Editing.Outcome
import TreeEditor.Proofs.WellFormed

/-! What each part of an edit checks and gives. An accepted edit puts one tree at the target of the
mode, and the checks that it passed say which slot that tree has. None of these statements asks
the tree to be well formed; where it is, no edit ends in a fault. -/

namespace TreeEditor

variable {G : Grammar}

open Outcome

namespace Path

/-- Frames fit between a node and a position exactly if there are some, they chain from the slot of
the node, and the node they rebuild has the slot of the position. -/
theorem fits_eq_ok {p : Path G} {e : Exp G} {outer : G.Slot} :
    p.fits e.slot outer = .ok () ↔
      p ≠ [] ∧ p.chains (some e.slot) = .ok true ∧ (p.plug e).slot = outer := by
  cases p with
  | nil => simp [fits, innermost?, outermost?]
  | cons f rest =>
      obtain ⟨last, hLast⟩ := exists_outermost? (List.cons_ne_nil f rest)
      have hInner : innermost? (f :: rest) = some f := rfl
      rw [plug_slot hLast, chains_some_cons]
      simp only [fits, hInner, hLast, bind_eq_ok, lift_eq_ok]
      constructor
      · intro hParts
        obtain ⟨slot, hSlot, h⟩ := hParts
        split at h
        · cases h
        · next hInnerSlot =>
            split at h
            · cases h
            · next hOuter =>
                obtain ⟨answer, hAnswer, h⟩ := bind_eq_ok.mp h
                split at h
                · next hTrue =>
                    subst hTrue
                    obtain ⟨hRule, hChain⟩ := chains_none_cons.mp (lift_eq_ok.mp hAnswer)
                    rw [Decidable.not_not.mp hInnerSlot] at hSlot
                    exact ⟨List.cons_ne_nil f rest, ⟨hRule, hSlot, hChain⟩,
                      Decidable.not_not.mp hOuter⟩
                · cases h
      · intro hParts
        obtain ⟨_, ⟨hRule, hSlot, hChain⟩, hOuter⟩ := hParts
        refine ⟨e.slot, hSlot, ?_⟩
        have hPath : wellFormed (f :: rest) = .ok true := chains_none_cons.mpr ⟨hRule, hChain⟩
        simp [hOuter, hPath, bind, Except.bind]

/-- Complete frames, if there are any, fit or are refused for their slots. -/
theorem fits_answer {p : Path G} (hPath : p.Complete) (hSome : p ≠ []) (inner outer : G.Slot) :
    p.fits inner outer = .ok () ∨ p.fits inner outer = .error (.rejected .slotMismatch) := by
  obtain ⟨f, rest, rfl⟩ := List.exists_cons_of_ne_nil hSome
  obtain ⟨slot, hSlot⟩ := (complete_cons.mp hPath).1.exists_holeSlot
  obtain ⟨answer, hAnswer⟩ := hPath.exists_chains none
  obtain ⟨last, hLast⟩ := exists_outermost? hSome
  have hInner : innermost? (f :: rest) = some f := rfl
  simp only [fits, hInner, hLast, wellFormed, hSlot, hAnswer, Refusal.lift_ok, bind, Except.bind]
  split
  · exact .inr rfl
  · split
    · exact .inr rfl
    · split
      · exact .inl rfl
      · exact .inr rfl

theorem fits_faultFree {p : Path G} (h : p.Complete) (inner outer : G.Slot) :
    FaultFree (p.fits inner outer) := by
  by_cases hNil : p = []
  · rw [hNil]
    exact faultFree_rejected _
  · rcases fits_answer h hNil inner outer with hOk | hRefused
    · rw [hOk]
      exact faultFree_ok ()
    · rw [hRefused]
      exact faultFree_rejected _

/-- Complete frames that fit around a well-formed node rebuild a well-formed node of the slot asked
for. -/
theorem wellFormed_of_fits {p : Path G} {e : Exp G} {outer : G.Slot} (hPath : p.Complete)
    (hExp : e.WellFormed) (h : p.fits e.slot outer = .ok ()) :
    (p.plug e).WellFormed ∧ (p.plug e).slot = outer := by
  obtain ⟨_, hChain, hOuter⟩ := fits_eq_ok.mp h
  exact ⟨wellFormed_plug.mpr ⟨hPath, hChain, hExp⟩, hOuter⟩

end Path

namespace Cursor

theorem wrap_eq_ok {c c' : Cursor G} {p : Path G} :
    c.wrap p = .ok c' ↔
      (∃ slot, c.requiredSlot = .ok slot ∧ p.fits c.exp.slot slot = .ok ()) ∧
        c' = ⟨p ++ c.path, c.exp⟩ := by
  simp only [wrap, Path.append_eq, bind_eq_ok, lift_eq_ok, pure, Except.pure]
  constructor
  · intro hParts
    obtain ⟨slot, hSlot, _, hFits, hCursor⟩ := hParts
    exact ⟨⟨slot, hSlot, hFits⟩, (Except.ok.inj hCursor).symm⟩
  · intro hParts
    obtain ⟨⟨slot, hSlot, hFits⟩, hCursor⟩ := hParts
    exact ⟨slot, hSlot, (), hFits, by rw [hCursor]⟩

theorem wrap_tree {c c' : Cursor G} {p : Path G} (h : c.wrap p = .ok c') :
    c'.tree = c.path.plug (p.plug c.exp) := by
  rw [(wrap_eq_ok.mp h).2]
  exact Path.plug_append p c.path c.exp

/-- An insertion is accepted when wrapping is, and wherever it leaves the cursor, the tree is that
of the wrapped focus. -/
theorem insert_eq_ok {c c' : Cursor G} {p : Path G} (h : c.insert p = .ok c') :
    (∃ wrapped, c.wrap p = .ok wrapped) ∧ c'.tree = c.path.plug (p.plug c.exp) := by
  obtain ⟨wrapped, hWrap, hCursor⟩ := bind_eq_ok.mp h
  refine ⟨⟨wrapped, hWrap⟩, ?_⟩
  rw [← Except.ok.inj hCursor]
  cases hHole : ((p.plug c.exp).firstHole (some p.route)).bind
      (Cursor.mk c.path (p.plug c.exp)).descend? with
  | none => exact wrap_tree hWrap
  | some target =>
      obtain ⟨route, _, hDescend⟩ := Option.bind_eq_some_iff.mp hHole
      exact descend?_tree hDescend

theorem wrap_faultFree {c : Cursor G} {p : Path G} (hTree : c.tree.WellFormed)
    (hPath : p.Complete) : FaultFree (c.wrap p) := by
  refine (faultFree_lift (requiredSlot_of_wellFormed hTree)).bind fun slot _ => ?_
  exact (Path.fits_faultFree hPath _ _).bind fun _ _ => faultFree_ok _

theorem insert_faultFree {c : Cursor G} {p : Path G} (hTree : c.tree.WellFormed)
    (hPath : p.Complete) : FaultFree (c.insert p) :=
  (wrap_faultFree hTree hPath).bind fun _ _ => faultFree_ok _

/-- Frames accepted around the focus of a well-formed tree rebuild a node that can stand there. -/
theorem wellFormed_of_wrap {c c' : Cursor G} {p : Path G} (hTree : c.tree.WellFormed)
    (hPath : p.Complete) (h : c.wrap p = .ok c') :
    (p.plug c.exp).WellFormed ∧ (p.plug c.exp).slot = c.exp.slot := by
  obtain ⟨slot, hSlot, hFits⟩ := (wrap_eq_ok.mp h).1
  rw [requiredSlot_of_wellFormed hTree] at hSlot
  cases hSlot
  exact Path.wellFormed_of_fits hPath (Path.wellFormed_plug.mp hTree).2.2 hFits

end Cursor

namespace Mode

@[simp]
theorem target_tree (mode : Mode G) : mode.target.tree = mode.tree := by
  cases mode with
  | cursor c => rfl
  | select s => rfl

@[simp]
theorem focus_tree (mode : Mode G) : mode.focus.tree = mode.tree := by
  cases mode with
  | cursor c => rfl
  | select s => exact s.free_tree

/-- What an edit of the frames keeps: the focus, or the tree under the selected frames. -/
def kept : Mode G → Exp G
  | cursor c => c.exp
  | select s => s.exp

theorem replaceExp_eq_ok {mode mode' : Mode G} {e : Exp G} (h : mode.replaceExp e = .ok mode') :
    mode' = .cursor ⟨mode.target.path, e⟩ ∧
      (mode.tree.WellFormed → e.slot = mode.target.exp.slot) := by
  cases mode with
  | cursor c =>
      obtain ⟨slot, hSlot, h⟩ := bind_eq_ok.mp h
      split at h
      · cases h
      · next hExp =>
          cases h
          refine ⟨rfl, fun hTree => ?_⟩
          rw [Cursor.requiredSlot_of_wellFormed hTree] at hSlot
          cases hSlot
          exact Decidable.not_not.mp hExp
  | select s =>
      simp only [replaceExp] at h
      split at h
      · cases h
      · next hExp =>
          cases h
          exact ⟨rfl, fun _ => (Decidable.not_not.mp hExp).trans s.topSlot_eq⟩

theorem replaceExp_faultFree {mode : Mode G} (hTree : mode.tree.WellFormed) (e : Exp G) :
    FaultFree (mode.replaceExp e) := by
  cases mode with
  | cursor c =>
      refine (faultFree_lift (Cursor.requiredSlot_of_wellFormed hTree)).bind fun slot _ => ?_
      split
      · exact faultFree_rejected _
      · exact faultFree_ok _
  | select s =>
      simp only [replaceExp]
      split
      · exact faultFree_rejected _
      · exact faultFree_ok _

/-- Another well-formed tree of the same slot may be put at the target of a well-formed tree. -/
theorem wellFormed_swap {mode : Mode G} {new : Exp G} (hTree : mode.tree.WellFormed)
    (hNew : new.WellFormed) (hSlot : new.slot = mode.target.exp.slot) :
    (mode.target.path.plug new).WellFormed ∧
      (mode.target.path.plug new).slot = mode.tree.slot := by
  rw [← target_tree] at hTree ⊢
  exact ⟨Path.wellFormed_swap hTree hNew hSlot, Path.plug_slot_congr _ hSlot⟩

end Mode

namespace Editor

variable {ed : Editor G}

theorem isValid_eq_true {s : Selection G} :
    ed.isValid s = true ↔ s.below ≠ [] ∧ ed.accepts s = true := by
  simp [isValid]

theorem checked_eq_ok {s s' : Selection G} :
    ed.checked s = .ok s' ↔ ed.isValid s = true ∧ s' = s := by
  unfold checked isValid
  cases hBelow : s.below.isEmpty with
  | true => simp
  | false =>
      cases hAccepts : ed.accepts s with
      | true => simp [eq_comm]
      | false => simp

theorem checked_faultFree (s : Selection G) : FaultFree (ed.checked s) := by
  unfold checked
  split
  · exact faultFree_rejected _
  · split
    · exact faultFree_rejected _
    · exact faultFree_ok s

theorem replaceBelow_eq_ok {s : Selection G} {p : Path G} {mode : Mode G} :
    ed.replaceBelow s p = .ok mode ↔
      p.fits s.exp.slot s.topSlot = .ok () ∧ ed.isValid { s with below := p } = true ∧
        mode = .select { s with below := p } := by
  simp only [replaceBelow, bind_eq_ok, checked_eq_ok, pure, Except.pure]
  constructor
  · intro hParts
    obtain ⟨_, hFits, _, ⟨hValid, rfl⟩, hMode⟩ := hParts
    exact ⟨hFits, hValid, (Except.ok.inj hMode).symm⟩
  · intro hParts
    obtain ⟨hFits, hValid, hMode⟩ := hParts
    exact ⟨(), hFits, _, ⟨hValid, rfl⟩, by rw [hMode]⟩

theorem replaceBelow_faultFree {s : Selection G} {p : Path G} (hPath : p.Complete) :
    FaultFree (ed.replaceBelow s p) :=
  (Path.fits_faultFree hPath _ _).bind fun _ _ =>
    (checked_faultFree _).bind fun _ _ => faultFree_ok _

/-- Accepted frames end up around what the mode keeps, at the target. In a well-formed tree they
rebuild a node that can stand there. -/
theorem replacePath_eq_ok {mode mode' : Mode G} {p : Path G}
    (h : ed.replacePath p mode = .ok mode') :
    mode'.tree = mode.target.path.plug (p.plug mode.kept) ∧
      (mode.tree.WellFormed → p.Complete →
        (p.plug mode.kept).WellFormed ∧ (p.plug mode.kept).slot = mode.target.exp.slot) := by
  cases mode with
  | cursor c =>
      obtain ⟨wrapped, hWrap, rfl⟩ := map_eq_ok.mp h
      exact ⟨Cursor.wrap_tree hWrap, fun hTree hPath => Cursor.wellFormed_of_wrap hTree hPath hWrap⟩
  | select s =>
      obtain ⟨hFits, _, rfl⟩ := replaceBelow_eq_ok.mp h
      refine ⟨rfl, fun hTree hPath => ?_⟩
      rw [s.topSlot_eq] at hFits
      have hExp := (Path.wellFormed_plug.mp (Path.wellFormed_plug.mp hTree).2.2).2.2
      exact Path.wellFormed_of_fits hPath hExp hFits

theorem replacePath_faultFree {mode : Mode G} {p : Path G} (hTree : mode.tree.WellFormed)
    (hPath : p.Complete) : FaultFree (ed.replacePath p mode) := by
  cases mode with
  | cursor c => exact (Cursor.wrap_faultFree hTree hPath).map _
  | select s => exact replaceBelow_faultFree hPath

/-- Pasted frames pass every check that frames put there by hand pass. -/
theorem paste_path_eq_ok {mode mode' : Mode G} {p : Path G}
    (h : ed.paste (.path p) mode = .ok mode') : ed.replacePath p mode = .ok mode' := by
  cases mode with
  | cursor c =>
      obtain ⟨wrapped, hWrap, h⟩ := bind_eq_ok.mp h
      obtain ⟨_, _, h⟩ := bind_eq_ok.mp h
      cases h
      exact map_eq_ok.mpr ⟨wrapped, hWrap, rfl⟩
  | select s => exact h

theorem paste_exp_eq_ok {mode mode' : Mode G} {e : Exp G}
    (h : ed.paste (.exp e) mode = .ok mode') : mode.replaceExp e = .ok mode' := by
  cases mode with
  | cursor c => exact h
  | select s => cases h

/-- A deletion leaves the cursor at the target, on the hole of the slot that was there. -/
theorem delete_eq_ok {mode : Mode G} {c : Cursor G} (h : ed.delete mode = .ok c) :
    ∃ hole, Exp.hole mode.target.exp.slot = .ok hole ∧ c = ⟨mode.target.path, hole⟩ := by
  cases mode with
  | cursor focus =>
      obtain ⟨hole, hHole, h⟩ := bind_eq_ok.mp h
      cases h
      exact ⟨hole, lift_eq_ok.mp hHole, rfl⟩
  | select s =>
      obtain ⟨_, hChecked, h⟩ := bind_eq_ok.mp h
      rw [(checked_eq_ok.mp hChecked).2] at h
      obtain ⟨hole, hHole, h⟩ := bind_eq_ok.mp h
      cases h
      rw [s.topSlot_eq] at hHole
      exact ⟨hole, lift_eq_ok.mp hHole, rfl⟩

theorem delete_faultFree (hG : G.Consistent) (mode : Mode G) : FaultFree (ed.delete mode) := by
  cases mode with
  | cursor c =>
      obtain ⟨hole, hHole, _⟩ := Exp.hole_wellFormed hG c.exp.slot
      exact (faultFree_lift hHole).bind fun _ _ => faultFree_ok _
  | select s =>
      refine (checked_faultFree s).bind fun checked _ => ?_
      obtain ⟨hole, hHole, _⟩ := Exp.hole_wellFormed hG checked.topSlot
      exact (faultFree_lift hHole).bind fun _ _ => faultFree_ok _

theorem copied_faultFree (mode : Mode G) : FaultFree (ed.copied mode) := by
  cases mode with
  | cursor c => exact faultFree_ok _
  | select s => exact (checked_faultFree s).map _

theorem paste_faultFree {clipboard : Clipboard G} {mode : Mode G} (hTree : mode.tree.WellFormed)
    (hClipboard : ∀ p, clipboard = .path p → p.Complete) : FaultFree (ed.paste clipboard mode) := by
  cases clipboard with
  | empty => exact faultFree_rejected _
  | exp e =>
      cases mode with
      | cursor c => exact Mode.replaceExp_faultFree hTree e
      | select s => exact faultFree_rejected _
  | path p =>
      have hPath := hClipboard p rfl
      cases mode with
      | cursor c =>
          refine (Cursor.wrap_faultFree hTree hPath).bind fun _ _ => ?_
          exact (checked_faultFree _).bind fun _ _ => faultFree_ok _
      | select s => exact replaceBelow_faultFree hPath

/-- A selection that starts at a cursor lies in the tree of that cursor. -/
theorem startSelection_eq_ok {c : Cursor G} {direction : Direction} {s : Selection G}
    (h : ed.startSelection c direction = .ok s) : s.tree = c.tree ∧ ed.isValid s = true := by
  unfold startSelection at h
  split at h
  · cases h
  · next moved hStep =>
      split at h
      · next found hSpan =>
          obtain ⟨hValid, rfl⟩ := checked_eq_ok.mp h
          refine ⟨?_, hValid⟩
          rw [← s.bottom_tree]
          rcases (Cursor.span_range hSpan).2 with ⟨_, _, hBottom⟩ | ⟨_, _, hBottom⟩
          · rw [hBottom]
          · rw [hBottom, Cursor.step?_tree hStep]
      · cases h
      · cases h

theorem startSelection_faultFree (c : Cursor G) (direction : Direction) :
    FaultFree (ed.startSelection c direction) := by
  unfold startSelection
  split
  · exact faultFree_rejected _
  · split
    · exact checked_faultFree _
    · exact faultFree_rejected _
    · exact faultFree_rejected _

/-- Moving a free end keeps the tree, and every selection it ends in has been checked. -/
theorem moveSelect_eq_ok {mode mode' : Mode G} {direction : Direction}
    (h : ed.moveSelect direction mode = .ok mode') :
    mode'.tree = mode.tree ∧ ∀ s, mode' = .select s → ed.isValid s = true := by
  cases mode with
  | cursor c =>
      obtain ⟨s, hStart, rfl⟩ := map_eq_ok.mp h
      obtain ⟨hTree, hValid⟩ := startSelection_eq_ok hStart
      exact ⟨hTree, fun _ hMode => Mode.select.inj hMode ▸ hValid⟩
  | select s =>
      simp only [moveSelect] at h
      split at h
      · cases h
      · next range hMove =>
          obtain ⟨found, hChecked, rfl⟩ := map_eq_ok.mp h
          obtain ⟨hValid, rfl⟩ := checked_eq_ok.mp hChecked
          exact ⟨Selection.move?_tree hMove, fun _ hMode => Mode.select.inj hMode ▸ hValid⟩
      · next c hMove =>
          cases h
          exact ⟨Selection.move?_tree hMove, fun _ hMode => nomatch hMode⟩

theorem moveSelect_faultFree (mode : Mode G) (direction : Direction) :
    FaultFree (ed.moveSelect direction mode) := by
  cases mode with
  | cursor c => exact (startSelection_faultFree c direction).map _
  | select s =>
      simp only [moveSelect]
      split
      · exact faultFree_rejected _
      · exact (checked_faultFree _).map _
      · exact faultFree_ok _

end Editor

end TreeEditor
