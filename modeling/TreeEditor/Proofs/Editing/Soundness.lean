import TreeEditor.Language.Lambda
import TreeEditor.Proofs.Editing.Run

/-! The editor never leaves the grammar. Starting from a well-formed tree, and given actions whose
own trees and frames are sound one by one, every state that a run reaches holds well-formed
material only: in the tree, on the clipboard and in every snapshot of the history. On the way no
promise is broken, so no action ends in a fault. -/

namespace TreeEditor

variable {G : Grammar}

open Outcome

/-- A copied tree obeys the grammar. Copied frames are at least one, complete, and chain. -/
def Clipboard.WellFormed : Clipboard G → Prop
  | empty => True
  | exp e => e.WellFormed
  | path p => p ≠ [] ∧ p.Complete ∧ p.wellFormed = .ok true

structure Snapshot.WellFormed (x : Snapshot G) : Prop where
  tree : x.mode.tree.WellFormed
  clipboard : x.clipboard.WellFormed

/-- The present and every snapshot in the past and the future are well formed. -/
def State.WellFormed (s : State G) : Prop :=
  ∀ x ∈ s.snapshots, x.WellFormed

namespace Action

/-- What the action carries is sound by itself: trees obey the grammar, frames are complete. Whether
frames chain, or belong to their slots, is for the editor to find out. -/
def WellFormed : Action G → Prop
  | setCursor c => c.path.Complete ∧ c.exp.WellFormed
  | setSelect s => s.above.Complete ∧ s.below.Complete ∧ s.exp.WellFormed
  | replaceExp e => e.WellFormed
  | replacePath p | insert p => p.Complete
  | _ => True

instance : DecidablePred (WellFormed (G := G))
  | setCursor c => inferInstanceAs (Decidable (c.path.Complete ∧ c.exp.WellFormed))
  | setSelect s =>
      inferInstanceAs (Decidable (s.above.Complete ∧ s.below.Complete ∧ s.exp.WellFormed))
  | replaceExp e => inferInstanceAs (Decidable e.WellFormed)
  | replacePath p | insert p => inferInstanceAs (Decidable p.Complete)
  | moveCursor _ | moveSelect _ | undo | redo | copy | cut | paste | delete | escape =>
      .isTrue trivial

/-- A tree that the action carries as a whole has this slot at its root. Only setting a cursor or a
selection brings in a whole tree. -/
def EntersSlot (slot : G.Slot) : Action G → Prop
  | setCursor c => c.tree.slot = slot
  | setSelect s => s.tree.slot = slot
  | _ => True

end Action

namespace Editor

variable {ed : Editor G} {s : State G} {a : Action G}

/-- The states in which editing begins: an empty tree, or any place in a well-formed one. -/
inductive Opens (ed : Editor G) : State G → Prop where
  | initial {slot : G.Slot} {s : State G} (h : ed.initial slot = .ok s) : Opens ed s
  | start {mode : Mode G} (limit : Nat) (h : mode.tree.WellFormed) : Opens ed (.start mode limit)

theorem initial_eq_ok (hG : G.Consistent) (ed : Editor G) (slot : G.Slot) :
    ∃ hole, Exp.WellFormed hole ∧
      ed.initial slot = .ok (.start (.cursor (.root hole)) ed.historyLimit) := by
  obtain ⟨hole, hHole, _, hWellFormed⟩ := Exp.hole_wellFormed hG slot
  exact ⟨hole, hWellFormed, by rw [initial, hHole]; rfl⟩

theorem start_wellFormed {mode : Mode G} (h : mode.tree.WellFormed) (limit : Nat) :
    (State.start mode limit).WellFormed := by
  intro x hx
  rw [List.mem_singleton.mp hx]
  exact ⟨h, trivial⟩

theorem Opens.exists_start (hG : G.Consistent) (h : ed.Opens s) :
    ∃ mode limit, Exp.WellFormed (Mode.tree mode) ∧ s = .start mode limit := by
  cases h with
  | @start mode limit hTree => exact ⟨mode, limit, hTree, rfl⟩
  | @initial slot _ hInitial =>
      obtain ⟨hole, hHole, hOk⟩ := initial_eq_ok hG ed slot
      rw [hOk] at hInitial
      cases hInitial
      exact ⟨.cursor (.root hole), ed.historyLimit, hHole, rfl⟩

/-- What is copied out of a well-formed tree is well formed. -/
theorem copied_wellFormed {mode : Mode G} {clipboard : Clipboard G} (hTree : mode.tree.WellFormed)
    (h : ed.copied mode = .ok clipboard) : clipboard.WellFormed := by
  cases mode with
  | cursor c =>
      cases h
      exact (Path.wellFormed_plug.mp hTree).2.2
  | select sel =>
      obtain ⟨found, hChecked, rfl⟩ := map_eq_ok.mp h
      obtain ⟨hValid, rfl⟩ := checked_eq_ok.mp hChecked
      obtain ⟨hBelow, hChain, _⟩ := Path.wellFormed_plug.mp (Path.wellFormed_plug.mp hTree).2.2
      exact ⟨(isValid_eq_true.mp hValid).1, hBelow, (Path.chains_some_iff.mp hChain).1⟩

theorem replaceExp_wellFormed {mode mode' : Mode G} {e : Exp G} (hTree : mode.tree.WellFormed)
    (he : e.WellFormed) (h : mode.replaceExp e = .ok mode') :
    mode'.tree.WellFormed ∧ mode'.tree.slot = mode.tree.slot := by
  obtain ⟨rfl, hSlot⟩ := Mode.replaceExp_eq_ok h
  exact Mode.wellFormed_swap hTree he (hSlot hTree)

theorem replacePath_wellFormed {mode mode' : Mode G} {p : Path G} (hTree : mode.tree.WellFormed)
    (hPath : p.Complete) (h : ed.replacePath p mode = .ok mode') :
    mode'.tree.WellFormed ∧ mode'.tree.slot = mode.tree.slot := by
  obtain ⟨hAfter, hFits⟩ := replacePath_eq_ok h
  obtain ⟨hNew, hSlot⟩ := hFits hTree hPath
  rw [hAfter]
  exact Mode.wellFormed_swap hTree hNew hSlot

theorem insert_wellFormed {mode : Mode G} {c : Cursor G} {p : Path G}
    (hTree : mode.tree.WellFormed) (hPath : p.Complete) (h : mode.target.insert p = .ok c) :
    c.tree.WellFormed ∧ c.tree.slot = mode.tree.slot := by
  obtain ⟨⟨wrapped, hWrap⟩, hAfter⟩ := Cursor.insert_eq_ok h
  have hTarget : mode.target.tree.WellFormed := by rwa [Mode.target_tree]
  obtain ⟨hNew, hSlot⟩ := Cursor.wellFormed_of_wrap hTarget hPath hWrap
  rw [hAfter]
  exact Mode.wellFormed_swap hTree hNew hSlot

theorem delete_wellFormed (hG : G.Consistent) {mode : Mode G} {c : Cursor G}
    (hTree : mode.tree.WellFormed) (h : ed.delete mode = .ok c) :
    c.tree.WellFormed ∧ c.tree.slot = mode.tree.slot := by
  obtain ⟨hole, hOk, rfl⟩ := delete_eq_ok h
  obtain ⟨found, hFound, hSlot, hWellFormed⟩ := Exp.hole_wellFormed hG mode.target.exp.slot
  rw [hFound] at hOk
  cases hOk
  exact Mode.wellFormed_swap hTree hWellFormed hSlot

/-- Pasting well-formed material keeps a tree well formed, whatever the clipboard holds. -/
theorem paste_wellFormed {clipboard : Clipboard G} {mode mode' : Mode G}
    (hTree : mode.tree.WellFormed) (hClipboard : clipboard.WellFormed)
    (h : ed.paste clipboard mode = .ok mode') :
    mode'.tree.WellFormed ∧ mode'.tree.slot = mode.tree.slot := by
  cases clipboard with
  | empty => cases h
  | exp e => exact replaceExp_wellFormed hTree hClipboard (paste_exp_eq_ok h)
  | path p => exact replacePath_wellFormed hTree hClipboard.2.1 (paste_path_eq_ok h)

/-- An accepted action that works on the tree at hand keeps it well formed, and keeps the slot of its
root. -/
theorem Brings.inPlace_wellFormed (hG : G.Consistent) (hs : s.snapshot.WellFormed)
    (ha : a.WellFormed) {x : Snapshot G} (h : ed.Brings s a x) (hPlace : a.editsInPlace = true) :
    x.mode.tree.WellFormed ∧ x.mode.tree.slot = s.tree.slot := by
  have hTree : s.mode.tree.WellFormed := hs.tree
  have hSame : ∀ e : Exp G, e = s.mode.tree → e.WellFormed ∧ e.slot = s.mode.tree.slot := by
    intro e he
    rw [he]
    exact ⟨hTree, rfl⟩
  cases h with
  | setCursor hCheck => cases hPlace
  | setSelect hCheck hValid => cases hPlace
  | moveCursor hStep => exact hSame _ ((Cursor.step?_tree hStep).trans s.mode.focus_tree)
  | moveSelect hMode => exact hSame _ (moveSelect_eq_ok hMode).1
  | escape hMode =>
      apply hSame
      rw [hMode]
      exact Selection.free_tree _
  | copy hCopied => exact hSame _ rfl
  | replaceExp hMode => exact replaceExp_wellFormed hTree ha hMode
  | replacePath hMode => exact replacePath_wellFormed hTree ha hMode
  | insert hCursor => exact insert_wellFormed hTree ha hCursor
  | delete hCursor => exact delete_wellFormed hG hTree hCursor
  | cut hCursor hCopied => exact delete_wellFormed hG hTree hCursor
  | paste hMode => exact paste_wellFormed hTree hs.clipboard hMode

/-- The tree that an accepted action brings is well formed. Its root has the slot it had before,
unless the action came with a tree of another slot. -/
theorem Brings.tree_wellFormed (hG : G.Consistent) (hs : s.snapshot.WellFormed)
    (ha : a.WellFormed) {x : Snapshot G} (h : ed.Brings s a x) :
    x.mode.tree.WellFormed ∧ (a.EntersSlot s.tree.slot → x.mode.tree.slot = s.tree.slot) := by
  cases hPlace : a.editsInPlace with
  | true =>
      obtain ⟨hTree, hSlot⟩ := h.inPlace_wellFormed hG hs ha hPlace
      exact ⟨hTree, fun _ => hSlot⟩
  | false =>
      cases h with
      | setCursor hCheck => exact ⟨(Cursor.wellFormed_iff ha.1 ha.2).mp hCheck, fun hSlot => hSlot⟩
      | setSelect hCheck hValid =>
          exact ⟨Selection.tree_of_wellFormed ha.1 ha.2.1 ha.2.2 hCheck, fun hSlot => hSlot⟩
      | _ => cases hPlace

/-- The clipboard changes only when something is copied. -/
theorem Brings.clipboard_eq {x : Snapshot G} (h : ed.Brings s a x) :
    x.clipboard = s.clipboard ∨ ed.copied s.mode = .ok x.clipboard := by
  cases h with
  | copy hCopied => exact .inr hCopied
  | cut hCursor hCopied => exact .inr hCopied
  | _ => exact .inl rfl

theorem Brings.wellFormed (hG : G.Consistent) (hs : s.snapshot.WellFormed) (ha : a.WellFormed)
    {x : Snapshot G} (h : ed.Brings s a x) : x.WellFormed := by
  refine ⟨(h.tree_wellFormed hG hs ha).1, ?_⟩
  rcases h.clipboard_eq with hSame | hCopied
  · rw [hSame]
    exact hs.clipboard
  · exact copied_wellFormed hs.tree hCopied

/-- In a well-formed state no action with sound contents meets a fault. -/
theorem effect_faultFree (hG : G.Consistent) (hs : s.snapshot.WellFormed) (ha : a.WellFormed) :
    FaultFree (ed.effect s a) := by
  have hTree : s.mode.tree.WellFormed := hs.tree
  have hTarget : s.mode.target.tree.WellFormed := by rwa [Mode.target_tree]
  cases a with
  | undo => exact faultFree_ok _
  | redo => exact faultFree_ok _
  | moveCursor direction =>
      simp only [effect]
      split
      · exact faultFree_ok _
      · exact faultFree_rejected _
  | moveSelect direction => exact (moveSelect_faultFree s.mode direction).map _
  | setCursor c =>
      obtain ⟨answer, hAnswer⟩ := ha.1.exists_chains (some c.exp.slot)
      rw [← Cursor.wellFormed_eq_chains ha.1] at hAnswer
      refine (faultFree_lift hAnswer).bind fun answer _ => ?_
      split
      · exact faultFree_ok _
      · exact faultFree_rejected _
  | setSelect sel =>
      have hPath : sel.bottom.path.Complete := Selection.bottom_complete ha.2.1 ha.1
      obtain ⟨answer, hAnswer⟩ := hPath.exists_chains (some sel.bottom.exp.slot)
      rw [← Cursor.wellFormed_eq_chains hPath] at hAnswer
      refine (faultFree_lift hAnswer).bind fun answer _ => ?_
      split
      · exact (checked_faultFree sel).bind fun _ _ => faultFree_ok _
      · exact faultFree_rejected _
  | escape =>
      simp only [effect]
      split
      · exact faultFree_ok _
      · exact faultFree_rejected _
  | replaceExp e => exact (Mode.replaceExp_faultFree hTree e).bind fun _ _ => faultFree_ok _
  | replacePath p => exact (replacePath_faultFree hTree ha).bind fun _ _ => faultFree_ok _
  | insert p => exact (Cursor.insert_faultFree hTarget ha).bind fun _ _ => faultFree_ok _
  | delete => exact (delete_faultFree hG s.mode).bind fun _ _ => faultFree_ok _
  | copy => exact (copied_faultFree s.mode).bind fun _ _ => faultFree_ok _
  | cut =>
      refine (delete_faultFree hG s.mode).bind fun _ _ => ?_
      exact (copied_faultFree s.mode).bind fun _ _ => faultFree_ok _
  | paste =>
      have hPath : ∀ p, s.clipboard = .path p → p.Complete := by
        intro p hContent
        have hClipboard : s.clipboard.WellFormed := hs.clipboard
        rw [hContent] at hClipboard
        exact hClipboard.2.1
      exact (paste_faultFree hTree hPath).bind fun _ _ => faultFree_ok _

theorem commit_faultFree (s : State G) (eff : Effect G) : FaultFree (s.commit eff) := by
  cases eff with
  | edit next => exact faultFree_ok _
  | navigate mode => exact faultFree_ok _
  | undo =>
      simp only [State.commit]
      split
      · exact faultFree_ok _
      · exact faultFree_rejected _
  | redo =>
      simp only [State.commit]
      split
      · exact faultFree_ok _
      · exact faultFree_rejected _

theorem apply_faultFree (hG : G.Consistent) (hs : s.snapshot.WellFormed) (ha : a.WellFormed) :
    FaultFree (ed.apply s a) :=
  (effect_faultFree hG hs ha).bind fun eff _ => commit_faultFree s eff

/-- Runs of sound actions keep every state well formed. -/
theorem wellFormed_run (hG : G.Consistent) (ed : Editor G) (hs : s.WellFormed) {actions : List (Action G)}
    (hActions : ∀ a ∈ actions, a.WellFormed) : (ed.run s actions).WellFormed :=
  run_snapshots hs fun _ a _ ha hPresent hBrings => hBrings.wellFormed hG hPresent (hActions a ha)

/-- Runs whose actions bring in no tree of another slot keep the slot of the root, in the history
too. -/
theorem slot_run (hG : G.Consistent) (hs : s.WellFormed) {slot : G.Slot}
    (hSlot : ∀ x ∈ s.snapshots, x.mode.tree.slot = slot) {actions : List (Action G)}
    (hActions : ∀ a ∈ actions, a.WellFormed) (hEnters : ∀ a ∈ actions, a.EntersSlot slot) :
    ∀ x ∈ (ed.run s actions).snapshots, x.mode.tree.slot = slot := by
  have hBoth : ∀ x ∈ (ed.run s actions).snapshots, x.WellFormed ∧ x.mode.tree.slot = slot := by
    refine run_snapshots (P := fun x => x.WellFormed ∧ x.mode.tree.slot = slot)
      (fun x hx => ⟨hs x hx, hSlot x hx⟩) ?_
    intro t a x ha hBefore hBrings
    obtain ⟨hPresent, hPresentSlot⟩ := hBefore
    have hTree : t.tree.slot = slot := hPresentSlot
    refine ⟨hBrings.wellFormed hG hPresent (hActions a ha), ?_⟩
    rw [(hBrings.tree_wellFormed hG hPresent (hActions a ha)).2 (hTree ▸ hEnters a ha), hTree]
  exact fun x hx => (hBoth x hx).2

/-- Well-formedness is an invariant of editing. Whatever selections the host allows, and whichever
actions of a run are refused, every state reached is well formed: its tree, its clipboard, and
the trees and clipboards of all snapshots in its past and future. No next action meets a fault.
If the run brings in no tree with another slot at its root, in particular if it sets neither
cursor nor selection, all these trees have the slot of the first one. -/
theorem run_wellFormed (hG : G.Consistent) (ed : Editor G) {start : State G}
    (hStart : ed.Opens start) {actions : List (Action G)}
    (hActions : ∀ a ∈ actions, a.WellFormed) :
    (∀ slot, ∃ s, ed.initial slot = .ok s) ∧
      (ed.run start actions).WellFormed ∧
      (∀ a : Action G, a.WellFormed →
        ∀ fault, ed.apply (ed.run start actions) a ≠ .error (.fault fault)) ∧
      ((∀ a ∈ actions, a.EntersSlot start.tree.slot) →
        ∀ x ∈ (ed.run start actions).snapshots, x.mode.tree.slot = start.tree.slot) := by
  obtain ⟨mode, limit, hTree, rfl⟩ := hStart.exists_start hG
  have hOpen := start_wellFormed hTree limit
  have hRun := wellFormed_run hG ed hOpen hActions
  refine ⟨fun slot => ?_, hRun, fun a ha => ?_, fun hEnters => ?_⟩
  · obtain ⟨hole, _, hOk⟩ := initial_eq_ok hG ed slot
    exact ⟨_, hOk⟩
  · exact apply_faultFree hG (hRun _ (List.mem_cons_self ..)) ha
  · refine slot_run hG hOpen ?_ hActions hEnters
    intro x hx
    rw [List.mem_singleton.mp hx]
    rfl

/-- Frames of two rules around an empty program, a range over both of them that is cut and pasted
back, an undo, and on the way two requests that are refused: to leave the root upwards, and to
put a name in place of an expression. -/
theorem run_wellFormed_lambda :
    let abstraction : Frame Lambda.grammar := ⟨.exp, .lam, .unit, [Lambda.name "x"], []⟩
    let application : Frame Lambda.grammar := ⟨.exp, .app, .unit, [Lambda.var "f"], []⟩
    let actions : List (Action Lambda.grammar) :=
      [.insert [application, abstraction], .moveSelect .up, .moveSelect .up, .cut, .moveCursor .up,
        .paste, .replaceExp (Lambda.name "y"), .undo]
    let ed : Editor Lambda.grammar := {}
    let start : State Lambda.grammar := .start (.cursor (.root Lambda.hole)) 500
    ed.initial Lambda.Slot.exp = .ok start ∧ (∀ a ∈ actions, a.WellFormed) ∧
      (ed.run start actions).history.past.length = 2 ∧
      (ed.run start actions).WellFormed ∧
      (∀ a : Action Lambda.grammar, a.WellFormed →
        ∀ fault, ed.apply (ed.run start actions) a ≠ .error (.fault fault)) ∧
      ∀ x ∈ (ed.run start actions).snapshots, x.mode.tree.slot = Lambda.Slot.exp := by
  intro abstraction application actions ed start
  have hInitial : ed.initial Lambda.Slot.exp = .ok start := rfl
  have hActions : ∀ a ∈ actions, a.WellFormed := by decide
  have hPast : (ed.run start actions).history.past.length = 2 := by decide +kernel
  obtain ⟨_, hRun, hFaults, hSlot⟩ :=
    run_wellFormed Lambda.grammar_consistent ed (.initial hInitial) hActions
  refine ⟨hInitial, hActions, hPast, hRun, hFaults, hSlot ?_⟩
  simp [actions, Action.EntersSlot]

end Editor

end TreeEditor
