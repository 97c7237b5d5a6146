import TreeEditor.Proofs.Editing.Run

/-! Properties of single nodes. What is asked of a node here may look at its slot, its rule, its value
and the number of its children, but not at the children themselves. A property of this kind that
holes have is an invariant of editing: it holds of all nodes in all states that can be reached from
material that has it. -/

namespace TreeEditor

variable {G : Grammar} {P : G.Slot → G.Rule → G.Value → Nat → Prop}

open Outcome

/-- Every node of the tree has the property. -/
inductive Exp.Each (P : G.Slot → G.Rule → G.Value → Nat → Prop) : Exp G → Prop where
  | node {slot : G.Slot} {rule : G.Rule} {value : G.Value} {children : List (Exp G)}
      (hNode : P slot rule value children.length) (hChildren : ∀ e ∈ children, Each P e) :
      Each P (.node slot rule value children)

theorem Exp.each_node {slot : G.Slot} {rule : G.Rule} {value : G.Value} {children : List (Exp G)} :
    (node slot rule value children).Each P ↔
      P slot rule value children.length ∧ ∀ e ∈ children, e.Each P := by
  constructor
  · intro h
    cases h with
    | node hNode hChildren => exact ⟨hNode, hChildren⟩
  · intro hParts
    exact .node hParts.1 hParts.2

namespace Frame

/-- The node that the frame becomes when it is filled has the property, and so have all nodes of the
siblings. -/
structure Each (P : G.Slot → G.Rule → G.Value → Nat → Prop) (f : Frame G) : Prop where
  node : P f.slot f.rule f.value (f.left.length + 1 + f.right.length)
  left : ∀ e ∈ f.left, e.Each P
  right : ∀ e ∈ f.right, e.Each P

theorem each_plug {f : Frame G} {e : Exp G} : (f.plug e).Each P ↔ f.Each P ∧ e.Each P := by
  have hLength : (f.left.reverse ++ e :: f.right).length = f.left.length + 1 + f.right.length := by
    rw [List.length_append, List.length_reverse, List.length_cons]
    omega
  rw [plug, Exp.each_node, hLength]
  constructor
  · intro hParts
    obtain ⟨hNode, hChildren⟩ := hParts
    refine ⟨⟨hNode, ?_, ?_⟩, hChildren e (by simp)⟩
    · intro sibling hSibling
      exact hChildren sibling (by simp [hSibling])
    · intro sibling hSibling
      exact hChildren sibling (by simp [hSibling])
  · intro hParts
    obtain ⟨hFrame, hFocus⟩ := hParts
    refine ⟨hFrame.node, fun child hChild => ?_⟩
    rcases List.mem_append.mp hChild with hLeft | hRight
    · exact hFrame.left child (List.mem_reverse.mp hLeft)
    · rcases List.mem_cons.mp hRight with rfl | hRight
      · exact hFocus
      · exact hFrame.right child hRight

end Frame

namespace Path

/-- Every frame has the property. -/
def Each (P : G.Slot → G.Rule → G.Value → Nat → Prop) (p : Path G) : Prop :=
  ∀ f ∈ p, f.Each P

/-- The nodes of a rebuilt tree are those of the frames and those of the tree put in. -/
theorem each_plug {p : Path G} {e : Exp G} : (p.plug e).Each P ↔ p.Each P ∧ e.Each P := by
  induction p generalizing e with
  | nil => simp [Each]
  | cons f outer ih =>
      rw [plug_cons, ih, Frame.each_plug, Each, Each, List.forall_mem_cons]
      constructor
      · intro hParts
        obtain ⟨hOuter, hFrame, hFocus⟩ := hParts
        exact ⟨⟨hFrame, hOuter⟩, hFocus⟩
      · intro hParts
        obtain ⟨⟨hFrame, hOuter⟩, hFocus⟩ := hParts
        exact ⟨hOuter, hFrame, hFocus⟩

end Path

namespace Mode

theorem each_target {mode : Mode G} (h : mode.tree.Each P) :
    mode.target.path.Each P ∧ mode.target.exp.Each P := by
  rw [← target_tree] at h
  exact Path.each_plug.mp h

theorem each_kept {mode : Mode G} (h : mode.tree.Each P) : mode.kept.Each P := by
  obtain ⟨_, hTarget⟩ := each_target h
  cases mode with
  | cursor c => exact hTarget
  | select s => exact (Path.each_plug.mp hTarget).2

/-- Another tree can be put at the target. -/
theorem each_swap {mode : Mode G} {new : Exp G} (h : mode.tree.Each P) (hNew : new.Each P) :
    (mode.target.path.plug new).Each P :=
  Path.each_plug.mpr ⟨(each_target h).1, hNew⟩

end Mode

/-- All nodes and frames on the clipboard have the property. -/
def Clipboard.Each (P : G.Slot → G.Rule → G.Value → Nat → Prop) : Clipboard G → Prop
  | empty => True
  | exp e => e.Each P
  | path p => p.Each P

structure Snapshot.Each (P : G.Slot → G.Rule → G.Value → Nat → Prop) (x : Snapshot G) : Prop where
  tree : x.mode.tree.Each P
  clipboard : x.clipboard.Each P

/-- All nodes and frames that the action carries have the property. -/
def Action.Each (P : G.Slot → G.Rule → G.Value → Nat → Prop) : Action G → Prop
  | setCursor c => c.tree.Each P
  | setSelect s => s.tree.Each P
  | replaceExp e => e.Each P
  | replacePath p | insert p => p.Each P
  | _ => True

namespace Editor

variable {ed : Editor G} {s : State G} {a : Action G} {mode mode' : Mode G}

theorem replaceExp_each {e : Exp G} (hTree : mode.tree.Each P) (he : e.Each P)
    (h : mode.replaceExp e = .ok mode') : mode'.tree.Each P := by
  rw [(Mode.replaceExp_eq_ok h).1]
  exact Mode.each_swap hTree he

theorem replacePath_each {p : Path G} (hTree : mode.tree.Each P) (hp : p.Each P)
    (h : ed.replacePath p mode = .ok mode') : mode'.tree.Each P := by
  rw [(replacePath_eq_ok h).1]
  exact Mode.each_swap hTree (Path.each_plug.mpr ⟨hp, Mode.each_kept hTree⟩)

theorem insert_each {p : Path G} {c : Cursor G} (hTree : mode.tree.Each P) (hp : p.Each P)
    (h : mode.target.insert p = .ok c) : c.tree.Each P := by
  rw [(Cursor.insert_eq_ok h).2]
  exact Mode.each_swap hTree (Path.each_plug.mpr ⟨hp, (Mode.each_target hTree).2⟩)

theorem delete_each (hHole : ∀ slot e, Exp.hole slot = .ok e → e.Each P) {c : Cursor G}
    (hTree : mode.tree.Each P) (h : ed.delete mode = .ok c) : c.tree.Each P := by
  obtain ⟨hole, hOk, rfl⟩ := delete_eq_ok h
  exact Mode.each_swap hTree (hHole _ hole hOk)

theorem paste_each {clipboard : Clipboard G} (hTree : mode.tree.Each P)
    (hClipboard : clipboard.Each P) (h : ed.paste clipboard mode = .ok mode') :
    mode'.tree.Each P := by
  cases clipboard with
  | empty => cases h
  | exp e => exact replaceExp_each hTree hClipboard (paste_exp_eq_ok h)
  | path p => exact replacePath_each hTree hClipboard (paste_path_eq_ok h)

theorem copied_each {clipboard : Clipboard G} (hTree : mode.tree.Each P)
    (h : ed.copied mode = .ok clipboard) : clipboard.Each P := by
  obtain ⟨_, hTarget⟩ := Mode.each_target hTree
  cases mode with
  | cursor c =>
      cases h
      exact hTarget
  | select sel =>
      obtain ⟨found, hChecked, rfl⟩ := map_eq_ok.mp h
      rw [(checked_eq_ok.mp hChecked).2]
      exact (Path.each_plug.mp hTarget).1

theorem Brings.tree_each (hHole : ∀ slot e, Exp.hole slot = .ok e → e.Each P)
    (hs : s.snapshot.Each P) (ha : a.Each P) {x : Snapshot G} (h : ed.Brings s a x) :
    x.mode.tree.Each P := by
  have hTree : s.mode.tree.Each P := hs.tree
  have hSame : ∀ e : Exp G, e = s.mode.tree → e.Each P := fun e he => he ▸ hTree
  cases h with
  | moveCursor hStep => exact hSame _ ((Cursor.step?_tree hStep).trans s.mode.focus_tree)
  | moveSelect hMode => exact hSame _ (moveSelect_eq_ok hMode).1
  | setCursor hCheck => exact ha
  | setSelect hCheck hValid => exact ha
  | escape hMode =>
      apply hSame
      rw [hMode]
      exact Selection.free_tree _
  | replaceExp hMode => exact replaceExp_each hTree ha hMode
  | replacePath hMode => exact replacePath_each hTree ha hMode
  | insert hCursor => exact insert_each hTree ha hCursor
  | delete hCursor => exact delete_each hHole hTree hCursor
  | copy hCopied => exact hTree
  | cut hCursor hCopied => exact delete_each hHole hTree hCursor
  | paste hMode => exact paste_each hTree hs.clipboard hMode

/-- What an accepted action brings has the property, if the state, the action and all holes have
it. -/
theorem Brings.each (hHole : ∀ slot e, Exp.hole slot = .ok e → e.Each P)
    (hs : s.snapshot.Each P) (ha : a.Each P) {x : Snapshot G} (h : ed.Brings s a x) :
    x.Each P := by
  refine ⟨h.tree_each hHole hs ha, ?_⟩
  have hClipboard : s.clipboard.Each P := hs.clipboard
  cases h with
  | copy hCopied => exact copied_each hs.tree hCopied
  | cut hCursor hCopied => exact copied_each hs.tree hCopied
  | _ => exact hClipboard

end Editor

end TreeEditor
