import TreeEditor.Proofs.Motion

/-! Trees that obey their grammar at every node. The checks on paths and cursors look at one node
after another and never at siblings. For frames whose siblings are as their rule declares them,
these checks decide whether the whole rebuilt tree obeys the grammar. -/

namespace TreeEditor

variable {G : Grammar}

namespace Exp

/-- Every node is made by a rule of its slot, and its children fill the slots that this rule
declares, one for each. -/
inductive WellFormed : Exp G → Prop where
  | node {slot : G.Slot} {rule : G.Rule} {value : G.Value} {children : List (Exp G)}
      (hRule : rule ∈ G.rules slot) (hSlots : children.map Exp.slot = G.childSlots rule)
      (hChildren : ∀ e ∈ children, WellFormed e) :
      WellFormed (.node slot rule value children)

theorem wellFormed_node {slot : G.Slot} {rule : G.Rule} {value : G.Value}
    {children : List (Exp G)} :
    (node slot rule value children).WellFormed ↔
      rule ∈ G.rules slot ∧ children.map Exp.slot = G.childSlots rule ∧
        ∀ e ∈ children, e.WellFormed := by
  constructor
  · intro h
    cases h with
    | node hRule hSlots hChildren => exact ⟨hRule, hSlots, hChildren⟩
  · intro hParts
    obtain ⟨hRule, hSlots, hChildren⟩ := hParts
    exact .node hRule hSlots hChildren

mutual

/-- Well-formedness is decided node by node. -/
def decWellFormed : (e : Exp G) → Decidable e.WellFormed
  | node _ _ _ children =>
      haveI := decAllWellFormed children
      decidable_of_iff _ wellFormed_node.symm

def decAllWellFormed : (es : List (Exp G)) → Decidable (∀ e ∈ es, e.WellFormed)
  | [] => .isTrue (by simp)
  | e :: rest =>
      haveI := decWellFormed e
      haveI := decAllWellFormed rest
      decidable_of_iff _ List.forall_mem_cons.symm

end

instance : DecidablePred (WellFormed (G := G)) := decWellFormed

/-- In a consistent grammar every slot has a hole, and holes obey the grammar. -/
theorem hole_wellFormed (hG : G.Consistent) (slot : G.Slot) :
    ∃ e : Exp G, hole slot = .ok e ∧ e.slot = slot ∧ e.WellFormed := by
  obtain ⟨hRule, hSlots⟩ := hG slot
  refine ⟨.node slot (G.holeRule slot) (G.defaultValue (G.holeRule slot)) [], ?_, rfl, ?_⟩
  · simp [hole, Grammar.arity, hSlots]
  · exact .node hRule (by simp [hSlots]) (by simp)

end Exp

namespace Frame

/-- The siblings of the open position are as many as the rule declares beside it, fill the slots
declared for them, and obey the grammar. Whether the rule belongs to the slot is not asked. -/
structure Complete (f : Frame G) : Prop where
  arity : f.left.length + 1 + f.right.length = G.arity f.rule
  leftSlots : f.left.reverse.map Exp.slot = (G.childSlots f.rule).take f.index
  rightSlots : f.right.map Exp.slot = (G.childSlots f.rule).drop (f.index + 1)
  leftWellFormed : ∀ e ∈ f.left, e.WellFormed
  rightWellFormed : ∀ e ∈ f.right, e.WellFormed

instance (f : Frame G) : Decidable f.Complete :=
  decidable_of_iff
    (f.left.length + 1 + f.right.length = G.arity f.rule ∧
      f.left.reverse.map Exp.slot = (G.childSlots f.rule).take f.index ∧
      f.right.map Exp.slot = (G.childSlots f.rule).drop (f.index + 1) ∧
      (∀ e ∈ f.left, e.WellFormed) ∧ ∀ e ∈ f.right, e.WellFormed)
    ⟨fun ⟨hArity, hLeft, hRight, hLeft', hRight'⟩ => ⟨hArity, hLeft, hRight, hLeft', hRight'⟩,
      fun ⟨hArity, hLeft, hRight, hLeft', hRight'⟩ => ⟨hArity, hLeft, hRight, hLeft', hRight'⟩⟩

theorem holeSlot_eq_ok {f : Frame G} {slot : G.Slot} :
    f.holeSlot = .ok slot ↔ (G.childSlots f.rule)[f.index]? = some slot := by
  unfold holeSlot
  cases (G.childSlots f.rule)[f.index]? with
  | none => simp
  | some found => simp

/-- With as many siblings as the rule declares, the open position is one that the rule has. -/
theorem exists_holeSlot {f : Frame G}
    (hArity : f.left.length + 1 + f.right.length = G.arity f.rule) :
    ∃ slot, f.holeSlot = .ok slot := by
  have hIndex : f.index < (G.childSlots f.rule).length := by
    unfold Grammar.arity at hArity
    unfold index
    omega
  exact ⟨(G.childSlots f.rule)[f.index], holeSlot_eq_ok.mpr (List.getElem?_eq_getElem hIndex)⟩

theorem Complete.exists_holeSlot {f : Frame G} (h : f.Complete) :
    ∃ slot, f.holeSlot = .ok slot :=
  Frame.exists_holeSlot h.arity

/-- The slots around the open position, put together with its own, are those of the rule. -/
theorem Complete.slots_eq {f : Frame G} {slot : G.Slot} (h : f.Complete)
    (hSlot : f.holeSlot = .ok slot) :
    f.left.reverse.map Exp.slot ++ slot :: f.right.map Exp.slot = G.childSlots f.rule := by
  obtain ⟨hIndex, rfl⟩ := List.getElem?_eq_some_iff.mp (holeSlot_eq_ok.mp hSlot)
  rw [h.leftSlots, h.rightSlots, ← List.drop_eq_getElem_cons hIndex, List.take_append_drop]

/-- A filled frame obeys the grammar exactly if the frame is complete, its rule belongs to its slot,
and the tree put in obeys the grammar and has the slot of the open position. -/
theorem wellFormed_plug {f : Frame G} {e : Exp G} :
    (f.plug e).WellFormed ↔
      f.Complete ∧ f.rule ∈ G.rules f.slot ∧ f.holeSlot = .ok e.slot ∧ e.WellFormed := by
  rw [plug, Exp.wellFormed_node]
  constructor
  · intro hParts
    obtain ⟨hRule, hSlots, hChildren⟩ := hParts
    have hLength := congrArg List.length hSlots
    simp only [List.map_append, List.map_cons, List.length_append, List.length_map,
      List.length_reverse, List.length_cons] at hLength
    refine ⟨⟨?_, ?_, ?_, ?_, ?_⟩, hRule, ?_, hChildren e (by simp)⟩
    · rw [Grammar.arity, ← hLength]
      omega
    · simp [← hSlots, index]
    · simp [← hSlots, index, List.drop_append]
    · intro sibling hSibling
      exact hChildren sibling (by simp [hSibling])
    · intro sibling hSibling
      exact hChildren sibling (by simp [hSibling])
    · rw [holeSlot_eq_ok, ← hSlots]
      simp [index]
  · intro hParts
    obtain ⟨hComplete, hRule, hSlot, hFocus⟩ := hParts
    refine ⟨hRule, ?_, ?_⟩
    · simpa using hComplete.slots_eq hSlot
    · intro child hChild
      rcases List.mem_append.mp hChild with hLeft | hRight
      · exact hComplete.leftWellFormed child (List.mem_reverse.mp hLeft)
      · rcases List.mem_cons.mp hRight with rfl | hRight
        · exact hFocus
        · exact hComplete.rightWellFormed child hRight

end Frame

namespace Path

/-- Every frame is complete. Nothing is said about how the frames fit into one another. -/
def Complete (p : Path G) : Prop :=
  ∀ f ∈ p, f.Complete

instance (p : Path G) : Decidable p.Complete :=
  inferInstanceAs (Decidable (∀ f ∈ p, f.Complete))

theorem complete_cons {f : Frame G} {outer : Path G} :
    Complete (f :: outer) ↔ f.Complete ∧ Complete outer :=
  List.forall_mem_cons

theorem complete_append {p q : Path G} : Complete (p ++ q) ↔ Complete p ∧ Complete q :=
  List.forall_mem_append

@[simp]
theorem chains_nil (inner : Option G.Slot) : chains inner ([] : Path G) = .ok true := by
  cases inner with
  | none => rfl
  | some slot => rfl

theorem chains_none (f : Frame G) (outer : Path G) :
    chains none (f :: outer) =
      if f.rule ∈ G.rules f.slot then chains (some f.slot) outer else .ok false := rfl

theorem chains_some (inner : G.Slot) (f : Frame G) (outer : Path G) :
    chains (some inner) (f :: outer) =
      if f.rule ∈ G.rules f.slot then
        f.holeSlot >>= fun slot =>
          if inner = slot then chains (some f.slot) outer else .ok false
      else .ok false := rfl

theorem chains_some_cons {f : Frame G} {outer : Path G} {inner : G.Slot} :
    chains (some inner) (f :: outer) = .ok true ↔
      f.rule ∈ G.rules f.slot ∧ f.holeSlot = .ok inner ∧
        chains (some f.slot) outer = .ok true := by
  by_cases hRule : f.rule ∈ G.rules f.slot
  · cases hSlot : f.holeSlot with
    | error fault => simp [chains_some, hRule, hSlot, bind, Except.bind]
    | ok slot =>
        by_cases hInner : inner = slot
        · simp [chains_some, hRule, hSlot, hInner, bind, Except.bind]
        · simp [chains_some, hRule, hSlot, hInner, Ne.symm hInner, bind, Except.bind]
  · simp [chains_some, hRule]

theorem chains_none_cons {f : Frame G} {outer : Path G} :
    chains none (f :: outer) = .ok true ↔
      f.rule ∈ G.rules f.slot ∧ chains (some f.slot) outer = .ok true := by
  by_cases hRule : f.rule ∈ G.rules f.slot
  · simp [chains_none, hRule]
  · simp [chains_none, hRule]

/-- Frames chain from a slot exactly if they chain and the innermost of them is open for it. -/
theorem chains_some_iff {p : Path G} {inner : G.Slot} :
    p.chains (some inner) = .ok true ↔
      p.wellFormed = .ok true ∧ ∀ f, p.innermost? = some f → f.holeSlot = .ok inner := by
  cases p with
  | nil => simp [wellFormed, innermost?]
  | cons f outer =>
      have hInner : innermost? (f :: outer) = some f := rfl
      rw [chains_some_cons, wellFormed, chains_none_cons, hInner]
      constructor
      · rintro ⟨hRule, hSlot, hChain⟩
        refine ⟨⟨hRule, hChain⟩, ?_⟩
        rintro _ ⟨⟩
        exact hSlot
      · rintro ⟨⟨hRule, hChain⟩, hOpen⟩
        exact ⟨hRule, hOpen f rfl, hChain⟩

/-- The check of frames whose open positions are in their rules always has an answer. -/
theorem exists_chains {p : Path G} (h : ∀ f ∈ p, ∃ slot, f.holeSlot = .ok slot)
    (inner : Option G.Slot) : ∃ answer, chains inner p = .ok answer := by
  induction p generalizing inner with
  | nil => exact ⟨true, chains_nil inner⟩
  | cons f outer ih =>
      obtain ⟨⟨slot, hSlot⟩, hOuter⟩ := List.forall_mem_cons.mp h
      obtain ⟨answer, hAnswer⟩ := ih hOuter (some f.slot)
      by_cases hRule : f.rule ∈ G.rules f.slot
      · cases inner with
        | none => exact ⟨answer, by rw [chains_none, if_pos hRule, hAnswer]⟩
        | some inner =>
            by_cases hInner : inner = slot
            · exact ⟨answer, by simp [chains_some, hRule, hSlot, hInner, hAnswer, bind, Except.bind]⟩
            · exact ⟨false, by simp [chains_some, hRule, hSlot, hInner, bind, Except.bind]⟩
      · cases inner with
        | none => exact ⟨false, by rw [chains_none, if_neg hRule]⟩
        | some inner => exact ⟨false, by rw [chains_some, if_neg hRule]⟩

theorem Complete.exists_chains {p : Path G} (h : p.Complete) (inner : Option G.Slot) :
    ∃ answer, chains inner p = .ok answer :=
  Path.exists_chains (fun f hf => (h f hf).exists_holeSlot) inner

/-- A rebuilt tree obeys the grammar exactly if its parts do and the chain of frames around the
focus is unbroken. -/
theorem wellFormed_plug {p : Path G} {e : Exp G} :
    (p.plug e).WellFormed ↔ p.Complete ∧ chains (some e.slot) p = .ok true ∧ e.WellFormed := by
  induction p generalizing e with
  | nil => simp [Complete]
  | cons f outer ih =>
      rw [plug_cons, ih, Frame.wellFormed_plug, complete_cons, chains_some_cons, Frame.plug_slot]
      constructor
      · intro hParts
        obtain ⟨hOuter, hChain, hFrame, hRule, hSlot, hFocus⟩ := hParts
        exact ⟨⟨hFrame, hOuter⟩, ⟨hRule, hSlot, hChain⟩, hFocus⟩
      · intro hParts
        obtain ⟨⟨hFrame, hOuter⟩, ⟨hRule, hSlot, hChain⟩, hFocus⟩ := hParts
        exact ⟨hOuter, hChain, hFrame, hRule, hSlot, hFocus⟩

/-- Another tree of the same slot can stand in place of the focus. -/
theorem wellFormed_swap {p : Path G} {u new : Exp G} (h : (p.plug u).WellFormed)
    (hNew : new.WellFormed) (hSlot : new.slot = u.slot) : (p.plug new).WellFormed := by
  obtain ⟨hComplete, hChain, _⟩ := wellFormed_plug.mp h
  exact wellFormed_plug.mpr ⟨hComplete, by rw [hSlot, hChain], hNew⟩

theorem exists_outermost? {p : Path G} (h : p ≠ []) : ∃ f, p.outermost? = some f :=
  ⟨p.getLast h, List.getLast?_eq_some_getLast h⟩

/-- The root of a rebuilt tree has the slot of the outermost frame. -/
theorem plug_slot {p : Path G} {f : Frame G} (h : p.outermost? = some f) (e : Exp G) :
    (p.plug e).slot = f.slot := by
  obtain ⟨inner, rfl⟩ := List.getLast?_eq_some_iff.mp h
  simp

/-- What stands at the focus shows in the slot of the root only if there is no frame above it. -/
theorem plug_slot_congr (p : Path G) {u new : Exp G} (hSlot : new.slot = u.slot) :
    (p.plug new).slot = (p.plug u).slot := by
  cases h : p.outermost? with
  | none =>
      rw [List.getLast?_eq_none_iff.mp h]
      exact hSlot
  | some f => rw [plug_slot h, plug_slot h]

end Path

namespace Cursor

/-- The two checks of a cursor are one chain that starts at its focus. -/
theorem wellFormed_eq_chains {c : Cursor G} (h : c.path.Complete) :
    c.wellFormed = c.path.chains (some c.exp.slot) := by
  obtain ⟨path, e⟩ := c
  cases path with
  | nil => simp [wellFormed, requiredSlot, Path.wellFormed, Path.focusSlot?, bind, Except.bind,
      Except.map, pure, Except.pure]
  | cons f outer =>
      obtain ⟨hFrame, hOuter⟩ := Path.complete_cons.mp h
      obtain ⟨slot, hSlot⟩ := hFrame.exists_holeSlot
      obtain ⟨answer, hAnswer⟩ := hOuter.exists_chains (some f.slot)
      simp only [wellFormed, requiredSlot, Path.wellFormed, Path.focusSlot?, Path.chains_none,
        Path.chains_some, hSlot, hAnswer]
      by_cases hRule : f.rule ∈ G.rules f.slot
      · by_cases hFocus : e.slot = slot
        · cases answer <;>
            simp [hRule, hFocus, bind, Except.bind, Except.map, pure, Except.pure]
        · cases answer <;>
            simp [hRule, hFocus, bind, Except.bind, Except.map, pure, Except.pure]
      · simp [hRule, bind, Except.bind, pure, Except.pure]

/-- A whole tree always fits its root. -/
theorem root_wellFormed (e : Exp G) : (root e).wellFormed = .ok true := by
  have hPath : (root e).path.Complete := nofun
  rw [wellFormed_eq_chains hPath]
  exact Path.chains_nil _

/-- The local check of a cursor with sound parts decides whether its whole tree obeys the
grammar. -/
theorem wellFormed_iff {c : Cursor G} (hPath : c.path.Complete) (hExp : c.exp.WellFormed) :
    c.wellFormed = .ok true ↔ c.tree.WellFormed := by
  rw [wellFormed_eq_chains hPath, tree, Path.wellFormed_plug]
  constructor
  · intro hChain
    exact ⟨hPath, hChain, hExp⟩
  · intro hParts
    obtain ⟨_, hChain, _⟩ := hParts
    exact hChain

/-- In a well-formed tree every position asks for the slot of the node that stands there. -/
theorem requiredSlot_of_wellFormed {c : Cursor G} (h : c.tree.WellFormed) :
    c.requiredSlot = .ok c.exp.slot := by
  obtain ⟨path, e⟩ := c
  obtain ⟨_, hChain, _⟩ := Path.wellFormed_plug.mp h
  cases path with
  | nil => rfl
  | cons f outer =>
      obtain ⟨_, hSlot, _⟩ := Path.chains_some_cons.mp hChain
      simp [requiredSlot, Path.focusSlot?, hSlot, Except.map]

end Cursor

namespace Selection

theorem topSlot_eq (s : Selection G) : s.topSlot = s.top.exp.slot := by
  unfold topSlot top
  cases h : s.below.outermost? with
  | none => rw [List.getLast?_eq_none_iff.mp h]; rfl
  | some f => exact (Path.plug_slot h s.exp).symm

theorem bottom_complete {s : Selection G} (hBelow : s.below.Complete) (hAbove : s.above.Complete) :
    s.bottom.path.Complete := by
  rw [bottom_eq]
  exact Path.complete_append.mpr ⟨hBelow, hAbove⟩

/-- A selection with sound parts that passes the check lies in a well-formed tree. -/
theorem tree_of_wellFormed {s : Selection G} (hAbove : s.above.Complete) (hBelow : s.below.Complete)
    (hExp : s.exp.WellFormed) (h : s.wellFormed = .ok true) : s.tree.WellFormed := by
  have hPath : s.bottom.path.Complete := bottom_complete hBelow hAbove
  rw [← bottom_tree]
  exact (Cursor.wellFormed_iff hPath hExp).mp h

/-- A selection in a well-formed tree passes the check. -/
theorem wellFormed_of_tree {s : Selection G} (h : s.tree.WellFormed) :
    s.wellFormed = .ok true := by
  have hBottom : s.bottom.tree.WellFormed := by rwa [bottom_tree]
  obtain ⟨hComplete, _, hExp⟩ := Path.wellFormed_plug.mp hBottom
  exact (Cursor.wellFormed_iff hComplete hExp).mpr hBottom

end Selection

end TreeEditor
