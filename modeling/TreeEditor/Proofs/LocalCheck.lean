import TreeEditor.Language.Lambda
import TreeEditor.Proofs.WellFormed

/-! Checks that look at one node at a time. A tree obeys its grammar exactly if checked construction
accepts each of its nodes. The check of a cursor looks at even less, namely at the frames between
the focus and the root and never at a sibling, and the check of a selection is the check of its
bottom end. With sound parts, both always have an answer and tell whether the whole tree obeys the
grammar. -/

namespace TreeEditor

variable {G : Grammar}

namespace Exp

/-- No child is misplaced exactly if the children, being as many as the slots, fill these slots. -/
theorem misplaced?_eq_none {slots : List G.Slot} {es : List (Exp G)} (index : Nat)
    (hLength : es.length = slots.length) :
    misplaced? index slots es = none ↔ es.map slot = slots := by
  induction es generalizing slots index with
  | nil =>
      obtain rfl := List.length_eq_zero_iff.mp hLength.symm
      simp [misplaced?]
  | cons e rest ih =>
      cases slots with
      | nil => simp at hLength
      | cons expected slots =>
          have hRest : rest.length = slots.length := by simpa using hLength
          by_cases hSlot : expected = e.slot
          · simp [misplaced?, hSlot, ih (index + 1) hRest]
          · simp [misplaced?, hSlot, Ne.symm hSlot]

theorem build?_eq_ok {slot : G.Slot} {rule : G.Rule} {value : G.Value} {children : List (Exp G)}
    {e : Exp G} :
    build? slot rule value children = .ok e ↔
      rule ∈ G.rules slot ∧ children.map Exp.slot = G.childSlots rule ∧
        e = .node slot rule value children := by
  by_cases hRule : rule ∈ G.rules slot
  · by_cases hLength : children.length = (G.childSlots rule).length
    · have hSlots := misplaced?_eq_none 0 hLength
      cases hFound : misplaced? 0 (G.childSlots rule) children with
      | none => simp [build?, Grammar.arity, hRule, hLength, hFound, hSlots.mp hFound, eq_comm]
      | some found =>
          have hNot : children.map Exp.slot ≠ G.childSlots rule := by
            intro hFill
            rw [hSlots.mpr hFill] at hFound
            cases hFound
          simp [build?, Grammar.arity, hRule, hLength, hFound, hNot]
    · have hNot : children.map Exp.slot ≠ G.childSlots rule := by
        intro hFill
        exact hLength (by rw [← hFill, List.length_map])
      simp [build?, Grammar.arity, hRule, hLength, hNot]
  · simp [build?, hRule]

/-- Checked construction gives the node back when it is offered the parts of the node. -/
def Accepted (e : Exp G) : Prop :=
  build? e.slot e.rule e.value e.children = .ok e

theorem accepted_iff {e : Exp G} :
    e.Accepted ↔ e.rule ∈ G.rules e.slot ∧ e.children.map slot = G.childSlots e.rule := by
  obtain ⟨slot, rule, value, children⟩ := e
  rw [Accepted, build?_eq_ok]
  simp [Exp.slot, Exp.rule, Exp.value, Exp.children]

theorem wellFormed_iff {e : Exp G} :
    e.WellFormed ↔ e.Accepted ∧ ∀ child ∈ e.children, child.WellFormed := by
  rw [accepted_iff, and_assoc]
  obtain ⟨slot, rule, value, children⟩ := e
  exact wellFormed_node

theorem WellFormed.at? {e u : Exp G} {r : Route} (h : e.WellFormed) (hAt : e.at? r = some u) :
    u.WellFormed := by
  induction r generalizing e with
  | nil =>
      cases hAt
      exact h
  | cons index rest ih =>
      obtain ⟨child, hChild, hRest⟩ := Option.bind_eq_some_iff.mp hAt
      exact ih ((wellFormed_iff.mp h).2 child (List.mem_of_getElem? hChild)) hRest

/-- A tree obeys its grammar exactly if the node at every route is accepted. -/
theorem wellFormed_iff_accepted (e : Exp G) :
    e.WellFormed ↔ ∀ r u, e.at? r = some u → u.Accepted := by
  constructor
  · intro h r u hAt
    exact (wellFormed_iff.mp (h.at? hAt)).1
  · intro h
    induction e using childInduction with
    | node slot rule value children ih =>
        refine wellFormed_iff.mpr ⟨h [] _ rfl, fun child hChild => ih child hChild ?_⟩
        intro r u hAt
        obtain ⟨index, hIndex⟩ := List.getElem?_of_mem hChild
        apply h (index :: r)
        rw [at?_cons, child?, hIndex]
        exact hAt

end Exp

/-- The check of a cursor with sound parts has an answer: whether its tree obeys the grammar. -/
theorem Cursor.wellFormed_eq_decide {c : Cursor G} (hPath : c.path.Complete)
    (hExp : c.exp.WellFormed) : c.wellFormed = .ok (decide c.tree.WellFormed) := by
  have hDecides := wellFormed_iff hPath hExp
  obtain ⟨answer, hAnswer⟩ := hPath.exists_chains (some c.exp.slot)
  rw [← wellFormed_eq_chains hPath] at hAnswer
  rw [hAnswer] at hDecides ⊢
  cases answer with
  | true => rw [decide_eq_true (hDecides.mp rfl)]
  | false =>
      have hNot : ¬ c.tree.WellFormed := fun hTree => nomatch hDecides.mpr hTree
      rw [decide_eq_false hNot]

namespace Selection

theorem wellFormed_eq_decide {s : Selection G} (hAbove : s.above.Complete)
    (hBelow : s.below.Complete) (hExp : s.exp.WellFormed) :
    s.wellFormed = .ok (decide s.tree.WellFormed) := by
  have hPath : s.bottom.path.Complete := bottom_complete hBelow hAbove
  rw [wellFormed, Cursor.wellFormed_eq_decide hPath hExp]
  simp only [bottom_tree]

/-- In a well-formed tree both ends of a selection pass the check, and the position of the top end
asks for the slot that the selection reads off its outermost frame. -/
theorem ends_wellFormed {s : Selection G} (h : s.tree.WellFormed) :
    s.top.wellFormed = .ok true ∧ s.bottom.wellFormed = .ok true ∧
      s.top.requiredSlot = .ok s.topSlot := by
  have hTop : s.top.tree.WellFormed := h
  obtain ⟨hPath, _, hExp⟩ := Path.wellFormed_plug.mp hTop
  refine ⟨(Cursor.wellFormed_iff hPath hExp).mpr hTop, wellFormed_of_tree h, ?_⟩
  rw [Cursor.requiredSlot_of_wellFormed hTop, topSlot_eq]

end Selection

/-- Local checks decide global well-formedness, in every grammar. A tree is well formed exactly if
checked construction accepts the node at each of its routes. Where the focus is well formed and
each frame has the siblings that its rule declares, the check of a cursor answers whether the
rebuilt tree is well formed, and so does the check of a selection. Both ends of a selection that
passes are cursors that pass, and the slot of its top end is the one asked for there. -/
theorem local_checks_decide (G : Grammar) :
    (∀ e : Exp G, e.WellFormed ↔ ∀ r u, e.at? r = some u → u.Accepted) ∧
      (∀ c : Cursor G, c.path.Complete → c.exp.WellFormed →
        c.wellFormed = .ok (decide c.tree.WellFormed)) ∧
      ∀ s : Selection G, s.above.Complete → s.below.Complete → s.exp.WellFormed →
        s.wellFormed = .ok (decide s.tree.WellFormed) ∧
          (s.wellFormed = .ok true →
            s.top.wellFormed = .ok true ∧ s.bottom.wellFormed = .ok true ∧
              s.top.requiredSlot = .ok s.topSlot) := by
  refine ⟨Exp.wellFormed_iff_accepted, fun c => Cursor.wellFormed_eq_decide, ?_⟩
  intro s hAbove hBelow hExp
  refine ⟨Selection.wellFormed_eq_decide hAbove hBelow hExp, fun hCheck => ?_⟩
  exact Selection.ends_wellFormed (Selection.tree_of_wellFormed hAbove hBelow hExp hCheck)

/-- An application in the body of an abstraction passes, and the selection of both frames with it. In
the place of the binder the same application has sound parts as well, but its frames do not
chain. -/
theorem local_checks_decide_lambda :
    let body : Frame Lambda.grammar := ⟨.exp, .lam, .unit, [Lambda.name "x"], []⟩
    let binder : Frame Lambda.grammar := ⟨.exp, .lam, .unit, [], [Lambda.hole]⟩
    let application : Frame Lambda.grammar := ⟨.exp, .app, .unit, [Lambda.var "f"], []⟩
    let broken : Cursor Lambda.grammar := ⟨[application, binder], Lambda.var "y"⟩
    let sel : Selection Lambda.grammar := ⟨[body], [application], Lambda.var "y", .top⟩
    broken.path.Complete ∧ broken.exp.WellFormed ∧ broken.wellFormed = .ok false ∧
      ¬ broken.tree.WellFormed ∧
      sel.above.Complete ∧ sel.below.Complete ∧ sel.exp.WellFormed ∧ sel.wellFormed = .ok true ∧
      sel.tree.WellFormed ∧ (∀ r u, sel.tree.at? r = some u → u.Accepted) ∧
      sel.top.wellFormed = .ok true ∧ sel.bottom.wellFormed = .ok true ∧
      sel.top.requiredSlot = .ok sel.topSlot := by
  intro body binder application broken sel
  obtain ⟨hNodes, hCursor, hSelection⟩ := local_checks_decide Lambda.grammar
  have hPath : broken.path.Complete := by decide
  have hFocus : broken.exp.WellFormed := by decide
  have hBroken : ¬ broken.tree.WellFormed := by decide
  have hAbove : sel.above.Complete := by decide
  have hBelow : sel.below.Complete := by decide
  have hExp : sel.exp.WellFormed := by decide
  have hTree : sel.tree.WellFormed := by decide
  have hRefused := hCursor broken hPath hFocus
  rw [decide_eq_false hBroken] at hRefused
  obtain ⟨hPasses, hEnds⟩ := hSelection sel hAbove hBelow hExp
  rw [decide_eq_true hTree] at hPasses
  exact ⟨hPath, hFocus, hRefused, hBroken, hAbove, hBelow, hExp, hPasses, hTree,
    (hNodes sel.tree).mp hTree, hEnds hPasses⟩

end TreeEditor
