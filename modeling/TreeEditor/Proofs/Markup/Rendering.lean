import TreeEditor.Proofs.Markup.Marks

/-! Where a rendered state has its marks. The list of marks says how many there are and at which routes.
Lookup in the marked tree adds what stands under each of them, and so which of two marks at the same
route is inside the other. -/

namespace TreeEditor

variable {G : Grammar}

namespace Node

/-- The children of the node under the marks. -/
def kids : Node G → List (Node G)
  | exp _ _ _ kids => kids
  | cursor kid | top _ kid | bottom kid | replace _ kid | insert kid | invalid _ kid => kid.kids

/-- The node at a route with all its marks, if the route stays in the tree. Marks passed on the way are
not counted as steps. -/
def at? : Node G → Route → Option (Node G)
  | n, [] => some n
  | n, index :: rest => n.kids[index]?.bind (·.at? rest)

theorem at?_cons (n : Node G) (index : Nat) (rest : Route) :
    n.at? (index :: rest) = n.kids[index]?.bind (·.at? rest) := rfl

theorem kids_inFrame (n : Node G) (f : Frame G) : (n.inFrame f).kids[f.index]? = some n := by
  have hLength : (ofExps f.left.reverse).length = f.index := by simp [Frame.index]
  rw [inFrame, kids, ← hLength, List.getElem?_append_right (Nat.le_refl _), Nat.sub_self]
  rfl

/-- Below the position of a path, the rebuilt tree has the marks of the tree that was put there. -/
theorem at?_within (n : Node G) (p : Path G) (r : Route) :
    (n.within p).at? (p.route ++ r) = n.at? r := by
  induction p generalizing n r with
  | nil => rfl
  | cons f outer ih =>
      rw [within, Path.route_cons, List.append_assoc, ih, List.singleton_append, at?_cons,
        kids_inFrame]
      rfl

theorem at?_within_route (n : Node G) (p : Path G) : (n.within p).at? p.route = some n := by
  have hAt := at?_within n p []
  rw [List.append_nil] at hAt
  exact hAt

/-- Frames put a plain node around whatever they hold, so a mark comes to the front only without
them. -/
theorem within_eq_bottom {n kid : Node G} {p : Path G} (h : n.within p = .bottom kid) : p = [] := by
  induction p generalizing n with
  | nil => rfl
  | cons f outer ih =>
      rw [within] at h
      obtain rfl := ih h
      cases h

end Node

namespace Editor

/-- What is shown of a state is faithful to it. A blank query shows the same as no query. Without its
marks the tree shown is the tree that is edited. At a cursor there is one mark, which stands at
the route of the cursor. On a selection there are two: one at the route of its top end, which says
whether the selection is allowed, and inside of it one at the route of the bottom end. The second
comes right after the first only if no frames are selected. -/
theorem render_faithful (ed : Editor G) (r : Resolver G) (s : State G) :
    (∀ q : Query, q.isBlank = true → ed.preview r s q = .ok (ed.render s)) ∧
      (ed.render s).plain = .ofExp s.tree ∧
      (∀ c, s.mode = .cursor c →
        (ed.render s).marks = [(.cursor, c.path.route)] ∧
          (ed.render s).at? c.path.route = some (.cursor (.ofExp c.exp))) ∧
      ∀ sel, s.mode = .select sel →
        (ed.render s).marks =
            [(.top (ed.isValid sel), sel.top.path.route), (.bottom, sel.bottom.path.route)] ∧
          ∃ range, (ed.render s).at? sel.top.path.route = some (.top (ed.isValid sel) range) ∧
            sel.bottom.path.route = sel.top.path.route ++ sel.below.route ∧
            range.at? sel.below.route = some (.bottom (.ofExp sel.exp)) ∧
            ((∃ kid, range = .bottom kid) ↔ sel.below = []) := by
  refine ⟨fun q hBlank => if_pos hBlank, ed.plain_render s, fun c hMode => ⟨?_, ?_⟩,
    fun sel hMode => ⟨?_, ?_⟩⟩
  · rw [marks_render, hMode]
  · rw [render, markedTree, hMode]
    exact Node.at?_within_route _ c.path
  · rw [marks_render, hMode]
  · have hRoute : sel.bottom.path.route = sel.top.path.route ++ sel.below.route := by
      rw [sel.bottom_eq, Path.route_append, Selection.top]
    refine ⟨(Node.bottom (.ofExp sel.exp)).within sel.below, ?_, hRoute,
      Node.at?_within_route _ sel.below, fun hFront => ?_, fun hBelow => ?_⟩
    · rw [render, markedTree, hMode]
      exact Node.at?_within_route _ sel.above
    · obtain ⟨kid, hKid⟩ := hFront
      exact Node.within_eq_bottom hKid
    · rw [hBelow]
      exact ⟨_, rfl⟩

end Editor

end TreeEditor
