import TreeEditor.Language.Alpha.Basic
import TreeEditor.Proofs.Editing.Timeline
import TreeEditor.Proofs.Span

/-! What can be reached by single moves. There are no moves to a child other than the first, nor to a
place far away, so a position is reached over the root and then downwards from sibling to sibling. A
range is reached from its fixed end: a free top end goes straight up, and a free bottom end goes
down as a cursor does that sees the fixed end as the root. On the way neither a refusal nor a
collapse comes in between, because a range that grows is never empty. -/

namespace TreeEditor

variable {G : Grammar}

open Outcome

/-- The next child is the right neighbour. -/
theorem Cursor.down?_succ (c : Cursor G) (index : Nat) :
    c.down? (index + 1) = (c.down? index).bind right? := by
  obtain ⟨path, ⟨slot, rule, value, children⟩⟩ := c
  by_cases hNext : index + 1 < children.length
  · have hIndex : index < children.length := by omega
    have hTake : children.take (index + 1) = children.take index ++ [children[index]] := by
      rw [List.take_add_one, List.getElem?_eq_getElem hIndex, Option.toList_some]
    have hDrop : children.drop (index + 1) = children[index + 1] :: children.drop (index + 2) :=
      List.drop_eq_getElem_cons hNext
    simp only [down?, Exp.split?, List.getElem?_eq_getElem hIndex, List.getElem?_eq_getElem hNext,
      Option.map_some, Option.bind_some, right?, hTake, hDrop, List.reverse_append,
      List.reverse_singleton, List.singleton_append]
  · have hDrop : children.drop (index + 1) = [] := List.drop_eq_nil_of_le (by omega)
    by_cases hIndex : index < children.length
    · simp [down?, Exp.split?, right?, List.getElem?_eq_getElem hIndex,
        List.getElem?_eq_none (Nat.le_of_not_lt hNext), hDrop]
    · simp [down?, Exp.split?, List.getElem?_eq_none (Nat.le_of_not_lt hNext),
        List.getElem?_eq_none (Nat.le_of_not_lt hIndex)]

namespace Editor

variable {ed : Editor G} {move : Direction → Action G} {mode mode' mode'' : Mode G}

/-- Moves of one kind lead from one mode to another: there is a list of directions such that, in every
state in the first mode, all these moves are accepted and end in the second. -/
def Leads (ed : Editor G) (move : Direction → Action G) (mode mode' : Mode G) : Prop :=
  ∃ directions : List Direction, ∀ s : State G, s.mode = mode →
    ∃ s', ed.applyAll s (directions.map move) = .ok s' ∧ s'.mode = mode'

theorem Leads.refl (ed : Editor G) (move : Direction → Action G) (mode : Mode G) :
    ed.Leads move mode mode :=
  ⟨[], fun s hMode => ⟨s, rfl, hMode⟩⟩

theorem Leads.trans (hFirst : ed.Leads move mode mode') (hSecond : ed.Leads move mode' mode'') :
    ed.Leads move mode mode'' := by
  obtain ⟨first, hFirst⟩ := hFirst
  obtain ⟨second, hSecond⟩ := hSecond
  refine ⟨first ++ second, fun s hMode => ?_⟩
  obtain ⟨middle, hMiddle, hMode'⟩ := hFirst s hMode
  obtain ⟨s', hEnd, hMode''⟩ := hSecond middle hMode'
  refine ⟨s', ?_, hMode''⟩
  rw [List.map_append, applyAll, List.foldlM_append]
  exact bind_eq_ok.mpr ⟨middle, hMiddle, hEnd⟩

/-- A move whose effect depends on the mode alone leads from there to where it goes. -/
theorem Leads.single (direction : Direction)
    (h : ∀ s : State G, s.mode = mode → ed.effect s (move direction) = .ok (.navigate mode')) :
    ed.Leads move mode mode' := by
  refine ⟨[direction], fun s hMode => ?_⟩
  have hApply : ed.apply s (move direction) =
      .ok { s with mode := mode', history := s.history.clearFuture } :=
    apply_eq_ok.mpr ⟨_, h s hMode, rfl⟩
  exact ⟨_, applyAll_cons ed hApply rfl, rfl⟩

theorem leads_moveCursor (direction : Direction) {c c' : Cursor G}
    (h : c.step? direction = some c') : ed.Leads .moveCursor (.cursor c) (.cursor c') := by
  refine Leads.single direction fun s hMode => ?_
  simp only [effect, hMode, Mode.focus, h]

theorem leads_moveSelect (direction : Direction) (h : ed.moveSelect direction mode = .ok mode') :
    ed.Leads .moveSelect mode mode' := by
  refine Leads.single direction fun s hMode => ?_
  rw [effect, hMode, h]
  rfl

/-- If a mode follows a cursor into the first child and to the right, it follows the cursor down along
every route. -/
theorem leads_descend {view : Cursor G → Mode G}
    (hDown : ∀ c c', c.down? 0 = some c' → ed.Leads move (view c) (view c'))
    (hRight : ∀ c c', c.right? = some c' → ed.Leads move (view c) (view c')) {route : Route}
    {c c' : Cursor G} (h : c.descend? route = some c') : ed.Leads move (view c) (view c') := by
  have hChild : ∀ (index : Nat) (c c' : Cursor G), c.down? index = some c' →
      ed.Leads move (view c) (view c') := by
    intro index c
    induction index with
    | zero => exact hDown c
    | succ index ih =>
        intro c' hSucc
        rw [Cursor.down?_succ] at hSucc
        obtain ⟨sibling, hSibling, hNext⟩ := Option.bind_eq_some_iff.mp hSucc
        exact (ih sibling hSibling).trans (hRight sibling c' hNext)
  induction route generalizing c with
  | nil =>
      cases h
      exact .refl ed move _
  | cons index rest ih =>
      obtain ⟨child, hIndex, hRest⟩ := Option.bind_eq_some_iff.mp h
      exact (hChild index c child hIndex).trans (ih hRest)

theorem leads_root (ed : Editor G) (c : Cursor G) :
    ed.Leads .moveCursor (.cursor c) (.cursor c.toRoot) := by
  obtain ⟨path, e⟩ := c
  induction path generalizing e with
  | nil => exact .refl ed _ _
  | cons f outer ih =>
      have hUp : (Cursor.mk (f :: outer) e).step? .up = some ⟨outer, f.plug e⟩ := rfl
      exact (leads_moveCursor .up hUp).trans (ih (f.plug e))

/-- A cursor reaches every place of its tree, over the root. -/
theorem leads_cursor (ed : Editor G) {a b : Cursor G} (h : a.tree = b.tree) :
    ed.Leads .moveCursor (.cursor a) (.cursor b) := by
  have hRoute : a.toRoot.descend? b.path.route = some b := Cursor.descend?_eq_some.mpr ⟨h.symm, rfl⟩
  refine (leads_root ed a).trans (leads_descend ?_ ?_ hRoute)
  · exact fun c c' hDown => leads_moveCursor .down hDown
  · exact fun c c' hRight => leads_moveCursor .right hRight

/-- The mode in which the fixed end stands at the path `above` and the free end at a cursor that sees
it as the root: a range with a free bottom end, or nothing selected while both are at one place. -/
def downFrom (above : Path G) (c : Cursor G) : Mode G :=
  if c.path = [] then .cursor ⟨above, c.exp⟩ else .select ⟨above, c.path, c.exp, .bottom⟩

section AllowAll

variable (hAll : ∀ sel, ed.accepts sel = true)

include hAll

theorem checked_of_allowed {sel : Selection G} (hBelow : sel.below ≠ []) :
    ed.checked sel = .ok sel :=
  checked_eq_ok.mpr ⟨isValid_eq_true.mpr ⟨hBelow, hAll sel⟩, rfl⟩

theorem leads_start (direction : Direction) {c moved : Cursor G} {sel : Selection G}
    (hStep : c.step? direction = some moved) (hSpan : moved.span c = .range sel) :
    ed.Leads .moveSelect (.cursor c) (.select sel) := by
  refine leads_moveSelect direction ?_
  simp only [moveSelect, startSelection, hStep, hSpan]
  rw [checked_of_allowed hAll (Cursor.span_range hSpan).1]
  rfl

theorem leads_range (direction : Direction) {sel sel' : Selection G}
    (hMove : sel.move? direction = some (.range sel')) (hBelow : sel'.below ≠ []) :
    ed.Leads .moveSelect (.select sel) (.select sel') := by
  refine leads_moveSelect direction ?_
  simp only [moveSelect, hMove]
  rw [checked_of_allowed hAll hBelow]
  rfl

/-- A free top end takes in one frame after the other on its way up. -/
theorem leads_top {below : Path G} (hBelow : below ≠ []) (more above : Path G) (e : Exp G) :
    ed.Leads .moveSelect (.select ⟨more ++ above, below, e, .top⟩)
      (.select ⟨above, below ++ more, e, .top⟩) := by
  induction more generalizing below with
  | nil =>
      rw [List.append_nil]
      exact .refl ed _ _
  | cons f more ih =>
      have hGrown : below ++ [f] ≠ [] := by simp
      have hRest := ih hGrown
      rw [List.append_assoc, List.singleton_append] at hRest
      have hMove : (Selection.mk (f :: more ++ above) below e .top).move? .up =
          some (.range ⟨more ++ above, below ++ [f], e, .top⟩) :=
        Selection.moveTop?_up f (more ++ above) below e .top
      exact (leads_range hAll .up hMove hGrown).trans hRest

theorem leads_up {below : Path G} (hBelow : below ≠ []) (above : Path G) (e : Exp G) :
    ed.Leads .moveSelect (.cursor ⟨below ++ above, e⟩) (.select ⟨above, below, e, .top⟩) := by
  obtain ⟨f, rest, rfl⟩ := List.exists_cons_of_ne_nil hBelow
  have hStep : (Cursor.mk (f :: rest ++ above) e).step? .up =
      some ⟨rest ++ above, f.plug e⟩ := rfl
  have hSpan : (Cursor.mk (rest ++ above) (f.plug e)).span ⟨f :: rest ++ above, e⟩ =
      .range ⟨rest ++ above, [f], e, .top⟩ := Cursor.span_above rfl (List.cons_ne_nil f [])
  exact (leads_start hAll .up hStep hSpan).trans
    (leads_top hAll (List.cons_ne_nil f []) rest above e)

/-- The range follows the free end wherever the free end does not come back to the fixed one. -/
theorem leads_downFrom (direction : Direction) {above : Path G} {c c' : Cursor G}
    (h : c.step? direction = some c') (hPath : c'.path ≠ []) :
    ed.Leads .moveSelect (downFrom above c) (downFrom above c') := by
  obtain ⟨path, e⟩ := c
  obtain ⟨path', e'⟩ := c'
  have hEnd : downFrom above ⟨path', e'⟩ = .select ⟨above, path', e', .bottom⟩ := if_neg hPath
  rw [hEnd]
  obtain ⟨g, rest', rfl⟩ := List.exists_cons_of_ne_nil hPath
  cases path with
  | cons f rest =>
      refine leads_range hAll direction ?_ hPath
      simp only [Selection.move?, Selection.moveBottom?, h]
  | nil =>
      -- At the root of what it sees, the free end can only go down.
      cases direction with
      | down =>
          obtain ⟨split, hSplit, hFrame⟩ := Option.map_eq_some_iff.mp h
          cases hFrame
          have hStep : (Cursor.mk above e).step? .down = some ⟨split.1 :: above, split.2⟩ := by
            simp [Cursor.step?, Cursor.down?, hSplit]
          exact leads_start hAll .down hStep (Cursor.span_below rfl (List.cons_ne_nil split.1 []))
      | up => cases h
      | left => cases h
      | right => cases h

theorem leads_down {below : Path G} (hBelow : below ≠ []) (above : Path G) (e : Exp G) :
    ed.Leads .moveSelect (.cursor ⟨above, below.plug e⟩) (.select ⟨above, below, e, .bottom⟩) := by
  have hRoute : (Cursor.root (below.plug e)).descend? below.route = some ⟨below, e⟩ :=
    Cursor.descend?_eq_some.mpr ⟨rfl, rfl⟩
  have hStart : downFrom above (.root (below.plug e)) = .cursor ⟨above, below.plug e⟩ := if_pos rfl
  have hEnd : downFrom above ⟨below, e⟩ = .select ⟨above, below, e, .bottom⟩ := if_neg hBelow
  rw [← hStart, ← hEnd]
  refine leads_descend ?_ ?_ hRoute
  · intro c c' hDown
    refine leads_downFrom hAll .down hDown ?_
    obtain ⟨⟨f, u⟩, _, rfl⟩ := Option.map_eq_some_iff.mp hDown
    exact List.cons_ne_nil f c.path
  · intro c c' hRight
    refine leads_downFrom hAll .right hRight ?_
    unfold Cursor.right? at hRight
    split at hRight
    · cases hRight
    · split at hRight
      · cases hRight
      · cases hRight
        exact List.cons_ne_nil _ _

end AllowAll

/-- Single moves reach every place and every range, if the host allows all ranges. Between any two
cursors of a tree the cursor can be moved, and from a cursor `b` a selection can be moved to exactly
the range that spans from any other cursor of the tree to `b`, with the same end free. None of
these moves is refused. -/
theorem moves_reach_all (hAll : ∀ sel, ed.accepts sel = true) {t : Exp G} {a b : Cursor G}
    (ha : a.tree = t) (hb : b.tree = t) :
    ed.Leads .moveCursor (.cursor a) (.cursor b) ∧
      ∀ sel, a.span b = .range sel → ed.Leads .moveSelect (.cursor b) (.select sel) := by
  have hTree : a.tree = b.tree := ha.trans hb.symm
  refine ⟨leads_cursor ed hTree, fun sel hSpan => ?_⟩
  obtain ⟨hFree, hFixed⟩ := Cursor.span_ends hTree hSpan
  have hBelow := (Cursor.span_range hSpan).1
  rw [← hFixed]
  obtain ⟨above, below, e, freeEnd⟩ := sel
  cases freeEnd with
  | top =>
      have hBottom : (Selection.mk above below e .top).fixed = ⟨below ++ above, e⟩ :=
        Selection.bottom_eq _
      rw [hBottom]
      exact leads_up hAll hBelow above e
  | bottom => exact leads_down hAll hBelow above e

/-- From the left branch over the root to the second leaf of the right one, and ranges between that
leaf and the root in both directions. -/
theorem moves_reach_all_nested :
    let pair := Alpha.app (Alpha.var "x") (Alpha.var "y")
    let t := Alpha.app pair pair
    let outer : Frame Alpha.grammar := ⟨.exp, .app, .app false, [pair], []⟩
    let inner : Frame Alpha.grammar := ⟨.exp, .app, .app false, [Alpha.var "x"], []⟩
    let left : Cursor Alpha.grammar := ⟨[⟨.exp, .app, .app false, [], [pair]⟩], pair⟩
    let leaf : Cursor Alpha.grammar := ⟨[inner, outer], Alpha.var "y"⟩
    let ed : Editor Alpha.grammar := {}
    left.tree = t ∧ leaf.tree = t ∧ ed.Leads .moveCursor (.cursor left) (.cursor leaf) ∧
      ed.Leads .moveSelect (.cursor (.root t)) (.select ⟨[], leaf.path, leaf.exp, .bottom⟩) ∧
      ed.Leads .moveSelect (.cursor leaf) (.select ⟨[], leaf.path, leaf.exp, .top⟩) := by
  intro pair t outer inner left leaf ed
  have hAll : ∀ sel, ed.accepts sel = true := fun _ => rfl
  have hLeft : left.tree = t := rfl
  have hLeaf : leaf.tree = t := rfl
  have hRoot : (Cursor.root t).tree = t := rfl
  refine ⟨hLeft, hLeaf, (moves_reach_all hAll hLeft hLeaf).1, ?_, ?_⟩
  · exact (moves_reach_all hAll hLeaf hRoot).2 _ rfl
  · exact (moves_reach_all hAll hRoot hLeaf).2 _ rfl

end Editor

end TreeEditor
