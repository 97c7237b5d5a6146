import TreeEditor.Proofs.Span

/-! Two edits of one tree. An edit rebuilds every node above it, so the path of another cursor holds
siblings that are no longer there. Its route still leads to the same place: edits on branches that
part do not meet and can be made in either order, and an edit above another one leaves nothing of
it. -/

namespace TreeEditor

variable {G : Grammar}

/-- Two routes that go on to different children of some node on both. -/
inductive Route.Part : Route → Route → Prop where
  | here {i j : Nat} {r q : Route} (h : i ≠ j) : Part (i :: r) (j :: q)
  | under (i : Nat) {r q : Route} (h : Part r q) : Part (i :: r) (i :: q)

/-- Routes part as soon as neither goes on from the other. -/
theorem Route.Part.of_apart {r q : Route} (hr : ¬ r <+: q) (hq : ¬ q <+: r) : Part r q := by
  induction r generalizing q with
  | nil => exact absurd List.nil_prefix hr
  | cons i r ih =>
      cases q with
      | nil => exact absurd List.nil_prefix hq
      | cons j q =>
          by_cases hIndex : i = j
          · subst hIndex
            rw [List.cons_prefix_cons] at hr hq
            exact .under i (ih (fun h => hr ⟨rfl, h⟩) fun h => hq ⟨rfl, h⟩)
          · exact .here hIndex

namespace Exp

/-- What stands at a route is not touched by a replacement on a branch that parts from it. -/
theorem at?_subst_of_part {e : Exp G} {r q : Route} (h : Route.Part r q) (new : Exp G) :
    (e.subst r new).at? q = e.at? q := by
  induction h generalizing e with
  | here hIndex =>
      obtain ⟨slot, rule, value, children⟩ := e
      simp [subst, at?_cons, child?, Exp.children, hIndex]
  | @under i r q _ ih =>
      obtain ⟨slot, rule, value, children⟩ := e
      simp only [subst, at?_cons, child?, Exp.children, List.getElem?_modify_eq]
      cases children[i]? with
      | none => rfl
      | some child => exact ih

/-- Replacements on branches that part can be made in either order. -/
theorem subst_comm_of_part {e u v : Exp G} {r q : Route} (h : Route.Part r q) :
    (e.subst r u).subst q v = (e.subst q v).subst r u := by
  induction h generalizing e with
  | here hIndex =>
      obtain ⟨slot, rule, value, children⟩ := e
      simp only [subst]
      rw [List.modify_modify_ne _ _ _ hIndex]
  | @under i r q _ ih =>
      obtain ⟨slot, rule, value, children⟩ := e
      simp only [subst, List.modify_modify_eq, Function.comp_def, ih]

end Exp

namespace Cursor

variable {t : Exp G} {r q : Route} {a b : Cursor G}

/-- With another tree in focus, the whole tree has that tree at the route of the cursor. -/
theorem withExp_tree (h : (root t).descend? r = some a) (e : Exp G) :
    (a.withExp e).tree = t.subst r e := by
  obtain ⟨rfl, rfl⟩ := descend?_eq_some.mp h
  exact (a.path.subst_plug_route a.exp e).symm

theorem at?_of_descend? (h : (root t).descend? r = some a) : t.at? r = some a.exp := by
  obtain ⟨rfl, rfl⟩ := descend?_eq_some.mp h
  exact a.at?_route.1

/-- A cursor above an edit keeps its path. The edit shows in its focus only. -/
theorem descend?_subst_append (h : (root t).descend? r = some a) (rest : Route) (v : Exp G) :
    (root (t.subst (r ++ rest) v)).descend? r = some (a.withExp (a.exp.subst rest v)) := by
  obtain ⟨rfl, rfl⟩ := descend?_eq_some.mp h
  rw [descend?_eq_some]
  exact ⟨(a.path.subst_plug_append a.exp v rest).symm, rfl⟩

/-- The cursor at the top end of a range lies above the other one. -/
theorem path_suffix_of_top {s : Selection G} (h : a.span b = .range s) (hTop : s.top = a) :
    a.path <:+ b.path := by
  have hAbove : s.above = a.path := congrArg Cursor.path hTop
  rcases span_eq_range.mp h with ⟨_, ⟨_, _, hBottom⟩ | ⟨_, hPath, _⟩⟩
  · rw [← hBottom, ← hAbove, s.bottom_eq]
    exact List.suffix_append s.below s.above
  · have hSame : a.path = b.path := hAbove.symm.trans hPath
    exact hSame ▸ List.suffix_rfl

/-- Edits at cursors that are apart can be made in either order. After an edit at the first, the
route of the second still leads to what the second had in focus, and the other way round; both
orders end in the same tree. An edit at a cursor above another one absorbs an earlier edit below
it. -/
theorem edits_commute (ha : (root t).descend? r = some a) (hb : (root t).descend? q = some b)
    (u v : Exp G) :
    (a.span b = .apart →
        ∃ a' b', (root (a.withExp u).tree).descend? q = some b' ∧ b'.exp = b.exp ∧
          (root (b.withExp v).tree).descend? r = some a' ∧ a'.exp = a.exp ∧
          (b'.withExp v).tree = (a'.withExp u).tree) ∧
      ∀ s, a.span b = .range s → s.top = a →
        ∃ a', (root (b.withExp v).tree).descend? r = some a' ∧
          (a'.withExp u).tree = (a.withExp u).tree := by
  have hFocus : t.at? r = some a.exp := at?_of_descend? ha
  have hFocus' : t.at? q = some b.exp := at?_of_descend? hb
  rw [withExp_tree ha, withExp_tree hb]
  constructor
  · intro hApart
    rw [span_eq_apart, path_suffix_iff ha hb, path_suffix_iff hb ha] at hApart
    have hPart : Route.Part r q := .of_apart hApart.1 hApart.2
    have hPart' : Route.Part q r := .of_apart hApart.2 hApart.1
    rw [← Exp.at?_subst_of_part hPart u] at hFocus'
    rw [← Exp.at?_subst_of_part hPart' v] at hFocus
    obtain ⟨a', ha', hExp⟩ := exists_descend? (c := root (t.subst q v)) hFocus
    obtain ⟨b', hb', hExp'⟩ := exists_descend? (c := root (t.subst r u)) hFocus'
    refine ⟨a', b', hb', hExp', ha', hExp, ?_⟩
    rw [withExp_tree ha', withExp_tree hb', Exp.subst_comm_of_part hPart]
  · intro s hSpan hTop
    have hBelow : r <+: q := (path_suffix_iff ha hb).mp (path_suffix_of_top hSpan hTop)
    obtain ⟨rest, rfl⟩ := hBelow
    refine ⟨_, descend?_subst_append ha rest v, ?_⟩
    exact withExp_tree ha u

/-- Two places under different children of an application, one of them a level deeper and with the
same name in it, and a third place above the deeper one. -/
theorem edits_commute_nested :
    let x := Alpha.var "x"
    let outer : Frame Alpha.grammar := ⟨.exp, .app, .app false, [], [x]⟩
    let inner : Frame Alpha.grammar := ⟨.exp, .app, .app true, [x], []⟩
    let t := outer.plug (inner.plug x)
    let above : Cursor Alpha.grammar := ⟨[outer], inner.plug x⟩
    let deep : Cursor Alpha.grammar := ⟨[inner, outer], x⟩
    let beside : Cursor Alpha.grammar := ⟨[⟨.exp, .app, .app false, [inner.plug x], []⟩], x⟩
    let u := Alpha.var "u"
    (root t).descend? [0] = some above ∧ (root t).descend? [0, 1] = some deep ∧
      (root t).descend? [1] = some beside ∧
      (deep.span beside = .apart ∧ ∃ deep' beside',
        (root (deep.withExp u).tree).descend? [1] = some beside' ∧ beside'.exp = x ∧
        (root (beside.withExp t).tree).descend? [0, 1] = some deep' ∧ deep'.exp = x ∧
        (beside'.withExp t).tree = (deep'.withExp u).tree) ∧
      ∃ s, (above.span deep = .range s ∧ s.top = above) ∧
        ∃ above', (root (deep.withExp t).tree).descend? [0] = some above' ∧
          (above'.withExp u).tree = (above.withExp u).tree := by
  intro x outer inner t above deep beside u
  have hAbove : (root t).descend? [0] = some above := rfl
  have hDeep : (root t).descend? [0, 1] = some deep := rfl
  have hBeside : (root t).descend? [1] = some beside := rfl
  have hApart : deep.span beside = .apart := by decide
  have hRange : above.span deep = .range ⟨[outer], [inner], x, .top⟩ := by decide
  have hCommute := (edits_commute hDeep hBeside u t).1 hApart
  have hAbsorb := (edits_commute hAbove hDeep u t).2 _ hRange rfl
  exact ⟨hAbove, hDeep, hBeside, ⟨hApart, hCommute⟩, _, ⟨hRange, rfl⟩, hAbsorb⟩

end Cursor

end TreeEditor
