import TreeEditor.Language.Lambda
import TreeEditor.Proofs.Descent
import TreeEditor.Proofs.Editing.Decision
import TreeEditor.Proofs.FirstHole

/-! Where an insertion leaves the cursor. Frames that are put around a tree bring holes of their own:
those among the siblings that they hold. The cursor goes to the first of them. The search for it
looks at the node that the frames rebuild, in which the old tree stands as well, so it has to pass
over the holes of that tree, wherever they are. Only if the frames bring no hole at all does the
cursor stay on the old tree. -/

namespace TreeEditor

variable {G : Grammar}

open Outcome

namespace Frame

/-- The siblings in a frame are the children of the filled frame at other positions than the open
one. -/
theorem mem_siblings {f : Frame G} (u : Exp G) {e : Exp G} :
    e ∈ f.left ++ f.right ↔ ∃ i, i ≠ f.index ∧ (f.plug u).child? i = some e := by
  have hChild : ∀ i, (f.plug u).child? i = (f.left.reverse ++ u :: f.right)[i]? := fun _ => rfl
  constructor
  · intro h
    rcases List.mem_append.mp h with hLeft | hRight
    · obtain ⟨i, hi⟩ := List.getElem?_of_mem (List.mem_reverse.mpr hLeft)
      obtain ⟨hLength, _⟩ := List.getElem?_eq_some_iff.mp hi
      rw [List.length_reverse] at hLength
      refine ⟨i, Nat.ne_of_lt hLength, ?_⟩
      rw [hChild, List.getElem?_append_left (by simpa using hLength), hi]
    · obtain ⟨i, hi⟩ := List.getElem?_of_mem hRight
      refine ⟨f.index + (i + 1), by omega, ?_⟩
      rw [hChild, List.getElem?_append_right (by simp [index])]
      simpa [index] using hi
  · rintro ⟨i, hi, hAt⟩
    rw [hChild] at hAt
    rcases Nat.lt_or_gt_of_ne hi with hLess | hMore
    · rw [List.getElem?_append_left (by simpa [index] using hLess)] at hAt
      exact List.mem_append_left _ (List.mem_reverse.mp (List.mem_of_getElem? hAt))
    · obtain ⟨j, rfl⟩ := Nat.exists_eq_add_of_lt hMore
      rw [List.getElem?_append_right (by simp only [index, List.length_reverse]; omega)] at hAt
      have hSibling : f.right[j]? = some e := by
        simpa [index, Nat.add_assoc, Nat.add_sub_cancel_left] using hAt
      exact List.mem_append_right _ (List.mem_of_getElem? hSibling)

end Frame

namespace Path

/-- A hole stands at the route in the node that the frames rebuild around `u`, and not in `u`. -/
def NewHole (p : Path G) (u : Exp G) (r : Route) : Prop :=
  (p.plug u).HoleAt r ∧ ¬ p.route <+: r

/-- One of the siblings in the frames is a hole or has one in it. -/
def BringsHole (p : Path G) : Prop :=
  ∃ f ∈ p, ∃ e ∈ f.left ++ f.right, ∃ r, e.HoleAt r

theorem bringsHole_cons {f : Frame G} {outer : Path G} :
    BringsHole (f :: outer) ↔
      (∃ e ∈ f.left ++ f.right, ∃ r, e.HoleAt r) ∨ BringsHole outer := by
  simp [BringsHole]

/-- Below the position of a path, a hole of the rebuilt tree is one of the tree that was put there. -/
theorem holeAt_plug {p : Path G} {e : Exp G} {r : Route} :
    (p.plug e).HoleAt (p.route ++ r) ↔ e.HoleAt r := by
  rw [Exp.HoleAt, Exp.HoleAt, at?_plug]

/-- The holes that frames bring are those of the outer frames and those that the innermost one
brings around `u`. -/
theorem exists_newHole_cons {f : Frame G} {outer : Path G} {u : Exp G} :
    (∃ r, NewHole (f :: outer) u r) ↔
      (∃ r, NewHole [f] u r) ∨ ∃ r, NewHole outer (f.plug u) r := by
  constructor
  · rintro ⟨r, hHole, hOutside⟩
    by_cases hUnder : outer.route <+: r
    · obtain ⟨q, rfl⟩ := hUnder
      refine .inl ⟨q, holeAt_plug.mp hHole, fun hq => hOutside ?_⟩
      rw [route_cons]
      exact (List.prefix_append_right_inj _).mpr hq
    · exact .inr ⟨r, hHole, hUnder⟩
  · rintro (⟨r, hHole, hOutside⟩ | ⟨r, hHole, hOutside⟩)
    · refine ⟨outer.route ++ r, holeAt_plug.mpr hHole, fun hr => hOutside ?_⟩
      rw [route_cons] at hr
      exact (List.prefix_append_right_inj _).mp hr
    · refine ⟨r, hHole, fun hr => hOutside ?_⟩
      rw [route_cons] at hr
      exact (List.prefix_append _ _).trans hr

/-- A single frame that is not itself a hole brings the holes of its siblings. -/
theorem exists_newHole_single {f : Frame G} (hNode : ¬ G.isHole f.slot f.rule = true) {u : Exp G} :
    (∃ r, NewHole [f] u r) ↔ ∃ e ∈ f.left ++ f.right, ∃ r, e.HoleAt r := by
  constructor
  · rintro ⟨r, hHole, hOutside⟩
    cases r with
    | nil => exact absurd (Exp.holeAt_nil.mp hHole) hNode
    | cons i r =>
        obtain ⟨e, hChild, hr⟩ := Exp.holeAt_cons.mp hHole
        refine ⟨e, (f.mem_siblings u).mpr ⟨i, fun hi => hOutside ?_, hChild⟩, r, hr⟩
        simp [hi]
  · rintro ⟨e, he, r, hr⟩
    obtain ⟨i, hi, hChild⟩ := (f.mem_siblings u).mp he
    refine ⟨i :: r, Exp.holeAt_cons.mpr ⟨e, hChild, hr⟩, fun hPrefix => hi ?_⟩
    simpa [eq_comm] using hPrefix

/-- New holes are brought by siblings, where no frame is itself a hole. -/
theorem exists_newHole_iff {p : Path G} (hNodes : ∀ f ∈ p, ¬ G.isHole f.slot f.rule = true)
    (u : Exp G) : (∃ r, p.NewHole u r) ↔ p.BringsHole := by
  induction p generalizing u with
  | nil => simp [NewHole, BringsHole]
  | cons f outer ih =>
      obtain ⟨hFrame, hOuter⟩ := List.forall_mem_cons.mp hNodes
      rw [exists_newHole_cons, exists_newHole_single hFrame, ih hOuter, bringsHole_cons]

/-- In a consistent grammar, frames that chain have an open position, and a hole has none. -/
theorem not_isHole_of_chains (hG : G.Consistent) {p : Path G} {inner : G.Slot}
    (h : p.chains (some inner) = .ok true) : ∀ f ∈ p, ¬ G.isHole f.slot f.rule = true := by
  induction p generalizing inner with
  | nil => simp
  | cons f outer ih =>
      obtain ⟨_, hSlot, hChain⟩ := chains_some_cons.mp h
      refine List.forall_mem_cons.mpr ⟨fun hHole => ?_, ih hChain⟩
      have hRule : G.holeRule f.slot = f.rule := of_decide_eq_true hHole
      rw [Frame.holeSlot_eq_ok, ← hRule, (hG f.slot).2] at hSlot
      cases hSlot

end Path

namespace Cursor

variable {c c' : Cursor G} {p : Path G}

/-- The cursor ends up on the first hole that the frames bring, or where wrapping leaves it if they
bring none. -/
theorem insert_lands (h : c.insert p = .ok c') :
    (∃ r, Route.IsFirst (p.NewHole c.exp) (some r) ∧ c'.path.route = c.path.route ++ r) ∨
      (Route.IsFirst (p.NewHole c.exp) none ∧ c' = ⟨p ++ c.path, c.exp⟩) := by
  obtain ⟨wrapped, hWrap, hCursor⟩ := bind_eq_ok.mp h
  have hEnd := Except.ok.inj hCursor
  have hFirst : Route.IsFirst (p.NewHole c.exp) ((p.plug c.exp).firstHole (some p.route)) :=
    (Exp.firstHole_isFirst _ _).congr fun r => by rw [Route.outside_some, Path.NewHole]
  cases hFound : (p.plug c.exp).firstHole (some p.route) with
  | none =>
      rw [hFound] at hEnd hFirst
      exact .inr ⟨hFirst, hEnd.symm.trans (wrap_eq_ok.mp hWrap).2⟩
  | some r =>
      rw [hFound] at hEnd hFirst
      -- The route was found in the rebuilt node, so going down along it succeeds.
      obtain ⟨hole, hAt, _⟩ := hFirst.1.1
      obtain ⟨reached, hDescend, _⟩ :=
        exists_descend? (c := ⟨c.path, p.plug c.exp⟩) hAt
      obtain ⟨below, hPath, hRoute⟩ := descend?_path hDescend
      simp only [Option.bind_some, hDescend, Option.getD_some] at hEnd
      refine .inl ⟨r, hFirst, ?_⟩
      rw [← hEnd, hPath, Path.route_append, hRoute]

theorem chains_of_wrap (h : c.wrap p = .ok c') : p.chains (some c.exp.slot) = .ok true := by
  obtain ⟨slot, _, hFits⟩ := (wrap_eq_ok.mp h).1
  exact (Path.fits_eq_ok.mp hFits).2.1

end Cursor

namespace Editor

variable {ed : Editor G} {s s' : State G} {p : Path G}

theorem cursor_of_insert (h : ed.apply s (.insert p) = .ok s') :
    ∃ c, s.mode.target.insert p = .ok c ∧ s'.mode = .cursor c := by
  rw [apply_of_edit (f := fun c => ⟨.cursor c, s.clipboard⟩) rfl] at h
  obtain ⟨c, hCursor, rfl⟩ := map_eq_ok.mp h
  exact ⟨c, hCursor, rfl⟩

/-- An accepted insertion leaves a cursor in the tree in which the frames stand around the subtree
`u` at the target. If there are holes in the node that the frames rebuild, other than those of `u`,
the cursor is on the first of them. If there are none, it is on `u`. There are some exactly if the
siblings in the frames have holes, and then the cursor does not end up in `u`, whatever holes `u`
has. -/
theorem insert_lands_on_new_hole (hG : G.Consistent) (h : ed.apply s (.insert p) = .ok s') :
    ∃ c u, s'.mode = .cursor c ∧ s.tree.at? s.mode.route = some u ∧
      (p.plug u).at? p.route = some u ∧ c.tree = s.tree.subst s.mode.route (p.plug u) ∧
      ((∃ r, (p.NewHole u r ∧ ∀ q, p.NewHole u q → Route.Precedes r q) ∧
          c.path.route = s.mode.route ++ r) ∨
        ((∀ q, ¬ p.NewHole u q) ∧ c.path.route = s.mode.route ++ p.route ∧ c.exp = u)) ∧
      ((∃ r, p.NewHole u r) ↔ p.BringsHole) ∧
      (p.BringsHole → ¬ s.mode.route ++ p.route <+: c.path.route) := by
  obtain ⟨c, hInsert, hMode⟩ := cursor_of_insert h
  obtain ⟨⟨_, hWrap⟩, hTree⟩ := Cursor.insert_eq_ok hInsert
  have hBrings : (∃ r, p.NewHole s.mode.target.exp r) ↔ p.BringsHole :=
    Path.exists_newHole_iff (Path.not_isHole_of_chains hG (Cursor.chains_of_wrap hWrap)) _
  rw [← s.mode.subst_route] at hTree
  refine ⟨c, s.mode.target.exp, hMode, s.mode.at?_route, p.at?_plug_route _, hTree, ?_, hBrings, ?_⟩
  · rw [s.mode.route_eq]
    rcases Cursor.insert_lands hInsert with hFirst | ⟨hNone, hCursor⟩
    · exact .inl hFirst
    · rw [hCursor]
      exact .inr ⟨hNone, Path.route_append _ _, rfl⟩
  · intro hSome
    rw [s.mode.route_eq]
    rcases Cursor.insert_lands hInsert with ⟨r, hFirst, hRoute⟩ | ⟨hNone, _⟩
    · rw [hRoute, List.prefix_append_right_inj]
      exact hFirst.1.2
    · obtain ⟨r, hr⟩ := hBrings.mpr hSome
      exact absurd hr (hNone r)

/-- An application is put around the selected one, which has a hole of its own that comes earlier in
the tree. The cursor passes over it and goes to the argument of the new application. -/
theorem insert_lands_on_new_hole_select :
    let body : Frame Lambda.grammar := ⟨.exp, .lam, .unit, [Lambda.name "x"], []⟩
    let inner : Frame Lambda.grammar := ⟨.exp, .app, .unit, [], [Lambda.hole]⟩
    let sel : Selection Lambda.grammar := ⟨[body], [inner], Lambda.var "f", .bottom⟩
    let s : State Lambda.grammar := .start (.select sel) 5
    let p : Path Lambda.grammar := [inner]
    ∃ s' : State Lambda.grammar, ({} : Editor Lambda.grammar).apply s (.insert p) = .ok s' ∧
      s'.tree.HoleAt [1, 0, 1] ∧ s'.mode.route = [1, 1] ∧ p.BringsHole ∧
      ∃ c u, s'.mode = .cursor c ∧ s.tree.at? s.mode.route = some u ∧
        c.tree = s.tree.subst s.mode.route (p.plug u) ∧
        (∃ r, (p.NewHole u r ∧ ∀ q, p.NewHole u q → Route.Precedes r q) ∧
          c.path.route = s.mode.route ++ r) ∧
        ¬ s.mode.route ++ p.route <+: c.path.route := by
  intro body inner sel s p
  have hInsert : ({} : Editor Lambda.grammar).apply s (.insert p) = .ok _ := rfl
  have hBrings : p.BringsHole :=
    ⟨inner, List.mem_cons_self .., Lambda.hole, List.mem_cons_self .., [], Lambda.hole, rfl, rfl⟩
  obtain ⟨c, u, hMode, hu, _, hTree, hLands, hIff, hAway⟩ :=
    insert_lands_on_new_hole Lambda.grammar_consistent hInsert
  refine ⟨_, hInsert, ⟨Lambda.hole, rfl, rfl⟩, rfl, hBrings, c, u, hMode, hu, hTree, ?_,
    hAway hBrings⟩
  rcases hLands with hFirst | ⟨hNone, _⟩
  · exact hFirst
  · obtain ⟨r, hr⟩ := hIff.mpr hBrings
    exact absurd hr (hNone r)

end Editor

end TreeEditor
