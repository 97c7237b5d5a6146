import TreeEditor.Proofs.Motion

/-! Going down along routes. A route that stays in the tree leads to the subtree that lookup finds
there, and the frames passed on the way have the route as their own. In one tree the path of a
cursor is all that tells it from other cursors, and so is its route: cursors are the positions of
trees. -/

namespace TreeEditor

variable {G : Grammar}

/-- A child that can be looked up can be taken out. -/
theorem Exp.exists_split? {e u : Exp G} {index : Nat} (h : e.child? index = some u) :
    ∃ f, e.split? index = some (f, u) := by
  obtain ⟨slot, rule, value, children⟩ := e
  change children[index]? = some u at h
  rw [split?, h]
  exact ⟨_, rfl⟩

/-- The child put into a frame is the one that is taken out at its position again. -/
theorem Frame.split?_plug (f : Frame G) (e : Exp G) : (f.plug e).split? f.index = some (f, e) := by
  obtain ⟨slot, rule, value, left, right⟩ := f
  simp [plug, index, Exp.split?, List.drop_append]

namespace Path

@[simp]
theorem route_append (p q : Path G) : route (p ++ q) = q.route ++ p.route := by
  simp [route]

/-- Plugging loses nothing of the tree that is put in. -/
theorem plug_inj {p : Path G} {e e' : Exp G} : p.plug e = p.plug e' ↔ e = e' := by
  constructor
  · intro h
    have hAt := p.at?_plug_route e
    rw [h, p.at?_plug_route] at hAt
    exact (Option.some.inj hAt).symm
  · intro h
    rw [h]

end Path

namespace Cursor

theorem eq_of_path {a b : Cursor G} (hPath : a.path = b.path) (hTree : a.tree = b.tree) :
    a = b := by
  obtain ⟨path, e⟩ := a
  obtain ⟨path', e'⟩ := b
  cases hPath
  have hExp : e = e' := Path.plug_inj.mp hTree
  rw [hExp]

theorem descend?_append (c : Cursor G) (r q : Route) :
    c.descend? (r ++ q) = (c.descend? r).bind (·.descend? q) := by
  induction r generalizing c with
  | nil => rfl
  | cons index rest ih =>
      simp only [List.cons_append, descend?, Option.bind_assoc]
      congr 1
      funext child
      exact ih child

/-- The path of the cursor reached extends that of the start by frames along the route. -/
theorem descend?_path {c c' : Cursor G} {route : Route} (h : c.descend? route = some c') :
    ∃ below, c'.path = below ++ c.path ∧ below.route = route := by
  induction route generalizing c with
  | nil =>
      cases h
      exact ⟨[], rfl, rfl⟩
  | cons index rest ih =>
      obtain ⟨child, hDown, hRest⟩ := Option.bind_eq_some_iff.mp h
      obtain ⟨⟨f, u⟩, hSplit, rfl⟩ := Option.map_eq_some_iff.mp hDown
      obtain ⟨below, hPath, hRoute⟩ := ih hRest
      refine ⟨below ++ [f], ?_, ?_⟩
      · rw [hPath, List.append_assoc, List.singleton_append]
      · rw [Path.route_append, hRoute, Path.route_cons, (Exp.plug_of_split? hSplit).2]
        rfl

theorem route_of_descend? {t : Exp G} {r : Route} {c : Cursor G}
    (h : (root t).descend? r = some c) : c.path.route = r := by
  obtain ⟨below, hPath, hRoute⟩ := descend?_path h
  rw [hPath, root, List.append_nil, hRoute]

theorem exists_descend? {c : Cursor G} {route : Route} {u : Exp G}
    (h : c.exp.at? route = some u) : ∃ c', c.descend? route = some c' ∧ c'.exp = u := by
  induction route generalizing c with
  | nil => exact ⟨c, rfl, Option.some.inj h⟩
  | cons index rest ih =>
      obtain ⟨child, hChild, hRest⟩ := Option.bind_eq_some_iff.mp h
      obtain ⟨f, hSplit⟩ := Exp.exists_split? hChild
      obtain ⟨c', hDescend, hExp⟩ := ih (c := ⟨f :: c.path, child⟩) hRest
      refine ⟨c', ?_, hExp⟩
      rw [descend?, down?, hSplit]
      exact hDescend

/-- Going down the route of a path, from the root of what it rebuilds, passes the frames of the path
and reaches what was put in. The way may go on from there. -/
theorem descend?_plug (p : Path G) (e : Exp G) (rest : Route) :
    (root (p.plug e)).descend? (p.route ++ rest) = (⟨p, e⟩ : Cursor G).descend? rest := by
  -- The path starts at the focus and the route at the root, so the frame split off here is the last
  -- one passed on the way. That is why the route is followed by more.
  induction p generalizing e rest with
  | nil => rfl
  | cons f outer ih =>
      rw [Path.plug_cons, Path.route_cons, List.append_assoc, ih, List.singleton_append, descend?,
        down?, Frame.split?_plug]
      rfl

/-- A route leads to the one cursor that has this route in this tree. -/
theorem descend?_eq_some {t : Exp G} {r : Route} {c : Cursor G} :
    (root t).descend? r = some c ↔ c.tree = t ∧ c.path.route = r := by
  constructor
  · intro h
    exact ⟨descend?_tree h, route_of_descend? h⟩
  · intro hParts
    obtain ⟨rfl, rfl⟩ := hParts
    have hPlug := descend?_plug c.path c.exp []
    rw [List.append_nil] at hPlug
    exact hPlug

theorem eq_of_route {a b : Cursor G} (hTree : a.tree = b.tree)
    (hRoute : a.path.route = b.path.route) : a = b := by
  have ha : (root b.tree).descend? b.path.route = some a := descend?_eq_some.mpr ⟨hTree, hRoute⟩
  have hb : (root b.tree).descend? b.path.route = some b := descend?_eq_some.mpr ⟨rfl, rfl⟩
  rw [ha] at hb
  exact Option.some.inj hb

/-- A cursor stands on the subtree at its route, as many levels down as the route is long. -/
theorem at?_route (c : Cursor G) :
    c.tree.at? c.path.route = some c.exp ∧ c.depth = c.path.route.length := by
  constructor
  · exact c.path.at?_plug_route c.exp
  · rw [Path.route, List.length_reverse, List.length_map, depth]

/-- Cursors and positions are the same thing, in trees of any form. Every path with a tree in it is
found again by going down its route in the tree that they make up. Going down a route succeeds
exactly if lookup finds a subtree there; the cursor reached has the whole tree around it, the
route behind it and that subtree in focus. So the tree and the route are all there is to a
cursor. -/
theorem positions_correspond (G : Grammar) :
    (∀ (p : Path G) (e : Exp G), (root (p.plug e)).descend? p.route = some ⟨p, e⟩) ∧
      (∀ (t : Exp G) (r : Route),
        ((∃ c, (root t).descend? r = some c) ↔ ∃ u, t.at? r = some u) ∧
          ∀ c, (root t).descend? r = some c →
            c.tree = t ∧ c.path.route = r ∧ c.depth = r.length ∧ t.at? r = some c.exp) ∧
      ∀ a b : Cursor G, a.tree = b.tree → a.path.route = b.path.route → a = b := by
  have hReached : ∀ (t : Exp G) (r : Route) (c : Cursor G), (root t).descend? r = some c →
      c.tree = t ∧ c.path.route = r ∧ c.depth = r.length ∧ t.at? r = some c.exp := by
    intro t r c h
    obtain ⟨rfl, rfl⟩ := descend?_eq_some.mp h
    exact ⟨rfl, rfl, c.at?_route.2, c.at?_route.1⟩
  refine ⟨fun p e => descend?_eq_some.mpr ⟨rfl, rfl⟩, fun t r => ⟨⟨?_, ?_⟩, hReached t r⟩,
    fun a b => eq_of_route⟩
  · intro hSome
    obtain ⟨c, h⟩ := hSome
    exact ⟨c.exp, (hReached t r c h).2.2.2⟩
  · intro hSome
    obtain ⟨u, h⟩ := hSome
    obtain ⟨c, hDescend, _⟩ := exists_descend? (c := root t) h
    exact ⟨c, hDescend⟩

end Cursor

end TreeEditor
