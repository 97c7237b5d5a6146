import TreeEditor.Zipper.Path

/-! Positions of a tree, named by routes. Looking up and replacing a subtree are defined on trees
alone, without frames. A path is then the tree around the position of its own route: plugging is
replacement there. -/

namespace TreeEditor

variable {G : Grammar}

namespace Exp

/-- The subtree at a route, if the route stays in the tree. -/
def at? : Exp G → Route → Option (Exp G)
  | e, [] => some e
  | e, index :: rest => (e.child? index).bind (·.at? rest)

/-- The tree with another subtree at a route. A route that leaves the tree changes nothing. -/
def subst : Exp G → Route → Exp G → Exp G
  | _, [], new => new
  | node slot rule value children, index :: rest, new =>
      node slot rule value (children.modify index (·.subst rest new))

/-- What one node shows of itself: everything but the subtrees under it. -/
def face (e : Exp G) : G.Slot × G.Rule × G.Value × Nat :=
  (e.slot, e.rule, e.value, e.children.length)

@[simp]
theorem at?_nil (e : Exp G) : e.at? [] = some e := rfl

theorem at?_cons (e : Exp G) (index : Nat) (rest : Route) :
    e.at? (index :: rest) = (e.child? index).bind (·.at? rest) := rfl

@[simp]
theorem subst_nil (e new : Exp G) : e.subst [] new = new := by
  cases e
  rfl

/-- Putting back the subtree that is there changes nothing. -/
theorem subst_self {e u : Exp G} {r : Route} (h : e.at? r = some u) : e.subst r u = e := by
  induction r generalizing e with
  | nil => simpa using h.symm
  | cons index rest ih =>
      obtain ⟨slot, rule, value, children⟩ := e
      obtain ⟨child, hChild, hRest⟩ := Option.bind_eq_some_iff.mp h
      have hModify : children.modify index (·.subst rest u) = children := by
        apply List.ext_getElem?
        intro i
        rw [List.getElem?_modify]
        by_cases hi : index = i
        · subst hi
          change children[index]? = some child at hChild
          simp [hChild, ih hRest]
        · simp [hi]
      rw [subst, hModify]

/-- Replacement leaves every node alone that is not at or below its route. A node above the route
keeps its own face; a node beside the route keeps its whole subtree. -/
theorem face_subst {e new : Exp G} {r q : Route} (h : ¬ r <+: q) :
    ((e.subst r new).at? q).map face = (e.at? q).map face := by
  induction r generalizing e q with
  | nil => exact absurd List.nil_prefix h
  | cons index rest ih =>
      obtain ⟨slot, rule, value, children⟩ := e
      cases q with
      | nil => simp [subst, face, Exp.slot, Exp.rule, Exp.value, Exp.children]
      | cons i q =>
          simp only [subst, at?_cons, child?, Exp.children, List.getElem?_modify]
          by_cases hi : index = i
          · subst hi
            have hRest : ¬ rest <+: q := fun hq => h (List.cons_prefix_cons.mpr ⟨rfl, hq⟩)
            cases children[index]? with
            | none => rfl
            | some child => simpa using ih hRest
          · simp [hi]

end Exp

namespace Frame

@[simp]
theorem plug_slot (f : Frame G) (e : Exp G) : (f.plug e).slot = f.slot := rfl

@[simp]
theorem child?_plug (f : Frame G) (e : Exp G) : (f.plug e).child? f.index = some e := by
  simp [Exp.child?, Exp.children, plug, index]

theorem subst_plug (f : Frame G) (e new : Exp G) (r : Route) :
    (f.plug e).subst (f.index :: r) new = f.plug (e.subst r new) := by
  have hIndex : f.index < (f.left.reverse ++ e :: f.right).length := by simp [index]
  simp only [plug, Exp.subst]
  rw [List.modify_eq_take_cons_drop hIndex]
  simp [index, List.drop_append]

end Frame

namespace Path

/-- Frames that are pushed one after another stand in the path in reverse, the last one innermost. -/
theorem foldl_push (fs : List (Frame G)) (p : Path G) : fs.foldl push p = fs.reverse ++ p :=
  List.foldl_flip_cons_eq_append'

/-- A path inside another one is the list of the frames of both. -/
@[simp]
theorem append_eq (p outer : Path G) : p.append outer = p ++ outer := by
  cases outer with
  | nil =>
      rw [List.append_nil]
      rfl
  | cons f rest =>
      calc append p (f :: rest)
          = p.reverse.foldl push (f :: rest) := rfl
        _ = p.reverse.reverse ++ f :: rest := foldl_push p.reverse (f :: rest)
        _ = p ++ f :: rest := by rw [List.reverse_reverse]

@[simp]
theorem plug_nil (e : Exp G) : plug [] e = e := rfl

@[simp]
theorem plug_cons (f : Frame G) (outer : Path G) (e : Exp G) :
    plug (f :: outer) e = plug outer (f.plug e) := rfl

@[simp]
theorem plug_append (p q : Path G) (e : Exp G) : plug (p ++ q) e = plug q (plug p e) := by
  induction p generalizing e with
  | nil => rfl
  | cons f p ih => exact ih (f.plug e)

@[simp]
theorem route_nil : route ([] : Path G) = [] := rfl

@[simp]
theorem route_cons (f : Frame G) (outer : Path G) :
    route (f :: outer) = route outer ++ [f.index] := by
  simp [route]

/-- Below the position of a path, the rebuilt tree is the tree that was put there. -/
theorem at?_plug (p : Path G) (e : Exp G) (r : Route) :
    (p.plug e).at? (p.route ++ r) = e.at? r := by
  induction p generalizing e r with
  | nil => rfl
  | cons f outer ih =>
      rw [plug_cons, route_cons, List.append_assoc, ih, List.singleton_append, Exp.at?_cons,
        Frame.child?_plug]
      rfl

/-- Replacing below the position of a path is replacing in the tree that was put there. -/
theorem subst_plug_append (p : Path G) (e new : Exp G) (r : Route) :
    (p.plug e).subst (p.route ++ r) new = p.plug (e.subst r new) := by
  induction p generalizing e r with
  | nil => rfl
  | cons f outer ih =>
      rw [plug_cons, route_cons, List.append_assoc, ih, List.singleton_append, Frame.subst_plug]
      rfl

theorem at?_plug_route (p : Path G) (e : Exp G) : (p.plug e).at? p.route = some e := by
  simpa using at?_plug p e []

theorem subst_plug_route (p : Path G) (e new : Exp G) :
    (p.plug e).subst p.route new = p.plug new := by
  simpa using subst_plug_append p e new []

end Path

end TreeEditor
