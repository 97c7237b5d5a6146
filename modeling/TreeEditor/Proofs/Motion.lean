import TreeEditor.Proofs.Position
import TreeEditor.Selection.Move
import TreeEditor.Selection.Span

/-! Moving never changes the tree: not a cursor that moves or goes down along a route, not a range
that is spanned by two cursors, and not the free end of a selection. -/

namespace TreeEditor

variable {G : Grammar}

/-- Taking a child out and putting it back gives the node again. -/
theorem Exp.plug_of_split? {e u : Exp G} {index : Nat} {f : Frame G}
    (h : e.split? index = some (f, u)) : f.plug u = e ∧ f.index = index := by
  obtain ⟨slot, rule, value, children⟩ := e
  obtain ⟨child, hChild, hFrame⟩ := Option.map_eq_some_iff.mp h
  obtain ⟨rfl, rfl⟩ := Prod.mk.inj hFrame
  obtain ⟨hIndex, rfl⟩ := List.getElem?_eq_some_iff.mp hChild
  constructor
  · simp [Frame.plug, ← List.drop_eq_getElem_cons hIndex]
  · rw [Frame.index, List.length_reverse, List.length_take]
    omega

namespace Path

/-- What is left when the outermost frame is split off is the list of the other frames. -/
theorem splitOutermost?_eq (p : Path G) :
    p.splitOutermost? = p.getLast?.map fun f => (f, p.dropLast) := by
  rcases List.eq_nil_or_concat p with rfl | ⟨inner, f, rfl⟩
  · rfl
  · rw [List.concat_eq_append]
    calc splitOutermost? (inner ++ [f])
        = some (f, inner.reverse.foldl push []) := by rw [splitOutermost?, List.reverse_concat]
      _ = some (f, inner) := by rw [foldl_push, List.reverse_reverse, List.append_nil]
      _ = (inner ++ [f]).getLast?.map fun last => (last, (inner ++ [f]).dropLast) := by simp

/-- Splitting off the outermost frame undoes joining it on. -/
theorem splitOutermost?_eq_some {p inner : Path G} {f : Frame G} :
    p.splitOutermost? = some (f, inner) ↔ p = inner ++ [f] := by
  rw [splitOutermost?_eq]
  constructor
  · intro h
    obtain ⟨last, hLast, hPair⟩ := Option.map_eq_some_iff.mp h
    obtain ⟨rfl, rfl⟩ := Prod.mk.inj hPair
    obtain ⟨inner, rfl⟩ := List.getLast?_eq_some_iff.mp hLast
    simp
  · intro h
    simp [h]

end Path

namespace Cursor

/-- The node reached by one move, seen from the node that the move starts from. A move to the side
hands the node in focus over to the siblings and takes the nearest of them instead. -/
inductive Neighbour : Direction → Cursor G → Cursor G → Prop where
  | up (f : Frame G) (outer : Path G) (e : Exp G) :
      Neighbour .up ⟨f :: outer, e⟩ ⟨outer, f.plug e⟩
  | down {f : Frame G} {e u : Exp G} (path : Path G) (hSplit : e.split? 0 = some (f, u)) :
      Neighbour .down ⟨path, e⟩ ⟨f :: path, u⟩
  | left (slot : G.Slot) (rule : G.Rule) (value : G.Value) (left right : List (Exp G))
      (outer : Path G) (e sibling : Exp G) :
      Neighbour .left ⟨⟨slot, rule, value, sibling :: left, right⟩ :: outer, e⟩
        ⟨⟨slot, rule, value, left, e :: right⟩ :: outer, sibling⟩
  | right (slot : G.Slot) (rule : G.Rule) (value : G.Value) (left right : List (Exp G))
      (outer : Path G) (e sibling : Exp G) :
      Neighbour .right ⟨⟨slot, rule, value, left, sibling :: right⟩ :: outer, e⟩
        ⟨⟨slot, rule, value, e :: left, right⟩ :: outer, sibling⟩

theorem neighbour_of_step? {c c' : Cursor G} {direction : Direction}
    (h : c.step? direction = some c') : Neighbour direction c c' := by
  obtain ⟨path, e⟩ := c
  cases direction with
  | down =>
      obtain ⟨⟨f, u⟩, hSplit, rfl⟩ := Option.map_eq_some_iff.mp h
      exact .down path hSplit
  | up =>
      cases path with
      | nil => cases h
      | cons f outer =>
          cases h
          exact .up f outer e
  | left =>
      cases path with
      | nil => cases h
      | cons f outer =>
          obtain ⟨slot, rule, value, left, right⟩ := f
          cases left with
          | nil => cases h
          | cons sibling left =>
              cases h
              exact .left slot rule value left right outer e sibling
  | right =>
      cases path with
      | nil => cases h
      | cons f outer =>
          obtain ⟨slot, rule, value, left, right⟩ := f
          cases right with
          | nil => cases h
          | cons sibling right =>
              cases h
              exact .right slot rule value left right outer e sibling

theorem step?_tree {c c' : Cursor G} {direction : Direction} (h : c.step? direction = some c') :
    c'.tree = c.tree := by
  cases neighbour_of_step? h with
  | up f outer e => rfl
  | down path hSplit => simp [tree, (Exp.plug_of_split? hSplit).1]
  | left => simp [tree, Frame.plug]
  | right => simp [tree, Frame.plug]

/-- A move never ends where it began. -/
theorem step?_path_ne {c c' : Cursor G} {direction : Direction} (h : c.step? direction = some c') :
    c'.path ≠ c.path := by
  intro hSame
  cases neighbour_of_step? h <;> simp at hSame

theorem down?_tree {c c' : Cursor G} {index : Nat} (h : c.down? index = some c') :
    c'.tree = c.tree := by
  obtain ⟨⟨f, u⟩, hSplit, rfl⟩ := Option.map_eq_some_iff.mp h
  simp [tree, (Exp.plug_of_split? hSplit).1]

theorem descend?_tree {c c' : Cursor G} {route : Route} (h : c.descend? route = some c') :
    c'.tree = c.tree := by
  induction route generalizing c with
  | nil =>
      cases h
      rfl
  | cons index rest ih =>
      obtain ⟨child, hDown, hRest⟩ := Option.bind_eq_some_iff.mp h
      exact (ih hRest).trans (down?_tree hDown)

end Cursor

namespace Selection

theorem bottom_eq (s : Selection G) : s.bottom = ⟨s.below ++ s.above, s.exp⟩ := by
  rw [bottom, Path.append_eq]

@[simp]
theorem bottom_tree (s : Selection G) : s.bottom.tree = s.tree := by
  simp [bottom_eq, Cursor.tree, tree]

@[simp]
theorem top_tree (s : Selection G) : s.top.tree = s.tree := rfl

@[simp]
theorem free_tree (s : Selection G) : s.free.tree = s.tree := by
  unfold free
  cases s.freeEnd with
  | top => exact s.top_tree
  | bottom => exact s.bottom_tree

end Selection

/-- Equal frames at the front are equal frames of both lists. -/
theorem take_sharedFrames (fs gs : List (Frame G)) :
    fs.take (sharedFrames fs gs) = gs.take (sharedFrames fs gs) := by
  induction fs generalizing gs with
  | nil => simp [sharedFrames]
  | cons f fs ih =>
      cases gs with
      | nil => simp [sharedFrames]
      | cons g gs =>
          by_cases h : f = g
          · simp [sharedFrames, h, ih gs]
          · simp [sharedFrames, h]

/-- Two paths end in the same frames, as many as they share from the root. -/
theorem Path.drop_sharedFrames (p q : Path G) :
    p.drop (p.length - sharedFrames p.reverse q.reverse) =
      q.drop (q.length - sharedFrames p.reverse q.reverse) := by
  have h := congrArg List.reverse (take_sharedFrames p.reverse q.reverse)
  simpa [List.reverse_take] using h

/-- The first frames of a path, up to a positive number within its length, are at least one. -/
theorem Path.take_ne_nil {p : Path G} {shared rest : Nat} (h : p.length - shared = rest + 1) :
    p.take (p.length - shared) ≠ [] := by
  intro hNil
  have hLength := congrArg List.length hNil
  rw [List.length_take, List.length_nil] at hLength
  omega

/-- The range between two cursors has at least one frame. It lies above the deeper cursor, and its
top end has the path of the other one. -/
theorem Cursor.span_range {free fixed : Cursor G} {s : Selection G}
    (h : free.span fixed = .range s) :
    s.below ≠ [] ∧
      ((s.freeEnd = .top ∧ s.above = free.path ∧ s.bottom = fixed) ∨
        (s.freeEnd = .bottom ∧ s.above = fixed.path ∧ s.bottom = free)) := by
  have hShared := Path.drop_sharedFrames free.path fixed.path
  unfold span at h
  simp only at h
  split at h
  case h_1 => cases h
  case h_4 => cases h
  case h_2 rest hFree hFixed =>
    -- The free cursor is the upper one: all its frames are shared.
    cases h
    refine ⟨Path.take_ne_nil hFixed, Or.inl ⟨rfl, by simp [hFree], ?_⟩⟩
    simp only [Selection.bottom_eq, hShared, List.take_append_drop]
  case h_3 rest hFree hFixed =>
    cases h
    refine ⟨Path.take_ne_nil hFree, Or.inr ⟨rfl, by simpa [hFixed] using hShared, ?_⟩⟩
    simp only [Selection.bottom_eq, List.take_append_drop]

/-- The tree in which a free end has moved. -/
def Moved.tree : Moved G → Exp G
  | range s => s.tree
  | collapsed c => c.tree

namespace Selection

/-- Going up, the top end takes the frame above it into the range, as its outermost one. -/
theorem moveTop?_up (f : Frame G) (above below : Path G) (e : Exp G) (freeEnd : End) :
    (Selection.mk (f :: above) below e freeEnd).moveTop? .up =
      some (.range ⟨above, below ++ [f], e, .top⟩) := by
  rw [← Path.append_eq]
  rfl

theorem moveTop?_tree {s : Selection G} {direction : Direction} {m : Moved G}
    (h : s.moveTop? direction = some m) : m.tree = s.tree := by
  obtain ⟨above, below, e, freeEnd⟩ := s
  cases direction with
  | left => cases h
  | right => cases h
  | up =>
      cases above with
      | nil => cases h
      | cons f above =>
          rw [moveTop?_up] at h
          cases h
          simp [Moved.tree, tree]
  | down =>
      simp only [moveTop?] at h
      split at h
      case h_1 => cases h
      case h_2 f hSplit =>
        cases h
        have hBelow := Path.splitOutermost?_eq_some.mp hSplit
        simp [Moved.tree, Cursor.tree, tree, hBelow]
      case h_3 f inner _ hSplit =>
        cases h
        have hBelow := Path.splitOutermost?_eq_some.mp hSplit
        simp [Moved.tree, tree, hBelow]

theorem moveBottom?_tree {s : Selection G} {direction : Direction} {m : Moved G}
    (h : s.moveBottom? direction = some m) : m.tree = s.tree := by
  unfold moveBottom? at h
  split at h
  case h_1 => cases h
  case h_2 e hStep =>
    cases h
    have hTree := Cursor.step?_tree hStep
    simp only [Cursor.tree, Path.plug_nil] at hTree
    simp [Moved.tree, Cursor.tree, tree, hTree]
  case h_3 below e _ hStep =>
    cases h
    have hTree := Cursor.step?_tree hStep
    simp only [Cursor.tree] at hTree
    simp [Moved.tree, tree, hTree]

theorem move?_tree {s : Selection G} {direction : Direction} {m : Moved G}
    (h : s.move? direction = some m) : m.tree = s.tree := by
  unfold move? at h
  cases hEnd : s.freeEnd with
  | top =>
      rw [hEnd] at h
      exact moveTop?_tree h
  | bottom =>
      rw [hEnd] at h
      exact moveBottom?_tree h

end Selection

end TreeEditor
