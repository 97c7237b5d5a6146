import TreeEditor.Language.Alpha.Basic
import TreeEditor.Proofs.Span

/-! Moving the free end of a selection. The move works on the selected frames directly, in another
way for each end and direction. It agrees with moving a cursor from the free end and spanning the
range to the fixed end anew. -/

namespace TreeEditor

variable {G : Grammar}

namespace Cursor

/-- A cursor below a position moves as it would if that position were the root. -/
theorem step?_append {below : Path G} (hBelow : below ≠ []) (above : Path G) (e : Exp G)
    (direction : Direction) :
    (Cursor.mk (below ++ above) e).step? direction =
      ((Cursor.mk below e).step? direction).map fun c => ⟨c.path ++ above, c.exp⟩ := by
  obtain ⟨f, rest, rfl⟩ := List.exists_cons_of_ne_nil hBelow
  obtain ⟨slot, rule, value, left, right⟩ := f
  cases direction with
  | up => rfl
  | down => simp [step?, down?, Function.comp_def]
  | left =>
      cases left with
      | nil => rfl
      | cons sibling left => rfl
  | right =>
      cases right with
      | nil => rfl
      | cons sibling right => rfl

/-- A cursor beside a frame spans no range to a cursor under that frame. -/
theorem span_beside {below outer : Path G} {f g : Frame G} (hBelow : below ≠ [])
    (hIndex : g.index ≠ f.index) (e e' : Exp G) :
    (Cursor.mk (g :: outer) e).span ⟨below ++ f :: outer, e'⟩ = .apart := by
  have hPos : 0 < below.length := List.length_pos_iff.mpr hBelow
  refine span_eq_apart.mpr ⟨fun hSuffix => ?_, fun hSuffix => ?_⟩
  · have hSame := List.suffix_of_suffix_length_le hSuffix (List.suffix_append _ _) (by simp)
    have hFrames := hSame.eq_of_length (by simp)
    exact hIndex (by rw [(List.cons.inj hFrames).1])
  · have hLength := hSuffix.length_le
    simp only [List.length_append, List.length_cons] at hLength
    omega

end Cursor

namespace Moved

/-- The end that a move leaves where it is. In a range that has collapsed both ends are there. -/
def fixed : Moved G → Cursor G
  | range s => s.fixed
  | collapsed c => c

end Moved

namespace Selection

/-- The free end after one move of a cursor. A top end that goes down stays on the line to the
bottom end; any other goes where a cursor goes. -/
def freeMoved? (s : Selection G) (direction : Direction) : Option (Cursor G) :=
  match s.freeEnd, direction, s.below.outermost? with
  | .top, .down, some f => s.free.down? f.index
  | _, _, _ => s.free.step? direction

/-- The range from a cursor to the fixed end. It collapses if there is none, and is refused if no
range holds both. -/
def respan? (s : Selection G) (moved : Cursor G) : Option (Moved G) :=
  match moved.span s.fixed with
  | .same => some (.collapsed moved)
  | .apart => none
  | .range t => some (.range t)

theorem respan?_of_range {s t : Selection G} {moved : Cursor G}
    (h : moved.span s.fixed = .range t) : s.respan? moved = some (.range t) := by
  rw [respan?, h]

theorem respan?_of_same {s : Selection G} {moved : Cursor G} (h : moved.path = s.fixed.path) :
    s.respan? moved = some (.collapsed moved) := by
  rw [respan?, Cursor.span_eq_same.mpr h]

theorem respan?_of_apart {s : Selection G} {moved : Cursor G}
    (h : moved.span s.fixed = .apart) : s.respan? moved = none := by
  rw [respan?, h]

/-- The top end moves along the line between the root and the bottom. Beside that line no range
reaches the bottom. -/
theorem moveTop?_eq {above below : Path G} (hBelow : below ≠ []) (e : Exp G)
    (direction : Direction) :
    let s : Selection G := ⟨above, below, e, .top⟩
    s.moveTop? direction = (s.freeMoved? direction).bind s.respan? := by
  intro s
  have hFixed : s.fixed = ⟨below ++ above, e⟩ := s.bottom_eq
  cases direction with
  | up =>
      cases above with
      | nil => rfl
      | cons f outer =>
          have hSpan : (Cursor.mk outer (f.plug (below.plug e))).span s.fixed =
              .range ⟨outer, below ++ [f], e, .top⟩ :=
            Cursor.span_above (by simp [hFixed]) (by simp)
          rw [moveTop?_up]
          exact (respan?_of_range hSpan).symm
  | down =>
      obtain ⟨inner, f, rfl⟩ : ∃ (inner : Path G) (f : Frame G), below = inner ++ [f] :=
        ⟨below.dropLast, below.getLast hBelow, (List.dropLast_concat_getLast hBelow).symm⟩
      have hMoved : s.freeMoved? .down = some ⟨f :: above, inner.plug e⟩ := by
        simp [s, freeMoved?, Path.outermost?, free, top, Cursor.down?, Frame.split?_plug]
      have hSplit : s.below.splitOutermost? = some (f, inner) :=
        Path.splitOutermost?_eq_some.mpr rfl
      rw [hMoved, moveTop?, hSplit]
      cases inner with
      | nil =>
          have hSame : s.respan? ⟨f :: above, e⟩ = some (.collapsed ⟨f :: above, e⟩) :=
            respan?_of_same (by rw [hFixed]; rfl)
          exact hSame.symm
      | cons g inner =>
          have hSpan : (Cursor.mk (f :: above) (Path.plug (g :: inner) e)).span s.fixed =
              .range ⟨f :: above, g :: inner, e, .top⟩ :=
            Cursor.span_above (by simp [hFixed]) (List.cons_ne_nil g inner)
          exact (respan?_of_range hSpan).symm
  | left =>
      cases above with
      | nil => rfl
      | cons f outer =>
          obtain ⟨slot, rule, value, left, right⟩ := f
          cases left with
          | nil => rfl
          | cons sibling left =>
              -- The moved cursor has the range of its old place beside it, under another index.
              refine (respan?_of_apart ?_).symm
              rw [hFixed]
              exact Cursor.span_beside hBelow (by simp [Frame.index]) _ _
  | right =>
      cases above with
      | nil => rfl
      | cons f outer =>
          obtain ⟨slot, rule, value, left, right⟩ := f
          cases right with
          | nil => rfl
          | cons sibling right =>
              refine (respan?_of_apart ?_).symm
              rw [hFixed]
              exact Cursor.span_beside hBelow (by simp [Frame.index]) _ _

/-- The bottom end moves as a cursor under the top end, and the frames that it then has below the
top are the range. -/
theorem moveBottom?_eq {above below : Path G} (hBelow : below ≠ []) (e : Exp G)
    (direction : Direction) :
    let s : Selection G := ⟨above, below, e, .bottom⟩
    s.moveBottom? direction = (s.freeMoved? direction).bind s.respan? := by
  intro s
  have hMoved : s.freeMoved? direction =
      ((Cursor.mk below e).step? direction).map fun c => ⟨c.path ++ above, c.exp⟩ := by
    change s.bottom.step? direction = _
    rw [s.bottom_eq]
    exact Cursor.step?_append hBelow above e direction
  rw [hMoved, moveBottom?]
  cases (Cursor.mk below e).step? direction with
  | none => rfl
  | some moved =>
      obtain ⟨path, u⟩ := moved
      cases path with
      | nil =>
          have hSame : s.respan? ⟨above, u⟩ = some (.collapsed ⟨above, u⟩) := respan?_of_same rfl
          exact hSame.symm
      | cons f path =>
          have hSpan : (Cursor.mk (f :: path ++ above) u).span s.fixed =
              .range ⟨above, f :: path, u, .bottom⟩ :=
            Cursor.span_below rfl (List.cons_ne_nil f path)
          exact (respan?_of_range hSpan).symm

theorem move?_eq {s : Selection G} (hBelow : s.below ≠ []) (direction : Direction) :
    s.move? direction = (s.freeMoved? direction).bind s.respan? := by
  obtain ⟨above, below, e, freeEnd⟩ := s
  cases freeEnd with
  | top => exact moveTop?_eq hBelow e direction
  | bottom => exact moveBottom?_eq hBelow e direction

theorem freeMoved?_tree {s : Selection G} {direction : Direction} {moved : Cursor G}
    (h : s.freeMoved? direction = some moved) : moved.tree = s.tree := by
  unfold freeMoved? at h
  split at h
  · exact (Cursor.down?_tree h).trans s.free_tree
  · exact (Cursor.step?_tree h).trans s.free_tree

/-- A cursor of the same tree that spans nothing to the fixed end is on it. -/
theorem eq_fixed {s : Selection G} {moved : Cursor G} (hTree : moved.tree = s.tree)
    (h : moved.span s.fixed = .same) : moved = s.fixed :=
  Cursor.eq_of_path (Cursor.span_eq_same.mp h) (hTree.trans s.fixed_tree.symm)

theorem move?_fixed {s : Selection G} (hBelow : s.below ≠ []) {direction : Direction}
    {m : Moved G} (h : s.move? direction = some m) : m.fixed = s.fixed := by
  rw [move?_eq hBelow] at h
  obtain ⟨moved, hMoved, hSpan⟩ := Option.bind_eq_some_iff.mp h
  have hTree := freeMoved?_tree hMoved
  unfold respan? at hSpan
  split at hSpan
  · next hSame =>
      cases hSpan
      exact eq_fixed hTree hSame
  · cases hSpan
  · next t hRange =>
      cases hSpan
      exact (Cursor.span_ends (hTree.trans s.fixed_tree.symm) hRange).2

/-- A top end that has gone up comes back by going down. -/
theorem move?_up_down {s : Selection G} (hBelow : s.below ≠ []) (hTop : s.freeEnd = .top)
    {m : Moved G} (h : s.move? .up = some m) :
    ∃ t, m = .range t ∧ t.move? .down = some (.range s) := by
  obtain ⟨above, below, e, freeEnd⟩ := s
  cases hTop
  cases above with
  | nil => cases h
  | cons f outer =>
      cases h
      refine ⟨_, rfl, ?_⟩
      obtain ⟨g, inner, rfl⟩ := List.exists_cons_of_ne_nil hBelow
      have hSplit : (Path.append (g :: inner) [f]).splitOutermost? = some (f, g :: inner) :=
        Path.splitOutermost?_eq_some.mpr (Path.append_eq _ _)
      simp only [move?, moveTop?]
      rw [hSplit]

/-- Moving the free end agrees with moving a cursor from it and spanning the range to the fixed end
anew. The move has no result if the cursor has none or has left the line between the ends. Where
nothing is left to span, the range collapses onto the fixed end. So the fixed end and the tree
stay through every move, and a top end that goes up can go back. -/
theorem move_agrees_with_span {s : Selection G} (hBelow : s.below ≠ []) (direction : Direction) :
    (s.freeMoved? direction = none → s.move? direction = none) ∧
      (∀ moved, s.freeMoved? direction = some moved →
        (moved.span s.fixed = .apart → s.move? direction = none) ∧
        (moved.span s.fixed = .same →
          s.move? direction = some (.collapsed moved) ∧ moved = s.fixed) ∧
        ∀ t, moved.span s.fixed = .range t → s.move? direction = some (.range t)) ∧
      (∀ m, s.move? direction = some m → m.fixed = s.fixed ∧ m.tree = s.tree) ∧
      (s.freeEnd = .top → ∀ m, s.move? .up = some m →
        ∃ t, m = .range t ∧ t.move? .down = some (.range s)) := by
  have hMove := move?_eq hBelow direction
  refine ⟨fun hNone => ?_, fun moved hMoved => ⟨fun hApart => ?_, fun hSame => ⟨?_, ?_⟩, ?_⟩, ?_, ?_⟩
  · rw [hMove, hNone]
    rfl
  · rw [hMove, hMoved]
    exact respan?_of_apart hApart
  · rw [hMove, hMoved]
    exact respan?_of_same (Cursor.span_eq_same.mp hSame)
  · exact eq_fixed (freeMoved?_tree hMoved) hSame
  · intro t hRange
    rw [hMove, hMoved]
    exact respan?_of_range hRange
  · intro m hm
    exact ⟨move?_fixed hBelow hm, move?_tree hm⟩
  · intro hTop m hm
    exact move?_up_down hBelow hTop hm

/-- One frame selected, its top end free and with a sibling on its left. To the left the cursor
leaves the line, downwards the range collapses, and upwards it grows and can shrink again. -/
theorem move_agrees_with_span_top :
    let outer : Frame Alpha.grammar := ⟨.exp, .app, .app false, [Alpha.var "f"], []⟩
    let inner : Frame Alpha.grammar := ⟨.exp, .app, .app false, [], [Alpha.var "y"]⟩
    let s : Selection Alpha.grammar := ⟨[outer], [inner], Alpha.var "x", .top⟩
    s.below ≠ [] ∧
      (∃ moved, s.freeMoved? .left = some moved ∧ moved.span s.fixed = .apart ∧
        s.move? .left = none) ∧
      s.move? .down = some (.collapsed s.fixed) ∧
      ∃ t, s.move? .up = some (.range t) ∧ t.fixed = s.fixed ∧ t.tree = s.tree ∧
        t.move? .down = some (.range s) := by
  intro outer inner s
  have hBelow : s.below ≠ [] := List.cons_ne_nil _ _
  refine ⟨hBelow, ?_, ?_, ?_⟩
  · have hMoved : s.freeMoved? .left = some _ := rfl
    exact ⟨_, hMoved, rfl, ((move_agrees_with_span hBelow .left).2.1 _ hMoved).1 rfl⟩
  · have hMoved : s.freeMoved? .down = some s.fixed := rfl
    exact (((move_agrees_with_span hBelow .down).2.1 _ hMoved).2.1 rfl).1
  · obtain ⟨_, _, hKeeps, hBack⟩ := move_agrees_with_span hBelow .up
    have hUp : s.move? .up = some (.range ⟨[], [inner, outer], Alpha.var "x", .top⟩) := rfl
    obtain ⟨t, hRange, hDown⟩ := hBack rfl _ hUp
    cases hRange
    exact ⟨_, hUp, (hKeeps _ hUp).1, (hKeeps _ hUp).2, hDown⟩

end Selection

end TreeEditor
