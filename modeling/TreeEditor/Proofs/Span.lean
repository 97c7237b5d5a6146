import TreeEditor.Language.Alpha.Basic
import TreeEditor.Proofs.Descent

/-! The range between two cursors. Frames are compared as a whole, with all their siblings, yet in
one tree the answer depends on the routes alone: the cursors span a range exactly if one route
properly extends the other. -/

namespace TreeEditor

variable {G : Grammar}

theorem sharedFrames_comm (fs gs : List (Frame G)) :
    sharedFrames fs gs = sharedFrames gs fs := by
  induction fs generalizing gs with
  | nil => cases gs <;> rfl
  | cons f fs ih =>
      cases gs with
      | nil => rfl
      | cons g gs => simp only [sharedFrames, ih gs, eq_comm]

/-- A list shares all its frames with every list that goes on from it. -/
theorem sharedFrames_append (fs gs : List (Frame G)) :
    sharedFrames fs (fs ++ gs) = fs.length := by
  induction fs with
  | nil => cases gs <;> rfl
  | cons f fs ih => simp [sharedFrames, ih]

namespace Selection

theorem fixed_tree (s : Selection G) : s.fixed.tree = s.tree := by
  unfold fixed
  cases s.freeEnd with
  | top => exact s.bottom_tree
  | bottom => exact s.top_tree

end Selection

namespace Cursor

variable {a b : Cursor G} {s : Selection G}

/-- A cursor whose path ends in the path of the free one lies below it. -/
theorem span_above {below : Path G} (hPath : b.path = below ++ a.path) (hBelow : below ≠ []) :
    a.span b = .range ⟨a.path, below, b.exp, .top⟩ := by
  have hShared : sharedFrames a.path.reverse b.path.reverse = a.path.length := by
    rw [hPath, List.reverse_append, sharedFrames_append, List.length_reverse]
  have hRest : b.path.length - a.path.length = below.length := by
    rw [hPath, List.length_append]
    omega
  obtain ⟨f, below, rfl⟩ := List.exists_cons_of_ne_nil hBelow
  simp only [span, hShared, hRest, Nat.sub_self, List.drop_zero, List.length_cons]
  rw [hPath, ← List.length_cons, List.take_left]

/-- Exchanging the two cursors frees the other end of the same range. -/
theorem span_flip (h : a.span b = .range s) : b.span a = .range s.flipped := by
  -- The upper end is cut out of the path of the free cursor. The other path ends in the same frames.
  have hShared := Path.drop_sharedFrames a.path b.path
  unfold span at h ⊢
  rw [sharedFrames_comm b.path.reverse]
  simp only at h ⊢
  split at h
  case h_2 rest hFree hFixed =>
    cases h
    rw [hFree, hFixed] at hShared
    simp [hFree, hFixed, ← hShared, Selection.flipped, End.other]
  case h_3 rest hFree hFixed =>
    cases h
    rw [hFree, hFixed] at hShared
    simp [hFree, hFixed, hShared, Selection.flipped, End.other]
  all_goals cases h

theorem span_below {below : Path G} (hPath : a.path = below ++ b.path) (hBelow : below ≠ []) :
    a.span b = .range ⟨b.path, below, a.exp, .bottom⟩ :=
  span_flip (span_above hPath hBelow)

/-- Cursors count as being on the same node if their paths are equal, whatever trees they hold. -/
theorem span_eq_same : a.span b = .same ↔ a.path = b.path := by
  constructor
  · intro h
    have hShared := Path.drop_sharedFrames a.path b.path
    unfold span at h
    simp only at h
    split at h
    case h_1 hFree hFixed => simpa [hFree, hFixed] using hShared
    all_goals cases h
  · intro h
    have hAll := sharedFrames_append b.path.reverse []
    rw [List.append_nil, List.length_reverse] at hAll
    simp [span, h, hAll]

/-- What spanning gives is settled by the two paths and the tree at the lower end. -/
theorem span_eq_range :
    a.span b = .range s ↔
      s.below ≠ [] ∧
        ((s.freeEnd = .top ∧ s.above = a.path ∧ s.bottom = b) ∨
          (s.freeEnd = .bottom ∧ s.above = b.path ∧ s.bottom = a)) := by
  constructor
  · exact span_range
  · intro hParts
    obtain ⟨hBelow, hEnds⟩ := hParts
    obtain ⟨above, below, e, freeEnd⟩ := s
    rcases hEnds with ⟨hEnd, hAbove, hBottom⟩ | ⟨hEnd, hAbove, hBottom⟩
    · cases hEnd
      cases hAbove
      cases hBottom
      exact span_above (by rw [Selection.bottom_eq]) hBelow
    · cases hEnd
      cases hAbove
      cases hBottom
      exact span_below (by rw [Selection.bottom_eq]) hBelow

theorem exists_span_top :
    (∃ s, a.span b = .range s ∧ s.freeEnd = .top) ↔ a.path <:+ b.path ∧ a.path ≠ b.path := by
  constructor
  · intro hRange
    obtain ⟨s, hSpan, hTop⟩ := hRange
    rcases span_eq_range.mp hSpan with ⟨hBelow, ⟨_, hAbove, hBottom⟩ | ⟨hEnd, _⟩⟩
    · have hPath : s.below ++ a.path = b.path := by
        rw [← hAbove, ← hBottom, s.bottom_eq]
      refine ⟨⟨s.below, hPath⟩, fun hSame => hBelow ?_⟩
      rwa [← hSame, List.append_left_eq_self] at hPath
    · rw [hTop] at hEnd
      cases hEnd
  · intro hParts
    obtain ⟨⟨below, hPath⟩, hDiffer⟩ := hParts
    have hBelow : below ≠ [] := by
      intro hNil
      rw [hNil] at hPath
      exact hDiffer hPath
    exact ⟨_, span_above hPath.symm hBelow, rfl⟩

theorem exists_span_flip {freeEnd : End} (h : ∃ s, a.span b = .range s ∧ s.freeEnd = freeEnd) :
    ∃ s, b.span a = .range s ∧ s.freeEnd = freeEnd.other := by
  obtain ⟨s, hSpan, rfl⟩ := h
  exact ⟨s.flipped, span_flip hSpan, rfl⟩

theorem exists_span_bottom :
    (∃ s, a.span b = .range s ∧ s.freeEnd = .bottom) ↔ b.path <:+ a.path ∧ b.path ≠ a.path := by
  rw [← exists_span_top]
  exact ⟨exists_span_flip, exists_span_flip⟩

theorem span_ne_apart (h : a.path <:+ b.path) : a.span b ≠ .apart ∧ b.span a ≠ .apart := by
  obtain ⟨below, hPath⟩ := h
  cases below with
  | nil =>
      rw [span_eq_same.mpr hPath, span_eq_same.mpr hPath.symm]
      exact ⟨nofun, nofun⟩
  | cons f below =>
      rw [span_above hPath.symm (List.cons_ne_nil f below),
        span_below hPath.symm (List.cons_ne_nil f below)]
      exact ⟨nofun, nofun⟩

/-- Cursors are on branches that part exactly if neither path ends in the other. -/
theorem span_eq_apart : a.span b = .apart ↔ ¬ a.path <:+ b.path ∧ ¬ b.path <:+ a.path := by
  constructor
  · intro h
    exact ⟨fun hAbove => (span_ne_apart hAbove).1 h, fun hBelow => (span_ne_apart hBelow).2 h⟩
  · intro hParts
    obtain ⟨hAbove, hBelow⟩ := hParts
    cases hSpan : a.span b with
    | apart => rfl
    | same =>
        rw [span_eq_same.mp hSpan] at hAbove
        exact absurd List.suffix_rfl hAbove
    | range s =>
        cases hEnd : s.freeEnd with
        | top => exact absurd (exists_span_top.mp ⟨s, hSpan, hEnd⟩).1 hAbove
        | bottom => exact absurd (exists_span_bottom.mp ⟨s, hSpan, hEnd⟩).1 hBelow

/-- The ends of a range between two cursors of one tree are these cursors. -/
theorem span_ends (hTree : a.tree = b.tree) (h : a.span b = .range s) :
    s.free = a ∧ s.fixed = b := by
  have hTop : ∀ {c : Cursor G}, s.above = c.path → s.bottom.tree = c.tree → s.top = c := by
    intro c hPath hBottomTree
    apply eq_of_path hPath
    rw [s.top_tree, ← s.bottom_tree, hBottomTree]
  rcases (span_eq_range.mp h).2 with ⟨hEnd, hAbove, hBottom⟩ | ⟨hEnd, hAbove, hBottom⟩
  · simp only [Selection.free, Selection.fixed, hEnd]
    exact ⟨hTop hAbove (by rw [hBottom, hTree]), hBottom⟩
  · simp only [Selection.free, Selection.fixed, hEnd]
    exact ⟨hBottom, hTop hAbove (by rw [hBottom, hTree])⟩

/-- A range leads from the path of the shallower cursor down to the tree at the deeper one. -/
theorem span_sides (h : a.span b = .range s) :
    s.above = (if a.depth < b.depth then a else b).path ∧
      s.exp = if a.depth < b.depth then b.exp else a.exp := by
  obtain ⟨hBelow, hEnds⟩ := span_eq_range.mp h
  have hPos : 0 < s.below.length := List.length_pos_iff.mpr hBelow
  have hBottomDepth : s.bottom.depth = s.below.length + s.above.length := by
    rw [s.bottom_eq, depth, List.length_append]
  rcases hEnds with ⟨_, hAbove, hBottom⟩ | ⟨_, hAbove, hBottom⟩
  · have hDeeper : a.depth < b.depth := by
      rw [← hBottom, hBottomDepth, hAbove, depth]
      omega
    rw [if_pos hDeeper, if_pos hDeeper, ← hBottom]
    exact ⟨hAbove, rfl⟩
  · have hDeeper : ¬ a.depth < b.depth := by
      rw [← hBottom, hBottomDepth, hAbove, depth]
      omega
    rw [if_neg hDeeper, if_neg hDeeper, ← hBottom]
    exact ⟨hAbove, rfl⟩

section Routes

variable {t : Exp G} {r q : Route}

theorem path_eq_iff (ha : (root t).descend? r = some a) (hb : (root t).descend? q = some b) :
    a.path = b.path ↔ r = q := by
  constructor
  · intro h
    rw [← route_of_descend? ha, h, route_of_descend? hb]
  · intro h
    rw [h, hb] at ha
    rw [Option.some.inj ha]

/-- In one tree, frames lie above other frames just as their routes do. -/
theorem path_suffix_iff (ha : (root t).descend? r = some a) (hb : (root t).descend? q = some b) :
    a.path <:+ b.path ↔ r <+: q := by
  constructor
  · intro h
    obtain ⟨below, hPath⟩ := h
    rw [← route_of_descend? ha, ← route_of_descend? hb, ← hPath, Path.route_append]
    exact List.prefix_append _ _
  · intro h
    obtain ⟨rest, rfl⟩ := h
    -- The longer route goes on from the cursor that the shorter one reaches.
    rw [descend?_append, ha] at hb
    obtain ⟨below, hPath, _⟩ := descend?_path hb
    exact ⟨below, hPath.symm⟩

/-- How two cursors of a tree lie to one another is decided by their routes. They span nothing if
the routes are equal, a range if one properly extends the other, and are apart otherwise. The
ends of the range are the two cursors, it leads back to the same tree, and exchanging the cursors
exchanges the ends. -/
theorem span_of_routes {u v : Exp G} (hr : t.at? r = some u) (hq : t.at? q = some v) :
    ∃ a b : Cursor G, (root t).descend? r = some a ∧ (root t).descend? q = some b ∧
      (a.span b = .same ↔ r = q) ∧
      ((∃ s, a.span b = .range s ∧ s.freeEnd = .top) ↔ r <+: q ∧ r ≠ q) ∧
      ((∃ s, a.span b = .range s ∧ s.freeEnd = .bottom) ↔ q <+: r ∧ q ≠ r) ∧
      (a.span b = .apart ↔ ¬ r <+: q ∧ ¬ q <+: r) ∧
      ∀ s, a.span b = .range s →
        s.below ≠ [] ∧ s.free = a ∧ s.fixed = b ∧ s.escape = a ∧ s.tree = t ∧
          s.above = (if a.depth < b.depth then a else b).path ∧
          s.exp = (if a.depth < b.depth then v else u) ∧
          b.span a = .range s.flipped := by
  obtain ⟨a, ha, rfl⟩ := exists_descend? (c := root t) hr
  obtain ⟨b, hb, rfl⟩ := exists_descend? (c := root t) hq
  have hTree : a.tree = b.tree := (descend?_tree ha).trans (descend?_tree hb).symm
  refine ⟨a, b, ha, hb, ?_, ?_, ?_, ?_, fun s hSpan => ?_⟩
  · rw [span_eq_same, path_eq_iff ha hb]
  · rw [exists_span_top, path_suffix_iff ha hb, Ne, path_eq_iff ha hb]
  · rw [exists_span_bottom, path_suffix_iff hb ha, Ne, path_eq_iff hb ha]
  · rw [span_eq_apart, path_suffix_iff ha hb, path_suffix_iff hb ha]
  · obtain ⟨hFree, hFixed⟩ := span_ends hTree hSpan
    have hWhole : s.tree = t := by
      rw [← s.free_tree, hFree]
      exact descend?_tree ha
    obtain ⟨hAbove, hExp⟩ := span_sides hSpan
    exact ⟨(span_range hSpan).1, hFree, hFixed, hFree, hWhole, hAbove, hExp, span_flip hSpan⟩

/-- A tree in which all leaves are the same and both branches are the same. Only the routes tell
which nodes lie above which. -/
theorem span_of_routes_repeated :
    let pair := Alpha.app (Alpha.var "x") (Alpha.var "x")
    let t := Alpha.app pair pair
    t.at? [1, 0] = some (Alpha.var "x") ∧ t.at? [1] = some pair ∧ t.at? [0] = some pair ∧
      (∃ a b : Cursor Alpha.grammar, (root t).descend? [1, 0] = some a ∧
        (root t).descend? [1] = some b ∧
        ∃ s, a.span b = .range s ∧ s.freeEnd = .bottom ∧ s.below ≠ [] ∧ s.free = a ∧
          s.fixed = b ∧ s.tree = t ∧ b.span a = .range s.flipped) ∧
      ∃ a b : Cursor Alpha.grammar, (root t).descend? [1, 0] = some a ∧
        (root t).descend? [0] = some b ∧ a.span b = .apart := by
  intro pair t
  have hLeaf : t.at? [1, 0] = some (Alpha.var "x") := rfl
  have hRight : t.at? [1] = some pair := rfl
  have hLeft : t.at? [0] = some pair := rfl
  refine ⟨hLeaf, hRight, hLeft, ?_, ?_⟩
  · obtain ⟨a, b, ha, hb, _, _, hBottom, _, hRange⟩ := span_of_routes hLeaf hRight
    obtain ⟨s, hSpan, hEnd⟩ := hBottom.mpr (by decide)
    obtain ⟨hBelow, hFree, hFixed, _, hTree, _, _, hFlip⟩ := hRange s hSpan
    exact ⟨a, b, ha, hb, s, hSpan, hEnd, hBelow, hFree, hFixed, hTree, hFlip⟩
  · obtain ⟨a, b, ha, hb, _, _, _, hApart, _⟩ := span_of_routes hLeaf hLeft
    exact ⟨a, b, ha, hb, hApart.mpr (by decide)⟩

end Routes

end Cursor

end TreeEditor
