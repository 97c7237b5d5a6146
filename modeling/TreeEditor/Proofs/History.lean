import TreeEditor.History

/-! The stacks of a history and the present between them, read as one line of entries. Stepping
along the line loses nothing as long as the line has room for all its entries on either side. -/

namespace TreeEditor.History

variable {α : Type}

theorem eq_of_stacks {h h' : History α} (hLimit : h.limit = h'.limit) (hPast : h.past = h'.past)
    (hFuture : h.future = h'.future) : h = h' := by
  cases h
  cases h'
  cases hLimit
  cases hPast
  cases hFuture
  rfl

theorem undo?_eq_some {h h' : History α} {present previous : α} :
    h.undo? present = some (previous, h') ↔
      h.past = previous :: h'.past ∧ h'.future = (present :: h.future).take h.limit ∧
        h'.limit = h.limit := by
  unfold undo?
  split
  · next hPast => simp [hPast]
  · next entry rest hPast =>
      constructor
      · intro hEq
        cases hEq
        exact ⟨hPast, rfl, rfl⟩
      · intro hParts
        obtain ⟨hCons, hFuture, hLimit⟩ := hParts
        obtain ⟨rfl, rfl⟩ := List.cons.inj (hPast.symm.trans hCons)
        rw [Option.some.injEq, Prod.mk.injEq]
        exact ⟨rfl, eq_of_stacks hLimit.symm rfl hFuture.symm⟩

theorem redo?_eq_some {h h' : History α} {present next : α} :
    h.redo? present = some (next, h') ↔
      h.future = next :: h'.future ∧ h'.past = (present :: h.past).take h.limit ∧
        h'.limit = h.limit := by
  unfold redo?
  split
  · next hFuture => simp [hFuture]
  · next entry rest hFuture =>
      constructor
      · intro hEq
        cases hEq
        exact ⟨hFuture, rfl, rfl⟩
      · intro hParts
        obtain ⟨hCons, hPast, hLimit⟩ := hParts
        obtain ⟨rfl, rfl⟩ := List.cons.inj (hFuture.symm.trans hCons)
        rw [Option.some.injEq, Prod.mk.injEq]
        exact ⟨rfl, eq_of_stacks hLimit.symm hPast.symm rfl⟩

theorem undo?_eq_none {h : History α} {present : α} :
    h.undo? present = none ↔ h.past = [] := by
  unfold undo?
  split
  · next hPast => simp [hPast]
  · next hPast => simp [hPast]

theorem redo?_eq_none {h : History α} {present : α} :
    h.redo? present = none ↔ h.future = [] := by
  unfold redo?
  split
  · next hFuture => simp [hFuture]
  · next hFuture => simp [hFuture]

/-- The present that is recorded is kept whatever the limit. Only older entries are dropped. -/
theorem past_record (h : History α) (present : α) :
    (h.record present).past = present :: h.past.take (h.limit - 1) :=
  List.take_cons h.limit_pos

/-- Where both stacks together keep within the limit, an undo finds room for the present in the
future: it has just taken an entry from the past. -/
theorem future_of_undo? {h h' : History α} {present previous : α}
    (hRoom : h.past.length + h.future.length ≤ h.limit)
    (hUndo : h.undo? present = some (previous, h')) : h'.future = present :: h.future := by
  obtain ⟨hPast, hFuture, _⟩ := undo?_eq_some.mp hUndo
  rw [hPast, List.length_cons] at hRoom
  rw [hFuture]
  apply List.take_of_length_le
  rw [List.length_cons]
  omega

/-- Likewise a redo finds room for the present in the past. -/
theorem past_of_redo? {h h' : History α} {present next : α}
    (hRoom : h.past.length + h.future.length ≤ h.limit)
    (hRedo : h.redo? present = some (next, h')) : h'.past = present :: h.past := by
  obtain ⟨hFuture, hPast, _⟩ := redo?_eq_some.mp hRedo
  rw [hFuture, List.length_cons] at hRoom
  rw [hPast]
  apply List.take_of_length_le
  rw [List.length_cons]
  omega

/-- All entries from the oldest past one to the last that can be redone, with the present among
them. -/
def timeline (h : History α) (present : α) : List α :=
  h.past.reverse ++ present :: h.future

@[simp]
theorem length_timeline (h : History α) (present : α) :
    (h.timeline present).length = h.past.length + h.future.length + 1 := by
  rw [timeline, List.length_append, List.length_reverse, List.length_cons]
  omega

/-- The place of the present on a line determines both stacks and the present itself. -/
theorem eq_of_timeline {h h' : History α} {present present' : α}
    (hLine : h.timeline present = h'.timeline present')
    (hPlace : h.past.length = h'.past.length) (hLimit : h.limit = h'.limit) :
    present = present' ∧ h = h' := by
  obtain ⟨hPast, hRest⟩ := List.append_inj hLine (by simpa using hPlace)
  obtain ⟨hPresent, hFuture⟩ := List.cons.inj hRest
  exact ⟨hPresent, eq_of_stacks hLimit (List.reverse_inj.mp hPast) hFuture⟩

/-- Where the line has room, a step back is possible from every place but the first, and leaves the
line as it is. -/
theorem exists_undo? {h : History α} (present : α)
    (hRoom : h.past.length + h.future.length ≤ h.limit) (hPast : 0 < h.past.length) :
    ∃ previous h', h.undo? present = some (previous, h') ∧
      h'.timeline previous = h.timeline present ∧ h'.past.length + 1 = h.past.length ∧
        h'.limit = h.limit := by
  obtain ⟨previous, rest, hCons⟩ := List.exists_cons_of_length_pos hPast
  rw [hCons, List.length_cons] at hRoom
  let stepped : History α :=
    { h with
      past := rest
      future := present :: h.future
      past_le := by omega
      future_le := by rw [List.length_cons]; omega }
  have hTake : (present :: h.future).take h.limit = present :: h.future := by
    apply List.take_of_length_le
    rw [List.length_cons]
    omega
  refine ⟨previous, stepped, undo?_eq_some.mpr ⟨hCons, hTake.symm, rfl⟩, ?_, ?_, rfl⟩
  · simp [timeline, stepped, hCons]
  · simp [stepped, hCons]

/-- The history read backwards: what was past is to come. -/
def swap (h : History α) : History α :=
  { h with
    past := h.future
    future := h.past
    past_le := h.future_le
    future_le := h.past_le }

theorem timeline_swap (h : History α) (present : α) :
    h.swap.timeline present = (h.timeline present).reverse := by
  simp [timeline, swap]

/-- Where the line has room, a step forward is possible from every place but the last, and leaves
the line as it is: it is a step back on the line read backwards. -/
theorem exists_redo? {h : History α} (present : α)
    (hRoom : h.past.length + h.future.length ≤ h.limit) (hFuture : 0 < h.future.length) :
    ∃ next h', h.redo? present = some (next, h') ∧
      h'.timeline next = h.timeline present ∧ h'.past.length = h.past.length + 1 ∧
        h'.limit = h.limit := by
  have hSwapRoom : h.swap.past.length + h.swap.future.length ≤ h.swap.limit := by
    rw [Nat.add_comm]
    exact hRoom
  obtain ⟨next, stepped, hStep, hLine, hPast, hLimit⟩ := exists_undo? present hSwapRoom hFuture
  have hBack : stepped.swap.timeline next = h.timeline present := by
    rw [timeline_swap, hLine, timeline_swap, List.reverse_reverse]
  have hLength := congrArg List.length hBack
  rw [length_timeline, length_timeline] at hLength
  refine ⟨next, stepped.swap, redo?_eq_some.mpr (undo?_eq_some.mp hStep), hBack, ?_, hLimit⟩
  change stepped.past.length + 1 = h.future.length at hPast
  change stepped.future.length + stepped.past.length + 1 = _ at hLength
  change stepped.future.length = _
  omega

end TreeEditor.History
