/-! Bounded undo and redo stacks around a present value that the caller holds. -/

namespace TreeEditor

/-- Entries before and after the present, the nearest first, at most `limit` on each side. -/
structure History (α : Type) where
  limit : Nat
  past : List α
  future : List α
  limit_pos : 0 < limit
  past_le : past.length ≤ limit
  future_le : future.length ≤ limit
deriving DecidableEq

namespace History

variable {α : Type}

/-- The number of entries kept on each side when nothing else is asked for. -/
def defaultLimit : Nat := 500

/-- No entries. A limit of zero counts as one. -/
def new (limit : Nat) : History α where
  limit := max limit 1
  past := []
  future := []
  limit_pos := by omega
  past_le := by simp
  future_le := by simp

def canUndo (h : History α) : Bool :=
  !h.past.isEmpty

def canRedo (h : History α) : Bool :=
  !h.future.isEmpty

/-- Forget what could be redone. -/
def clearFuture (h : History α) : History α :=
  { h with future := [], future_le := by simp }

/-- Keep the present as it was before a change and forget what could be redone. The oldest entry is
dropped if there are too many. -/
def record (h : History α) (present : α) : History α :=
  { h with
    past := (present :: h.past).take h.limit
    future := []
    past_le := List.length_take_le ..
    future_le := by simp }

/-- Step back: the newest past entry, and the history with the present as the next one to redo. -/
def undo? (h : History α) (present : α) : Option (α × History α) :=
  match hPast : h.past with
  | [] => none
  | previous :: past =>
      some (previous,
        { h with
          past
          future := (present :: h.future).take h.limit
          past_le := by have := h.past_le; simp only [hPast, List.length_cons] at this; omega
          future_le := List.length_take_le .. })

/-- Step forward: the next future entry, and the history with the present as the newest past. -/
def redo? (h : History α) (present : α) : Option (α × History α) :=
  match hFuture : h.future with
  | [] => none
  | next :: future =>
      some (next,
        { h with
          past := (present :: h.past).take h.limit
          future
          past_le := List.length_take_le ..
          future_le := by have := h.future_le; simp only [hFuture, List.length_cons] at this; omega })

end History

end TreeEditor
