import Mathlib.Algebra.Ring.Int.Defs
import TreeEditor.Language.Alpha.Basic
import TreeEditor.Query.Basic

/-! Going from one candidate of a query to another. The index is a 64-bit integer that wraps around,
and the place of the candidate is the index modulo the number of candidates. Both go round, but not
together: where the index wraps around, a number of candidates that does not divide the number of
64-bit integers is cut off in the middle of a round. -/

namespace TreeEditor

/-- How many times an integer has gone past the 64-bit integers: how often their number has to be
taken away to come back to them. -/
def laps (total : Int) : Int :=
  total.bdiv Int64.size

theorem bmod_add_laps (total : Int) : total.bmod Int64.size + Int64.size * laps total = total :=
  Int.bmod_add_bdiv total Int64.size

theorem bmod_bounds (total : Int) :
    Int64.minValue.toInt ≤ total.bmod Int64.size ∧
      total.bmod Int64.size ≤ Int64.maxValue.toInt :=
  ⟨Int.le_bmod (by decide), Int.le_of_lt_add_one (Int.bmod_lt (by decide))⟩

theorem laps_eq_zero {total : Int} :
    laps total = 0 ↔ Int64.minValue.toInt ≤ total ∧ total ≤ Int64.maxValue.toInt := by
  have hSum := bmod_add_laps total
  have hBounds := bmod_bounds total
  rw [Int64.toInt_minValue, Int64.toInt_maxValue] at hBounds ⊢
  simp only [Int64.size] at hSum hBounds
  omega

/-- One sum of two 64-bit integers goes past them at most once. -/
theorem laps_add (i j : Int64) :
    laps (i.toInt + j.toInt) = 0 ∨ laps (i.toInt + j.toInt) = 1 ∨
      laps (i.toInt + j.toInt) = -1 := by
  have hSum := bmod_add_laps (i.toInt + j.toInt)
  have hBounds := bmod_bounds (i.toInt + j.toInt)
  rw [Int64.toInt_minValue, Int64.toInt_maxValue] at hBounds
  simp only [Int64.size] at hSum hBounds
  have hi := i.le_toInt
  have hi' := i.toInt_lt
  have hj := j.le_toInt
  have hj' := j.toInt_lt
  omega

namespace Query

variable {n : Nat}

/-- Among a number of candidates that can be counted, a query has a place. It is congruent to the
index. -/
theorem exists_position? (q : Query) (hPos : 0 < n) (hMax : n ≤ Int64.maxValue.toInt) :
    ∃ k, q.position? n = some k ∧ k < n ∧ (k : Int) = q.index.toInt % n := by
  have hLow : 0 ≤ q.index.toInt % n := Int.emod_nonneg _ (by omega)
  have hHigh : q.index.toInt % n < n := Int.emod_lt_of_pos _ (by omega)
  refine ⟨(q.index.toInt % n).toNat, if_pos ⟨hPos, hMax⟩, ?_, ?_⟩
  · omega
  · omega

/-- The query after several moves. -/
def cycleAll (q : Query) (deltas : List Int64) : Query :=
  deltas.foldl cycle q

theorem text_cycleAll (q : Query) (deltas : List Int64) : (q.cycleAll deltas).text = q.text := by
  induction deltas generalizing q with
  | nil => rfl
  | cons delta deltas ih => exact ih (q.cycle delta)

/-- The moves add up, and the index wraps around as if they were made at once. -/
theorem index_cycleAll (q : Query) (deltas : List Int64) :
    (q.cycleAll deltas).index.toInt =
      (q.index.toInt + (deltas.map Int64.toInt).sum).bmod Int64.size := by
  induction deltas generalizing q with
  | nil => simp [cycleAll]
  | cons delta deltas ih =>
      have hRest := ih (q.cycle delta)
      simp only [cycle, Int64.toInt_add, Int.bmod_add_bmod] at hRest
      rw [List.map_cons, List.sum_cons, ← Int.add_assoc, ← hRest]
      rfl

/-- After several moves the place is as many candidates further on as the moves say, exactly if the
candidates come out even with the laps of the index. -/
theorem place_cycleAll (q : Query) (deltas : List Int64) {k place : Nat}
    (hk : (k : Int) = q.index.toInt % n)
    (hPlace : (place : Int) = (q.cycleAll deltas).index.toInt % n) :
    (place : Int) = (k + (deltas.map Int64.toInt).sum) % n ↔
      (n : Int) ∣ Int64.size * laps (q.index.toInt + (deltas.map Int64.toInt).sum) := by
  rw [index_cycleAll] at hPlace
  generalize (deltas.map Int64.toInt).sum = sum at hPlace ⊢
  have hSum := bmod_add_laps (q.index.toInt + sum)
  have hLost : q.index.toInt + sum - (q.index.toInt + sum).bmod Int64.size =
      Int64.size * laps (q.index.toInt + sum) := by omega
  rw [hk, hPlace, Int.emod_add_emod, ← hLost, Int.dvd_iff_emod_eq_zero,
    ← Int.emod_eq_emod_iff_emod_sub_eq_zero]
  exact eq_comm

/-- One move goes past the 64-bit integers at most once, so the candidates come out even only if
they divide the number of those integers. -/
theorem place_cycle (q : Query) (delta : Int64) {k place : Nat}
    (hk : (k : Int) = q.index.toInt % n)
    (hPlace : (place : Int) = (q.cycle delta).index.toInt % n) :
    (place : Int) = (k + delta.toInt) % n ↔
      (Int64.minValue.toInt ≤ q.index.toInt + delta.toInt ∧
        q.index.toInt + delta.toInt ≤ Int64.maxValue.toInt) ∨ n ∣ Int64.size := by
  have hAll := place_cycleAll q [delta] hk hPlace
  simp only [List.map_cons, List.map_nil, List.sum_cons, List.sum_nil, Int.add_zero] at hAll
  have hDivides : (n : Int) ∣ Int64.size ↔ n ∣ Int64.size := Int.natCast_dvd_natCast
  rw [hAll, ← laps_eq_zero, ← hDivides]
  rcases laps_add q.index delta with hLaps | hLaps | hLaps
  · simp [hLaps]
  · simp [hLaps]
  · simp [hLaps]

end Query

namespace Resolver

variable {G : Grammar} {r : Resolver G} {s : State G} {q : Query} {actions : List (Action G)}

theorem resolve?_of_candidates (h : r.candidates s q.text = .ok actions) :
    r.resolve? s q = .ok ((q.position? actions.length).bind (actions[·]?)) := by
  rw [resolve?, h]
  rfl

/-- Candidates that can be counted are all within reach: a query resolves to the one at its
place. -/
theorem exists_resolve? (h : r.candidates s q.text = .ok actions) (hSome : 0 < actions.length)
    (hMax : actions.length ≤ Int64.maxValue.toInt) :
    ∃ place a, q.position? actions.length = some place ∧
      (place : Int) = q.index.toInt % actions.length ∧ actions[place]? = some a ∧
      r.resolve? s q = .ok (some a) := by
  obtain ⟨place, hPosition, hLess, hPlace⟩ := q.exists_position? hSome hMax
  have hFound : actions[place]? = some actions[place] := List.getElem?_eq_getElem hLess
  refine ⟨place, actions[place], hPosition, hPlace, hFound, ?_⟩
  rw [resolve?_of_candidates h, hPosition, Option.bind_some, hFound]

end Resolver

namespace Query

/-- How cycling steps through the candidates. A query has a place among them, congruent to its
index. A move by `delta` takes it `delta` places further on, going round, exactly if the index does
not leave the 64-bit integers or the number of candidates divides theirs. After any moves, the query
resolves to the candidate as many places further on as the moves add up to, exactly if that number
of candidates divides what the index has lost on its laps around the 64-bit integers; the sums on
the way do not matter. -/
theorem cycling_exact (q : Query) {n : Nat} (hPos : 0 < n) (hMax : n ≤ Int64.maxValue.toInt) :
    ∃ k, q.position? n = some k ∧ k < n ∧ (k : Int) = q.index.toInt % n ∧
      (∀ delta, ∃ place, (q.cycle delta).position? n = some place ∧
        ((place : Int) = (k + delta.toInt) % n ↔
          (Int64.minValue.toInt ≤ q.index.toInt + delta.toInt ∧
            q.index.toInt + delta.toInt ≤ Int64.maxValue.toInt) ∨ n ∣ Int64.size)) ∧
      ∀ (G : Grammar) (r : Resolver G) (s : State G) (actions : List (Action G)),
        r.candidates s q.text = .ok actions → actions.length = n →
        ∀ deltas, ∃ place a, (q.cycleAll deltas).position? n = some place ∧
          actions[place]? = some a ∧ r.resolve? s (q.cycleAll deltas) = .ok (some a) ∧
          ((place : Int) = (k + (deltas.map Int64.toInt).sum) % n ↔
            (n : Int) ∣ Int64.size * laps (q.index.toInt + (deltas.map Int64.toInt).sum)) := by
  obtain ⟨k, hPosition, hLess, hk⟩ := q.exists_position? hPos hMax
  refine ⟨k, hPosition, hLess, hk, fun delta => ?_, fun G r s actions hActions hLength deltas => ?_⟩
  · obtain ⟨place, hNext, _, hPlace⟩ := (q.cycle delta).exists_position? hPos hMax
    exact ⟨place, hNext, place_cycle q delta hk hPlace⟩
  · subst hLength
    rw [← q.text_cycleAll deltas] at hActions
    obtain ⟨place, a, hNext, hPlace, hFound, hResolve⟩ :=
      Resolver.exists_resolve? hActions hPos hMax
    exact ⟨place, a, hNext, hFound, hResolve, place_cycleAll q deltas hk hPlace⟩

/-- Two candidates and an index at the upper end of the 64-bit integers. A move past the end goes on
from the second candidate to the first, and moves that add up to none come back to the second. -/
theorem cycling_exact_past_maximum :
    let q : Query := ⟨"x", Int64.maxValue⟩
    let r : Resolver Alpha.grammar := fun _ _ => .ok [.undo, .redo]
    let s : State Alpha.grammar := .start (.cursor (.root Alpha.hole)) 5
    (0 < 2 ∧ (2 : Nat) ≤ Int64.maxValue.toInt) ∧ r.candidates s q.text = .ok [.undo, .redo] ∧
      q.position? 2 = some 1 ∧ (q.cycle 1).position? 2 = some 0 ∧
      r.resolve? s (q.cycleAll [1, Int64.minValue, Int64.maxValue]) = .ok (some .redo) := by
  intro q r s
  have hMax : (2 : Nat) ≤ Int64.maxValue.toInt := by decide
  have hCandidates : r.candidates s q.text = .ok [.undo, .redo] := if_neg (by decide)
  obtain ⟨k, hPosition, _, hk, hStep, hAll⟩ := cycling_exact q Nat.zero_lt_two hMax
  obtain rfl : k = 1 := Int.ofNat_inj.mp (hk.trans (by decide))
  obtain ⟨place, hNext, hMoved⟩ := hStep 1
  have hPlace := hMoved.mpr (.inr (by decide))
  obtain rfl : place = 0 := Int.ofNat_inj.mp (hPlace.trans (by decide))
  obtain ⟨back, a, _, hFound, hResolve, hBack⟩ :=
    hAll Alpha.grammar r s _ hCandidates rfl [1, Int64.minValue, Int64.maxValue]
  have hPlace' := hBack.mpr (by decide)
  obtain rfl : back = 1 := Int.ofNat_inj.mp (hPlace'.trans (by decide))
  cases hFound
  exact ⟨⟨Nat.zero_lt_two, hMax⟩, hCandidates, hPosition, hNext, hResolve⟩

/-- Three candidates and the same index. A move by one should go on from the second to the third,
but stays at the second. -/
theorem cycle_stalls_at_maximum :
    let q : Query := ⟨"x", Int64.maxValue⟩
    let r : Resolver Alpha.grammar := fun _ _ => .ok [.undo, .redo, .escape]
    let s : State Alpha.grammar := .start (.cursor (.root Alpha.hole)) 5
    q.position? 3 = some 1 ∧ ((1 : Nat) + (1 : Int64).toInt) % (3 : Nat) = (2 : Nat) ∧
      (q.cycle 1).position? 3 = some 1 ∧ r.candidates s q.text = .ok [.undo, .redo, .escape] ∧
      r.resolve? s (q.cycleAll [1]) = .ok (some .redo) := by
  exact ⟨by decide, by decide, by decide, rfl, rfl⟩

end Query

end TreeEditor
