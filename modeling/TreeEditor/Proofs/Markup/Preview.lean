import TreeEditor.Language.Alpha.Basic
import TreeEditor.Proofs.Markup.Marks

/-! The preview of a query shows what the query would do. The display puts frames around marked trees
and the editor puts them around a cursor, checks slots, looks for a hole to go to and gives up a
selection; none of this can be seen in the tree under the marks. -/

namespace TreeEditor

variable {G : Grammar}

open Outcome

namespace Action

/-- Whether the display can show what the action would do: it puts a tree in place of the target, or
frames around it. -/
def isPreviewed : Action G → Bool
  | .replaceExp _ | .insert _ => true
  | _ => false

end Action

namespace Resolver

variable {r : Resolver G} {s : State G} {q : Query} {a : Action G}

/-- A query with a candidate is not blank. -/
theorem not_blank_of_resolve? (h : r.resolve? s q = .ok (some a)) : q.isBlank = false := by
  obtain ⟨actions, hActions, hFound⟩ := bind_eq_ok.mp h
  cases hBlank : q.isBlank with
  | false => rfl
  | true =>
      rw [Query.isBlank] at hBlank
      rw [candidates, if_pos hBlank] at hActions
      cases hActions
      simp [pure, Except.pure, Query.position?] at hFound

/-- A query resolves to the candidate at its place. -/
theorem resolve?_of_position {actions : List (Action G)} {index : Nat} (hBlank : q.isBlank = false)
    (hActions : r s q.text = .ok actions) (hPlace : q.position? actions.length = some index) :
    r.resolve? s q = .ok actions[index]? := by
  have hCandidates : r.candidates s q.text = .ok actions := by
    rw [Query.isBlank] at hBlank
    rw [candidates, hBlank]
    exact hActions
  rw [resolve?, hCandidates]
  change Except.ok ((q.position? actions.length).bind (actions[·]?)) = _
  rw [hPlace, Option.bind_some]

end Resolver

namespace Editor

variable {ed : Editor G} {r : Resolver G} {s s' : State G} {q : Query} {a : Action G}

theorem applyQuery_of_resolve? (h : r.resolve? s q = .ok (some a)) :
    ed.applyQuery r s q = ed.apply s a := by
  rw [applyQuery, h]
  rfl

theorem preview_of_resolve? (h : r.resolve? s q = .ok (some a)) :
    ed.preview r s q = .ok (ed.markedTree s (q.mark (some a))) := by
  rw [preview, Resolver.not_blank_of_resolve? h, h]
  rfl

theorem tree_of_replaceExp {e : Exp G} (h : ed.apply s (.replaceExp e) = .ok s') :
    s'.tree = s.mode.target.path.plug e := by
  have hAfter := (apply_brings h (by simp) (by simp)).treeAfter
  exact hAfter.trans (s.mode.subst_route e)

theorem tree_of_insert {p : Path G} (h : ed.apply s (.insert p) = .ok s') :
    s'.tree = s.mode.target.path.plug (p.plug s.mode.target.exp) := by
  have hAfter := (apply_brings h (by simp) (by simp)).treeAfter
  exact hAfter.trans (s.mode.subst_route _)

/-- If a query asks for a replacement or an insertion that is accepted, then its preview, once the
marks are taken away and a replacement counts as made, is the tree that applying the query gives.
This holds at a cursor and on a selection, for any number of frames, and wherever the insertion
leaves the cursor. -/
theorem preview_shows_applied (hResolve : r.resolve? s q = .ok (some a))
    (hPreviewed : a.isPreviewed = true) (hApply : ed.applyQuery r s q = .ok s') :
    ∃ shown, ed.preview r s q = .ok shown ∧ shown.plain = .ofExp s'.tree := by
  rw [applyQuery_of_resolve? hResolve] at hApply
  refine ⟨_, preview_of_resolve? hResolve, ?_⟩
  cases a with
  | replaceExp e =>
      rw [tree_of_replaceExp hApply]
      refine ed.plain_markedTree s fun focus _ => ?_
      rw [Query.mark, Node.plain, Node.plain_ofExp]
  | insert p =>
      rw [tree_of_insert hApply]
      refine ed.plain_markedTree s fun focus hFocus => ?_
      rw [Query.mark, Node.plain, Node.plain_within, hFocus, Node.ofExp_within]
  | _ => cases hPreviewed

/-- A selection with two candidates: a name in place of the whole range, and two frames around it
that bring a hole, to which the cursor then goes. -/
theorem preview_shows_applied_select :
    let ed : Editor Alpha.grammar := {}
    let inner : Frame Alpha.grammar := ⟨.exp, .app, .app true, [Alpha.var "f"], []⟩
    let outer : Frame Alpha.grammar := ⟨.exp, .app, .app false, [], [Alpha.var "y"]⟩
    let s : State Alpha.grammar := .start (.select ⟨[outer], [inner], Alpha.var "x", .bottom⟩) 5
    let p : Path Alpha.grammar :=
      [⟨.exp, .app, .app false, [], [Alpha.hole]⟩, ⟨.exp, .app, .app true, [Alpha.var "g"], []⟩]
    let r : Resolver Alpha.grammar := fun _ text => .ok [.replaceExp (Alpha.var text), .insert p]
    let replaced := ed.request s (.replaceExp (Alpha.var "z"))
    let inserted := ed.request s (.insert p)
    ed.applyQuery r s ⟨"z", 0⟩ = .ok replaced ∧ ed.applyQuery r s ⟨"z", -1⟩ = .ok inserted ∧
      inserted.mode.route = [0, 1, 1] ∧
      (∃ shown, ed.preview r s ⟨"z", 0⟩ = .ok shown ∧ shown.plain = .ofExp replaced.tree) ∧
      ∃ shown, ed.preview r s ⟨"z", -1⟩ = .ok shown ∧ shown.plain = .ofExp inserted.tree := by
  intro ed inner outer s p r replaced inserted
  have hActions : r s "z" = .ok [.replaceExp (Alpha.var "z"), .insert p] := rfl
  have hPlace : Query.position? ⟨"z", 0⟩ 2 = some 0 := by decide
  have hPlace' : Query.position? ⟨"z", -1⟩ 2 = some 1 := by decide
  have hFirst : r.resolve? s ⟨"z", 0⟩ = .ok (some (.replaceExp (Alpha.var "z"))) :=
    Resolver.resolve?_of_position (q := ⟨"z", 0⟩) (by decide) hActions hPlace
  have hLast : r.resolve? s ⟨"z", -1⟩ = .ok (some (.insert p)) :=
    Resolver.resolve?_of_position (q := ⟨"z", -1⟩) (by decide) hActions hPlace'
  have hReplaced : ed.applyQuery r s ⟨"z", 0⟩ = .ok replaced := applyQuery_of_resolve? hFirst
  have hInserted : ed.applyQuery r s ⟨"z", -1⟩ = .ok inserted := applyQuery_of_resolve? hLast
  exact ⟨hReplaced, hInserted, rfl, preview_shows_applied hFirst rfl hReplaced,
    preview_shows_applied hLast rfl hInserted⟩

end Editor

end TreeEditor
