import TreeEditor.Proofs.Editing.Run
import TreeEditor.Session.Basic

/-! What lines do to a session. Every line that changes a session does so through one accepted action
of its editor. `Issues` lists the actions that lines can lead to: those that carry nothing, the
candidates of queries, the way to the root, and the change of an application's layout. -/

namespace TreeEditor

open Outcome

/-- Whether the action carries no tree and no frames. -/
def Action.isBare {G : Grammar} : Action G → Bool
  | .setCursor _ | .setSelect _ | .replaceExp _ | .replacePath _ | .insert _ => false
  | _ => true

namespace Command

theorem named_bare {name : String} {a : Action Alpha.grammar}
    (h : named name = .ok (.apply a)) : a.isBare = true := by
  unfold named at h
  split at h
  all_goals cases h
  all_goals rfl

/-- The actions that a line names carry nothing. -/
theorem parse_bare {line : String} {a : Action Alpha.grammar} (h : parse line = .ok (.apply a)) :
    a.isBare = true := by
  unfold parse at h
  split at h
  · exact named_bare h
  · obtain ⟨q, _, hQuery⟩ := map_eq_ok.mp h
    cases hQuery
  · obtain ⟨q, _, hQuery⟩ := map_eq_ok.mp h
    cases hQuery

end Command

namespace Session

variable {s next : Session} {line text : String} {a : Action Alpha.grammar}

/-- The session after a line. A line that is refused, or that stops the session, changes nothing. -/
def after (s : Session) (line : String) : Session :=
  match s.answer line with
  | .ok (.shown _ next) => next
  | _ => s

/-- The session that lines lead to from an empty program. -/
def reached (settings : Settings) (lines : List String) : Session :=
  lines.foldl after (new settings)

/-- The actions that a line can ask the editor of a session for. -/
inductive Issues (s : Session) : Action Alpha.grammar → Prop where
  | bare {a : Action Alpha.grammar} (h : a.isBare = true) : Issues s a
  | query {q : Query} {a : Action Alpha.grammar}
      (h : Alpha.rules.resolver.resolve? s.state q = .ok (some a)) : Issues s a
  | root : Issues s (.setCursor s.state.mode.focus.toRoot)
  | indent {c : Cursor Alpha.grammar} {a : Action Alpha.grammar} (hMode : s.state.mode = .cursor c)
      (h : Alpha.toggleIndent? c = some a) : Issues s a

theorem moveTo_eq_shown {result : Except (Refusal Alpha.grammar) (State Alpha.grammar)}
    (h : s.moveTo result = .ok (.shown text next)) :
    ∃ state, result = .ok state ∧ next = { s with state } := by
  cases result with
  | error refusal => cases h
  | ok state =>
      cases h
      exact ⟨state, rfl, rfl⟩

theorem applyQuery_eq_ok {q : Query} {state : State Alpha.grammar}
    (h : s.editor.applyQuery Alpha.rules.resolver s.state q = .ok state) :
    ∃ a, s.Issues a ∧ s.editor.apply s.state a = .ok state := by
  obtain ⟨candidate, hResolve, h⟩ := bind_eq_ok.mp h
  cases candidate with
  | none => cases h
  | some a => exact ⟨a, .query (lift_eq_ok.mp hResolve), h⟩

/-- A line that is answered with a text leaves the session as it is, or carries out one of the
actions that lines can ask for. -/
theorem answer_eq_shown (h : s.answer line = .ok (.shown text next)) :
    next = s ∨
      ∃ a state, s.Issues a ∧ s.editor.apply s.state a = .ok state ∧ next = { s with state } := by
  unfold answer at h
  split at h
  · next command hParse =>
      cases command with
      | quit => cases h
      | preview q =>
          simp only [run] at h
          split at h
          · cases h
            exact .inl rfl
          · cases h
      | apply a =>
          obtain ⟨state, hApply, hNext⟩ := moveTo_eq_shown h
          exact .inr ⟨a, state, .bare (Command.parse_bare hParse), hApply, hNext⟩
      | query q =>
          obtain ⟨state, hQuery, hNext⟩ := moveTo_eq_shown h
          obtain ⟨a, hIssues, hApply⟩ := applyQuery_eq_ok hQuery
          exact .inr ⟨a, state, hIssues, hApply, hNext⟩
      | root =>
          rw [run] at h
          obtain ⟨state, hApply, hNext⟩ := moveTo_eq_shown h
          exact .inr ⟨_, state, .root, hApply, hNext⟩
      | indent =>
          simp only [run] at h
          split at h
          · next c hMode =>
              split at h
              · next a hToggle =>
                  obtain ⟨state, hApply, hNext⟩ := moveTo_eq_shown h
                  exact .inr ⟨a, state, .indent hMode hToggle, hApply, hNext⟩
              · cases h
          · cases h
  · cases h

/-- What holds of a new session, and is kept by the accepted actions that lines can ask for, holds of
every session that lines lead to. -/
theorem reached_invariant {P : Session → Prop} {settings : Settings} (hNew : P (new settings))
    (hStep : ∀ s a state, P s → s.Issues a → s.editor.apply s.state a = .ok state →
      P { s with state }) (lines : List String) : P (reached settings lines) := by
  have hFold : ∀ s, P s → P (lines.foldl after s) := by
    induction lines with
    | nil => exact fun s hs => hs
    | cons line rest ih =>
        intro s hs
        apply ih
        unfold after
        split
        · next text next hAnswer =>
            rcases answer_eq_shown hAnswer with rfl | ⟨a, state, hIssues, hApply, rfl⟩
            · exact hs
            · exact hStep s a state hs hIssues hApply
        · exact hs
  exact hFold _ hNew

end Session

end TreeEditor
