import TreeEditor.Proofs.Editing.Refusals
import TreeEditor.Proofs.Markup.Preview
import TreeEditor.Proofs.Session.Display

/-! What lines are refused for. Alpha has one slot and a session allows every range, so nothing that
lines can bring together fails to fit: frames on the clipboard are never none, ranges are never
empty, and every hole can be built. A line that is refused is one that cannot be read, or that asks
for something that does not apply at the place at hand. -/

namespace TreeEditor

open Outcome

/-- Whether the user can be told no in this way by a session in good order. -/
def SessionError.isOrdinary : SessionError → Bool
  | command _ | notIndentable => true
  | rejected reason => reason.isOrdinary
  | fault _ => false

namespace Session

variable {s : Session} {a : Action Alpha.grammar} {error : SessionError}

/-- All that a session holds is genuine and well formed, also in its history, and its host allows
every range. -/
structure Sound (s : Session) : Prop where
  faithful : s.Faithful
  wellFormed : s.state.WellFormed
  allowsAll : ∀ sel, s.editor.accepts sel = true

namespace Sound

theorem genuine (hs : s.Sound) : s.state.snapshot.Each Alpha.Genuine :=
  (hs.faithful s.state.snapshot (List.mem_cons_self ..)).1

theorem admits (hs : s.Sound) : s.editor.Admits s.state.mode :=
  (hs.faithful s.state.snapshot (List.mem_cons_self ..)).2

theorem present (hs : s.Sound) : s.state.snapshot.WellFormed :=
  hs.wellFormed s.state.snapshot (List.mem_cons_self ..)

theorem step {state : State Alpha.grammar} (hs : s.Sound) (hIssues : s.Issues a)
    (hApply : s.editor.apply s.state a = .ok state) : Sound { s with state } where
  faithful := hs.faithful.step hIssues hApply
  wellFormed := by
    -- Lines bring genuine material only, which is well formed by itself.
    intro x hx
    have ha : a.WellFormed := Alpha.action_wellFormed (hIssues.genuine hs.genuine)
    rcases Editor.apply_snapshots hApply hx with hOld | hNew
    · exact hs.wellFormed x hOld
    · exact hNew.wellFormed Alpha.grammar_consistent hs.present ha
  allowsAll := hs.allowsAll

end Sound

theorem reached_sound (settings : Settings) (lines : List String) :
    (reached settings lines).Sound := by
  have hNew : (new settings).Sound := by
    have hHole : (Mode.cursor (.root Alpha.hole)).tree.WellFormed :=
      Alpha.wellFormed_of_genuine Alpha.hole_genuine
    exact ⟨new_faithful settings, Editor.start_wellFormed hHole _, fun _ => rfl⟩
  exact reached_invariant hNew (fun _ _ _ hs hIssues hApply => hs.step hIssues hApply) lines

/-- An action that carries nothing is refused for ordinary reasons only. -/
theorem Sound.bare_ordinary (hs : s.Sound) (hBare : a.isBare = true) :
    Ordinary (s.editor.apply s.state a) := by
  cases a with
  | setCursor | setSelect | replaceExp | replacePath | insert => cases hBare
  | undo => exact Editor.apply_ordinary (ordinary_ok ⟨_, rfl⟩)
  | redo => exact Editor.apply_ordinary (ordinary_ok ⟨_, rfl⟩)
  | moveCursor direction => exact Editor.apply_ordinary (Editor.moveCursor_ordinary _ direction)
  | moveSelect direction =>
      have hMove := Editor.moveSelect_ordinary hs.allowsAll hs.admits direction
      exact Editor.apply_ordinary (hMove.map _)
  | escape => exact Editor.apply_ordinary (Editor.escape_ordinary _)
  | copy => exact Editor.takeOut_ordinary Alpha.grammar_consistent hs.admits (.inl rfl)
  | cut => exact Editor.takeOut_ordinary Alpha.grammar_consistent hs.admits (.inr (.inl rfl))
  | delete => exact Editor.takeOut_ordinary Alpha.grammar_consistent hs.admits (.inr (.inr rfl))
  | paste =>
      have hPaste := Editor.paste_ordinary Alpha.one_slot hs.allowsAll hs.present.tree
        hs.present.clipboard
      exact Editor.apply_ordinary (hPaste.bind fun _ _ => ordinary_ok ⟨_, rfl⟩)

/-- An action that carries genuine material is accepted. -/
theorem Sound.genuine_accepts (hs : s.Sound) (ha : a.Each Alpha.Genuine)
    (hForm : (∃ f, a = .insert [f]) ∨ ∃ e, a = .replaceExp e) :
    ∃ state, s.editor.apply s.state a = .ok state := by
  rcases hForm with ⟨f, rfl⟩ | ⟨e, rfl⟩
  · obtain ⟨hPath, hChain⟩ := Alpha.complete_of_genuine ha
    exact Editor.insert_accepts Alpha.one_slot hs.present.tree hPath (List.cons_ne_nil f []) hChain
  · exact Editor.replaceExp_accepts Alpha.one_slot hs.present.tree (Alpha.wellFormed_of_genuine ha)

theorem Sound.query_ordinary (hs : s.Sound) (q : Query) :
    Ordinary (s.editor.applyQuery Alpha.rules.resolver s.state q) := by
  obtain ⟨candidate, hResolve, hForms⟩ := Alpha.resolve?_cases s.state q
  cases candidate with
  | none =>
      rw [Editor.applyQuery, hResolve]
      exact ordinary_rejected rfl
  | some a =>
      rw [Editor.applyQuery_of_resolve? hResolve]
      apply ordinary_ok
      apply hs.genuine_accepts (Alpha.resolve?_genuine hResolve)
      rcases hForms a rfl with rfl | rfl | ⟨_, rfl⟩
      · exact .inl ⟨_, rfl⟩
      · exact .inl ⟨_, rfl⟩
      · exact .inr ⟨_, rfl⟩

theorem root_accepts (s : Session) :
    ∃ state, s.editor.apply s.state (.setCursor s.state.mode.focus.toRoot) = .ok state :=
  s.editor.setCursor_accepts s.state (Cursor.root_wellFormed _)

/-- Laying out an application the other way is always accepted. -/
theorem Sound.indent_accepts (hs : s.Sound) {c : Cursor Alpha.grammar}
    (hMode : s.state.mode = .cursor c) (h : Alpha.toggleIndent? c = some a) :
    ∃ state, s.editor.apply s.state a = .ok state := by
  have hIssues : s.Issues a := .indent hMode h
  apply hs.genuine_accepts (hIssues.genuine hs.genuine)
  unfold Alpha.toggleIndent? at h
  split at h
  · cases h
    exact .inr ⟨_, rfl⟩
  · cases h

theorem moveTo_ordinary {result : Except (Refusal Alpha.grammar) (State Alpha.grammar)}
    (hResult : Ordinary result) (h : s.moveTo result = .error error) : error.isOrdinary = true := by
  cases result with
  | ok state => cases h
  | error refusal =>
      cases h
      have hRefusal := hResult refusal rfl
      cases refusal with
      | rejected reason => exact hRefusal
      | fault f => cases hRefusal

theorem exists_preview (s : Session) (q : Query) :
    ∃ node, s.editor.preview Alpha.rules.resolver s.state q = .ok node := by
  obtain ⟨candidate, hResolve, _⟩ := Alpha.resolve?_cases s.state q
  unfold Editor.preview
  split
  · exact ⟨_, rfl⟩
  · rw [hResolve]
    exact ⟨_, rfl⟩

/-- A line given to a sound session is refused for ordinary reasons only. -/
theorem Sound.answer_ordinary (hs : s.Sound) {line : String} (h : s.answer line = .error error) :
    error.isOrdinary = true := by
  unfold answer at h
  split at h
  · next command hParse =>
      cases command with
      | quit => cases h
      | preview q =>
          obtain ⟨node, hNode⟩ := s.exists_preview q
          rw [run, hNode] at h
          cases h
      | apply a => exact moveTo_ordinary (hs.bare_ordinary (Command.parse_bare hParse)) h
      | query q => exact moveTo_ordinary (hs.query_ordinary q) h
      | root => exact moveTo_ordinary (ordinary_ok s.root_accepts) h
      | indent =>
          simp only [run] at h
          split at h
          · next c hMode =>
              split at h
              · next a hToggle =>
                  exact moveTo_ordinary (ordinary_ok (hs.indent_accepts hMode hToggle)) h
              · cases h
                rfl
          · cases h
            rfl
  · cases h
    rfl

theorem moveTo_ok {result : Except (Refusal Alpha.grammar) (State Alpha.grammar)}
    (h : ∃ state, result = .ok state) : ∃ text next, s.moveTo result = .ok (.shown text next) := by
  obtain ⟨state, rfl⟩ := h
  exact ⟨_, _, rfl⟩

/-- A session in good order lays out an application under the cursor the other way, and nothing
else. -/
theorem Sound.indent_iff (hs : s.Sound) :
    (∃ text next, s.run .indent = .ok (.shown text next)) ↔
      ∃ c, s.state.mode = .cursor c ∧ c.exp.rule = Alpha.Rule.app := by
  have hTree : s.state.mode.tree.Each Alpha.Genuine := hs.genuine.tree
  simp only [run]
  cases hMode : s.state.mode with
  | select sel => simp
  | cursor c =>
      rw [hMode] at hTree
      have hToggle := Alpha.exists_toggleIndent?_iff (Path.each_plug.mp hTree).2
      simp only [Mode.cursor.injEq, exists_eq_left', ← hToggle]
      cases hAction : Alpha.toggleIndent? c with
      | none => simp
      | some a => simp [moveTo_ok (s := s) (hs.indent_accepts hMode hAction)]

/-- Lines never bring a session into disorder. Whatever lines came before, a line is refused only
because it cannot be read, because there is no application to lay out the other way, or because
what it asks for does not apply at the place at hand: no promise is broken, no slots differ, no
path or selection is empty and no selection is forbidden. Going to the root is never refused, and
a change of layout is accepted exactly if there is a cursor and it stands on an application. -/
theorem answers_ordinary (settings : Settings) (lines : List String) :
    let s := reached settings lines
    (∀ line error, s.answer line = .error error → error.isOrdinary = true) ∧
      (Command.parse ":root" = .ok .root ∧ ∀ line, Command.parse line = .ok .root →
        ∃ text next, s.answer line = .ok (.shown text next)) ∧
      (Command.parse ":indent" = .ok .indent ∧ ∀ line, Command.parse line = .ok .indent →
        ((∃ text next, s.answer line = .ok (.shown text next)) ↔
          ∃ c, s.state.mode = .cursor c ∧ c.exp.rule = Alpha.Rule.app)) := by
  intro s
  have hs : s.Sound := reached_sound settings lines
  refine ⟨fun line error h => hs.answer_ordinary h, ⟨rfl, fun line hParse => ?_⟩,
    rfl, fun line hParse => ?_⟩
  · rw [answer, hParse]
    exact moveTo_ok s.root_accepts
  · rw [answer, hParse]
    exact hs.indent_iff

end Session

end TreeEditor
