import TreeEditor.Proofs.Language.Alpha.Programs
import TreeEditor.Proofs.Markup.Marks
import TreeEditor.Proofs.Session.Steps

/-! What the text of a session tells. Lines build genuine programs only and select valid ranges only,
also on the clipboard and in the history. On those the written form is unambiguous, so the text
gives back the program and the places that are marked in it. What it does not show is which end of
a selection is free, what is on the clipboard and what can be undone. -/

namespace TreeEditor

namespace Session

open Alpha

variable {s : Session} {a : Action Alpha.grammar}

/-- All programs that the session holds are genuine, and all selections valid. -/
def Faithful (s : Session) : Prop :=
  ∀ x ∈ s.state.snapshots, x.Each Genuine ∧ s.editor.Admits x.mode

theorem new_faithful (settings : Settings) : (new settings).Faithful := by
  intro x hx
  rw [List.mem_singleton.mp hx]
  exact ⟨⟨hole_genuine, trivial⟩, Editor.admits_cursor _⟩

/-- Lines bring genuine programs only, if the present one is. -/
theorem Issues.genuine (hs : s.state.snapshot.Each Genuine) (h : s.Issues a) : a.Each Genuine := by
  have hTree : s.state.mode.tree.Each Genuine := hs.tree
  cases h with
  | bare hBare =>
      cases a with
      | setCursor | setSelect | replaceExp | replacePath | insert => cases hBare
      | _ => trivial
  | query hResolve => exact resolve?_genuine hResolve
  | root =>
      rw [← Mode.focus_tree] at hTree
      exact hTree
  | indent hMode hToggle =>
      rw [hMode] at hTree
      exact toggleIndent?_genuine (Path.each_plug.mp hTree).2 hToggle

/-- An accepted action that a line asks for keeps a session faithful. -/
theorem Faithful.step {state : State Alpha.grammar} (hs : s.Faithful) (hIssues : s.Issues a)
    (hApply : s.editor.apply s.state a = .ok state) : Faithful { s with state } := by
  intro x hx
  obtain ⟨hGenuine, hAdmits⟩ := hs s.state.snapshot (List.mem_cons_self ..)
  rcases Editor.apply_snapshots hApply hx with hOld | hNew
  · exact hs x hOld
  · exact ⟨hNew.each genuine_of_hole hGenuine (hIssues.genuine hGenuine), hNew.admits hAdmits⟩

theorem reached_faithful (settings : Settings) (lines : List String) :
    (reached settings lines).Faithful :=
  reached_invariant (new_faithful settings)
    (fun _ _ _ hs hIssues hApply => hs.step hIssues hApply) lines

/-- What a faithful session displays has a written form that can be read back. -/
theorem Faithful.shown (hs : s.Faithful) : Shown (s.editor.render s.state) := by
  obtain ⟨hGenuine, hAdmits⟩ := hs s.state.snapshot (List.mem_cons_self ..)
  exact shown_render hGenuine.tree hAdmits

/-- The text of a session determines the program, whether there is a cursor or a selection, and where
it stands. -/
theorem text_determines (settings settings' : Settings) (lines lines' : List String)
    (h : (reached settings lines).text = (reached settings' lines').text) :
    (reached settings lines).state.tree = (reached settings' lines').state.tree ∧
      (reached settings lines).state.mode.places = (reached settings' lines').state.mode.places := by
  have hShown := (reached_faithful settings lines).shown
  have hShown' := (reached_faithful settings' lines').shown
  exact Editor.eq_of_render (hShown.print_injective hShown' h)

/-- Two ways to a selection inside an indented argument. They differ in which end is free and in
what can be undone, which the text does not show. -/
theorem text_determines_nested :
    let s := reached ⟨1⟩ ["(", "f", ":up", "(#1", ":down", "g", ":up", ":indent", ":down", ":right",
      ":indent", ":sup"]
    let s' := reached ⟨100⟩ ["g", "(", "f", "(#1", ":up", ":indent", ":up", ":indent", ":sdown",
      ":sright"]
    s.text = "[0]\x7bg\n  ([1]\x7b?\n    f\x7d[1])\x7d[0]" ∧ s.text = s'.text ∧
      s.state.mode ≠ s'.state.mode ∧ s.state.tree = s'.state.tree ∧
      s.state.mode.places = s'.state.mode.places := by
  intro s s'
  have hText : s.text = "[0]\x7bg\n  ([1]\x7b?\n    f\x7d[1])\x7d[0]" := by
    unfold s
    decide +kernel
  have hText' : s'.text = "[0]\x7bg\n  ([1]\x7b?\n    f\x7d[1])\x7d[0]" := by
    unfold s'
    decide +kernel
  have hMode : s.state.mode ≠ s'.state.mode := by
    unfold s s'
    decide +kernel
  have hSame : s.text = s'.text := by
    rw [hText, hText']
  exact ⟨hText, hSame, hMode, text_determines _ _ _ _ hSame⟩

end Session

end TreeEditor
