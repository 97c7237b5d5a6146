import TreeEditor.Language.Lambda
import TreeEditor.Proofs.Descent
import TreeEditor.Proofs.WellFormed

/-! Paths joined into one, the first inside the second. Joining pushes the frames of the first path
one by one, and comes to the same as the list of the frames of both. Positions, rebuilt trees and
the check of a path all follow the join. What the check adds to the checks of the two parts is the
one place where they meet. -/

namespace TreeEditor

variable {G : Grammar}

namespace Path

/-- What stands below the frames that come after a path is the node that its outermost frame
rebuilds, if it has a frame. -/
theorem chains_append {inner : Option G.Slot} {p q : Path G} :
    chains inner (p ++ q) = .ok true ↔
      chains inner p = .ok true ∧
        chains ((p.outermost?.map Frame.slot).or inner) q = .ok true := by
  induction p generalizing inner with
  | nil => simp [outermost?]
  | cons f p ih =>
      have hOutermost : ((outermost? (f :: p)).map Frame.slot).or inner =
          ((outermost? p).map Frame.slot).or (some f.slot) := by
        rw [outermost?, outermost?, List.getLast?_cons]
        cases p.getLast? with
        | none => rfl
        | some last => rfl
      rw [hOutermost, List.cons_append]
      cases inner with
      | none => rw [chains_none_cons, chains_none_cons, ih, and_assoc]
      | some inner => rw [chains_some_cons, chains_some_cons, ih, and_assoc, and_assoc]

/-- The node that the first path rebuilds has the slot for which the second is open. If one of them
has no frame, any two paths fit. -/
def FitsInto (p q : Path G) : Prop :=
  ∀ f g, p.outermost? = some f → q.innermost? = some g → g.holeSlot = .ok f.slot

/-- A joined path passes the check exactly if both parts do and they fit. -/
theorem wellFormed_append {p q : Path G} :
    (p ++ q).wellFormed = .ok true ↔
      p.wellFormed = .ok true ∧ q.wellFormed = .ok true ∧ p.FitsInto q := by
  rw [wellFormed, chains_append]
  refine and_congr_right fun _ => ?_
  cases hLast : p.outermost? with
  | none => simp [wellFormed, FitsInto, hLast]
  | some f =>
      change chains (some f.slot) q = .ok true ↔ _
      rw [chains_some_iff]
      refine and_congr_right fun _ => ?_
      constructor
      · intro hOpen outermost g hOutermost hInnermost
        rw [hLast] at hOutermost
        cases hOutermost
        exact hOpen g hInnermost
      · intro hFits g hInnermost
        exact hFits f g hLast hInnermost

theorem exists_wellFormed {p : Path G}
    (hArity : ∀ f ∈ p, f.left.length + 1 + f.right.length = G.arity f.rule) :
    ∃ answer, p.wellFormed = .ok answer :=
  exists_chains (fun f hf => Frame.exists_holeSlot (hArity f hf)) none

/-- Joining is coherent with all that is read off a path. It is associative, and the path without
frames is its unit. A joined path is as long as its parts together, its route goes first to the
outer part, and plugging it is plugging the inner part and then the outer one. Splitting off the
outermost frame undoes joining it on. A joined path passes the check exactly if both parts pass
it and fit; with the siblings in every frame as many as its rule declares, the check of a path
has an answer. -/
theorem joining_coherent (G : Grammar) :
    (∀ p q s : Path G, (p.append q).append s = p.append (q.append s)) ∧
      (∀ p : Path G, p.append [] = p ∧ append [] p = p) ∧
      (∀ p q : Path G, (p.append q).length = p.length + q.length ∧
        (p.append q).route = q.route ++ p.route ∧
        ∀ e, (p.append q).plug e = q.plug (p.plug e)) ∧
      (∀ (p inner : Path G) (f : Frame G),
        p.splitOutermost? = some (f, inner) ↔ p = inner.append [f]) ∧
      (∀ p q : Path G, (p.append q).wellFormed = .ok true ↔
        p.wellFormed = .ok true ∧ q.wellFormed = .ok true ∧ p.FitsInto q) ∧
      ∀ p : Path G, (∀ f ∈ p, f.left.length + 1 + f.right.length = G.arity f.rule) →
        ∃ answer, p.wellFormed = .ok answer := by
  refine ⟨fun p q s => ?_, fun p => ⟨?_, ?_⟩, fun p q => ?_, fun p inner f => ?_, fun p q => ?_,
    fun p => exists_wellFormed⟩
  · simp only [append_eq, List.append_assoc]
  · rw [append_eq, List.append_nil]
  · rw [append_eq, List.nil_append]
  · rw [append_eq]
    exact ⟨List.length_append, route_append p q, plug_append p q⟩
  · rw [append_eq, splitOutermost?_eq_some]
  · rw [append_eq, wellFormed_append]

/-- One application inside another, in the body of an abstraction and in the place of its binder. The
parts pass the check, and so do the applications in the body. In the place of the binder they do
not fit, and as the frames have all their siblings, the check says so. -/
theorem joining_coherent_lambda :
    let body : Path Lambda.grammar := [⟨.exp, .lam, .unit, [Lambda.name "x"], []⟩]
    let binder : Path Lambda.grammar := [⟨.exp, .lam, .unit, [], [Lambda.hole]⟩]
    let applications : Path Lambda.grammar :=
      [⟨.exp, .app, .unit, [Lambda.var "f"], []⟩, ⟨.exp, .app, .unit, [], [Lambda.hole]⟩]
    (∀ f ∈ applications.append binder,
        f.left.length + 1 + f.right.length = Lambda.grammar.arity f.rule) ∧
      applications.wellFormed = .ok true ∧ body.wellFormed = .ok true ∧
      binder.wellFormed = .ok true ∧ applications.FitsInto body ∧
      ¬ applications.FitsInto binder ∧
      (applications.append body).wellFormed = .ok true ∧
      (applications.append binder).wellFormed = .ok false ∧
      (applications.append binder).route = [0, 0, 1] ∧
      (applications.append body).plug (Lambda.var "y") =
        body.plug (applications.plug (Lambda.var "y")) := by
  intro body binder applications
  obtain ⟨_, _, hReadings, _, hCheck, hAnswer⟩ := joining_coherent Lambda.grammar
  have hArity : ∀ f ∈ applications.append binder,
      f.left.length + 1 + f.right.length = Lambda.grammar.arity f.rule := by decide
  have hApplications : applications.wellFormed = .ok true := rfl
  have hBody : body.wellFormed = .ok true := rfl
  have hBinder : binder.wellFormed = .ok true := rfl
  have hFits : applications.FitsInto body := by
    rintro f g ⟨⟩ ⟨⟩
    rfl
  have hApart : ¬ applications.FitsInto binder := by
    intro h
    exact nomatch h _ _ rfl rfl
  have hRefused : (applications.append binder).wellFormed = .ok false := by
    obtain ⟨answer, hWhole⟩ := hAnswer (applications.append binder) hArity
    cases answer with
    | false => exact hWhole
    | true => exact absurd ((hCheck applications binder).mp hWhole).2.2 hApart
  exact ⟨hArity, hApplications, hBody, hBinder, hFits, hApart,
    (hCheck applications body).mpr ⟨hApplications, hBody, hFits⟩, hRefused,
    (hReadings applications binder).2.1, (hReadings applications body).2.2 (Lambda.var "y")⟩

end Path

end TreeEditor
