import TreeEditor.Language.Lambda
import TreeEditor.Proofs.LocalCheck
import TreeEditor.Proofs.Markup.Preview
import TreeEditor.Proofs.Editing.Decision
import TreeEditor.Proofs.Query.Cycling
import TreeEditor.Query.RuleTable

/-! Rule tables offer only what the editor accepts. Candidates are made from the slot of the node in
focus, and their frames are not checked; the editor looks at the slot that the position asks for
and at the rules of a slot. In a well-formed tree the two agree, so a query is refused only if the
table has no candidate for it. -/

namespace TreeEditor

variable {G : Grammar}

open Outcome

namespace Exp

/-- In a consistent grammar there are holes for any slots. -/
theorem exists_holes (hG : G.Consistent) (slots : List G.Slot) :
    ∃ es : List (Exp G), slots.mapM hole = .ok es ∧ es.map Exp.slot = slots ∧
      ∀ e ∈ es, hole e.slot = .ok e ∧ e.WellFormed := by
  have hHoles : ∀ slot ∈ slots, ∃ e : Exp G, hole slot = .ok (id e) ∧ e.slot = slot ∧
      hole e.slot = .ok e ∧ e.WellFormed := by
    intro slot _
    obtain ⟨e, hHole, rfl, hForm⟩ := hole_wellFormed hG slot
    exact ⟨e, hHole, rfl, hHole, hForm⟩
  obtain ⟨es, hAll, hSlots, hForms⟩ := exists_mapM Exp.slot id hHoles
  exact ⟨es, by rwa [List.map_id] at hAll, hSlots, hForms⟩

/-- A node whose children are holes obeys the grammar if its rule is one of the slot. -/
theorem exists_template (hG : G.Consistent) {slot : G.Slot} {rule : G.Rule}
    (hRule : rule ∈ G.rules slot) (value : G.Value) :
    ∃ e, template slot rule value = .ok e ∧ e.slot = slot ∧ e.WellFormed := by
  obtain ⟨es, hHoles, hSlots, hForms⟩ := exists_holes hG (G.childSlots rule)
  have hBuild : build? slot rule value es = .ok (.node slot rule value es) :=
    build?_eq_ok.mpr ⟨hRule, hSlots, rfl⟩
  refine ⟨.node slot rule value es, ?_, rfl, .node hRule hSlots fun e he => (hForms e he).2⟩
  rw [template, hHoles]
  change make slot rule value es = _
  rw [make, hBuild]
  rfl

end Exp

namespace Frame

/-- A new frame of a rule in a slot: it has the value that the rule starts with, and all siblings of
the open position are holes of the slots that the rule declares. -/
structure Fresh (slot : G.Slot) (rule : G.Rule) (f : Frame G) : Prop where
  ofSlot : f.slot = slot
  ofRule : f.rule = rule
  initial : f.value = G.defaultValue rule
  complete : f.Complete
  holes : ∀ e ∈ f.left ++ f.right, Exp.hole e.slot = .ok e

theorem exists_template (hG : G.Consistent) (slot : G.Slot) {rule : G.Rule} {index : Nat}
    (h : index < G.arity rule) :
    ∃ f, template slot rule (G.defaultValue rule) index = .ok f ∧ f.index = index ∧
      f.Fresh slot rule := by
  obtain ⟨left, hLeft, hLeftSlots, hLeftHoles⟩ :=
    Exp.exists_holes hG ((G.childSlots rule).take index).reverse
  obtain ⟨right, hRight, hRightSlots, hRightHoles⟩ :=
    Exp.exists_holes hG ((G.childSlots rule).drop (index + 1))
  have hArity : index < (G.childSlots rule).length := h
  have hIndex : left.length = index := by
    have hLength := congrArg List.length hLeftSlots
    rw [List.length_map, List.length_reverse, List.length_take] at hLength
    omega
  have hRest : right.length = G.arity rule - (index + 1) := by
    rw [← List.length_map Exp.slot, hRightSlots, List.length_drop, Grammar.arity]
  refine ⟨⟨slot, rule, G.defaultValue rule, left, right⟩, ?_, hIndex, rfl, rfl, rfl, ?_, ?_⟩
  · rw [template, if_pos h, hLeft, hRight]
    rfl
  · refine ⟨?_, ?_, ?_, fun e he => (hLeftHoles e he).2, fun e he => (hRightHoles e he).2⟩
    · simp only [hIndex, hRest]
      omega
    · rw [List.map_reverse, hLeftSlots, List.reverse_reverse, Frame.index, hIndex]
    · rw [hRightSlots, Frame.index, hIndex]
  · intro e he
    rcases List.mem_append.mp he with hSide | hSide
    · exact (hLeftHoles e hSide).1
    · exact (hRightHoles e hSide).1

end Frame

namespace RuleTable

theorem mem_positions {rule : G.Rule} {slot : G.Slot} {index : Nat} :
    index ∈ positions rule slot ↔ (G.childSlots rule)[index]? = some slot := by
  rw [positions, List.mem_filter, List.mem_range, decide_eq_true_eq, and_iff_right_iff_imp]
  intro h
  exact (List.getElem?_eq_some_iff.mp h).1

theorem positions_ascending (rule : G.Rule) (slot : G.Slot) :
    (positions rule slot).Pairwise (· < ·) :=
  List.pairwise_lt_range.filter _

/-- The candidates of a rule that wraps the focus: one new frame for each child position that takes
the slot of the focus, from left to right. -/
theorem exists_insertions (hG : G.Consistent) (slot : G.Slot) (rule : G.Rule) :
    ∃ frames : List (Frame G), insertions slot rule = .ok (frames.map fun f => .insert [f]) ∧
      frames.map Frame.index = positions rule slot ∧ ∀ f ∈ frames, f.Fresh slot rule := by
  apply exists_mapM Frame.index
  intro index hIndex
  have hArity : index < G.arity rule :=
    (List.getElem?_eq_some_iff.mp (mem_positions.mp hIndex)).1
  obtain ⟨f, hTemplate, hFrame, hFresh⟩ := Frame.exists_template hG slot hArity
  exact ⟨f, by rw [hTemplate]; rfl, hFrame, hFresh⟩

end RuleTable

namespace Cursor

/-- An action that puts a node of the same slot in place of the focus, or one frame around it. -/
inductive Suits (c : Cursor G) : Action G → Prop where
  | insert {f : Frame G} (hComplete : f.Complete) (hRule : f.rule ∈ G.rules f.slot)
      (hHole : f.holeSlot = .ok c.exp.slot) (hSlot : f.slot = c.exp.slot) : Suits c (.insert [f])
  | replaceExp {e : Exp G} (hForm : e.WellFormed) (hSlot : e.slot = c.exp.slot) :
      Suits c (.replaceExp e)

theorem suits_fresh {c : Cursor G} {rule : G.Rule} {f : Frame G} (h : f.Fresh c.exp.slot rule)
    (hRule : rule ∈ G.rules c.exp.slot) (hIndex : (G.childSlots rule)[f.index]? = some c.exp.slot) :
    c.Suits (.insert [f]) := by
  refine .insert h.complete ?_ ?_ h.ofSlot
  · rw [h.ofRule, h.ofSlot]
    exact hRule
  · rw [Frame.holeSlot_eq_ok, h.ofRule]
    exact hIndex

end Cursor

namespace RuleTable

variable {t : RuleTable G} {c : Cursor G} {text : String}

/-- Looking for a rule that has a value for the text finds one replacement at most. -/
theorem exists_replacements (hG : G.Consistent) (t : RuleTable G) (c : Cursor G) (text : String)
    {rules : List G.Rule} (hRules : ∀ rule ∈ rules, rule ∈ G.rules c.exp.slot) :
    ∃ actions, t.replacements c text rules = .ok actions ∧ actions.length ≤ 1 ∧
      ∀ a ∈ actions, c.Suits a := by
  induction rules with
  | nil => exact ⟨[], rfl, Nat.zero_le 1, nofun⟩
  | cons rule rest ih =>
      obtain ⟨hRule, hRest⟩ := List.forall_mem_cons.mp hRules
      rw [replacements]
      split
      · next value hValue =>
          obtain ⟨e, hTemplate, hSlot, hForm⟩ := Exp.exists_template hG hRule value
          refine ⟨[.replaceExp e], by rw [hTemplate]; rfl, Nat.le_refl 1, ?_⟩
          intro a ha
          rw [List.mem_singleton.mp ha]
          exact .replaceExp hForm hSlot
      · exact ih hRest

/-- A rule that is asked to wrap the focus, with no such rule before it, gives all candidates. -/
theorem candidatesAt_of_first {before after : List G.Rule} {rule : G.Rule}
    (hRules : G.rules c.exp.slot = before ++ rule :: after)
    (hBefore : ∀ r ∈ before, t.inserts r c text = false) (hFirst : t.inserts rule c text = true) :
    t.candidatesAt c text = insertions c.exp.slot rule := by
  have hFind : (G.rules c.exp.slot).find? (t.inserts · c text) = some rule := by
    rw [List.find?_eq_some_iff_append]
    exact ⟨hFirst, before, after, hRules, fun r hr => by simp [hBefore r hr]⟩
  rw [candidatesAt, hFind]

/-- The candidates at a cursor can always be built, and all of them suit the focus. There are no
more than a rule has children, or one. -/
theorem exists_candidatesAt (hG : G.Consistent) (t : RuleTable G) (c : Cursor G) (text : String) :
    ∃ actions, t.candidatesAt c text = .ok actions ∧
      (actions.length ≤ 1 ∨ ∃ rule, actions.length ≤ G.arity rule) ∧ ∀ a ∈ actions, c.Suits a := by
  cases hFind : (G.rules c.exp.slot).find? (t.inserts · c text) with
  | none =>
      rw [candidatesAt, hFind]
      obtain ⟨actions, hActions, hLength, hSuits⟩ :=
        exists_replacements hG t c text fun rule (h : rule ∈ G.rules c.exp.slot) => h
      exact ⟨actions, hActions, .inl hLength, hSuits⟩
  | some rule =>
      rw [candidatesAt, hFind]
      obtain ⟨frames, hFrames, hIndices, hFresh⟩ := exists_insertions hG c.exp.slot rule
      refine ⟨_, hFrames, .inr ⟨rule, ?_⟩, ?_⟩
      · rw [List.length_map, ← List.length_map Frame.index, hIndices, positions]
        exact Nat.le_trans (List.length_filter_le _ _) (Nat.le_of_eq List.length_range)
      · intro a ha
        obtain ⟨f, hf, rfl⟩ := List.mem_map.mp ha
        have hIndex : f.index ∈ positions rule c.exp.slot := hIndices ▸ List.mem_map_of_mem hf
        exact Cursor.suits_fresh (hFresh f hf) (List.mem_of_find?_eq_some hFind)
          (mem_positions.mp hIndex)

end RuleTable

namespace Editor

variable {ed : Editor G} {s : State G}

/-- An edit that is decided by the form of the tree is accepted if it keeps the form, and then
leaves a well-formed tree. -/
theorem accepts_kept {a : Action G} {new : Exp G}
    (hDecided : DecidedBy (ed.apply s a) (s.mode.KeepsForm new) .slotMismatch)
    (hAfter : ∀ s', ed.apply s a = .ok s' → s'.tree = s.mode.target.path.plug new)
    (hForm : s.mode.KeepsForm new) : ∃ s', ed.apply s a = .ok s' ∧ s'.tree.WellFormed := by
  obtain ⟨s', hApply⟩ := hDecided.accepted hForm
  refine ⟨s', hApply, ?_⟩
  rw [hAfter s' hApply, ← s.mode.subst_route]
  exact hForm.wellFormed

/-- What suits the focus of a well-formed tree is accepted there. -/
theorem accepts_suitable (ed : Editor G) (hTree : s.tree.WellFormed) {c : Cursor G}
    (hMode : s.mode = .cursor c) {a : Action G} (h : c.Suits a) :
    ∃ s', ed.apply s a = .ok s' ∧ s'.tree.WellFormed := by
  have hTarget : s.mode.target = c := by rw [hMode]; rfl
  have hFocus : c.exp.WellFormed := hTarget ▸ Mode.target_wellFormed hTree
  cases h with
  | @insert f hComplete hRule hHole hSlot =>
      have hPath : Path.Complete [f] := Path.complete_cons.mpr ⟨hComplete, nofun⟩
      obtain ⟨_, hEffect⟩ := ed.effect_insert s [f]
      have hWrap := Mode.wrap_decided hTree hPath (List.cons_ne_nil f [])
      refine accepts_kept (apply_decided hEffect hWrap) (fun _ => tree_of_insert) ?_
      rw [Mode.keepsForm_iff hTree, hTarget]
      exact ⟨Frame.wellFormed_plug.mpr ⟨hComplete, hRule, hHole, hFocus⟩, hSlot⟩
  | @replaceExp e hForm hSlot =>
      refine accepts_kept (apply_replaceExp_decided hTree hForm) (fun _ => tree_of_replaceExp) ?_
      rw [Mode.keepsForm_iff hTree, hTarget]
      exact ⟨hForm, hSlot⟩

/-- Applying a query is applying one of its candidates, or there is none at its place. -/
theorem applyQuery_cases (ed : Editor G) {r : Resolver G} {q : Query} {actions : List (Action G)}
    (h : r.candidates s q.text = .ok actions) :
    ed.applyQuery r s q = .error (.rejected .noCandidate) ∨
      ∃ a ∈ actions, ed.applyQuery r s q = ed.apply s a := by
  have hResolve := Resolver.resolve?_of_candidates (q := q) h
  cases hPlace : (q.position? actions.length).bind (actions[·]?) with
  | none =>
      left
      rw [applyQuery, hResolve, hPlace]
      rfl
  | some a =>
      obtain ⟨place, _, hFound⟩ := Option.bind_eq_some_iff.mp hPlace
      rw [hPlace] at hResolve
      exact .inr ⟨a, List.mem_of_getElem? hFound, applyQuery_of_resolve? hResolve⟩

theorem applyQuery_nil (ed : Editor G) {r : Resolver G} {q : Query}
    (h : r.candidates s q.text = .ok []) :
    ed.applyQuery r s q = .error (.rejected .noCandidate) := by
  rcases ed.applyQuery_cases h with hNone | ⟨a, ha, _⟩
  · exact hNone
  · cases ha

end Editor

namespace RuleTable

/-- The candidates for a text can always be built. There are none for a selection or a blank
text. -/
theorem exists_candidates (hG : G.Consistent) (t : RuleTable G) (s : State G) (text : String) :
    ∃ actions, t.resolver.candidates s text = .ok actions ∧
      (actions.length ≤ 1 ∨ ∃ rule, actions.length ≤ G.arity rule) ∧
      (∀ a ∈ actions, ∃ c, s.mode = .cursor c ∧ c.Suits a) ∧
      (Text.isBlank text = true ∨ (∃ sel, s.mode = .select sel) → actions = []) := by
  unfold Resolver.candidates resolver
  split
  · exact ⟨[], rfl, .inl (Nat.zero_le 1), nofun, fun _ => rfl⟩
  · next hBlank =>
      split
      · next c hMode =>
          obtain ⟨actions, hActions, hLength, hSuits⟩ := exists_candidatesAt hG t c text
          refine ⟨actions, hActions, hLength, fun a ha => ⟨c, hMode, hSuits a ha⟩, ?_⟩
          rintro (h | ⟨sel, h⟩)
          · exact absurd h hBlank
          · rw [hMode] at h
            cases h
      · exact ⟨[], rfl, .inl (Nat.zero_le 1), nofun, fun _ => rfl⟩

/-- The candidates of a text at a cursor are those of the focus. -/
theorem candidates_of_cursor {t : RuleTable G} {s : State G} {c : Cursor G} {text : String}
    (hMode : s.mode = .cursor c) (hBlank : Text.isBlank text = false) :
    t.resolver.candidates s text = t.candidatesAt c text := by
  rw [Resolver.candidates, hBlank]
  simp only [resolver, hMode]
  rfl

/-- A rule table offers only what the editor accepts, whatever selections the host allows. The
candidates can always be built, and each of them is accepted and leaves a well-formed tree. A query
is accepted, or has no candidate; where rules have no more children than a 64-bit integer can
count, it is accepted exactly if there are candidates. Blank texts and selections have none. The
first rule of the slot in focus that is asked to wrap it gives all candidates: one for each of its
children that takes the slot, in their order, and none of another kind if there is no such child. -/
theorem candidates_accepted (hG : G.Consistent) (t : RuleTable G) (ed : Editor G) {s : State G}
    (hTree : s.tree.WellFormed) (q : Query) :
    ∃ actions, t.resolver.candidates s q.text = .ok actions ∧
      (∀ a ∈ actions, ∃ s', ed.apply s a = .ok s' ∧ s'.tree.WellFormed) ∧
      (ed.applyQuery t.resolver s q = .error (.rejected .noCandidate) ∨
        ∃ s', ed.applyQuery t.resolver s q = .ok s' ∧ s'.tree.WellFormed) ∧
      ((∀ rule, G.arity rule ≤ Int64.maxValue.toInt) →
        ((∃ s', ed.applyQuery t.resolver s q = .ok s') ↔ actions ≠ [])) ∧
      (q.isBlank = true ∨ (∃ sel, s.mode = .select sel) →
        ed.applyQuery t.resolver s q = .error (.rejected .noCandidate)) ∧
      ∀ c before rule after, s.mode = .cursor c → q.isBlank = false →
        G.rules c.exp.slot = before ++ rule :: after →
        (∀ r ∈ before, t.inserts r c q.text = false) → t.inserts rule c q.text = true →
        ∃ frames : List (Frame G), actions = frames.map (fun f => .insert [f]) ∧
          (frames.map Frame.index).Pairwise (· < ·) ∧
          (∀ i, i ∈ frames.map Frame.index ↔ (G.childSlots rule)[i]? = some c.exp.slot) ∧
          ∀ f ∈ frames, f.Fresh c.exp.slot rule := by
  obtain ⟨actions, hActions, hLength, hSuits, hNone⟩ := exists_candidates hG t s q.text
  have hAccepted : ∀ a ∈ actions, ∃ s', ed.apply s a = .ok s' ∧ s'.tree.WellFormed := by
    intro a ha
    obtain ⟨c, hMode, hSuit⟩ := hSuits a ha
    exact ed.accepts_suitable hTree hMode hSuit
  refine ⟨actions, hActions, hAccepted, ?_, fun hArity => ⟨?_, fun hSome => ?_⟩, fun h => ?_, ?_⟩
  · rcases ed.applyQuery_cases hActions with hRefused | ⟨a, ha, hQuery⟩
    · exact .inl hRefused
    · rw [hQuery]
      exact .inr (hAccepted a ha)
  · rintro ⟨s', hQuery⟩ rfl
    rw [ed.applyQuery_nil hActions] at hQuery
    cases hQuery
  · have hMax : actions.length ≤ Int64.maxValue.toInt := by
      rcases hLength with hOne | ⟨rule, hRule⟩
      · exact Int.le_trans (Int.ofNat_le.mpr hOne) (by decide)
      · exact Int.le_trans (Int.ofNat_le.mpr hRule) (hArity rule)
    obtain ⟨place, a, _, _, hFound, hResolve⟩ :=
      Resolver.exists_resolve? (q := q) hActions (List.length_pos_iff.mpr hSome) hMax
    obtain ⟨s', hApply, _⟩ := hAccepted a (List.mem_of_getElem? hFound)
    exact ⟨s', by rw [Editor.applyQuery_of_resolve? hResolve, hApply]⟩
  · rw [hNone h] at hActions
    exact ed.applyQuery_nil hActions
  · intro c before rule after hMode hBlank hRules hBefore hFirst
    obtain ⟨frames, hFrames, hIndices, hFresh⟩ := exists_insertions hG c.exp.slot rule
    rw [candidates_of_cursor hMode hBlank, candidatesAt_of_first hRules hBefore hFirst,
      hFrames] at hActions
    refine ⟨frames, (Except.ok.inj hActions).symm, ?_, ?_, hFresh⟩
    · rw [hIndices]
      exact positions_ascending rule c.exp.slot
    · intro i
      rw [hIndices]
      exact mem_positions

/-- A host that allows no selection, and a table in which a parenthesis wraps expressions and names,
and any text is a name. In the body of an abstraction the parenthesis has two candidates. At the
name that is bound it has none, because names have no children, although it could be a name. -/
theorem candidates_accepted_lambda :
    let t : RuleTable Lambda.grammar :=
      { inserts := fun rule _ text => rule ∈ [.lam, .app, .name] && text = "("
        replaces := fun rule _ text => if rule = .name then some (.label text) else none }
    let ed : Editor Lambda.grammar := { accepts := fun _ => false }
    let body : State Lambda.grammar := .start
      (.cursor ⟨[⟨.exp, .lam, .unit, [Lambda.name "x"], []⟩], Lambda.var "y"⟩) 5
    let binder : State Lambda.grammar := .start
      (.cursor ⟨[⟨.exp, .lam, .unit, [], [Lambda.var "y"]⟩], Lambda.name "x"⟩) 5
    body.tree.WellFormed ∧ binder.tree.WellFormed ∧
      t.resolver.candidates body "(" = .ok
        [.insert [⟨.exp, .app, .unit, [], [Lambda.hole]⟩],
          .insert [⟨.exp, .app, .unit, [Lambda.hole], []⟩]] ∧
      (∃ s', ed.applyQuery t.resolver body ⟨"(", -1⟩ = .ok s' ∧ s'.tree.WellFormed) ∧
      ed.applyQuery t.resolver binder ⟨"(", 0⟩ = .error (.rejected .noCandidate) ∧
      ∃ s', ed.applyQuery t.resolver binder ⟨"z", 0⟩ = .ok s' ∧ s'.tree.WellFormed := by
  intro t ed body binder
  have hG : Lambda.grammar.Consistent := Lambda.grammar_consistent
  have hArity : ∀ rule, Lambda.grammar.arity rule ≤ Int64.maxValue.toInt := by
    intro rule
    cases rule <;> decide
  have hBody : body.tree.WellFormed := by decide
  have hBinder : binder.tree.WellFormed := by decide
  have hWraps : t.resolver.candidates body "(" = .ok
      [.insert [⟨.exp, .app, .unit, [], [Lambda.hole]⟩],
        .insert [⟨.exp, .app, .unit, [Lambda.hole], []⟩]] := rfl
  have hNames : t.resolver.candidates binder "z" = .ok [.replaceExp (Lambda.name "z")] := rfl
  have hNone : t.resolver.candidates binder "(" = .ok [] := rfl
  obtain ⟨_, hFound, _, hAnswer, hIff, _⟩ := candidates_accepted hG t ed hBody ⟨"(", -1⟩
  obtain ⟨_, hFound', _, hAnswer', hIff', _⟩ := candidates_accepted hG t ed hBinder ⟨"(", 0⟩
  obtain ⟨_, hFound'', _, hAnswer'', hIff'', _⟩ := candidates_accepted hG t ed hBinder ⟨"z", 0⟩
  cases hWraps.symm.trans hFound
  cases hNone.symm.trans hFound'
  cases hNames.symm.trans hFound''
  obtain ⟨s', hQuery⟩ := (hIff hArity).mpr (List.cons_ne_nil _ _)
  obtain ⟨s'', hQuery''⟩ := (hIff'' hArity).mpr (List.cons_ne_nil _ _)
  refine ⟨hBody, hBinder, hWraps, hAnswer.resolve_left ?_, hAnswer'.resolve_right ?_,
    hAnswer''.resolve_left ?_⟩
  · rw [hQuery]
    exact nofun
  · rintro ⟨s', hQuery', _⟩
    exact (hIff' hArity).mp ⟨s', hQuery'⟩ rfl
  · rw [hQuery'']
    exact nofun

end RuleTable

end TreeEditor
