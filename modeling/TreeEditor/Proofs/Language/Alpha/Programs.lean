import TreeEditor.Proofs.Editing.EachNode
import TreeEditor.Proofs.Editing.Selections
import TreeEditor.Proofs.Language.Alpha.Reading

/-! The programs that can be built by typing at an Alpha editor. Their nodes are genuine: the value
goes with the rule, which the grammar does not ask for, and names can be written down. Candidates
of queries and changes of layout are made of genuine nodes. A tree of genuine nodes obeys the
grammar, and it has a written form wherever its marks stand. -/

namespace TreeEditor.Alpha

open Outcome

/-- A node whose value goes with its rule. -/
inductive Genuine : Slot → Rule → Value → Nat → Prop where
  | var {label : String} (h : isLabel label = true) : Genuine .exp .var (.var label) 0
  | app (indented : Bool) : Genuine .exp .app (.app indented) 2
  | hole : Genuine .exp .hol .hol 0

theorem hole_genuine : hole.Each Genuine :=
  .node .hole (by simp)

/-- Holes are genuine, whichever way they come about. -/
theorem genuine_of_hole (slot : Slot) (e : Exp grammar) (h : Exp.hole (G := grammar) slot = .ok e) :
    e.Each Genuine := by
  cases slot
  rw [hole_eq] at h
  cases h
  exact hole_genuine

theorem one_slot (slot slot' : Slot) : slot = slot' := by
  cases slot
  cases slot'
  rfl

/-- The number of children is all that the grammar asks of a genuine node. -/
theorem wellFormed_of_genuine {e : Exp grammar} (h : e.Each Genuine) : e.WellFormed := by
  induction h with
  | @node slot rule value children hNode hChildren ih =>
      refine .node ?_ ?_ ih
      · cases rule <;> simp
      · have hSlots : children.map Exp.slot = List.replicate children.length Slot.exp :=
          List.eq_replicate_iff.mpr ⟨List.length_map _, fun slot _ => one_slot slot .exp⟩
        rw [hSlots]
        generalize children.length = count at hNode
        cases hNode <;> rfl

theorem complete_of_genuine {p : Path grammar} (h : p.Each Genuine) :
    p.Complete ∧ p.wellFormed = .ok true := by
  have hPlug : (p.plug hole).Each Genuine := Path.each_plug.mpr ⟨h, hole_genuine⟩
  obtain ⟨hComplete, hChain, _⟩ := Path.wellFormed_plug.mp (wellFormed_of_genuine hPlug)
  exact ⟨hComplete, (Path.chains_some_iff.mp hChain).1⟩

theorem action_wellFormed {a : Action grammar} (h : a.Each Genuine) : a.WellFormed := by
  cases a with
  | setCursor c =>
      obtain ⟨hPath, hExp⟩ := Path.each_plug.mp h
      exact ⟨(complete_of_genuine hPath).1, wellFormed_of_genuine hExp⟩
  | setSelect s =>
      obtain ⟨hAbove, hTop⟩ := Path.each_plug.mp h
      obtain ⟨hBelow, hExp⟩ := Path.each_plug.mp hTop
      exact ⟨(complete_of_genuine hAbove).1, (complete_of_genuine hBelow).1,
        wellFormed_of_genuine hExp⟩
  | replaceExp e => exact wellFormed_of_genuine h
  | replacePath p => exact (complete_of_genuine h).1
  | insert p => exact (complete_of_genuine h).1
  | _ => trivial

/-- An application around the focus, which is its function. -/
def functionFrame : Frame grammar :=
  ⟨.exp, .app, .app false, [], [hole]⟩

/-- An application around the focus, which is its argument. -/
def argumentFrame : Frame grammar :=
  ⟨.exp, .app, .app false, [hole], []⟩

theorem functionFrame_genuine : functionFrame.Each Genuine where
  node := .app false
  left := by simp [functionFrame]
  right := by simp [functionFrame, hole_genuine]

theorem argumentFrame_genuine : argumentFrame.Each Genuine where
  node := .app false
  left := by simp [argumentFrame, hole_genuine]
  right := by simp [argumentFrame]

/-- An application goes around the focus in two ways. -/
theorem insertions_app :
    RuleTable.insertions (G := grammar) Slot.exp Rule.app =
      .ok [.insert [functionFrame], .insert [argumentFrame]] := rfl

/-- A name is put in place of the focus as a variable, and no other text is put there. -/
theorem replacements_eq (c : Cursor grammar) (text : String) :
    rules.replacements c text [.var, .app, .hol] =
      .ok (if isLabel text then [.replaceExp (var text)] else []) := by
  by_cases hLabel : isLabel text = true
  · have hVar : rules.replaces Rule.var c text = some (Value.var text) := by simp [rules, hLabel]
    have hTemplate : Exp.template c.exp.slot Rule.var (Value.var text) = .ok (var text) := by
      rw [one_slot c.exp.slot .exp]
      rfl
    simp only [RuleTable.replacements, hVar, hTemplate, if_pos hLabel, bind, Except.bind, pure,
      Except.pure]
  · have hNone : ∀ rule, rules.replaces rule c text = none := by simp [rules, hLabel]
    simp only [RuleTable.replacements, hNone, if_neg hLabel]

/-- An opening parenthesis gives two ways to wrap the focus, a name gives a variable, and nothing
else has candidates. -/
theorem candidatesAt_eq (c : Cursor grammar) (text : String) :
    rules.candidatesAt c text = .ok
      (if text = "(" then [.insert [functionFrame], .insert [argumentFrame]]
        else if isLabel text then [.replaceExp (var text)] else []) := by
  by_cases hParens : text = "("
  · have hFind : (grammar.rules c.exp.slot).find? (rules.inserts · c text) = some Rule.app := by
      simp [rules, hParens]
    rw [RuleTable.candidatesAt, hFind, if_pos hParens, one_slot c.exp.slot .exp]
    exact insertions_app
  · have hFind : (grammar.rules c.exp.slot).find? (rules.inserts · c text) = none := by
      simp [rules, hParens]
    rw [RuleTable.candidatesAt, hFind, if_neg hParens]
    exact replacements_eq c text

theorem exists_candidates (s : State grammar) (text : String) :
    ∃ actions, rules.resolver.candidates s text = .ok actions ∧
      ∀ a ∈ actions, a = .insert [functionFrame] ∨ a = .insert [argumentFrame] ∨
        (isLabel text = true ∧ a = .replaceExp (var text)) := by
  unfold Resolver.candidates RuleTable.resolver
  split
  · exact ⟨[], rfl, nofun⟩
  · split
    · rw [candidatesAt_eq]
      refine ⟨_, rfl, fun a ha => ?_⟩
      split at ha
      · simp only [List.mem_cons, List.not_mem_nil, or_false] at ha
        rcases ha with rfl | rfl
        · exact .inl rfl
        · exact .inr (.inl rfl)
      · split at ha
        · next hLabel => exact .inr (.inr ⟨hLabel, List.mem_singleton.mp ha⟩)
        · cases ha
    · exact ⟨[], rfl, nofun⟩

/-- A query resolves to an application around the focus, to a variable, or to nothing. -/
theorem resolve?_cases (s : State grammar) (q : Query) :
    ∃ candidate, rules.resolver.resolve? s q = .ok candidate ∧
      ∀ a, candidate = some a → a = .insert [functionFrame] ∨ a = .insert [argumentFrame] ∨
        (isLabel q.text = true ∧ a = .replaceExp (var q.text)) := by
  obtain ⟨actions, hActions, hForms⟩ := exists_candidates s q.text
  refine ⟨(q.position? actions.length).bind (actions[·]?), ?_, fun a ha => ?_⟩
  · rw [Resolver.resolve?, hActions]
    rfl
  · obtain ⟨index, _, hIndex⟩ := Option.bind_eq_some_iff.mp ha
    exact hForms a (List.mem_of_getElem? hIndex)

theorem resolve?_genuine {s : State grammar} {q : Query} {a : Action grammar}
    (h : rules.resolver.resolve? s q = .ok (some a)) : a.Each Genuine := by
  obtain ⟨candidate, hResolve, hForms⟩ := resolve?_cases s q
  rw [h] at hResolve
  rcases hForms a (Except.ok.inj hResolve).symm with rfl | rfl | ⟨hLabel, rfl⟩
  · simp [Action.Each, Path.Each, functionFrame_genuine]
  · simp [Action.Each, Path.Each, argumentFrame_genuine]
  · exact .node (.var hLabel) (by simp)

/-- An application laid out the other way is genuine if the application was. -/
theorem toggleIndent?_genuine {c : Cursor grammar} {a : Action grammar} (hExp : c.exp.Each Genuine)
    (h : toggleIndent? c = some a) : a.Each Genuine := by
  unfold toggleIndent? at h
  cases hNode : c.exp with
  | node slot rule value children =>
      rw [hNode, Exp.each_node] at hExp
      rw [hNode] at h
      obtain ⟨hGenuine, hChildren⟩ := hExp
      generalize hLength : children.length = count at hGenuine
      cases hGenuine with
      | app indented =>
          cases h
          exact .node (hLength ▸ .app (!indented)) hChildren
      | var hLabel => cases h
      | hole => cases h

/-- Of genuine nodes, the applications are those that can be laid out the other way. -/
theorem exists_toggleIndent?_iff {c : Cursor grammar} (hExp : c.exp.Each Genuine) :
    (∃ a, toggleIndent? c = some a) ↔ c.exp.rule = Rule.app := by
  unfold toggleIndent?
  cases hNode : c.exp with
  | node slot rule value children =>
      rw [hNode, Exp.each_node] at hExp
      have hGenuine := hExp.1
      generalize children.length = count at hGenuine
      cases hGenuine with
      | app indented => exact ⟨fun _ => rfl, fun _ => ⟨_, rfl⟩⟩
      | var hLabel => simp [Exp.value, Exp.rule]
      | hole => simp [Exp.value, Exp.rule]

/-- A tree of genuine nodes can be shown. -/
theorem shown_ofExp {e : Exp grammar} (h : e.Each Genuine) : Shown (.ofExp e) := by
  induction h with
  | @node slot rule value children hNode hChildren ih =>
      rw [Node.ofExp]
      generalize hLength : children.length = count at hNode
      cases hNode with
      | var hLabel =>
          obtain rfl := List.length_eq_zero_iff.mp hLength
          exact .var hLabel
      | app indented =>
          obtain _ | ⟨f, _ | ⟨a, _ | ⟨_, _⟩⟩⟩ := children
          case cons.cons.nil => exact .app indented (ih f (by simp)) (ih a (by simp))
          all_goals simp at hLength
      | hole =>
          obtain rfl := List.length_eq_zero_iff.mp hLength
          exact .hole

theorem shown_inFrame {n : Node grammar} {f : Frame grammar} (hNode : Shown n)
    (hFrame : f.Each Genuine) : Shown (n.inFrame f) := by
  obtain ⟨slot, rule, value, left, right⟩ := f
  obtain ⟨hGenuine, hLeft, hRight⟩ := hFrame
  simp only at hGenuine hLeft hRight
  generalize hLength : left.length + 1 + right.length = count at hGenuine
  cases hGenuine with
  | var hLabel => omega
  | hole => omega
  | app indented =>
      have hSides : left.length = 0 ∧ right.length = 1 ∨ left.length = 1 ∧ right.length = 0 := by
        omega
      rcases hSides with ⟨hNone, hOne⟩ | ⟨hOne, hNone⟩
      · obtain rfl := List.length_eq_zero_iff.mp hNone
        obtain ⟨a, rfl⟩ := List.length_eq_one_iff.mp hOne
        exact .app indented hNode (shown_ofExp (hRight a (by simp)))
      · obtain rfl := List.length_eq_zero_iff.mp hNone
        obtain ⟨f, rfl⟩ := List.length_eq_one_iff.mp hOne
        exact .app indented (shown_ofExp (hLeft f (by simp))) hNode

theorem shown_within {n : Node grammar} {p : Path grammar} (hNode : Shown n)
    (hPath : p.Each Genuine) : Shown (n.within p) := by
  induction p generalizing n with
  | nil => exact hNode
  | cons f outer ih =>
      rw [Path.Each, List.forall_mem_cons] at hPath
      exact ih (shown_inFrame hNode hPath.1) hPath.2

/-- What an editor displays of a genuine program can be shown, if the selection is valid. -/
theorem shown_render {ed : Editor grammar} {s : State grammar} (hTree : s.mode.tree.Each Genuine)
    (hAdmits : ed.Admits s.mode) : Shown (ed.render s) := by
  unfold Editor.render Editor.markedTree
  obtain ⟨hPath, hTarget⟩ := Mode.each_target hTree
  cases hMode : s.mode with
  | cursor c =>
      rw [hMode] at hPath hTarget
      exact shown_within (.marked .cursor (shown_ofExp hTarget)) hPath
  | select sel =>
      rw [hMode] at hPath hTarget
      obtain ⟨hBelow, hExp⟩ := Path.each_plug.mp hTarget
      simp only [hAdmits sel hMode, id]
      exact shown_within (.marked .top (shown_within (.marked .bottom (shown_ofExp hExp)) hBelow))
        hPath

end TreeEditor.Alpha
