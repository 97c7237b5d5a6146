import TreeEditor.Exp.Hole
import TreeEditor.Proofs.Position

/-! The search for the first hole. A walk through a tree that goes into the children of a node right
after the node meets the routes in the order of lists of numbers, a list before those that go on
from it. The search finds the first hole on this walk that is not in the subtree left out. It puts
together what it finds in one child with what it finds in the later ones, and so does the proof. -/

namespace TreeEditor

variable {G : Grammar}

namespace Route

/-- The first route is the second, or comes before it when the tree is walked through from the root
and child by child. -/
def Precedes (r q : Route) : Prop :=
  r = q ∨ List.Lex (· < ·) r q

theorem precedes_root (r : Route) : Precedes [] r := by
  cases r with
  | nil => exact .inl rfl
  | cons index rest => exact .inr .nil

theorem Precedes.under {r q : Route} (h : Precedes r q) (index : Nat) :
    Precedes (index :: r) (index :: q) := by
  rcases h with rfl | hLess
  · exact .inl rfl
  · exact .inr (.cons hLess)

theorem precedes_of_lt {i j : Nat} (h : i < j) (r q : Route) : Precedes (i :: r) (j :: q) :=
  .inr (.rel h)

theorem Precedes.antisymm {r q : Route} (h : Precedes r q) (h' : Precedes q r) : r = q := by
  rcases h with rfl | hLess
  · rfl
  · rcases h' with rfl | hLess'
    · rfl
    · exact absurd hLess' (List.lt_asymm hLess)

/-- The answer of a search: the first route that has the property, or none if no route has it. -/
def IsFirst (P : Route → Prop) : Option Route → Prop
  | none => ∀ r, ¬ P r
  | some r => P r ∧ ∀ q, P q → Precedes r q

theorem IsFirst.congr {P Q : Route → Prop} {answer : Option Route} (h : IsFirst P answer)
    (hIff : ∀ r, P r ↔ Q r) : IsFirst Q answer := by
  obtain rfl : P = Q := funext fun r => propext (hIff r)
  exact h

/-- A search under one child is a search there, seen from further up. -/
theorem IsFirst.under {P : Route → Prop} {answer : Option Route} (h : IsFirst P answer)
    (index : Nat) :
    IsFirst (fun r => ∃ q, r = index :: q ∧ P q) (answer.map (index :: ·)) := by
  cases answer with
  | none =>
      rintro r ⟨q, rfl, hq⟩
      exact h q hq
  | some r =>
      refine ⟨⟨r, rfl, h.1⟩, ?_⟩
      rintro _ ⟨q, rfl, hq⟩
      exact (h.2 q hq).under index

/-- Two searches, one after the other, are one search if all that the first can find precedes all
that the second can. -/
theorem IsFirst.or {P Q : Route → Prop} {answer later : Option Route} (hP : IsFirst P answer)
    (hQ : IsFirst Q later) (hOrder : ∀ r q, P r → Q q → Precedes r q) :
    IsFirst (fun r => P r ∨ Q r) (answer.or later) := by
  cases answer with
  | some r =>
      refine ⟨.inl hP.1, fun q hq => ?_⟩
      rcases hq with hq | hq
      · exact hP.2 q hq
      · exact hOrder r q hP.1 hq
  | none =>
      refine hQ.congr fun r => ?_
      rw [or_iff_right (hP r)]

/-- A search has one right answer at most. -/
theorem IsFirst.unique {P : Route → Prop} {answer other : Option Route} (h : IsFirst P answer)
    (hOther : IsFirst P other) : answer = other := by
  cases answer with
  | none =>
      cases other with
      | none => rfl
      | some q => exact absurd hOther.1 (h q)
  | some r =>
      cases other with
      | none => exact absurd h.1 (hOther r)
      | some q => rw [(h.2 q hOther.1).antisymm (hOther.2 r h.1)]

/-- The route does not lead into the subtree that is left out. -/
def Outside (skip : Option Route) (r : Route) : Prop :=
  ∀ q, skip = some q → ¬ q <+: r

theorem outside_some {skip r : Route} : Outside (some skip) r ↔ ¬ skip <+: r := by
  simp [Outside]

theorem outside_nil {skip : Option Route} : Outside skip [] ↔ skip ≠ some [] := by
  cases skip with
  | none => simp [Outside]
  | some skip => simp [outside_some]

/-- Under a child, what is left out is what is left of it after the step to that child. -/
theorem outside_cons {skip : Option Route} (hSkip : skip ≠ some []) (index : Nat) (r : Route) :
    Outside skip (index :: r) ↔ Outside (under? index skip) r := by
  cases skip with
  | none => simp [Outside, under?]
  | some skip =>
      cases skip with
      | nil => exact absurd rfl hSkip
      | cons first rest =>
          by_cases hFirst : first = index
          · simp [outside_some, under?, hFirst]
          · simp [Outside, under?, hFirst]

end Route

namespace Exp

/-- A hole stands at the route. -/
def HoleAt (e : Exp G) (r : Route) : Prop :=
  ∃ u, e.at? r = some u ∧ u.isHole = true

theorem holeAt_nil {e : Exp G} : e.HoleAt [] ↔ e.isHole = true := by
  simp [HoleAt]

theorem holeAt_cons {e : Exp G} {index : Nat} {r : Route} :
    e.HoleAt (index :: r) ↔ ∃ child, e.child? index = some child ∧ child.HoleAt r := by
  constructor
  · rintro ⟨u, hAt, hHole⟩
    obtain ⟨child, hChild, hRest⟩ := Option.bind_eq_some_iff.mp hAt
    exact ⟨child, hChild, u, hRest, hHole⟩
  · rintro ⟨child, hChild, u, hRest, hHole⟩
    exact ⟨u, Option.bind_eq_some_iff.mpr ⟨child, hChild, hRest⟩, hHole⟩

/-- A hole stands at the route in one of the siblings, the first of which is child `index`. -/
def HoleAmong (index : Nat) (es : List (Exp G)) (r : Route) : Prop :=
  ∃ i q e, r = (index + i) :: q ∧ es[i]? = some e ∧ e.HoleAt q

theorem holeAmong_cons {index : Nat} {e : Exp G} {rest : List (Exp G)} {r : Route} :
    HoleAmong index (e :: rest) r ↔
      (∃ q, r = index :: q ∧ e.HoleAt q) ∨ HoleAmong (index + 1) rest r := by
  constructor
  · rintro ⟨i, q, sibling, hRoute, hSibling, hHole⟩
    cases i with
    | zero =>
        cases hSibling
        exact .inl ⟨q, hRoute, hHole⟩
    | succ i => exact .inr ⟨i, q, sibling, by rw [hRoute]; congr 1; omega, hSibling, hHole⟩
  · rintro (⟨q, hRoute, hHole⟩ | ⟨i, q, sibling, hRoute, hSibling, hHole⟩)
    · exact ⟨0, q, e, hRoute, rfl, hHole⟩
    · exact ⟨i + 1, q, sibling, by rw [hRoute]; congr 1; omega, hSibling, hHole⟩

theorem holeAmong_children {e : Exp G} {r : Route} (hHole : ¬ e.isHole = true) :
    HoleAmong 0 e.children r ↔ e.HoleAt r := by
  cases r with
  | nil => simp [HoleAmong, holeAt_nil, hHole]
  | cons index r =>
      rw [holeAt_cons]
      constructor
      · rintro ⟨i, q, child, hRoute, hChild, hq⟩
        rw [Nat.zero_add] at hRoute
        cases hRoute
        exact ⟨child, hChild, hq⟩
      · rintro ⟨child, hChild, hr⟩
        exact ⟨index, r, child, by rw [Nat.zero_add], hChild, hr⟩

theorem firstHoleAmong_cons (skip : Option Route) (index : Nat) (e : Exp G) (rest : List (Exp G)) :
    firstHoleAmong skip index (e :: rest) =
      ((e.firstHole (Route.under? index skip)).map (index :: ·)).or
        (firstHoleAmong skip (index + 1) rest) := by
  rw [firstHoleAmong]
  cases e.firstHole (Route.under? index skip) with
  | none => rfl
  | some route => rfl

/-- The search through siblings finds the first hole in them, if the search through each one does. -/
theorem firstHoleAmong_isFirst {skip : Option Route} (hSkip : skip ≠ some []) {es : List (Exp G)}
    (hEach : ∀ e ∈ es, ∀ skip,
      Route.IsFirst (fun r => e.HoleAt r ∧ Route.Outside skip r) (e.firstHole skip)) (index : Nat) :
    Route.IsFirst (fun r => HoleAmong index es r ∧ Route.Outside skip r)
      (firstHoleAmong skip index es) := by
  induction es generalizing index with
  | nil =>
      rintro r ⟨⟨_, _, _, _, hNone, _⟩, _⟩
      cases hNone
  | cons e rest ih =>
      obtain ⟨hHead, hTail⟩ := List.forall_mem_cons.mp hEach
      have hFirst := (hHead (Route.under? index skip)).under index
      rw [firstHoleAmong_cons]
      refine (hFirst.or (ih hTail (index + 1)) ?_).congr fun r => ?_
      · -- All routes through the first sibling come before those through a later one.
        rintro _ _ ⟨q, rfl, _⟩ ⟨⟨i, q', _, rfl, _⟩, _⟩
        exact Route.precedes_of_lt (by omega) q q'
      · rw [holeAmong_cons, or_and_right]
        refine or_congr_left ?_
        constructor
        · rintro ⟨q, rfl, hHole, hOutside⟩
          exact ⟨⟨q, rfl, hHole⟩, (Route.outside_cons hSkip index q).mpr hOutside⟩
        · rintro ⟨⟨q, rfl, hHole⟩, hOutside⟩
          exact ⟨q, rfl, hHole, (Route.outside_cons hSkip index q).mp hOutside⟩

/-- The search finds the first hole outside the subtree that is left out, or tells that there is
none. -/
theorem firstHole_isFirst (e : Exp G) (skip : Option Route) :
    Route.IsFirst (fun r => e.HoleAt r ∧ Route.Outside skip r) (e.firstHole skip) := by
  induction e using childInduction generalizing skip with
  | node slot rule value children ih =>
      rw [firstHole]
      by_cases hSkip : skip = some []
      · rw [if_pos hSkip, hSkip]
        rintro r ⟨_, hOutside⟩
        exact hOutside [] rfl List.nil_prefix
      · rw [if_neg hSkip]
        by_cases hHole : G.isHole slot rule = true
        · rw [if_pos hHole]
          exact ⟨⟨holeAt_nil.mpr hHole, Route.outside_nil.mpr hSkip⟩,
            fun q _ => Route.precedes_root q⟩
        · rw [if_neg hHole]
          refine (firstHoleAmong_isFirst hSkip ih 0).congr fun r => ?_
          exact and_congr_left' (holeAmong_children (e := .node slot rule value children) hHole)

/-- A hole stands at the route, not in the subtree that is left out, and no other such hole comes
before it. -/
structure FirstHoleAt (e : Exp G) (skip : Option Route) (r : Route) : Prop where
  hole : e.HoleAt r
  outside : Route.Outside skip r
  first : ∀ q, e.HoleAt q → Route.Outside skip q → Route.Precedes r q

/-- That a route is first is just what makes it the answer of a right search. -/
theorem firstHoleAt_iff {e : Exp G} {skip : Option Route} {r : Route} :
    e.FirstHoleAt skip r ↔
      Route.IsFirst (fun r => e.HoleAt r ∧ Route.Outside skip r) (some r) := by
  constructor
  · intro h
    exact ⟨⟨h.hole, h.outside⟩, fun q hq => h.first q hq.1 hq.2⟩
  · intro h
    exact ⟨h.1.1, h.1.2, fun q hHole hOutside => h.2 q ⟨hHole, hOutside⟩⟩

/-- The search through a tree in any grammar answers with a route exactly if the first hole outside
the subtree that is left out stands there. It answers with none exactly if there is no such first
hole, which is exactly if all holes are in the subtree that is left out. -/
theorem firstHole_preorder (e : Exp G) (skip : Option Route) :
    (∀ r, e.firstHole skip = some r ↔ e.FirstHoleAt skip r) ∧
      (e.firstHole skip = none ↔ ¬ ∃ r, e.FirstHoleAt skip r) ∧
      (e.firstHole skip = none ↔ ∀ r, e.HoleAt r → ¬ Route.Outside skip r) := by
  have hSearch := e.firstHole_isFirst skip
  have hSome : ∀ r, e.firstHole skip = some r ↔ e.FirstHoleAt skip r := by
    intro r
    rw [firstHoleAt_iff]
    constructor
    · intro hAnswer
      rwa [hAnswer] at hSearch
    · intro hFirst
      exact hSearch.unique hFirst
  refine ⟨hSome, ?_, ?_⟩
  · simp only [Option.eq_none_iff_forall_ne_some, ne_eq, hSome, not_exists]
  · constructor
    · intro hAnswer r hHole hOutside
      rw [hAnswer] at hSearch
      exact hSearch r ⟨hHole, hOutside⟩
    · intro hNone
      have hFirst : Route.IsFirst (fun r => e.HoleAt r ∧ Route.Outside skip r) none :=
        fun r hr => hNone r hr.1 hr.2
      exact hSearch.unique hFirst

end Exp

end TreeEditor
