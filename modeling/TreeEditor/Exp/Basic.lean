import TreeEditor.Grammar

/-! Expression trees over a grammar. The type itself does not tie a node to its grammar: checked
construction is in `TreeEditor.Exp.Build`, so that a tree which breaks the grammar can still be
named, compared and printed. -/

namespace TreeEditor

/-- A tree node: the slot it fills, the rule that made it, its value and its children in order. -/
inductive Exp (G : Grammar) where
  | node (slot : G.Slot) (rule : G.Rule) (value : G.Value) (children : List (Exp G))

/-- Child indices that lead from a node down to one of its descendants. -/
abbrev Route := List Nat

namespace Exp

variable {G : Grammar}

def slot : Exp G → G.Slot
  | node slot _ _ _ => slot

def rule : Exp G → G.Rule
  | node _ rule _ _ => rule

def value : Exp G → G.Value
  | node _ _ value _ => value

def children : Exp G → List (Exp G)
  | node _ _ _ children => children

def child? (e : Exp G) (index : Nat) : Option (Exp G) :=
  e.children[index]?

/-- The same node with another value. -/
def withValue (e : Exp G) (value : G.Value) : Exp G :=
  node e.slot e.rule value e.children

mutual

/-- The number of nodes of a tree. -/
def size : Exp G → Nat
  | node _ _ _ children => 1 + sizeAll children

/-- The number of nodes of a list of trees. -/
def sizeAll : List (Exp G) → Nat
  | [] => 0
  | e :: rest => e.size + sizeAll rest

end

mutual

/-- Equality of trees is decided node by node. -/
def decEq : (a b : Exp G) → Decidable (a = b)
  | node s r v xs, node s' r' v' ys =>
      if hs : s = s' then
        if hr : r = r' then
          if hv : v = v' then
            match decEqAll xs ys with
            | .isTrue h => .isTrue (by rw [hs, hr, hv, h])
            | .isFalse h => .isFalse (by simp [h])
          else .isFalse (by simp [hv])
        else .isFalse (by simp [hr])
      else .isFalse (by simp [hs])

/-- Equality of lists of trees, position by position. -/
def decEqAll : (xs ys : List (Exp G)) → Decidable (xs = ys)
  | [], [] => .isTrue rfl
  | [], _ :: _ => .isFalse (by simp)
  | _ :: _, [] => .isFalse (by simp)
  | x :: xs, y :: ys =>
      match decEq x y with
      | .isTrue hx =>
          match decEqAll xs ys with
          | .isTrue hxs => .isTrue (by rw [hx, hxs])
          | .isFalse hxs => .isFalse (by simp [hxs])
      | .isFalse hx => .isFalse (by simp [hx])

end

instance : DecidableEq (Exp G) := decEq

/-- What holds of a node as soon as it holds of its children holds of every tree. -/
@[elab_as_elim]
theorem childInduction {motive : Exp G → Prop}
    (node : ∀ slot rule value children, (∀ e ∈ children, motive e) →
      motive (.node slot rule value children)) (e : Exp G) : motive e :=
  @Exp.rec G motive (fun es => ∀ e ∈ es, motive e) node (by simp)
    (fun _ _ hFirst hRest => List.forall_mem_cons.mpr ⟨hFirst, hRest⟩) e

end Exp

end TreeEditor
