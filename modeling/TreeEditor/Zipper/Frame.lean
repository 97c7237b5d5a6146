import TreeEditor.Exp.Build
import TreeEditor.Exp.Outline

/-! Frames: nodes with one child taken out. -/

namespace TreeEditor

/-- A node with one open child position. The siblings before it are kept nearest first, those after
it in order. The type does not ask the siblings to be those that the rule declares. -/
structure Frame (G : Grammar) where
  slot : G.Slot
  rule : G.Rule
  value : G.Value
  left : List (Exp G)
  right : List (Exp G)
deriving DecidableEq

variable {G : Grammar}

namespace Frame

/-- The child index of the open position. -/
def index (f : Frame G) : Nat :=
  f.left.length

/-- Put a tree into the open position. Its slot is not checked. -/
def plug (f : Frame G) (e : Exp G) : Exp G :=
  .node f.slot f.rule f.value (f.left.reverse ++ e :: f.right)

/-- The slot that the rule declares at the open position. -/
def holeSlot (f : Frame G) : Except (Fault G) G.Slot :=
  match (G.childSlots f.rule)[f.index]? with
  | some slot => .ok slot
  | none => .error (.beyondSignature (G.arity f.rule) f.index)

/-- A frame of this rule, open at `index`, whose siblings are all holes. Whether the rule belongs to
the slot is not checked. -/
def template (slot : G.Slot) (rule : G.Rule) (value : G.Value) (index : Nat) :
    Except (Fault G) (Frame G) :=
  if index < G.arity rule then do
    let left ← ((G.childSlots rule).take index).reverse.mapM Exp.hole
    let right ← ((G.childSlots rule).drop (index + 1)).mapM Exp.hole
    return { slot, rule, value, left, right }
  else
    .error (.noPosition rule index)

/-- The label of the node with its siblings, and a low line for the open position. -/
def summary (f : Frame G) : String :=
  Exp.label f.rule f.value ++ bracketed (Exp.summaries f.left.reverse) ++ "_" ++
    bracketed (Exp.summaries f.right)

end Frame

/-- Take the child at `index` out of a node. -/
def Exp.split? : Exp G → Nat → Option (Frame G × Exp G)
  | node slot rule value children, index =>
      children[index]?.map fun e =>
        ({ slot, rule, value,
           left := (children.take index).reverse, right := children.drop (index + 1) }, e)

end TreeEditor
