import TreeEditor.Zipper.Path

/-! Marked trees: a tree with marks at the focus and at a pending query. -/

namespace TreeEditor

inductive Node (G : Grammar) where
  | exp (slot : G.Slot) (rule : G.Rule) (value : G.Value) (kids : List (Node G))
  /-- The focus. -/
  | cursor (kid : Node G)
  /-- The top end of a selection, and whether the selection is allowed. -/
  | top (valid : Bool) (kid : Node G)
  /-- The bottom end of a selection. -/
  | bottom (kid : Node G)
  /-- The focus, and the tree that a query would put in its place. -/
  | replace (preview kid : Node G)
  /-- The focus inside the frames that a query would put around it. -/
  | insert (kid : Node G)
  /-- The focus, and the text of a query without a candidate. -/
  | invalid (text : String) (kid : Node G)

namespace Node

variable {G : Grammar}

mutual

/-- A tree without marks. -/
def ofExp : Exp G → Node G
  | .node slot rule value children => exp slot rule value (ofExps children)

def ofExps : List (Exp G) → List (Node G)
  | [] => []
  | e :: rest => ofExp e :: ofExps rest

end

/-- The rule of the node under the marks. -/
def rule : Node G → G.Rule
  | exp _ rule _ _ => rule
  | cursor kid | top _ kid | bottom kid | replace _ kid | insert kid | invalid _ kid => kid.rule

/-- Put a marked tree into the open position of a frame. -/
def inFrame (n : Node G) (f : Frame G) : Node G :=
  exp f.slot f.rule f.value (ofExps f.left.reverse ++ n :: ofExps f.right)

/-- Put a marked tree into the open position of a path. -/
def within : Node G → Path G → Node G
  | n, [] => n
  | n, f :: outer => (n.inFrame f).within outer

end Node

end TreeEditor
