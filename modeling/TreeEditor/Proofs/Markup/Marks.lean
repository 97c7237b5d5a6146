import TreeEditor.Markup.Render
import TreeEditor.Proofs.Descent
import TreeEditor.Proofs.Editing.TreeEdit

/-! What a marked tree says: the plain tree under its marks, and which marks stand at which routes.
Putting a marked tree into frames puts the plain tree into the same frames and moves the marks
along the route of the frames. It brings no mark of its own. So the marked tree of a state gives
back the tree that is edited and the places that are marked in it. -/

namespace TreeEditor

variable {G : Grammar}

/-- The marks of a marked tree, without what stands under them. -/
inductive Mark where
  | cursor
  | top (valid : Bool)
  | bottom
  | replace
  | insert
  | invalid (text : String)
deriving DecidableEq

/-- Marks and the routes at which they stand, seen from further up. -/
def Mark.under (route : Route) (marks : List (Mark × Route)) : List (Mark × Route) :=
  marks.map fun (mark, below) => (mark, route ++ below)

namespace Mark

@[simp]
theorem under_nil (route : Route) : under route [] = [] := rfl

@[simp]
theorem under_cons (route below : Route) (mark : Mark) (rest : List (Mark × Route)) :
    under route ((mark, below) :: rest) = (mark, route ++ below) :: under route rest := rfl

@[simp]
theorem under_root (marks : List (Mark × Route)) : under [] marks = marks := by
  simp [under]

theorem under_append (r q : Route) (marks : List (Mark × Route)) :
    under (r ++ q) marks = under r (under q marks) := by
  simp [under]

end Mark

namespace Node

mutual

/-- The tree as it would be without marks. A replacement counts as made: its preview stays, and what
it would replace goes. -/
def plain : Node G → Node G
  | exp slot rule value kids => exp slot rule value (plainAll kids)
  | cursor kid | top _ kid | bottom kid | insert kid | invalid _ kid => kid.plain
  | replace preview _ => preview.plain

def plainAll : List (Node G) → List (Node G)
  | [] => []
  | n :: rest => n.plain :: plainAll rest

end

mutual

/-- All marks with their routes, those further up first. -/
def marks : Node G → List (Mark × Route)
  | exp _ _ _ kids => kidMarks 0 kids
  | cursor kid => (.cursor, []) :: kid.marks
  | top valid kid => (.top valid, []) :: kid.marks
  | bottom kid => (.bottom, []) :: kid.marks
  | replace preview kid => (.replace, []) :: preview.marks ++ kid.marks
  | insert kid => (.insert, []) :: kid.marks
  | invalid text kid => (.invalid text, []) :: kid.marks

/-- The marks of siblings, the first of which is child `index`. -/
def kidMarks : Nat → List (Node G) → List (Mark × Route)
  | _, [] => []
  | index, n :: rest => Mark.under [index] n.marks ++ kidMarks (index + 1) rest

end

@[simp]
theorem plainAll_append (ns ms : List (Node G)) :
    plainAll (ns ++ ms) = plainAll ns ++ plainAll ms := by
  induction ns with
  | nil => rfl
  | cons n rest ih => simp [plainAll, ih]

theorem kidMarks_append (index : Nat) (ns ms : List (Node G)) :
    kidMarks index (ns ++ ms) = kidMarks index ns ++ kidMarks (index + ns.length) ms := by
  induction ns generalizing index with
  | nil => rfl
  | cons n rest ih =>
      rw [List.cons_append, kidMarks, kidMarks, ih, List.append_assoc, List.length_cons,
        Nat.add_right_comm, Nat.add_assoc]

@[simp]
theorem ofExps_append (es fs : List (Exp G)) : ofExps (es ++ fs) = ofExps es ++ ofExps fs := by
  induction es with
  | nil => rfl
  | cons e rest ih => simp [ofExps, ih]

@[simp]
theorem length_ofExps (es : List (Exp G)) : (ofExps es).length = es.length := by
  induction es with
  | nil => rfl
  | cons e rest ih => simp [ofExps, ih]

mutual

/-- A tree without marks is plain. -/
@[simp]
theorem plain_ofExp : (e : Exp G) → (ofExp e).plain = ofExp e
  | .node slot rule value children => by rw [ofExp, plain, plainAll_ofExps children]

@[simp]
theorem plainAll_ofExps : (es : List (Exp G)) → plainAll (ofExps es) = ofExps es
  | [] => rfl
  | e :: rest => by rw [ofExps, plainAll, plain_ofExp e, plainAll_ofExps rest]

end

mutual

@[simp]
theorem marks_ofExp : (e : Exp G) → (ofExp e).marks = []
  | .node slot rule value children => by rw [ofExp, marks, kidMarks_ofExps 0 children]

@[simp]
theorem kidMarks_ofExps : (index : Nat) → (es : List (Exp G)) → kidMarks index (ofExps es) = []
  | _, [] => rfl
  | index, e :: rest => by
      rw [ofExps, kidMarks, marks_ofExp e, kidMarks_ofExps (index + 1) rest]
      rfl

end

mutual

/-- No two trees look the same without marks. -/
theorem ofExp_injective : {e e' : Exp G} → ofExp e = ofExp e' → e = e'
  | .node slot rule value children, .node slot' rule' value' children', h => by
      rw [ofExp, ofExp] at h
      injection h with hSlot hRule hValue hKids
      rw [hSlot, hRule, hValue, ofExps_injective hKids]

theorem ofExps_injective : {es es' : List (Exp G)} → ofExps es = ofExps es' → es = es'
  | [], [], _ => rfl
  | [], _ :: _, h => by cases h
  | _ :: _, [], h => by cases h
  | e :: rest, e' :: rest', h => by
      rw [ofExps, ofExps] at h
      injection h with hFirst hRest
      rw [ofExp_injective hFirst, ofExps_injective hRest]

end

theorem ofExp_inFrame (e : Exp G) (f : Frame G) : (ofExp e).inFrame f = ofExp (f.plug e) := by
  simp [inFrame, Frame.plug, ofExp, ofExps]

/-- Frames around a tree without marks rebuild the tree. -/
@[simp]
theorem ofExp_within (e : Exp G) (p : Path G) : (ofExp e).within p = ofExp (p.plug e) := by
  induction p generalizing e with
  | nil => rfl
  | cons f outer ih => rw [within, ofExp_inFrame, ih, Path.plug_cons]

theorem plain_inFrame (n : Node G) (f : Frame G) : (n.inFrame f).plain = n.plain.inFrame f := by
  simp [inFrame, plain, plainAll]

@[simp]
theorem plain_within (n : Node G) (p : Path G) : (n.within p).plain = n.plain.within p := by
  induction p generalizing n with
  | nil => rfl
  | cons f outer ih => rw [within, ih, plain_inFrame, within]

theorem marks_inFrame (n : Node G) (f : Frame G) :
    (n.inFrame f).marks = Mark.under [f.index] n.marks := by
  simp [inFrame, marks, kidMarks, kidMarks_append, Frame.index]

@[simp]
theorem marks_within (n : Node G) (p : Path G) :
    (n.within p).marks = Mark.under p.route n.marks := by
  induction p generalizing n with
  | nil => simp [within]
  | cons f outer ih => rw [within, ih, marks_inFrame, Path.route_cons, Mark.under_append]

end Node

/-- Where a mode stands in its tree: at the place of the cursor, or between the places of the two ends
of a selection. -/
inductive Places where
  | cursor (focus : Route)
  | select (top bottom : Route)
deriving DecidableEq

def Mode.places : Mode G → Places
  | cursor c => .cursor c.path.route
  | select s => .select s.top.path.route s.bottom.path.route

namespace Editor

/-- Under its marks, the tree that is shown has at the target of the mode whatever the marks there
have under them. -/
theorem plain_markedTree (ed : Editor G) (s : State G) {mark : Node G → Node G} {new : Exp G}
    (h : ∀ focus, focus.plain = .ofExp s.mode.target.exp → (mark focus).plain = .ofExp new) :
    (ed.markedTree s mark).plain = .ofExp (s.mode.target.path.plug new) := by
  unfold markedTree
  cases hMode : s.mode with
  | cursor c =>
      rw [hMode] at h
      have hFocus : (mark (.cursor (.ofExp c.exp))).plain = .ofExp new := by
        apply h
        rw [Node.plain, Node.plain_ofExp]
        rfl
      rw [Node.plain_within, hFocus, Node.ofExp_within]
      rfl
  | select sel =>
      rw [hMode] at h
      have hRange : (mark (.top (ed.isValid sel)
          ((Node.bottom (.ofExp sel.exp)).within sel.below))).plain = .ofExp new := by
        apply h
        rw [Node.plain, Node.plain_within, Node.plain, Node.plain_ofExp, Node.ofExp_within]
        rfl
      rw [Node.plain_within, hRange, Node.ofExp_within]
      rfl

theorem plain_render (ed : Editor G) (s : State G) : (ed.render s).plain = .ofExp s.mode.tree := by
  have hPlain : (ed.markedTree s id).plain = .ofExp (s.mode.target.path.plug s.mode.target.exp) :=
    ed.plain_markedTree s fun _ h => h
  rw [render, hPlain, ← s.mode.target_tree]
  rfl

/-- The marked tree of a state has the marks of its mode and no others. -/
theorem marks_render (ed : Editor G) (s : State G) :
    (ed.render s).marks =
      match s.mode with
      | .cursor c => [(.cursor, c.path.route)]
      | .select sel =>
          [(.top (ed.isValid sel), sel.top.path.route), (.bottom, sel.bottom.path.route)] := by
  unfold render markedTree
  cases s.mode with
  | cursor c => simp [Node.marks]
  | select sel => simp [Node.marks, Selection.top, Selection.bottom_eq, Path.route_append]

/-- States that have the same marked tree differ neither in the tree that is edited nor in the places
that are marked. -/
theorem eq_of_render {ed ed' : Editor G} {s s' : State G} (h : ed.render s = ed'.render s') :
    s.mode.tree = s'.mode.tree ∧ s.mode.places = s'.mode.places := by
  constructor
  · apply Node.ofExp_injective
    rw [← ed.plain_render, ← ed'.plain_render, h]
  · have hMarks := congrArg Node.marks h
    rw [marks_render, marks_render] at hMarks
    cases hMode : s.mode <;> cases hMode' : s'.mode <;> simp_all [Mode.places]

end Editor

end TreeEditor
