import TreeEditor.Language.Alpha.Layout
import TreeEditor.Language.Alpha.Query

/-! The written form of Alpha programs with the marks of a display, as a grammar of texts. The layout
writes texts of this grammar, and the grammar is unambiguous: a text has at most one reading. How
far a line is indented does not matter for its reading, only that there is a line end. -/

namespace TreeEditor.Alpha

/-- How much of a text is read: an operand, which stands by itself wherever it is put, or a whole
program, which may be an application without parentheses. -/
inductive Extent where
  | operand
  | whole

/-- The marks of a display without a query. -/
inductive Focus where
  | cursor
  | top
  | bottom

namespace Focus

def mark : Focus → Node grammar → Node grammar
  | cursor, n => .cursor n
  | top, n => .top true n
  | bottom, n => .bottom n

def opening : Focus → List Char
  | cursor => ['\x7b']
  | top => ['[', '0', ']', '\x7b']
  | bottom => ['[', '1', ']', '\x7b']

def closing : Focus → List Char
  | cursor => ['\x7d']
  | top => ['\x7d', '[', '0', ']']
  | bottom => ['\x7d', '[', '1', ']']

end Focus

/-- What stands between a function and its argument: a blank, or a line end with blanks of any
number after it. -/
inductive Gap : Bool → List Char → Prop where
  | blank : Gap false [' ']
  | line (width : Nat) : Gap true ('\n' :: List.replicate width ' ')

/-- The marked programs that a text can be read as. -/
inductive Reads : Extent → Node grammar → List Char → Prop where
  | var {label : String} (h : isLabel label = true) :
      Reads .operand (.exp Slot.exp Rule.var (Value.var label) []) label.toList
  | hole : Reads .operand (.exp Slot.exp Rule.hol Value.hol []) ['?']
  | marked (focus : Focus) {n : Node grammar} {t : List Char} (h : Reads .whole n t) :
      Reads .operand (focus.mark n) (focus.opening ++ t ++ focus.closing)
  | parens {n : Node grammar} {t : List Char} (h : Reads .whole n t) :
      Reads .operand n ('(' :: t ++ [')'])
  | alone {n : Node grammar} {t : List Char} (h : Reads .operand n t) : Reads .whole n t
  | app {indented : Bool} {f a : Node grammar} {t gap u : List Char} (hFunction : Reads .operand f t)
      (hGap : Gap indented gap) (hArgument : Reads .operand a u) :
      Reads .whole (.exp Slot.exp Rule.app (Value.app indented) [f, a]) (t ++ gap ++ u)

/-- The characters that can follow a text of this extent. -/
def Extent.stops : Extent → Char → Bool
  | operand, c => c = ' ' || c = '\n' || c = ')' || c = '\x7d'
  | whole, c => c = ')' || c = '\x7d'

/-- The rest of a text does not continue what was read before it. -/
def Extent.Ends (x : Extent) (rest : List Char) : Prop :=
  ∀ c ∈ rest.head?, x.stops c = true

/-- A run of characters of one class is cut off a text in one way only, provided that no character
of the class follows it. -/
theorem run_unique (belongs : Char → Bool) {l l' r r' : List Char}
    (hRun : ∀ c ∈ l, belongs c = true) (hRun' : ∀ c ∈ l', belongs c = true)
    (hRest : ∀ c ∈ r.head?, belongs c = false) (hRest' : ∀ c ∈ r'.head?, belongs c = false)
    (h : l ++ r = l' ++ r') : l = l' ∧ r = r' := by
  have hNone : ∀ rest : List Char, (∀ c ∈ rest.head?, belongs c = false) →
      rest.takeWhile belongs = [] := by
    intro rest hHead
    cases rest with
    | nil => rfl
    | cons c rest => simp [hHead c rfl]
  have hTake := congrArg (List.takeWhile belongs) h
  rw [List.takeWhile_append_of_pos hRun, List.takeWhile_append_of_pos hRun', hNone r hRest,
    hNone r' hRest', List.append_nil, List.append_nil] at hTake
  rw [hTake] at h
  exact ⟨hTake, List.append_cancel_left h⟩

/-- The signs of the written form do not occur in names. -/
theorem continuesLabel_sign {c : Char}
    (h : c ∈ [' ', '\n', '(', ')', '[', '?', '\x7b', '\x7d']) : continuesLabel c = false := by
  have hSigns : [' ', '\n', '(', ')', '[', '?', '\x7b', '\x7d'].all (!continuesLabel ·) = true := by
    decide
  simpa using List.all_eq_true.mp hSigns c h

theorem isLabel_chars {label : String} (h : isLabel label = true) :
    label.toList ≠ [] ∧ ∀ c ∈ label.toList, continuesLabel c = true := by
  unfold isLabel at h
  cases hChars : label.toList with
  | nil =>
      rw [hChars] at h
      cases h
  | cons first rest =>
      rw [hChars, Bool.and_eq_true, List.all_eq_true] at h
      refine ⟨List.cons_ne_nil first rest, List.forall_mem_cons.mpr ⟨?_, h.2⟩⟩
      simp only [startsLabel, Bool.or_eq_true] at h
      simp only [continuesLabel, Bool.or_eq_true]
      rcases h.1 with hLetter | hLine
      · exact .inl (.inl (.inl hLetter))
      · exact .inl (.inr hLine)

/-- No sign stands at the front of a name. -/
theorem isLabel_front {label : String} (h : isLabel label = true) (rest : List Char) :
    ∃ c tail, label.toList ++ rest = c :: tail ∧ continuesLabel c = true := by
  obtain ⟨hSome, hAll⟩ := isLabel_chars h
  obtain ⟨first, tail, hChars⟩ := List.exists_cons_of_ne_nil hSome
  refine ⟨first, tail ++ rest, by rw [hChars]; rfl, hAll first ?_⟩
  exact hChars ▸ List.mem_cons_self ..

/-- The forms of operands, as their first characters tell them apart. -/
inductive Form where
  | name
  | hole
  | marked
  | parens
deriving DecidableEq

def form (text : List Char) : Form :=
  match text.head? with
  | some '?' => .hole
  | some '(' => .parens
  | some '[' | some '\x7b' => .marked
  | _ => .name

@[simp]
theorem form_hole (rest : List Char) : form ('?' :: rest) = .hole := rfl

@[simp]
theorem form_parens (rest : List Char) : form ('(' :: rest) = .parens := rfl

@[simp]
theorem form_opening (focus : Focus) (rest : List Char) :
    form (focus.opening ++ rest) = .marked := by
  cases focus <;> rfl

theorem form_label {label : String} (h : isLabel label = true) (rest : List Char) :
    form (label.toList ++ rest) = .name := by
  obtain ⟨c, tail, hText, hName⟩ := isLabel_front h rest
  rw [hText, form, List.head?_cons]
  split
  case h_5 => rfl
  all_goals
    next hSign =>
      rw [Option.some.inj hSign, continuesLabel_sign (by decide)] at hName
      cases hName

namespace Extent

theorem ends_nil (x : Extent) : x.Ends [] := by
  intro c hc
  cases hc

theorem ends_cons {x : Extent} {c : Char} {rest : List Char} :
    x.Ends (c :: rest) ↔ x.stops c = true := by
  simp [Ends]

theorem Ends.toOperand {rest : List Char} (h : whole.Ends rest) : operand.Ends rest := by
  intro c hc
  have hStops := h c hc
  simp only [stops, Bool.or_eq_true] at hStops ⊢
  rcases hStops with hParens | hBrace
  · exact .inl (.inr hParens)
  · exact .inr hBrace

/-- What follows an operand does not belong to a name. -/
theorem Ends.not_label {rest : List Char} (h : operand.Ends rest) :
    ∀ c ∈ rest.head?, continuesLabel c = false := by
  intro c hc
  have hStops := h c hc
  simp only [stops, Bool.or_eq_true, decide_eq_true_eq] at hStops
  apply continuesLabel_sign
  rcases hStops with ((rfl | rfl) | rfl) | rfl <;> decide

theorem ends_closing (x : Extent) (focus : Focus) (rest : List Char) :
    x.Ends (focus.closing ++ rest) := by
  cases focus <;> cases x <;> exact ends_cons.mpr rfl

end Extent

theorem Focus.opening_unique {focus focus' : Focus} {r r' : List Char}
    (h : focus.opening ++ r = focus'.opening ++ r') : focus = focus' ∧ r = r' := by
  cases focus <;> cases focus' <;> simp_all [opening]

namespace Gap

variable {indented indented' : Bool} {gap gap' r r' : List Char}

theorem ends (h : Gap indented gap) (rest : List Char) : Extent.operand.Ends (gap ++ rest) := by
  cases h with
  | blank => exact Extent.ends_cons.mpr rfl
  | line width => exact Extent.ends_cons.mpr rfl

/-- A whole program cannot be followed by a gap: it would be the function of an application. -/
theorem not_ends (h : Gap indented gap) (rest : List Char) : ¬ Extent.whole.Ends (gap ++ rest) := by
  intro hEnds
  cases h with
  | blank => exact absurd (Extent.ends_cons.mp hEnds) (by decide)
  | line width => exact absurd (Extent.ends_cons.mp hEnds) (by decide)

theorem unique (h : Gap indented gap) (h' : Gap indented' gap')
    (hRest : ∀ c ∈ r.head?, decide (c = ' ') = false)
    (hRest' : ∀ c ∈ r'.head?, decide (c = ' ') = false) (hText : gap ++ r = gap' ++ r') :
    indented = indented' ∧ r = r' := by
  cases h with
  | blank =>
      cases h' with
      | blank => exact ⟨rfl, List.append_cancel_left hText⟩
      | line width => cases hText
  | line width =>
      cases h' with
      | blank => cases hText
      | line width' =>
          refine ⟨rfl, ?_⟩
          refine (run_unique (fun c => decide (c = ' ')) ?_ ?_ hRest hRest'
            (List.cons.inj hText).2).2
          · intro c hc
            exact decide_eq_true (List.eq_of_mem_replicate hc)
          · intro c hc
            exact decide_eq_true (List.eq_of_mem_replicate hc)

end Gap

namespace Reads

variable {x : Extent} {n n' : Node grammar} {t t' r r' : List Char}

theorem not_blank (h : Reads .operand n t) (rest : List Char) :
    ∀ c ∈ (t ++ rest).head?, decide (c = ' ') = false := by
  intro c hc
  cases h with
  | var hLabel =>
      obtain ⟨first, tail, hText, hName⟩ := isLabel_front hLabel rest
      rw [hText] at hc
      cases hc
      rw [decide_eq_false_iff_not]
      rintro rfl
      rw [continuesLabel_sign (by decide)] at hName
      cases hName
  | hole =>
      cases hc
      rfl
  | marked focus hInner =>
      cases focus <;>
      · cases hc
        rfl
  | parens hInner =>
      cases hc
      rfl

/-- A text has at most one reading, and it is known where the reading ends. -/
theorem unique (h : Reads x n t) (h' : Reads x n' t') (hEnds : x.Ends r) (hEnds' : x.Ends r')
    (hText : t ++ r = t' ++ r') : n = n' ∧ r = r' := by
  induction h generalizing n' t' r r' with
  | var hLabel =>
      have hForm := congrArg form hText
      rw [form_label hLabel] at hForm
      cases h' with
      | var hLabel' =>
          obtain ⟨hName, hRest⟩ := run_unique continuesLabel (isLabel_chars hLabel).2
            (isLabel_chars hLabel').2 hEnds.not_label hEnds'.not_label hText
          rw [String.toList_inj.mp hName]
          exact ⟨rfl, hRest⟩
      | _ => simp at hForm
  | hole =>
      have hForm := congrArg form hText
      cases h' with
      | hole => exact ⟨rfl, List.append_cancel_left hText⟩
      | var hLabel' => simp [form_label hLabel'] at hForm
      | _ => simp at hForm
  | marked focus hInner ih =>
      have hForm := congrArg form hText
      cases h' with
      | marked focus' hInner' =>
          simp only [List.append_assoc] at hText
          obtain ⟨rfl, hInside⟩ := Focus.opening_unique hText
          obtain ⟨rfl, hClosing⟩ :=
            ih hInner' (Extent.ends_closing _ _ _) (Extent.ends_closing _ _ _) hInside
          exact ⟨rfl, List.append_cancel_left hClosing⟩
      | var hLabel' => simp [form_label hLabel'] at hForm
      | _ => simp at hForm
  | parens hInner ih =>
      have hForm := congrArg form hText
      cases h' with
      | parens hInner' =>
          simp only [List.cons_append, List.append_assoc, List.cons.injEq, true_and] at hText
          obtain ⟨rfl, hClosing⟩ :=
            ih hInner' (Extent.ends_cons.mpr rfl) (Extent.ends_cons.mpr rfl) hText
          exact ⟨rfl, (List.cons.inj hClosing).2⟩
      | var hLabel' => simp [form_label hLabel'] at hForm
      | _ => simp at hForm
  | alone hOperand ih =>
      cases h' with
      | alone hOperand' => exact ih hOperand' hEnds.toOperand hEnds'.toOperand hText
      | app hFunction hGap hArgument =>
          rw [List.append_assoc, List.append_assoc] at hText
          obtain ⟨_, hRest⟩ := ih hFunction hEnds.toOperand (hGap.ends _) hText
          exact absurd (hRest ▸ hEnds) (hGap.not_ends _)
  | app hFunction hGap hArgument ihFunction ihArgument =>
      rw [List.append_assoc, List.append_assoc] at hText
      cases h' with
      | alone hOperand' =>
          obtain ⟨_, hRest⟩ := ihFunction hOperand' (hGap.ends _) hEnds'.toOperand hText
          exact absurd (hRest ▸ hEnds') (hGap.not_ends _)
      | app hFunction' hGap' hArgument' =>
          rw [List.append_assoc, List.append_assoc] at hText
          obtain ⟨rfl, hRest⟩ := ihFunction hFunction' (hGap.ends _) (hGap'.ends _) hText
          obtain ⟨rfl, hRest⟩ :=
            hGap.unique hGap' (hArgument.not_blank _) (hArgument'.not_blank _) hRest
          obtain ⟨rfl, hRest⟩ := ihArgument hArgument' hEnds.toOperand hEnds'.toOperand hRest
          exact ⟨rfl, hRest⟩

end Reads

/-- The characters of a text with two blanks put after every line end. -/
def widen (text : List Char) : List Char :=
  text.flatMap fun c => if c = '\n' then ['\n', ' ', ' '] else [c]

theorem toList_indent (text : String) : (indent text).toList = widen text.toList :=
  String.toList_ofList

@[simp]
theorem widen_append (t u : List Char) : widen (t ++ u) = widen t ++ widen u :=
  List.flatMap_append

theorem widen_eq_self {t : List Char} (h : '\n' ∉ t) : widen t = t := by
  induction t with
  | nil => rfl
  | cons c rest ih =>
      rw [List.mem_cons, not_or] at h
      have hSame : widen (c :: rest) = c :: widen rest := by
        simp [widen, Ne.symm h.1]
      rw [hSame, ih h.2]

theorem Gap.widen {indented : Bool} {gap : List Char} (h : Gap indented gap) :
    Gap indented (widen gap) := by
  cases h with
  | blank => exact .blank
  | line width =>
      have hBlanks : Alpha.widen (List.replicate width ' ') = List.replicate width ' ' := by
        apply widen_eq_self
        intro hLine
        exact absurd (List.eq_of_mem_replicate hLine) (by decide)
      have hWiden : Alpha.widen ('\n' :: List.replicate width ' ') =
          '\n' :: List.replicate (width + 2) ' ' := by
        rw [← List.singleton_append, widen_append, hBlanks]
        rfl
      rw [hWiden]
      exact .line (width + 2)

/-- Indenting a text further does not change its reading. -/
theorem Reads.widen {x : Extent} {n : Node grammar} {t : List Char} (h : Reads x n t) :
    Reads x n (widen t) := by
  induction h with
  | @var label hLabel =>
      rw [widen_eq_self]
      · exact .var hLabel
      · intro hLine
        have hName := (isLabel_chars hLabel).2 _ hLine
        rw [continuesLabel_sign (by decide)] at hName
        cases hName
  | hole => exact .hole
  | marked focus hInner ih =>
      have hOpening : Alpha.widen focus.opening = focus.opening := by
        cases focus <;> rfl
      have hClosing : Alpha.widen focus.closing = focus.closing := by
        cases focus <;> rfl
      rw [widen_append, widen_append, hOpening, hClosing]
      exact .marked focus ih
  | parens hInner ih =>
      rw [widen_append]
      exact .parens ih
  | alone hOperand ih => exact .alone ih
  | app hFunction hGap hArgument ihFunction ihArgument =>
      rw [widen_append, widen_append]
      exact .app ihFunction hGap.widen ihArgument

/-- The marked programs that a display without a query shows. -/
inductive Shown : Node grammar → Prop where
  | var {label : String} (h : isLabel label = true) :
      Shown (.exp Slot.exp Rule.var (Value.var label) [])
  | hole : Shown (.exp Slot.exp Rule.hol Value.hol [])
  | app (indented : Bool) {f a : Node grammar} (hFunction : Shown f) (hArgument : Shown a) :
      Shown (.exp Slot.exp Rule.app (Value.app indented) [f, a])
  | marked (focus : Focus) {n : Node grammar} (h : Shown n) : Shown (focus.mark n)

theorem Focus.print_mark (focus : Focus) (n : Node grammar) :
    ((focus.mark n).print layout).toList =
      focus.opening ++ (n.print layout).toList ++ focus.closing := by
  cases focus <;> simp [mark, Node.print, opening, closing]

/-- What the parent of a node writes for it reads as an operand. -/
theorem Reads.layoutKid {n : Node grammar} {text : String} (hWhole : Reads .whole n text.toList)
    (hOperand : n.rule ≠ Rule.app → Reads .operand n text.toList) :
    Reads .operand n (layoutKid .app n.rule text).toList := by
  cases hRule : n.rule with
  | app =>
      have hText : (Alpha.layoutKid .app .app text).toList = '(' :: text.toList ++ [')'] := by
        simp [Alpha.layoutKid]
      rw [hText]
      exact .parens hWhole
  | var => exact hOperand (by rw [hRule]; decide)
  | hol => exact hOperand (by rw [hRule]; decide)

/-- The written form of a marked program reads as that program. One that is not an application under
its marks also reads as an operand. -/
theorem Shown.reads {n : Node grammar} (h : Shown n) :
    Reads .whole n (n.print layout).toList ∧
      (n.rule ≠ Rule.app → Reads .operand n (n.print layout).toList) := by
  induction h with
  | var hLabel => exact ⟨.alone (.var hLabel), fun _ => .var hLabel⟩
  | hole => exact ⟨.alone .hole, fun _ => .hole⟩
  | marked focus hInner ih =>
      rw [focus.print_mark]
      exact ⟨.alone (.marked focus ih.1), fun _ => .marked focus ih.1⟩
  | @app indented f a hFunction hArgument ihFunction ihArgument =>
      refine ⟨?_, fun hRule => absurd rfl hRule⟩
      have hF := Reads.layoutKid ihFunction.1 ihFunction.2
      have hA := Reads.layoutKid ihArgument.1 ihArgument.2
      cases indented with
      | false =>
          have hText := Reads.app hF .blank hA
          simpa [Node.print, Node.printKids, layout, layoutNode] using hText
      | true =>
          have hText := Reads.app hF (.line 2) hA.widen
          simpa [Node.print, Node.printKids, layout, layoutNode, toList_indent] using hText

/-- The written form tells marked programs apart. -/
theorem Shown.print_injective {n n' : Node grammar} (h : Shown n) (h' : Shown n')
    (hText : n.print layout = n'.print layout) : n = n' := by
  refine (h.reads.1.unique h'.reads.1 (Extent.ends_nil _) (Extent.ends_nil _) ?_).1
  rw [hText]

end TreeEditor.Alpha
