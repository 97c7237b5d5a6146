import TreeEditor.Proofs.Editing.Outcome
import TreeEditor.Proofs.Text.Numeral
import TreeEditor.Session.Command

/-! Lines and the queries that they are read as. A line is cut at its last `#` if a text stands
before it and a 64-bit integer behind it; otherwise all of it is text. So a query that is written
with its index is read back as it was, whatever its text holds. -/

namespace TreeEditor

open Outcome

namespace Text

variable {α : Type} [DecidableEq α] {mark : α} {line : List α}

theorem splitLast?_eq_none : splitLast? mark line = none ↔ mark ∉ line := by
  induction line with
  | nil => simp [splitLast?]
  | cons c rest ih =>
      rw [splitLast?, List.mem_cons, not_or, ← ih]
      cases splitLast? mark rest with
      | some parts => simp
      | none => simp [eq_comm]

/-- The cut is at the mark with no other mark behind it. -/
theorem splitLast?_append (before : List α) {after : List α} (h : mark ∉ after) :
    splitLast? mark (before ++ mark :: after) = some (before, after) := by
  induction before with
  | nil => rw [List.nil_append, splitLast?, splitLast?_eq_none.mpr h, if_pos rfl]
  | cons c before ih => rw [List.cons_append, splitLast?, ih]

theorem eq_of_splitLast? {before after : List α} (h : splitLast? mark line = some (before, after)) :
    line = before ++ mark :: after ∧ mark ∉ after := by
  induction line generalizing before with
  | nil => cases h
  | cons c rest ih =>
      rw [splitLast?] at h
      split at h
      · next hRest =>
          cases h
          obtain ⟨rfl, hAfter⟩ := ih hRest
          exact ⟨rfl, hAfter⟩
      · next hRest =>
          split at h
          · next hMark =>
              cases h
              exact ⟨by rw [hMark, List.nil_append], splitLast?_eq_none.mp hRest⟩
          · cases h

end Text

namespace Query

/-- The body ends in `#` and a numeral that is cut off as the index. -/
structure Indexed (body text : String) (index : Int64) (tail : String) : Prop where
  body_eq : body = text ++ "#" ++ tail
  text_ne : text ≠ ""
  unmarked : '#' ∉ tail.toList
  decimal : Text.Decimal index.toInt tail.toList

/-- The query that a body spells. -/
inductive Spelled (body : String) : Query → Prop where
  | indexed {text tail : String} {index : Int64} (h : Indexed body text index tail) :
      Spelled body ⟨text, index⟩
  | plain (h : ∀ text index tail, ¬Indexed body text index tail) : Spelled body ⟨body, 0⟩

end Query

namespace Command

theorem toList_marked (text tail : String) :
    (text ++ "#" ++ tail).toList = text.toList ++ '#' :: tail.toList := by
  simp

theorem splitIndex_indexed {body text tail : String} {index : Int64}
    (h : Query.Indexed body text index tail) : splitIndex body.toList = ⟨text, index⟩ := by
  obtain ⟨rfl, hText, hTail, hIndex⟩ := h
  obtain ⟨c, rest, hChars⟩ := List.exists_cons_of_ne_nil (mt String.toList_eq_nil_iff.mp hText)
  have hWhole : String.ofList (c :: rest) = text := by rw [← hChars, String.ofList_toList]
  simp only [splitIndex, toList_marked, Text.splitLast?_append _ hTail,
    Text.int64?_eq_some.mpr hIndex, hChars, hWhole]

theorem splitIndex_plain {body : String}
    (h : ∀ text index tail, ¬Query.Indexed body text index tail) :
    splitIndex body.toList = ⟨body, 0⟩ := by
  unfold splitIndex
  split
  · next text tail hSplit =>
      obtain ⟨hBody, hTail⟩ := Text.eq_of_splitLast? hSplit
      split
      · next c rest index hIndex =>
          refine absurd ?_ (h (String.ofList (c :: rest)) index (String.ofList tail))
          exact {
            body_eq := by
              rw [← String.toList_inj, hBody, toList_marked, String.toList_ofList,
                String.toList_ofList]
            text_ne := by simp
            unmarked := by rwa [String.toList_ofList]
            decimal := by
              rw [String.toList_ofList]
              exact Text.int64?_eq_some.mp hIndex }
      · rw [String.ofList_toList]
  · rw [String.ofList_toList]

/-- A line is read as what it spells, and it spells one query only. -/
theorem splitIndex_eq_iff {body : String} {q : Query} :
    splitIndex body.toList = q ↔ q.Spelled body := by
  constructor
  · rintro rfl
    by_cases hIndexed : ∃ text index tail, Query.Indexed body text index tail
    · obtain ⟨text, index, tail, h⟩ := hIndexed
      rw [splitIndex_indexed h]
      exact .indexed h
    · have hPlain : ∀ text index tail, ¬Query.Indexed body text index tail :=
        fun text index tail h => hIndexed ⟨text, index, tail, h⟩
      rw [splitIndex_plain hPlain]
      exact .plain hPlain
  · intro h
    cases h with
    | indexed h => exact splitIndex_indexed h
    | plain h => exact splitIndex_plain h

theorem readQuery_eq_ok {body : String} {q : Query} :
    readQuery body.toList = .ok q ↔ q.isBlank = false ∧ q.Spelled body := by
  rw [← splitIndex_eq_iff, readQuery]
  split
  · next hBlank =>
      refine ⟨nofun, ?_⟩
      rintro ⟨hText, rfl⟩
      rw [hBlank] at hText
      cases hText
  · next hBlank =>
      rw [Except.ok.injEq]
      refine ⟨?_, And.right⟩
      rintro rfl
      exact ⟨Bool.eq_false_iff.mpr hBlank, rfl⟩

/-- The line starts with neither of the characters that make it something else than a query. -/
def Unmarked (line : String) : Prop :=
  line.toList.head? ≠ some ':' ∧ line.toList.head? ≠ some '?'

theorem parse_preview (body : String) :
    parse ("?" ++ body) = (readQuery body.toList).map .preview := by
  rw [parse, String.toList_append]
  rfl

theorem parse_unmarked {line : String} (h : Unmarked line) :
    parse line = (readQuery line.toList).map .query := by
  obtain ⟨hName, hPreview⟩ := h
  unfold parse
  split
  · next hLine => simp [hLine] at hName
  · next hLine => simp [hLine] at hPreview
  · rfl

/-- Names stand for no queries. -/
theorem named_ne {name : String} {command : Command} (h : named name = .ok command) (q : Query) :
    command ≠ .query q ∧ command ≠ .preview q := by
  unfold named at h
  split at h
  all_goals cases h
  all_goals exact ⟨nofun, nofun⟩

/-- What a line can be read as: a command by its name, a preview or a query. -/
theorem parse_cases {line : String} {command : Command} (h : parse line = .ok command) :
    (∃ name, named name = .ok command) ∨
      (∃ body q, line = "?" ++ body ∧ readQuery body.toList = .ok q ∧ command = .preview q) ∨
      ∃ q, Unmarked line ∧ readQuery line.toList = .ok q ∧ command = .query q := by
  unfold parse at h
  split at h
  · exact .inl ⟨_, h⟩
  · next body hLine =>
      obtain ⟨q, hRead, rfl⟩ := map_eq_ok.mp h
      refine .inr (.inl ⟨String.ofList body, q, ?_, ?_, rfl⟩)
      · rw [← String.toList_inj, hLine]
        simp
      · rwa [String.toList_ofList]
  · next hName hPreview =>
      obtain ⟨q, hRead, rfl⟩ := map_eq_ok.mp h
      have hUnmarked : Unmarked line := by
        simp only [Unmarked, ne_eq, List.head?_eq_some_iff, not_exists]
        exact ⟨hName, hPreview⟩
      exact .inr (.inr ⟨q, hUnmarked, hRead, rfl⟩)

/-- The lines that are read as queries. -/
theorem parse_eq_query {line : String} {q : Query} :
    parse line = .ok (.query q) ↔ Unmarked line ∧ q.isBlank = false ∧ q.Spelled line := by
  constructor
  · intro h
    rcases parse_cases h with ⟨name, hNamed⟩ | ⟨body, q', _, _, hQuery⟩ | ⟨q', hLine, hRead, hQuery⟩
    · exact absurd rfl (named_ne hNamed q).1
    · cases hQuery
    · cases hQuery
      exact ⟨hLine, readQuery_eq_ok.mp hRead⟩
  · intro h
    rw [parse_unmarked h.1, readQuery_eq_ok.mpr h.2]
    rfl

/-- The lines that are read as previews. -/
theorem parse_eq_preview {line : String} {q : Query} :
    parse line = .ok (.preview q) ↔
      ∃ body, line = "?" ++ body ∧ q.isBlank = false ∧ q.Spelled body := by
  constructor
  · intro h
    rcases parse_cases h with ⟨name, hNamed⟩ | ⟨body, q', hLine, hRead, hQuery⟩ | ⟨q', _, _, hQuery⟩
    · exact absurd rfl (named_ne hNamed q).2
    · cases hQuery
      exact ⟨body, hLine, readQuery_eq_ok.mp hRead⟩
    · cases hQuery
  · rintro ⟨body, rfl, hRead⟩
    rw [parse_preview, readQuery_eq_ok.mpr hRead]
    rfl

theorem Unmarked.append {text : String} (h : Unmarked text) (tail : String) :
    Unmarked (text ++ "#" ++ tail) := by
  unfold Unmarked at h ⊢
  rw [toList_marked]
  cases hText : text.toList with
  | nil => simp
  | cons c rest =>
      rw [hText] at h
      exact h

/-- A text is told from the index that is written behind it. -/
theorem spelled_index {text : String} (hText : Text.isBlank text = false) (index : Int64) :
    Query.Spelled (text ++ "#" ++ toString index) ⟨text, index⟩ := by
  have hDecimal : Text.Decimal index.toInt (toString index).toList := Text.decimal_repr index.toInt
  refine .indexed ⟨rfl, ?_, hDecimal.not_mem rfl (by decide) (by decide), hDecimal⟩
  rintro rfl
  cases hText

/-- A numeral that 64 bits cannot hold is part of the text. -/
theorem spelled_outside {tail : String} {n : Int} (hTail : Text.Decimal n tail.toList)
    (hOutside : n < Int64.minValue.toInt ∨ Int64.maxValue.toInt < n) (text : String) :
    Query.Spelled (text ++ "#" ++ tail) ⟨text ++ "#" ++ tail, 0⟩ := by
  refine .plain fun text' index tail' h => ?_
  -- A body has one last mark, so the index would have to be this numeral.
  have hMark : '#' ∉ tail.toList := hTail.not_mem rfl (by decide) (by decide)
  have hSplit := Text.splitLast?_append text.toList hMark
  rw [← toList_marked, h.body_eq, toList_marked, Text.splitLast?_append _ h.unmarked] at hSplit
  have hSame : tail'.toList = tail.toList := congrArg Prod.snd (Option.some.inj hSplit)
  have hRead := Text.int64?_eq_some.mpr h.decimal
  rw [hSame, Text.int64?_of_outside hTail hOutside] at hRead
  cases hRead

theorem isBlank_marked (text tail : String) : Text.isBlank (text ++ "#" ++ tail) = false := by
  rw [Text.isBlank, toList_marked, List.all_append, List.all_cons]
  have hMark : Text.isBlankChar '#' = false := by decide
  rw [hMark, Bool.false_and, Bool.and_false]

/-- Queries are read back as they were written. A text that is not blank and an index behind it are
told apart again, however many marks the text holds. What is read as a query or as a preview is
never blank, and it is what the line spells: a text with a numeral of its index behind it, or all of
the line with the index zero. A numeral out of range stays in the text. -/
theorem query_lines_read_back :
    (∀ (text : String) (index : Int64), Text.isBlank text = false →
      parse ("?" ++ text ++ "#" ++ toString index) = .ok (.preview ⟨text, index⟩) ∧
        (Unmarked text →
          parse (text ++ "#" ++ toString index) = .ok (.query ⟨text, index⟩))) ∧
      (∀ (line : String) (q : Query), parse line = .ok (.query q) ↔
        Unmarked line ∧ q.isBlank = false ∧ q.Spelled line) ∧
      (∀ (line : String) (q : Query), parse line = .ok (.preview q) ↔
        ∃ body, line = "?" ++ body ∧ q.isBlank = false ∧ q.Spelled body) ∧
      ∀ (text tail : String) (n : Int), Text.Decimal n tail.toList →
        n < Int64.minValue.toInt ∨ Int64.maxValue.toInt < n →
        parse ("?" ++ text ++ "#" ++ tail) = .ok (.preview ⟨text ++ "#" ++ tail, 0⟩) ∧
          (Unmarked text →
            parse (text ++ "#" ++ tail) = .ok (.query ⟨text ++ "#" ++ tail, 0⟩)) := by
  have hAssoc (text tail : String) :
      "?" ++ text ++ "#" ++ tail = "?" ++ (text ++ "#" ++ tail) := by
    rw [String.append_assoc, String.append_assoc, String.append_assoc]
  refine ⟨fun text index hText => ⟨?_, fun hUnmarked => ?_⟩, fun _ _ => parse_eq_query,
    fun _ _ => parse_eq_preview, fun text tail n hTail hOutside => ⟨?_, fun hUnmarked => ?_⟩⟩
  · exact parse_eq_preview.mpr ⟨_, hAssoc _ _, hText, spelled_index hText index⟩
  · exact parse_eq_query.mpr ⟨hUnmarked.append _, hText, spelled_index hText index⟩
  · exact parse_eq_preview.mpr
      ⟨_, hAssoc _ _, isBlank_marked text tail, spelled_outside hTail hOutside text⟩
  · exact parse_eq_query.mpr
      ⟨hUnmarked.append _, isBlank_marked text tail, spelled_outside hTail hOutside text⟩

theorem query_lines_read_back_marked :
    (Text.isBlank "a#1" = false ∧ Unmarked "a#1" ∧
      parse ("?" ++ "a#1" ++ "#" ++ toString Int64.minValue) =
        .ok (.preview ⟨"a#1", Int64.minValue⟩) ∧
      parse ("a#1" ++ "#" ++ toString Int64.minValue) = .ok (.query ⟨"a#1", Int64.minValue⟩)) ∧
      Text.Decimal 9223372036854775808 "9223372036854775808".toList ∧
        Int64.maxValue.toInt < 9223372036854775808 ∧
        parse ("?" ++ "a" ++ "#" ++ "9223372036854775808") =
          .ok (.preview ⟨"a" ++ "#" ++ "9223372036854775808", 0⟩) := by
  have hText : Text.isBlank "a#1" = false := by decide
  have hUnmarked : Unmarked "a#1" := by
    unfold Unmarked
    decide
  have hTail : Text.Decimal 9223372036854775808 "9223372036854775808".toList :=
    Text.integer?_eq_some.mp (by decide)
  have hOutside : Int64.maxValue.toInt < 9223372036854775808 := by decide
  obtain ⟨hWritten, _, _, hLarge⟩ := query_lines_read_back
  obtain ⟨hPreview, hQuery⟩ := hWritten "a#1" Int64.minValue hText
  exact ⟨⟨hText, hUnmarked, hPreview, hQuery hUnmarked⟩, hTail, hOutside,
    (hLarge "a" "9223372036854775808" _ hTail (.inr hOutside)).1⟩

end Command

end TreeEditor
