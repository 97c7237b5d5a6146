import TreeEditor.Text.Numeral

/-! What is read as a decimal number: a sign or none, and then digits, of which there is at least
one. A number may be written in many ways, with a plus sign or with zeros in front; the way in which
it is printed is one of them. -/

namespace TreeEditor.Text

/-- Digits and nothing else, at least one. -/
structure Digits (text : List Char) : Prop where
  nonempty : text ≠ []
  all : ∀ c ∈ text, c.isDigit = true

/-- The ways to write an integer in decimal. -/
inductive Decimal : Int → List Char → Prop where
  | bare {digits : List Char} (h : Digits digits) :
      Decimal (Int.ofNat (Nat.ofDigitChars 10 digits 0)) digits
  | plus {digits : List Char} (h : Digits digits) :
      Decimal (Int.ofNat (Nat.ofDigitChars 10 digits 0)) ('+' :: digits)
  | minus {digits : List Char} (h : Digits digits) :
      Decimal (-Int.ofNat (Nat.ofDigitChars 10 digits 0)) ('-' :: digits)

theorem digit?_ten (c : Char) :
    digit? 10 c = if c.isDigit then some (c.toNat - 0x30) else none := by
  simp only [digit?]
  by_cases hDigit : c.isDigit = true
  · have hRange : 0x30 ≤ c.toNat ∧ c.toNat ≤ 0x39 := Char.isDigit_iff_toNat.mp hDigit
    have hBelow : decide (c.toNat - 0x30 < 10) = true := by
      rw [decide_eq_true_eq]
      omega
    rw [if_pos hDigit, if_pos hRange, Option.filter_some, if_pos hBelow]
  · have hRange : ¬(0x30 ≤ c.toNat ∧ c.toNat ≤ 0x39) := mt Char.isDigit_iff_toNat.mpr hDigit
    rw [if_neg hDigit, if_neg hRange]
    split
    · simp
    · split <;> simp

theorem digitsAfter?_eq_some {read n : Nat} {text : List Char} :
    digitsAfter? 10 read text = some n ↔
      (∀ c ∈ text, c.isDigit = true) ∧ Nat.ofDigitChars 10 text read = n := by
  induction text generalizing read with
  | nil => simp [digitsAfter?]
  | cons c rest ih =>
      rw [digitsAfter?, digit?_ten, List.forall_mem_cons, Nat.ofDigitChars_cons]
      by_cases hDigit : c.isDigit = true
      · simp only [hDigit, if_true, true_and]
        exact ih
      · simp [hDigit]

theorem natural?_eq_some {n : Nat} {text : List Char} :
    natural? 10 text = some n ↔ Digits text ∧ Nat.ofDigitChars 10 text 0 = n := by
  cases text with
  | nil => exact ⟨nofun, fun h => absurd rfl h.1.nonempty⟩
  | cons c rest =>
      rw [natural?, digitsAfter?_eq_some]
      · exact ⟨fun h => ⟨⟨List.cons_ne_nil c rest, h.1⟩, h.2⟩, fun h => ⟨h.1.all, h.2⟩⟩
      · exact nofun

/-- A sign is no digit, so digits have none in front. -/
theorem Digits.head_ne {c : Char} {text : List Char} (h : Digits (c :: text)) :
    c ≠ '+' ∧ c ≠ '-' := by
  have hDigit := h.all c List.mem_cons_self
  constructor
  · rintro rfl
    cases hDigit
  · rintro rfl
    cases hDigit

/-- Reading takes exactly the decimal numerals, for the integers that they stand for. -/
theorem integer?_eq_some {n : Int} {text : List Char} :
    integer? text = some n ↔ Decimal n text := by
  constructor
  · intro h
    unfold integer? at h
    split at h
    all_goals
      obtain ⟨value, hRead, rfl⟩ := Option.map_eq_some_iff.mp h
      obtain ⟨hDigits, rfl⟩ := natural?_eq_some.mp hRead
    · exact .plus hDigits
    · exact .minus hDigits
    · exact .bare hDigits
  · intro h
    cases h with
    | plus h => rw [integer?, natural?_eq_some.mpr ⟨h, rfl⟩, Option.map_some]
    | minus h => rw [integer?, natural?_eq_some.mpr ⟨h, rfl⟩, Option.map_some]
    | bare h =>
        obtain ⟨c, rest, rfl⟩ := List.exists_cons_of_ne_nil h.nonempty
        obtain ⟨hPlus, hMinus⟩ := h.head_ne
        rw [integer?, natural?_eq_some.mpr ⟨h, rfl⟩, Option.map_some]
        · simpa using hPlus
        · simpa using hMinus

theorem int64?_eq_some {i : Int64} {text : List Char} :
    int64? text = some i ↔ Decimal i.toInt text := by
  rw [int64?, Option.bind_eq_some_iff]
  constructor
  · intro h
    obtain ⟨n, hRead, h⟩ := h
    split at h
    · next hRange =>
        cases h
        have hValue : (Int64.ofInt n).toInt = n :=
          Int64.toInt_ofInt_of_le hRange.1 (Int.lt_add_one_of_le hRange.2)
        rw [hValue]
        exact integer?_eq_some.mp hRead
    · cases h
  · intro h
    refine ⟨i.toInt, integer?_eq_some.mpr h, ?_⟩
    rw [if_pos ⟨i.minValue_le_toInt, i.toInt_le⟩, Int64.ofInt_toInt]

/-- A numeral of an integer that 64 bits cannot hold is not read. -/
theorem int64?_of_outside {n : Int} {text : List Char} (h : Decimal n text)
    (hOutside : n < Int64.minValue.toInt ∨ Int64.maxValue.toInt < n) : int64? text = none := by
  rw [int64?, integer?_eq_some.mpr h, Option.bind_some, if_neg (by omega)]

theorem toDigits_digits (n : Nat) : Digits (Nat.toDigits 10 n) where
  nonempty := Nat.toDigits_ne_nil
  all _ hc := Nat.isDigit_of_mem_toDigits (by decide) (by decide) hc

/-- Integers are printed as one of their numerals. -/
theorem decimal_repr (n : Int) : Decimal n n.repr.toList := by
  rw [Int.repr_eq_if]
  split
  · next hSign =>
      have hBare := Decimal.bare (toDigits_digits n.toNat)
      rw [Nat.ofDigitChars_ten_toDigits, Int.ofNat_eq_natCast, Int.toNat_of_nonneg hSign] at hBare
      rw [Nat.toList_repr]
      exact hBare
  · next hSign =>
      have hMinus := Decimal.minus (toDigits_digits (-n).toNat)
      rw [Nat.ofDigitChars_ten_toDigits, Int.ofNat_eq_natCast, Int.toNat_of_nonneg (by omega),
        Int.neg_neg] at hMinus
      rw [String.toList_append, Nat.toList_repr]
      exact hMinus

/-- In a numeral there is nothing but a sign and digits. -/
theorem Decimal.not_mem {n : Int} {text : List Char} (h : Decimal n text) {c : Char}
    (hDigit : c.isDigit = false) (hPlus : c ≠ '+') (hMinus : c ≠ '-') : c ∉ text := by
  have hDigits : ∀ {digits}, Digits digits → c ∉ digits := by
    intro digits h hMem
    rw [h.all c hMem] at hDigit
    cases hDigit
  cases h with
  | bare h => exact hDigits h
  | plus h => exact List.not_mem_cons_of_ne_of_not_mem hPlus (hDigits h)
  | minus h => exact List.not_mem_cons_of_ne_of_not_mem hMinus (hDigits h)

end TreeEditor.Text
