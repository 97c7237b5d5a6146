/-! Numerals: natural numbers in a base up to sixteen, and signed decimals that fit in 64 bits. -/

namespace TreeEditor.Text

/-- The value of a digit, if it is a digit of this base. Both cases of the letters `a` to `f`
count. -/
def digit? (base : Nat) (c : Char) : Option Nat :=
  let n := c.toNat
  let value? :=
    if 0x30 ≤ n ∧ n ≤ 0x39 then some (n - 0x30)
    else if 0x61 ≤ n ∧ n ≤ 0x66 then some (n - 0x61 + 10)
    else if 0x41 ≤ n ∧ n ≤ 0x46 then some (n - 0x41 + 10)
    else none
  value?.filter (· < base)

/-- Read digits after a number that is already read. -/
def digitsAfter? (base : Nat) : Nat → List Char → Option Nat
  | read, [] => some read
  | read, c :: rest =>
      match digit? base c with
      | some d => digitsAfter? base (base * read + d) rest
      | none => none

/-- A natural number in this base: at least one digit and nothing else. -/
def natural? (base : Nat) : List Char → Option Nat
  | [] => none
  | digits => digitsAfter? base 0 digits

/-- A decimal number with an optional sign. -/
def integer? : List Char → Option Int
  | '+' :: digits => (natural? 10 digits).map Int.ofNat
  | '-' :: digits => (natural? 10 digits).map fun n => -Int.ofNat n
  | digits => (natural? 10 digits).map Int.ofNat

/-- A decimal number with an optional sign that lies in the range of 64-bit integers. -/
def int64? (text : List Char) : Option Int64 :=
  (integer? text).bind fun n =>
    if Int64.minValue.toInt ≤ n ∧ n ≤ Int64.maxValue.toInt then some (Int64.ofInt n) else none

end TreeEditor.Text
