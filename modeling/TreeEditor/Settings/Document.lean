import TreeEditor.Settings.Basic
import TreeEditor.Text.Lines
import TreeEditor.Text.Numeral

/-! Settings documents. A document is TOML with one optional key, `history_limit`, whose value is an
integer. Any other key, table or value is refused, so that the documents accepted are those whose
lines are blank, hold a comment, or set that key once. -/

namespace TreeEditor.Settings

/-- The only key. -/
def limitKey : List Char :=
  "history_limit".toList

def isSpace (c : Char) : Bool :=
  c = ' ' || c = '\t'

def skipSpace (text : List Char) : List Char :=
  text.dropWhile isSpace

/-- Comments hold any characters but controls; a tab is allowed. -/
def isCommentChar (c : Char) : Bool :=
  c = '\t' || (0x20 ≤ c.toNat && c.toNat ≠ 0x7F)

/-- Whether nothing but spaces and a comment is left of a line. -/
def isLineEnd (text : List Char) : Bool :=
  match skipSpace text with
  | [] => true
  | '#' :: comment => comment.all isCommentChar
  | _ => false

/-- The character with this hexadecimal code point. -/
def codePoint? (digits : List Char) : Option Char :=
  (Text.natural? 16 digits).bind fun n =>
    if n.isValidChar then some (Char.ofNat n) else none

/-- The rest of a key in double quotes, and what follows the closing quote. Of the escapes only the
hexadecimal ones are read: the others stand for characters that the key does not have. -/
def quotedKey? : List Char → Option (List Char × List Char)
  | [] => none
  | '\x22' :: rest => some ([], rest)
  | '\\' :: 'x' :: a :: b :: rest => do
      let c ← codePoint? [a, b]
      let (key, after) ← quotedKey? rest
      return (c :: key, after)
  | '\\' :: 'u' :: a :: b :: c :: d :: rest => do
      let c ← codePoint? [a, b, c, d]
      let (key, after) ← quotedKey? rest
      return (c :: key, after)
  | '\\' :: 'U' :: a :: b :: c :: d :: e :: f :: g :: h :: rest => do
      let c ← codePoint? [a, b, c, d, e, f, g, h]
      let (key, after) ← quotedKey? rest
      return (c :: key, after)
  | c :: rest =>
      if c = '\\' then none
      else do
        let (key, after) ← quotedKey? rest
        return (c :: key, after)

def isBareKeyChar (c : Char) : Bool :=
  c.isAlphanum || c = '_' || c = '-'

/-- A key, bare or in quotes, and what follows it. -/
def key? : List Char → Option (List Char × List Char)
  | '\x22' :: text => quotedKey? text
  | '\x27' :: text =>
      match text.dropWhile (· ≠ '\x27') with
      | _ :: after => some (text.takeWhile (· ≠ '\x27'), after)
      | [] => none
  | text => some (text.takeWhile isBareKeyChar, text.dropWhile isBareKeyChar)

/-- The digits of a numeral whose underscores each stand between two digits. -/
def ungrouped? (text : List Char) : Option (List Char) :=
  let (groups, last) := Text.pieces '_' text
  if (groups ++ [last]).all (!·.isEmpty) then some (groups.flatten ++ last) else none

/-- A decimal numeral without a sign. It does not start with a zero unless it is zero. -/
def decimal? (text : List Char) : Option Nat :=
  match ungrouped? text with
  | some ['0'] => some 0
  | some ('0' :: _) => none
  | some digits => Text.natural? 10 digits
  | none => none

/-- An integer: decimal with an optional sign, or hexadecimal, octal or binary without one. -/
def integer? : List Char → Option Int
  | '0' :: 'x' :: text => ((ungrouped? text).bind (Text.natural? 16)).map Int.ofNat
  | '0' :: 'o' :: text => ((ungrouped? text).bind (Text.natural? 8)).map Int.ofNat
  | '0' :: 'b' :: text => ((ungrouped? text).bind (Text.natural? 2)).map Int.ofNat
  | '+' :: text => (decimal? text).map Int.ofNat
  | '-' :: text => (decimal? text).map fun n => -Int.ofNat n
  | text => (decimal? text).map Int.ofNat

/-- An integer that can be a limit: one of 64 bits without a sign. -/
def limit? (text : List Char) : Option Nat :=
  (integer? text).bind fun n => if 0 ≤ n ∧ n.toNat < UInt64.size then some n.toNat else none

/-- The value set by the part of a line after the key. -/
def assigned? (text : List Char) : Option Nat :=
  match skipSpace text with
  | '=' :: text =>
      let text := skipSpace text
      let ends (c : Char) : Bool := isSpace c || c = '#'
      if isLineEnd (text.dropWhile (!ends ·)) then limit? (text.takeWhile (!ends ·)) else none
  | _ => none

/-- What a line sets, if anything. There is no result if the line is not allowed. -/
def line? (text : List Char) : Option (Option Nat) :=
  if isLineEnd text then some none
  else
    match key? (skipSpace text) with
    | some (key, rest) => if key = limitKey then (assigned? rest).map some else none
    | none => none

/-- What the lines set, given what earlier lines have set. The key may be set only once. -/
def lines? : Option Nat → List (List Char) → Option (Option Nat)
  | found, [] => some found
  | found, text :: rest =>
      match line? text, found with
      | some none, _ => lines? found rest
      | some (some limit), none => lines? (some limit) rest
      | _, _ => none

/-- The lines of a document. A line may end in a carriage return before its line feed. -/
def documentLines (text : List Char) : List (List Char) :=
  let (ended, last) := Text.pieces '\n' text
  ended.map (Text.dropLastMark '\r') ++ [last]

/-- The text of a document without its byte order mark. -/
def withoutMark : List Char → List Char
  | '\uFEFF' :: text => text
  | text => text

/-- Read a document. A limit of zero is refused after everything else was found to be in order. -/
def parse (document : String) : Except SettingsError Settings :=
  match lines? none (documentLines (withoutMark document.toList)) with
  | none => .error .malformed
  | some none => .ok {}
  | some (some 0) => .error .zeroLimit
  | some (some limit) => .ok { historyLimit := limit }

/-- Read the contents of a file; there are none if the file does not exist. -/
def load (contents : Option ByteArray) : Except SettingsError Settings :=
  match contents with
  | none => .error (.unreadable true)
  | some bytes =>
      match String.fromUTF8? bytes with
      | none => .error (.unreadable false)
      | some document => parse document

end TreeEditor.Settings
