import TreeEditor.Text.Ranges

/-! Blank characters, as the Unicode property `White_Space` lists them, and blanks at the ends of
a text. The zero-width space and the byte order mark are not blank. -/

namespace TreeEditor.Text

/-- The code points with the property `White_Space`. -/
def blankRanges : Ranges := [
  (0x9, 0xD), (0x20, 0x20), (0x85, 0x85), (0xA0, 0xA0), (0x1680, 0x1680), (0x2000, 0x200A),
  (0x2028, 0x2029), (0x202F, 0x202F), (0x205F, 0x205F), (0x3000, 0x3000)]

def isBlankChar (c : Char) : Bool :=
  blankRanges.cover c.toNat

/-- Whether a text holds nothing but blanks; the empty text is blank. -/
def isBlank (text : String) : Bool :=
  text.toList.all isBlankChar

/-- Drop the blanks at both ends. -/
def trim (text : String) : String :=
  String.ofList ((text.toList.dropWhile isBlankChar).reverse.dropWhile isBlankChar).reverse

end TreeEditor.Text
