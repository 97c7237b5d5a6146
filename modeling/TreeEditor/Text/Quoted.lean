import TreeEditor.Text.Hidden
import TreeEditor.Text.Mark

/-! Text in double quotes, with everything that a reader could not see written as an escape. -/

namespace TreeEditor.Text

/-- How one character is written between quotes: the usual short escapes, the hexadecimal code
point of a hidden character or a mark, and any other character as itself. The apostrophe is
not escaped. -/
def escaped (c : Char) : List Char :=
  if c = '\x00' then ['\\', '0']
  else if c = '\t' then ['\\', 't']
  else if c = '\r' then ['\\', 'r']
  else if c = '\n' then ['\\', 'n']
  else if c = '\\' then ['\\', '\\']
  else if c = '\x22' then ['\\', '\x22']
  else if isMark c || isHidden c then
    ['\\', 'u', '\x7b'] ++ Nat.toDigits 16 c.toNat ++ ['\x7d']
  else [c]

def quote (text : String) : String :=
  String.ofList (['\x22'] ++ text.toList.flatMap escaped ++ ['\x22'])

end TreeEditor.Text
