/-! Cutting a sequence at a mark, such as a text at its line ends. -/

namespace TreeEditor.Text

variable {α : Type} [DecidableEq α]

/-- The pieces that end in the mark, without it, and what follows the last mark. -/
def pieces (mark : α) : List α → List (List α) × List α
  | [] => ([], [])
  | c :: rest =>
      match pieces mark rest with
      | (ended, tail) =>
          if c = mark then ([] :: ended, tail)
          else
            match ended with
            | [] => ([], c :: tail)
            | piece :: more => ((c :: piece) :: more, tail)

/-- The parts before and after the last mark. -/
def splitLast? (mark : α) : List α → Option (List α × List α)
  | [] => none
  | c :: rest =>
      match splitLast? mark rest with
      | some (before, after) => some (c :: before, after)
      | none => if c = mark then some ([], rest) else none

/-- Drop one mark at the end, if there is one. -/
def dropLastMark (mark : α) (line : List α) : List α :=
  if line.getLast? = some mark then line.dropLast else line

end TreeEditor.Text
