/-! The four directions in which a focus moves. -/

namespace TreeEditor

inductive Direction where
  | up
  | down
  | left
  | right
deriving DecidableEq

def Direction.name : Direction → String
  | up => "up"
  | down => "down"
  | left => "left"
  | right => "right"

end TreeEditor
