import TreeEditor.History

/-! What the user can set, and why settings cannot be used. -/

namespace TreeEditor

structure Settings where
  historyLimit : Nat := History.defaultLimit
deriving DecidableEq

inductive SettingsError where
  /-- The document cannot be read as settings. -/
  | malformed
  /-- There is no text: the file is missing, or it is not UTF-8. -/
  | unreadable (missing : Bool)
  /-- The history would keep nothing. -/
  | zeroLimit
deriving DecidableEq

/-- The explanation that goes with an error, if it has one. -/
def SettingsError.message? : SettingsError → Option String
  | zeroLimit => some "invalid value for 'history_limit': must be at least 1"
  | _ => none

end TreeEditor
