/-! The options of the program. Arguments are read from left to right; a request for help or for the
version counts as soon as it is reached, and so does a fault. -/

namespace TreeEditor

structure Options where
  /-- The file that holds the settings. -/
  config : Option String := none
  verbose : Bool := false
deriving DecidableEq

/-- Why the program ends before a session starts. -/
inductive Halt where
  | help
  | version
  | invalid
deriving DecidableEq

namespace Options

/-- An option may be given once, and the name of the file may not be empty. -/
def setConfig (o : Options) (path : String) : Except Halt Options :=
  if o.config.isSome || path.isEmpty then .error .invalid else .ok { o with config := some path }

/-- A flag may be given once. -/
def setVerbose (o : Options) : Except Halt Options :=
  if o.verbose then .error .invalid else .ok { o with verbose := true }

/-- Read letters that follow one dash. The rest of the letters after `c`, less an equals sign, is the
name of a file; if there is no rest, the name is still to come, which the second result tells. -/
def readLetters : Options → List Char → Except Halt (Options × Bool)
  | o, [] => .ok (o, false)
  | o, 'v' :: rest => do readLetters (← o.setVerbose) rest
  | o, ['c'] => .ok (o, true)
  | o, 'c' :: '=' :: path => do return (← o.setConfig (String.ofList path), false)
  | o, 'c' :: path => do return (← o.setConfig (String.ofList path), false)
  | _, 'h' :: _ => .error .help
  | _, 'V' :: _ => .error .version
  | _, _ => .error .invalid

/-- Read a word that follows two dashes, with the same results. -/
def readWord (o : Options) (word : List Char) : Except Halt (Options × Bool) :=
  match String.ofList (word.takeWhile (· ≠ '=')), word.dropWhile (· ≠ '=') with
  | "config", [] => .ok (o, true)
  | "config", _ :: path => do return (← o.setConfig (String.ofList path), false)
  | "verbose", [] => do return (← o.setVerbose, false)
  | "help", [] => .error .help
  | "version", [] => .error .version
  | _, _ => .error .invalid

/-- Read one argument, which must be an option. -/
def readArgument (o : Options) (argument : String) : Except Halt (Options × Bool) :=
  match argument.toList with
  | '-' :: '-' :: word => o.readWord word
  | '-' :: c :: letters => o.readLetters (c :: letters)
  | _ => .error .invalid

/-- Whether an argument is an option and so cannot be the value of the one before it. A single dash is
no option. -/
def isOption (argument : String) : Bool :=
  match argument.toList with
  | '-' :: _ :: _ => true
  | _ => false

/-- Read the arguments that are left. Two dashes end the options, and nothing may follow them. With
`awaiting` the next argument is the name of the settings file. -/
def readAll : Options → Bool → List String → Except Halt Options
  | o, false, [] => .ok o
  | _, true, [] => .error .invalid
  | o, true, path :: rest =>
      if isOption path then .error .invalid
      else do readAll (← o.setConfig path) false rest
  | o, false, argument :: rest =>
      if argument = "--" then
        if rest.isEmpty then .ok o else .error .invalid
      else do
        let (o, awaiting) ← o.readArgument argument
        readAll o awaiting rest

def parse (arguments : List String) : Except Halt Options :=
  readAll {} false arguments

end Options

end TreeEditor
