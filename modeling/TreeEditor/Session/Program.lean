import TreeEditor.Session.Basic
import TreeEditor.Session.Options
import TreeEditor.Settings.Document

/-! The program as a function: from its arguments, the files it can read and its input to its output
and exit code. -/

namespace TreeEditor.Program

structure Outcome where
  exit : Nat
  output : String
deriving DecidableEq

def helpText : String :=
  "Structural editing REPL for the Alpha language\n\nUsage: sprig [OPTIONS]\n\nOptions:\n" ++
  "  -c, --config <PATH>  Engine configuration file (TOML)\n" ++
  "  -v, --verbose        Verbose logging\n" ++
  "  -h, --help           Print help\n" ++
  "  -V, --version        Print version\n"

def versionText : String :=
  "sprig 0.1.0\n"

def haltOutcome : Halt → Outcome
  | .help => ⟨0, helpText⟩
  | .version => ⟨0, versionText⟩
  | .invalid => ⟨2, ""⟩

/-- The lines of the input. A carriage return before a line feed belongs to the line end; a last line
without a line feed counts unless it is empty. -/
def inputLines (input : List UInt8) : List (List UInt8) :=
  let (ended, last) := Text.pieces 10 input
  ended.map (Text.dropLastMark 13) ++ if last.isEmpty then [] else [last]

/-- What one line does: print something and go on, or end with an exit code. -/
inductive Turn where
  | goOn (output : String) (next : Session)
  | finish (exit : Nat)

/-- Blank lines do nothing. A line that is not UTF-8 ends the program. -/
def turn (s : Session) (line : List UInt8) : Turn :=
  match String.fromUTF8? ⟨line.toArray⟩ with
  | none => .finish 1
  | some line =>
      if Text.isBlank line then .goOn "" s
      else
        match s.answer line with
        | .ok (.shown text next) => .goOn (text ++ "\n") next
        | .ok .stopped => .finish 0
        | .error (.fault _) => .finish 101
        | .error error => .goOn ("! " ++ error.message ++ "\n") s

/-- Take the lines one after another. Output printed before the end stays. -/
def runLines : Session → List (List UInt8) → Outcome
  | _, [] => ⟨0, ""⟩
  | s, line :: rest =>
      match turn s line with
      | .finish exit => ⟨exit, ""⟩
      | .goOn output next =>
          let outcome := runLines next rest
          ⟨outcome.exit, output ++ outcome.output⟩

/-- Show the empty program, then take the lines. -/
def runSession (settings : Settings) (input : List UInt8) : Outcome :=
  let session := Session.new settings
  let outcome := runLines session (inputLines input)
  ⟨outcome.exit, session.text ++ "\n" ++ outcome.output⟩

/-- The settings that the options ask for. -/
def settings (contents : String → Option ByteArray) (o : Options) : Except SettingsError Settings :=
  match o.config with
  | none => .ok {}
  | some path => Settings.load (contents path)

/-- The whole program. `contents` gives the files that can be read. -/
def run (arguments : List String) (contents : String → Option ByteArray) (input : List UInt8) :
    Outcome :=
  match Options.parse arguments with
  | .error halt => haltOutcome halt
  | .ok options =>
      match settings contents options with
      | .error _ => ⟨1, ""⟩
      | .ok settings => runSession settings input

end TreeEditor.Program
