import TreeEditor.Session.Program

/-! The command line: a session on the standard input and output. -/

namespace TreeEditor.Main

/-- Read bytes up to and with the next line feed, or to the end of the input. -/
partial def readLine (input : IO.FS.Stream) (read : List UInt8) : IO (List UInt8) := do
  match (← input.read 1).toList with
  | [] => return read.reverse
  | byte :: _ =>
      if byte = 10 then return (byte :: read).reverse
      else readLine input (byte :: read)

/-- Take lines until the input or the session ends. -/
partial def converse (input output : IO.FS.Stream) (session : Session) : IO UInt32 := do
  match Program.inputLines (← readLine input []) with
  | [] => return 0
  | line :: _ =>
      match Program.turn session line with
      | .finish exit => return exit.toUInt32
      | .goOn text next =>
          output.putStr text
          output.flush
          converse input output next

/-- The contents of a file, if it can be read. -/
def contents? (path : String) : IO (Option ByteArray) := do
  try
    return some (← IO.FS.readBinFile path)
  catch _ =>
    return none

end TreeEditor.Main

open TreeEditor in
def main (arguments : List String) : IO UInt32 := do
  let output ← IO.getStdout
  match Options.parse arguments with
  | .error halt =>
      output.putStr (Program.haltOutcome halt).output
      return (Program.haltOutcome halt).exit.toUInt32
  | .ok options =>
      let file ← match options.config with
        | some path => Main.contents? path
        | none => pure none
      match Program.settings (fun _ => file) options with
      | .error _ => return 1
      | .ok settings =>
          let session := Session.new settings
          output.putStr (session.text ++ "\n")
          output.flush
          Main.converse (← IO.getStdin) output session
