import TreeEditor.Language.Alpha.Layout
import TreeEditor.Language.Alpha.Query
import TreeEditor.Markup.Render
import TreeEditor.Session.Command
import TreeEditor.Settings.Basic

/-! Sessions: one Alpha program edited line by line. -/

namespace TreeEditor

/-- An editor at work on an Alpha program. -/
structure Session where
  editor : Editor Alpha.grammar
  state : State Alpha.grammar

/-- Why a line has no effect. -/
inductive SessionError where
  | command (error : CommandError)
  | rejected (reason : Rejection)
  | notIndentable
  | fault (fault : Fault Alpha.grammar)
deriving DecidableEq

def SessionError.message : SessionError → String
  | command error => error.message
  | rejected reason => reason.message
  | notIndentable => "only an application under the cursor can be indented"
  | fault f => f.message

def SessionError.ofRefusal : Refusal Alpha.grammar → SessionError
  | .rejected reason => rejected reason
  | .fault f => fault f

/-- What to do after a line: show a text and go on with a session, or stop. -/
inductive Reply where
  | shown (text : String) (next : Session)
  | stopped

namespace Session

/-- A session on an empty program. -/
def new (settings : Settings) : Session where
  editor := { historyLimit := settings.historyLimit }
  state := .start (.cursor (.root Alpha.hole)) settings.historyLimit

/-- The program with the focus marked. -/
def text (s : Session) : String :=
  (s.editor.render s.state).print Alpha.layout

/-- Go on with another state, if there is one, and show it. -/
def moveTo (s : Session) (next : Except (Refusal Alpha.grammar) (State Alpha.grammar)) :
    Except SessionError Reply :=
  match next with
  | .ok state =>
      let next := { s with state }
      .ok (.shown next.text next)
  | .error refusal => .error (.ofRefusal refusal)

def run (s : Session) : Command → Except SessionError Reply
  | .quit => .ok .stopped
  | .preview q =>
      match s.editor.preview Alpha.rules.resolver s.state q with
      | .ok node => .ok (.shown (node.print Alpha.layout) s)
      | .error f => .error (.fault f)
  | .apply action => s.moveTo (s.editor.apply s.state action)
  | .query q => s.moveTo (s.editor.applyQuery Alpha.rules.resolver s.state q)
  | .root => s.moveTo (s.editor.apply s.state (.setCursor s.state.mode.focus.toRoot))
  | .indent =>
      match s.state.mode with
      | .cursor c =>
          match Alpha.toggleIndent? c with
          | some action => s.moveTo (s.editor.apply s.state action)
          | none => .error .notIndentable
      | .select _ => .error .notIndentable

/-- Read a line and carry it out. -/
def answer (s : Session) (line : String) : Except SessionError Reply :=
  match Command.parse line with
  | .ok command => s.run command
  | .error error => .error (.command error)

end Session

end TreeEditor
