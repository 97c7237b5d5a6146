import TreeEditor.Grammar
import TreeEditor.Exp.Basic
import TreeEditor.Fault
import TreeEditor.Exp.Build
import TreeEditor.Exp.Hole
import TreeEditor.Exp.Outline
import TreeEditor.Text.Ranges
import TreeEditor.Text.Blank
import TreeEditor.Text.Letter
import TreeEditor.Text.Number
import TreeEditor.Text.Mark
import TreeEditor.Text.Hidden
import TreeEditor.Text.Quoted
import TreeEditor.Text.Numeral
import TreeEditor.Direction
import TreeEditor.Zipper.Frame
import TreeEditor.Zipper.Path
import TreeEditor.Zipper.Cursor
import TreeEditor.Selection.Basic
import TreeEditor.Selection.Span
import TreeEditor.Selection.Move
import TreeEditor.History
import TreeEditor.Editing.Action
import TreeEditor.Editing.State
import TreeEditor.Editing.Rejection
import TreeEditor.Editing.Editor
import TreeEditor.Query.Basic
import TreeEditor.Query.RuleTable
import TreeEditor.Markup.Node
import TreeEditor.Markup.Render
import TreeEditor.Markup.Layout
import TreeEditor.Text.Lines
import TreeEditor.Language.Alpha.Basic
import TreeEditor.Language.Alpha.Layout
import TreeEditor.Language.Alpha.Query
import TreeEditor.Language.Lambda
import TreeEditor.Language.Table
import TreeEditor.Settings.Basic
import TreeEditor.Settings.Document
import TreeEditor.Session.Command
import TreeEditor.Session.Basic
import TreeEditor.Session.Options
import TreeEditor.Session.Program
import TreeEditor.Main
import TreeEditor.Proofs.Position
import TreeEditor.Proofs.Motion
import TreeEditor.Proofs.Descent
import TreeEditor.Proofs.Span
import TreeEditor.Proofs.FreeEnd
import TreeEditor.Proofs.WellFormed
import TreeEditor.Proofs.History
import TreeEditor.Proofs.History.Refinement
import TreeEditor.Proofs.Editing.Outcome
import TreeEditor.Proofs.Editing.Accepted
import TreeEditor.Proofs.Editing.Run
import TreeEditor.Proofs.Editing.TreeEdit
import TreeEditor.Proofs.Editing.Decision
import TreeEditor.Proofs.Editing.Timeline
import TreeEditor.Proofs.Editing.Soundness
import TreeEditor.Proofs.Editing.Recording
import TreeEditor.Proofs.Editing.Selections
import TreeEditor.Proofs.Editing.Refusals
import TreeEditor.Proofs.Editing.Unwinding
import TreeEditor.Proofs.Markup.Marks
import TreeEditor.Proofs.Markup.Rendering
import TreeEditor.Proofs.Markup.Preview
import TreeEditor.Proofs.Editing.EachNode
import TreeEditor.Proofs.Language.Alpha.Reading
import TreeEditor.Proofs.Session.Steps
import TreeEditor.Proofs.Language.Alpha.Programs
import TreeEditor.Proofs.Session.Display
import TreeEditor.Proofs.Session.Refusals
import TreeEditor.Proofs.LocalCheck
import TreeEditor.Proofs.Editing.Insertion
import TreeEditor.Proofs.Editing.Clipboard
import TreeEditor.Proofs.Editing.Navigation
import TreeEditor.Proofs.Query.Cycling
import TreeEditor.Proofs.TwoEdits
import TreeEditor.Proofs.Query.Candidates
import TreeEditor.Proofs.Text.Numeral
import TreeEditor.Proofs.Session.QueryLines
import TreeEditor.Proofs.Joining
