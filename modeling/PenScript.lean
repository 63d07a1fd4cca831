import PenScript.Arguments
import PenScript.Arithmetic
import PenScript.Block
import PenScript.Canvas
import PenScript.Canvas.Export
import PenScript.Command
import PenScript.Command.Execution
import PenScript.CommandLine.Execution
import PenScript.CommandLine.Request
import PenScript.Elements
import PenScript.Error
import PenScript.Expression
import PenScript.Fault
import PenScript.Files
import PenScript.Frame
import PenScript.Integer
import PenScript.Interpreter
import PenScript.Json
import PenScript.Line
import PenScript.Loop
import PenScript.Main
import PenScript.Matrix
import PenScript.Method
import PenScript.NameMap
import PenScript.Nesting
import PenScript.Operator
import PenScript.Options
import PenScript.Real
import PenScript.Real.Literal
import PenScript.Real.Numeral
import PenScript.Report
import PenScript.Scope
import PenScript.Session
import PenScript.Settings
import PenScript.Suggestion
import PenScript.Text
import PenScript.Text.Combining
import PenScript.Text.Fields
import PenScript.Text.Lines
import PenScript.Text.Quoted
import PenScript.Text.Unprintable
import PenScript.Token
import PenScript.Token.Scan
import PenScript.Toml.Layout
import PenScript.Toml.Quotation
import PenScript.Toml.Statement
import PenScript.Value
import PenScript.Proofs.Arguments.Separation
import PenScript.Proofs.Arguments.Words
import PenScript.Proofs.Arithmetic.Grammar
import PenScript.Proofs.Arithmetic.Integers
import PenScript.Proofs.Arithmetic.Progression
import PenScript.Proofs.Arithmetic.Tree
import PenScript.Proofs.Block.Body
import PenScript.Proofs.Block.Build
import PenScript.Proofs.Block.Matching
import PenScript.Proofs.Block.Open
import PenScript.Proofs.Block.WellNested
import PenScript.Proofs.Canvas.Replay
import PenScript.Proofs.Canvas.Trace
import PenScript.Proofs.Command.Action
import PenScript.Proofs.Command.CallForms
import PenScript.Proofs.Command.Element
import PenScript.Proofs.Command.Execution
import PenScript.Proofs.Error.Harmless
import PenScript.Proofs.Error.Result
import PenScript.Proofs.Error.Source
import PenScript.Proofs.Expression.Arithmetic
import PenScript.Proofs.Expression.Concatenation
import PenScript.Proofs.Expression.Contents
import PenScript.Proofs.Expression.Formula
import PenScript.Proofs.Expression.Parts
import PenScript.Proofs.Expression.Reading
import PenScript.Proofs.Expression.Sealed
import PenScript.Proofs.Loop.Header
import PenScript.Proofs.Machine.Arrays
import PenScript.Proofs.Machine.Call
import PenScript.Proofs.Machine.Comments
import PenScript.Proofs.Machine.Counting
import PenScript.Proofs.Machine.Decision
import PenScript.Proofs.Machine.Depth
import PenScript.Proofs.Machine.Drawing
import PenScript.Proofs.Machine.Failure
import PenScript.Proofs.Machine.Feeding
import PenScript.Proofs.Machine.Frame
import PenScript.Proofs.Machine.Halted
import PenScript.Proofs.Machine.Induction
import PenScript.Proofs.Machine.Invariant
import PenScript.Proofs.Machine.LoopFree
import PenScript.Proofs.Machine.Methods
import PenScript.Proofs.Machine.Nesting
import PenScript.Proofs.Machine.Reach
import PenScript.Proofs.Machine.Recording
import PenScript.Proofs.Machine.Runs
import PenScript.Proofs.Machine.Safety
import PenScript.Proofs.Machine.Simulation
import PenScript.Proofs.Machine.Spelling
import PenScript.Proofs.Machine.Step
import PenScript.Proofs.Machine.Strict
import PenScript.Proofs.Program.Execution
import PenScript.Proofs.Program.Location
import PenScript.Proofs.Program.Tree
import PenScript.Proofs.Real.Sign
import PenScript.Proofs.Report.Underline
import PenScript.Proofs.Session.Batch
import PenScript.Proofs.Session.Shown
import PenScript.Proofs.Suggestion.Distance
import PenScript.Proofs.Suggestion.Edits
import PenScript.Proofs.Text.Cutting
import PenScript.Proofs.Text.Delimited
import PenScript.Proofs.Text.Quoted
import PenScript.Proofs.Text.Splitting
import PenScript.Proofs.Text.Standing
import PenScript.Proofs.Text.Trim
import PenScript.Proofs.Token.Names
import PenScript.Proofs.Token.Printing
import PenScript.Proofs.Token.Spelling
import PenScript.Proofs.Value.Arrays
import PenScript.Proofs.Value.Places
