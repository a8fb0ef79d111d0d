import SceneScript.Analysis
import SceneScript.Ast
import SceneScript.Ast.Cursor
import SceneScript.Ast.Dump
import SceneScript.Ast.Parser
import SceneScript.Ast.Returns
import SceneScript.Ast.SyntaxError
import SceneScript.Ast.Walk
import SceneScript.Builtin
import SceneScript.Command
import SceneScript.Command.Arguments
import SceneScript.Config
import SceneScript.Config.Project
import SceneScript.Diagnostic
import SceneScript.Diagnostic.Registry
import SceneScript.Diagnostic.Report
import SceneScript.Editor.Completion
import SceneScript.Editor.Hover
import SceneScript.Editor.Library
import SceneScript.Editor.LineTable
import SceneScript.Editor.NamedTable
import SceneScript.Editor.OpenDocuments
import SceneScript.Editor.Outline
import SceneScript.Editor.Protocol
import SceneScript.Editor.Server
import SceneScript.Editor.TextBuffer
import SceneScript.Editor.Uri
import SceneScript.Eval
import SceneScript.Fault
import SceneScript.Files
import SceneScript.Host
import SceneScript.Instance
import SceneScript.Json
import SceneScript.Json.Merge
import SceneScript.Json.Parser
import SceneScript.Lint
import SceneScript.Log
import SceneScript.Number.Binary64
import SceneScript.Number.Decimal
import SceneScript.Number.Numeral
import SceneScript.Path
import SceneScript.Proofs.Eval.Frames
import SceneScript.Proofs.Eval.Quiet
import SceneScript.Proofs.Eval.Returns
import SceneScript.Proofs.Eval.Sound
import SceneScript.Proofs.Eval.Steps
import SceneScript.Proofs.Eval.Values
import SceneScript.Proofs.Instance.Typed
import SceneScript.Proofs.Outcome
import SceneScript.Proofs.Session.Immutable
import SceneScript.Proofs.Session.Safety
import SceneScript.Proofs.Session.Scenes
import SceneScript.Proofs.Syntax.Faithful
import SceneScript.Proofs.Syntax.Fuel
import SceneScript.Proofs.Syntax.Parsed
import SceneScript.Proofs.Syntax.Reading
import SceneScript.Proofs.Syntax.Recovery
import SceneScript.Proofs.Syntax.Render
import SceneScript.Proofs.Syntax.Rereading
import SceneScript.Proofs.Syntax.RoundTrip
import SceneScript.Proofs.Syntax.Spelling
import SceneScript.Proofs.Syntax.Words
import SceneScript.Proofs.Token.Tiling
import SceneScript.Proofs.Token.Fixed
import SceneScript.Proofs.Typing.Accepted
import SceneScript.Proofs.Typing.Rules
import SceneScript.Proofs.Typing.Sound
import SceneScript.Property
import SceneScript.Run
import SceneScript.Scene
import SceneScript.Span
import SceneScript.Suggest
import SceneScript.Text
import SceneScript.Text.Blank
import SceneScript.Text.Collation
import SceneScript.Text.Collation.Alphabet
import SceneScript.Text.Collation.Spelling
import SceneScript.Token
import SceneScript.Token.Lexer
import SceneScript.Ty
import SceneScript.Typing
import SceneScript.Typing.Body
import SceneScript.Typing.Export
import SceneScript.Typing.Expr
import SceneScript.Typing.Problem
import SceneScript.Typing.Scope
import SceneScript.Value
import SceneScript.Main
import SceneScript.Proofs.Session.Creation
import SceneScript.Proofs.Scene.Tree
import SceneScript.Proofs.Scene.Freeing
import SceneScript.Proofs.Diagnostic.Order
import SceneScript.Proofs.Diagnostic.Merging
import SceneScript.Proofs.Diagnostic.Pipeline
import SceneScript.Proofs.Eval.Alike
import SceneScript.Proofs.Instance.History
import SceneScript.Proofs.Session.Living
import SceneScript.Proofs.Syntax.Rounds
import SceneScript.Proofs.Syntax.Nesting
import SceneScript.Proofs.Syntax.Ranges
import SceneScript.Proofs.Editor.Outline
import SceneScript.Proofs.Typing.Shape
import SceneScript.Proofs.Eval.LoopFree
import SceneScript.Proofs.Instance.LoopFree
import SceneScript.Proofs.Diagnostic.Suggestions
import SceneScript.Proofs.Syntax.Names
import SceneScript.Proofs.Typing.Agreement
import SceneScript.Proofs.Typing.Reordering
import SceneScript.Proofs.Editor.Library
import SceneScript.Proofs.Editor.Keeping
import SceneScript.Proofs.Editor.Publishing
import SceneScript.Proofs.Command.Checking
import SceneScript.Proofs.Session.Reloading
import SceneScript.Proofs.Token.Lines
import SceneScript.Proofs.Number.Integers
import SceneScript.Proofs.Typing.Exports
import SceneScript.Proofs.Eval.Constants
import SceneScript.Proofs.Instance.Accepting
import SceneScript.Proofs.Session.Properties
import SceneScript.Proofs.Session.Defaults
import SceneScript.Proofs.Session.Hints
import SceneScript.Proofs.Editor.Waiting
import SceneScript.Proofs.Editor.Closing
import SceneScript.Proofs.Eval.Arithmetic
import SceneScript.Proofs.Session.Assigning
import SceneScript.Proofs.Typing.DeadCode
import SceneScript.Proofs.Session.Freezing
import SceneScript.Proofs.Session.Unread
import SceneScript.Proofs.Eval.Literals
import SceneScript.Proofs.Scene.Searching
import SceneScript.Proofs.Text.Splitting
import SceneScript.Proofs.Text.EditDistance
import SceneScript.Proofs.Scene.Paths
import SceneScript.Proofs.Scene.Freed
import SceneScript.Proofs.Eval.Tracing
import SceneScript.Proofs.Eval.Chains
import SceneScript.Proofs.Instance.Traces
import SceneScript.Proofs.Typing.Callbacks
import SceneScript.Proofs.Run.Playing
import SceneScript.Proofs.Run.Printed
import SceneScript.Proofs.Run.Schedule
import SceneScript.Proofs.Token.Respacing
import SceneScript.Proofs.Token.Quoting
import SceneScript.Proofs.Text.Shown
import SceneScript.Proofs.Token.Edges
import SceneScript.Proofs.Syntax.Beginnings
import SceneScript.Proofs.Typing.Visible
import SceneScript.Proofs.Diagnostic.Carets
import SceneScript.Proofs.Typing.Proposals
import SceneScript.Proofs.Text.Trimming
import SceneScript.Proofs.Json.Proper
import SceneScript.Proofs.Json.Merging
import SceneScript.Proofs.Config.Settings
import SceneScript.Proofs.Typing.Visits
import SceneScript.Proofs.Typing.Reported
import SceneScript.Proofs.Token.Standing
import SceneScript.Proofs.Syntax.Uses
import SceneScript.Proofs.Typing.Declared
import SceneScript.Proofs.Editor.Hovering
