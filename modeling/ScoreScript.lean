import ScoreScript.Source.Cursor
import ScoreScript.Source.Position
import ScoreScript.Text.Utf8
import ScoreScript.Text.Blank
import ScoreScript.Text.Letter
import ScoreScript.Text.Quoted
import ScoreScript.Decimal.Text
import ScoreScript.Error
import ScoreScript.Assoc
import ScoreScript.Json.Token
import ScoreScript.Limits
import ScoreScript.Json.Value
import ScoreScript.Markup.Element
import ScoreScript.Markup.Writer
import ScoreScript.Naming
import ScoreScript.Markup.Reader
import ScoreScript.Value.Basic
import ScoreScript.Script.Token
import ScoreScript.Script.Literal
import ScoreScript.Script.Layout
import ScoreScript.Script.Syntax
import ScoreScript.Script.Walk
import ScoreScript.Script.Format
import ScoreScript.Script.Stream
import ScoreScript.Script.Verdict
import ScoreScript.Script.Grammar.Basic
import ScoreScript.Script.Grammar.Argument
import ScoreScript.Script.Grammar.Display
import ScoreScript.Script.Grammar.Text
import ScoreScript.Script.Grammar.Expression
import ScoreScript.Script.Grammar.Simple
import ScoreScript.Script.Grammar.Statement
import ScoreScript.Catalogue.Basic
import ScoreScript.Catalogue.Declaration
import ScoreScript.Catalogue.Resolution
import ScoreScript.Catalogue.Standard
import ScoreScript.Schema.Reading
import ScoreScript.Schema.Standard
import ScoreScript.Schema.Registry
import ScoreScript.Assembly.Basic
import ScoreScript.Run.Basic
import ScoreScript.Script.Dump
import ScoreScript.Translation
import ScoreScript.CommandLine.Arguments
import ScoreScript.CommandLine.Execution
import ScoreScript.Main
import ScoreScript.Proofs.Sandbox.Coverage
import ScoreScript.Proofs.Sandbox.Exactness
import ScoreScript.Proofs.Run.Conduct
import ScoreScript.Proofs.Assoc
import ScoreScript.Proofs.Building.Piece
import ScoreScript.Proofs.Building.Spot
import ScoreScript.Proofs.Building.Bench
import ScoreScript.Proofs.Building.Plan
import ScoreScript.Proofs.Building.Call
import ScoreScript.Proofs.Building.Order
import ScoreScript.Proofs.Schema.Persistence
import ScoreScript.Proofs.Building.Tracking
import ScoreScript.Proofs.Building.Step
import ScoreScript.Proofs.Schema.Wording
import ScoreScript.Proofs.Building.Logging
import ScoreScript.Proofs.Building.Path
import ScoreScript.Proofs.Building.Lossless
import ScoreScript.Proofs.Building.Outcome
import ScoreScript.Proofs.Run.Reporting
import ScoreScript.Proofs.Stateful
import ScoreScript.Proofs.Text.Utf8
import ScoreScript.Proofs.Text.Naming
import ScoreScript.Proofs.Source.Cursor
import ScoreScript.Proofs.Markup.Escape
import ScoreScript.Proofs.Markup.Content
import ScoreScript.Proofs.Markup.RoundTrip
import ScoreScript.Proofs.Script.Literal
import ScoreScript.Proofs.Script.Layout
import ScoreScript.Proofs.Script.Spelling
import ScoreScript.Proofs.Script.Reading
import ScoreScript.Proofs.Script.Operand
import ScoreScript.Proofs.Translation.Mirror
import ScoreScript.Proofs.Translation.Injection
import ScoreScript.Proofs.Run.Scope
import ScoreScript.Proofs.Building.Content
import ScoreScript.Proofs.Translation.Reproducible
import ScoreScript.Proofs.Translation.Rebuilding
import ScoreScript.Proofs.Nesting.Chain
import ScoreScript.Proofs.Nesting.Rule
import ScoreScript.Proofs.Nesting.Part
import ScoreScript.Proofs.Nesting.Expression
import ScoreScript.Proofs.Nesting.Statement
import ScoreScript.Proofs.Catalogue.Closed
import ScoreScript.Proofs.Building.Steady
import ScoreScript.Proofs.Run.Steady
import ScoreScript.Proofs.Run.Balance
import ScoreScript.Proofs.Run.Points
import ScoreScript.Proofs.Run.Hygiene
import ScoreScript.Proofs.Context.Construction
import ScoreScript.Proofs.Context.Agreement
import ScoreScript.Proofs.Context.Scopes
import ScoreScript.Proofs.Context.Effect
import ScoreScript.Proofs.Ledger.Account
import ScoreScript.Proofs.Ledger.Conforming
import ScoreScript.Proofs.Ledger.Calls
import ScoreScript.Proofs.Ledger.Forms
import ScoreScript.Proofs.Json.Spelling
import ScoreScript.Proofs.Catalogue.Bases
import ScoreScript.Proofs.Catalogue.Flattening
import ScoreScript.Proofs.Grammar.Parts
import ScoreScript.Proofs.Grammar.Room
import ScoreScript.Proofs.Grammar.Layers
import ScoreScript.Proofs.Grammar.Climbing
import ScoreScript.Proofs.Run.Composition
import ScoreScript.Proofs.Schema.Lookup
import ScoreScript.Proofs.Run.Independence
import ScoreScript.Proofs.Script.Number
import ScoreScript.Proofs.Script.Phrase
import ScoreScript.Proofs.Script.Lines
import ScoreScript.Proofs.Script.Expression
import ScoreScript.Proofs.Script.Statement
import ScoreScript.Proofs.Printing.Printer
import ScoreScript.Proofs.Printing.Tokens
import ScoreScript.Proofs.Printing.RoundTrip
import ScoreScript.Proofs.Parallel.Expression
import ScoreScript.Proofs.Parallel.Statement
import ScoreScript.Proofs.Json.Grammar
import ScoreScript.Proofs.Value.RoundTrip
import ScoreScript.Proofs.Script.Ending
import ScoreScript.Proofs.Parallel.Limits
import ScoreScript.Proofs.Holes.Advance
import ScoreScript.Proofs.Holes.Alone
import ScoreScript.Proofs.Holes.Script
import ScoreScript.Proofs.Schema.Locating
import ScoreScript.Proofs.Schema.Matching
import ScoreScript.Proofs.Parallel.Causes
import ScoreScript.Proofs.Placing.Expression
import ScoreScript.Proofs.Placing.Statement
import ScoreScript.Proofs.Building.Blame
import ScoreScript.Proofs.Run.Blame
import ScoreScript.Proofs.Arguments.Chain
import ScoreScript.Proofs.Arguments.Named
import ScoreScript.Proofs.Arguments.Recursion
import ScoreScript.Proofs.Markup.Recursion
import ScoreScript.Proofs.Markup.Spelling
import ScoreScript.Proofs.Markup.Places
import ScoreScript.Proofs.Markup.Doctype
import ScoreScript.Proofs.Markup.Prolog
import ScoreScript.Proofs.Markup.Reference
import ScoreScript.Proofs.Markup.Decoding
import ScoreScript.Proofs.Tokens.Step
import ScoreScript.Proofs.Tokens.Spelling
import ScoreScript.Proofs.Tokens.Blocks
import ScoreScript.Proofs.Tokens.Lossless
import ScoreScript.Proofs.Tokens.Locality
import ScoreScript.Proofs.Tokens.Relaid
import ScoreScript.Proofs.Text.Boundary
import ScoreScript.Proofs.Json.Literal
import ScoreScript.Proofs.Characters.Tokens
import ScoreScript.Proofs.Characters.Document
import ScoreScript.Proofs.Progress.Rounds
import ScoreScript.Proofs.Brackets.Script
import ScoreScript.Proofs.Script.Adjacent
import ScoreScript.Proofs.Value.Bytes
import ScoreScript.Proofs.Numbers.Expression
import ScoreScript.Proofs.Numbers.Statement
import ScoreScript.Proofs.Numbers.Evaluation
import ScoreScript.Proofs.Source.Counting
import ScoreScript.Proofs.Placing.Failures
import ScoreScript.Proofs.Schema.Meaning
import ScoreScript.Proofs.Schema.Overlay
import ScoreScript.Proofs.Json.Strict
