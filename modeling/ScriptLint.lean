import ScriptLint.Command.Arguments
import ScriptLint.Command.Basic
import ScriptLint.Command.Context
import ScriptLint.Command.Files
import ScriptLint.Command.Lint
import ScriptLint.Command.Output
import ScriptLint.Command.Paint
import ScriptLint.Command.Rules
import ScriptLint.Comment
import ScriptLint.Document
import ScriptLint.FileTree
import ScriptLint.Glob.Filter
import ScriptLint.Glob.Match
import ScriptLint.Glob.Pattern
import ScriptLint.Glob.Walk
import ScriptLint.Issue
import ScriptLint.Json.Basic
import ScriptLint.Json.Parser
import ScriptLint.Json.Printer
import ScriptLint.Json.Shape
import ScriptLint.Keyed
import ScriptLint.Linter
import ScriptLint.Main
import ScriptLint.Number.Binary64
import ScriptLint.Number.Decimal
import ScriptLint.Number.Digits
import ScriptLint.Number.Shortest
import ScriptLint.Outline.Basic
import ScriptLint.Outline.Declaration
import ScriptLint.Outline.Framework
import ScriptLint.Path
import ScriptLint.Registry
import ScriptLint.Rule.ArrayCopy
import ScriptLint.Rule.Basic
import ScriptLint.Rule.FunctionEmptyLine
import ScriptLint.Rule.Indent
import ScriptLint.Rule.MaxLineLength
import ScriptLint.Rule.NamingConvention
import ScriptLint.Rule.NoAny
import ScriptLint.Rule.NoConsole
import ScriptLint.Rule.NoEmptyFunctions
import ScriptLint.Rule.NoTrailingWhitespace
import ScriptLint.Rule.NoVar
import ScriptLint.Rule.Options
import ScriptLint.Rule.Quotes
import ScriptLint.Rule.Semicolons
import ScriptLint.Rule.TrailingComma
import ScriptLint.Rule.UeNamingConvention
import ScriptLint.Settings.Configuration
import ScriptLint.Settings.Discovery
import ScriptLint.Settings.File
import ScriptLint.Settings.Resolution
import ScriptLint.Settings.Value
import ScriptLint.Settings.Warning
import ScriptLint.Source.Brace
import ScriptLint.Source.Frame
import ScriptLint.Source.Line
import ScriptLint.Source.Scanner
import ScriptLint.Text.Basic
import ScriptLint.Text.Class
import ScriptLint.Text.Pattern
import ScriptLint.Text.Quoted
import ScriptLint.Text.Similarity
import ScriptLint.Text.Table.Alphabetic
import ScriptLint.Text.Table.Concealed
import ScriptLint.Text.Table.Decimal
import ScriptLint.Text.Table.Lowercase
import ScriptLint.Text.Table.Mark
import ScriptLint.Text.Table.Numeric
import ScriptLint.Text.Table.Recent
import ScriptLint.Text.Table.Uppercase
import ScriptLint.Yaml.Block
import ScriptLint.Yaml.Cursor
import ScriptLint.Yaml.Directive
import ScriptLint.Yaml.Document
import ScriptLint.Yaml.Gap
import ScriptLint.Yaml.Layout
import ScriptLint.Yaml.Node
import ScriptLint.Yaml.Plain
import ScriptLint.Yaml.Quoted
import ScriptLint.Yaml.Resolution
import ScriptLint.Yaml.Stream
import ScriptLint.Yaml.Tag
import ScriptLint.Yaml.Token
import ScriptLint.Proofs.Text.Bytes
import ScriptLint.Proofs.Text.Blanking
import ScriptLint.Proofs.Text.Trim
import ScriptLint.Proofs.Source.Coverage
import ScriptLint.Proofs.Text.Runs
import ScriptLint.Proofs.Text.Matches
import ScriptLint.Proofs.Registry
import ScriptLint.Proofs.Linter.Isolation
import ScriptLint.Proofs.Text.Split
import ScriptLint.Proofs.Document.Coordinates
import ScriptLint.Proofs.Document.Lines
import ScriptLint.Proofs.Document.Access
import ScriptLint.Proofs.Comment
import ScriptLint.Proofs.Settings.Resolution
import ScriptLint.Proofs.Rule.Basic
import ScriptLint.Proofs.Rule.Matches
import ScriptLint.Proofs.Rule.Lines
import ScriptLint.Proofs.Rule.Names
import ScriptLint.Proofs.Rule.NoEmptyFunctions
import ScriptLint.Proofs.Rule.ArrayCopy
import ScriptLint.Proofs.Linter.Safety
import ScriptLint.Proofs.Source.Step
import ScriptLint.Proofs.Source.Rescan
import ScriptLint.Proofs.Source.Stack
import ScriptLint.Proofs.Text.MatchOrder
import ScriptLint.Proofs.Rule.Order
import ScriptLint.Proofs.Text.Ends
import ScriptLint.Proofs.Text.Completeness
import ScriptLint.Proofs.Text.Spelling
import ScriptLint.Proofs.Text.Fits
import ScriptLint.Proofs.Text.Words
import ScriptLint.Proofs.Text.Terminators
import ScriptLint.Proofs.Outline.EntryPoint
import ScriptLint.Proofs.Text.Extension
import ScriptLint.Proofs.Document.Terminators
import ScriptLint.Proofs.Rule.Padding
import ScriptLint.Proofs.Linter.Terminators
import ScriptLint.Proofs.Outcome
import ScriptLint.Proofs.Command.Status
import ScriptLint.Proofs.Json.Sorted
import ScriptLint.Proofs.Keyed
import ScriptLint.Proofs.Linter.Interference
import ScriptLint.Proofs.Registry.Lookup
import ScriptLint.Proofs.Rule.Signature
import ScriptLint.Proofs.Settings.RoundTrip
import ScriptLint.Proofs.Yaml.Sorted
import ScriptLint.Proofs.Settings.Unknown
import ScriptLint.Proofs.Settings.Bare
import ScriptLint.Proofs.Source.Plain
import ScriptLint.Proofs.Source.Head
import ScriptLint.Proofs.Document.Rows
import ScriptLint.Proofs.Document.Phrases
import ScriptLint.Proofs.Rule.Semicolons
import ScriptLint.Proofs.Rule.TrailingComma
import ScriptLint.Proofs.Outline.Framework
import ScriptLint.Proofs.Source.Kinds
import ScriptLint.Proofs.Source.Reading
import ScriptLint.Proofs.Source.Comments
import ScriptLint.Proofs.Source.Templates
import ScriptLint.Proofs.Text.Preferred
import ScriptLint.Proofs.Text.Keywords
import ScriptLint.Proofs.Outline.Code
import ScriptLint.Proofs.Outline.ClassFile
import ScriptLint.Proofs.Rule.NamingConvention
import ScriptLint.Proofs.Source.Agreement
import ScriptLint.Proofs.Source.Strings
import ScriptLint.Proofs.Outline.Order
import ScriptLint.Proofs.Source.Division
import ScriptLint.Proofs.Source.StringKinds
import ScriptLint.Proofs.Source.Quiet
import ScriptLint.Proofs.Rule.FunctionEmptyLine
import ScriptLint.Proofs.Source.TemplateLines
import ScriptLint.Proofs.Rule.OpenTemplates
import ScriptLint.Proofs.Source.Literals
import ScriptLint.Proofs.Text.Leftmost
import ScriptLint.Proofs.Rule.Quotes
import ScriptLint.Proofs.Rule.CopyWindows
import ScriptLint.Proofs.Outline.Owners
import ScriptLint.Proofs.Rule.CommentAbove
import ScriptLint.Proofs.Document.Positions
import ScriptLint.Proofs.Path
import ScriptLint.Proofs.FileTree
import ScriptLint.Proofs.Settings.Discovery
import ScriptLint.Proofs.Source.Neighbours
import ScriptLint.Proofs.Text.Surroundings
import ScriptLint.Proofs.Document.Whole
import ScriptLint.Proofs.Outline.NameEdges
import ScriptLint.Proofs.Rule.WholeWords
import ScriptLint.Proofs.Glob.Reading
import ScriptLint.Proofs.Glob.Escape
import ScriptLint.Proofs.Glob.Walk
import ScriptLint.Proofs.Glob.Directory
import ScriptLint.Proofs.Command.Files
import ScriptLint.Proofs.Number.Exact
import ScriptLint.Proofs.Settings.Limits
import ScriptLint.Proofs.Rule.LineLength
import ScriptLint.Proofs.Document.Joined
import ScriptLint.Proofs.Rule.EmptyFunctionPlaces
import ScriptLint.Proofs.Document.Deletion
import ScriptLint.Proofs.Rule.TrailingWhitespace
import ScriptLint.Proofs.Comment.Kept
import ScriptLint.Proofs.Source.PreviousLine
import ScriptLint.Proofs.Rule.CommentBelow
