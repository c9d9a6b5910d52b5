import RustScript.Command
import RustScript.CommandLine.Arguments
import RustScript.CommandLine.Basic
import RustScript.CommandLine.Help
import RustScript.CommandLine.Misuse
import RustScript.CommandLine.Report
import RustScript.CommandLine.Request
import RustScript.CommandLine.Terminal
import RustScript.Crate
import RustScript.Entries
import RustScript.Failure
import RustScript.Files.Action
import RustScript.Files.Basic
import RustScript.Files.Error
import RustScript.Files.Text
import RustScript.Json.Basic
import RustScript.Json.Reader
import RustScript.Log.Local
import RustScript.Log.Settings
import RustScript.Log.Store
import RustScript.Main
import RustScript.Manifest.Basic
import RustScript.Manifest.Fragment
import RustScript.Manifest.Merge
import RustScript.Manifest.Reader
import RustScript.Number.Binary64
import RustScript.Number.Decimal
import RustScript.Number.Integer
import RustScript.Number.Shortest
import RustScript.Path
import RustScript.Pipeline.Basic
import RustScript.Pipeline.Stages
import RustScript.Pipeline.Whole
import RustScript.Progress.Basic
import RustScript.Progress.Board
import RustScript.Progress.Tracker
import RustScript.Project
import RustScript.Proofs.CommandLine.DryRun
import RustScript.Proofs.CommandLine.ExitStatus
import RustScript.Proofs.CommandLine.Foretold
import RustScript.Proofs.CommandLine.Shown
import RustScript.Proofs.Entries
import RustScript.Proofs.Files.Frame
import RustScript.Proofs.Files.Near
import RustScript.Proofs.Files.Rooted
import RustScript.Proofs.Files.Similar
import RustScript.Proofs.Files.Standing
import RustScript.Proofs.Files.Undone
import RustScript.Proofs.Manifest.Answered
import RustScript.Proofs.Manifest.Canonical
import RustScript.Proofs.Manifest.Declared
import RustScript.Proofs.Manifest.Isolated
import RustScript.Proofs.Manifest.Lookup
import RustScript.Proofs.Manifest.Merge
import RustScript.Proofs.Manifest.Shape
import RustScript.Proofs.Manifest.Sound
import RustScript.Proofs.Manifest.Spelling
import RustScript.Proofs.Pipeline.Abreast
import RustScript.Proofs.Pipeline.Again
import RustScript.Proofs.Pipeline.BinaryPath
import RustScript.Proofs.Pipeline.Calls
import RustScript.Proofs.Pipeline.Confinement
import RustScript.Proofs.Pipeline.Course
import RustScript.Proofs.Pipeline.Damaged
import RustScript.Proofs.Pipeline.Episodes
import RustScript.Proofs.Pipeline.FailStop
import RustScript.Proofs.Pipeline.Frame
import RustScript.Proofs.Pipeline.Handover
import RustScript.Proofs.Pipeline.Heard
import RustScript.Proofs.Pipeline.Home
import RustScript.Proofs.Pipeline.Marked
import RustScript.Proofs.Pipeline.Neighbours
import RustScript.Proofs.Pipeline.Noted
import RustScript.Proofs.Pipeline.Noting
import RustScript.Proofs.Pipeline.Observed
import RustScript.Proofs.Pipeline.OneClock
import RustScript.Proofs.Pipeline.Opened
import RustScript.Proofs.Pipeline.Parallel
import RustScript.Proofs.Pipeline.Requests
import RustScript.Proofs.Pipeline.Resumed
import RustScript.Proofs.Pipeline.Routed
import RustScript.Proofs.Pipeline.Tasks
import RustScript.Proofs.Pipeline.Timed
import RustScript.Proofs.Pipeline.Timeless
import RustScript.Proofs.Pipeline.Turns
import RustScript.Proofs.Pipeline.Untouched
import RustScript.Proofs.Progress.Reliable
import RustScript.Proofs.Progress.Story
import RustScript.Proofs.Progress.Tracker
import RustScript.Proofs.Project.Stem
import RustScript.Proofs.Registry.Contract
import RustScript.Proofs.Registry.Transparent
import RustScript.Proofs.Rust.Elements
import RustScript.Proofs.Rust.Equality
import RustScript.Proofs.Rust.Levels
import RustScript.Proofs.Rust.Placed
import RustScript.Proofs.Snippet.Braces
import RustScript.Proofs.Snippet.Heads
import RustScript.Proofs.Snippet.Hoisted
import RustScript.Proofs.Snippet.Kept
import RustScript.Proofs.Snippet.Value
import RustScript.Proofs.Snippet.Wrapped
import RustScript.Proofs.Source.Agree
import RustScript.Proofs.Source.Alike
import RustScript.Proofs.Source.Calm
import RustScript.Proofs.Source.Commas
import RustScript.Proofs.Source.DualPath
import RustScript.Proofs.Source.EntryPoints
import RustScript.Proofs.Source.Inference
import RustScript.Proofs.Source.Layout
import RustScript.Proofs.Source.Lines
import RustScript.Proofs.Source.Live
import RustScript.Proofs.Source.LocalNames
import RustScript.Proofs.Source.Pieces
import RustScript.Proofs.Source.Readers
import RustScript.Proofs.Source.Reading
import RustScript.Proofs.Source.Reflow
import RustScript.Proofs.Source.RootWords
import RustScript.Proofs.Source.RustWords
import RustScript.Proofs.Source.Scanned
import RustScript.Proofs.Source.Scanning
import RustScript.Proofs.Source.Sections
import RustScript.Proofs.Source.Spells
import RustScript.Proofs.Source.Traced
import RustScript.Proofs.Source.UseTree
import RustScript.Proofs.Source.Words
import RustScript.Proofs.Text.Lines
import RustScript.Proofs.Text.Utf8
import RustScript.Proofs.Toml.Alike
import RustScript.Proofs.Toml.Distinct
import RustScript.Proofs.Toml.Characters
import RustScript.Registry.Address
import RustScript.Registry.Basic
import RustScript.Registry.Cache
import RustScript.Registry.Search
import RustScript.Registry.Web
import RustScript.Rehearsal.Basic
import RustScript.Rust.Grammar.Expressions
import RustScript.Rust.Grammar.Items
import RustScript.Rust.Grammar.Patterns
import RustScript.Rust.Grammar.Rule
import RustScript.Rust.Grammar.Types
import RustScript.Rust.Lexer
import RustScript.Rust.Syntax
import RustScript.Rust.Token
import RustScript.Settings
import RustScript.Shell.Basic
import RustScript.Shell.Syntax
import RustScript.Shell.Tool
import RustScript.Snippet
import RustScript.Source.Analysis
import RustScript.Source.Directive
import RustScript.Source.Facts
import RustScript.Source.Fence
import RustScript.Source.Scan
import RustScript.Source.UseText
import RustScript.Text.Blank
import RustScript.Text.Case
import RustScript.Text.Digit
import RustScript.Text.Identifier
import RustScript.Text.Lines
import RustScript.Text.Printable
import RustScript.Text.Quoted
import RustScript.Text.Ranges
import RustScript.Text.Sorted
import RustScript.Text.Utf8
import RustScript.Text.Word
import RustScript.Toml.Basic
import RustScript.Toml.Document
import RustScript.Toml.Lexeme
import RustScript.Toml.Problem
import RustScript.Toml.Reader
import RustScript.Toml.Shown
import RustScript.Toml.Writer
import RustScript.World
import RustScript.Proofs.Registry.Searched
import RustScript.Proofs.Manifest.Attempts
import RustScript.Proofs.Registry.Replies
import RustScript.Proofs.Files.Direct
import RustScript.Proofs.Log.Shelf
import RustScript.Proofs.Log.Journal
import RustScript.Proofs.Number.Integer
import RustScript.Proofs.Log.Outputs
import RustScript.Proofs.Source.Fenced
import RustScript.Proofs.Snippet.Lossless
import RustScript.Proofs.Snippet.LastHead
import RustScript.Proofs.Source.Analyzed
import RustScript.Proofs.Source.LineEnds
import RustScript.Proofs.Source.Refilled
import RustScript.Proofs.Number.Rounding
import RustScript.Proofs.Number.Numeral
import RustScript.Proofs.Settings
