import Frond.Cli.Arguments
import Frond.Cli.Name
import Frond.Cli.Program
import Frond.Cli.Usage
import Frond.Event
import Frond.Event.Filter
import Frond.Event.Filter.Reading
import Frond.Expansion
import Frond.Failure
import Frond.Files.Basic
import Frond.Files.Tree
import Frond.Frames
import Frond.Geometry.Box
import Frond.Geometry.Point
import Frond.Grammar
import Frond.Main
import Frond.Number.Binary64
import Frond.Number.Fixed
import Frond.Number.Hypotenuse
import Frond.Number.Reading
import Frond.Pattern.Basic
import Frond.Pattern.Class
import Frond.Pattern.Reading
import Frond.Preset.Basic
import Frond.Preset.Lookup
import Frond.Proofs.Expansion.Branching
import Frond.Proofs.Expansion.Counts
import Frond.Proofs.Expansion.Deletion
import Frond.Proofs.Expansion.Words
import Frond.Proofs.Frames.Ends
import Frond.Proofs.Frames.Progress
import Frond.Proofs.Geometry.Boxes
import Frond.Proofs.Number.Characters
import Frond.Proofs.Number.Equality
import Frond.Proofs.Number.Finite
import Frond.Proofs.Number.Plain
import Frond.Proofs.Preset.Depth
import Frond.Proofs.Preset.SegmentCount
import Frond.Proofs.Session.BuildLog
import Frond.Proofs.Session.Cacheless
import Frond.Proofs.Session.Coherence
import Frond.Proofs.Session.History
import Frond.Proofs.Session.Kept
import Frond.Proofs.Session.Noise
import Frond.Proofs.Session.Prepared
import Frond.Proofs.Session.Staleness
import Frond.Proofs.Settings.Judgement
import Frond.Proofs.Svg.Characters
import Frond.Proofs.Svg.ClassStem
import Frond.Proofs.Svg.Colours
import Frond.Proofs.Svg.Containment
import Frond.Proofs.Svg.DrawingTags
import Frond.Proofs.Svg.Entities
import Frond.Proofs.Svg.Numbers
import Frond.Proofs.Svg.PathGrowth
import Frond.Proofs.Svg.PathReading
import Frond.Proofs.Svg.Tags
import Frond.Proofs.Turtle.Brackets
import Frond.Proofs.Turtle.Depth
import Frond.Proofs.Turtle.Idle
import Frond.Proofs.Turtle.Poses
import Frond.Proofs.Turtle.SegmentCount
import Frond.Rules
import Frond.Session.Basic
import Frond.Session.Log
import Frond.Session.Plan
import Frond.Session.Request
import Frond.Settings
import Frond.Settings.Choices
import Frond.Settings.Reading
import Frond.Svg.Document
import Frond.Svg.Markup
import Frond.Svg.Path
import Frond.Svg.Style
import Frond.Symbol
import Frond.Text.Alphanumeric
import Frond.Text.EditDistance
import Frond.Text.Characters
import Frond.Text.Lowercase
import Frond.Text.Reader
import Frond.Text.Terminal
import Frond.Toml.Bare
import Frond.Toml.Document
import Frond.Toml.Layout
import Frond.Toml.Moment
import Frond.Toml.Quoted
import Frond.Toml.Statement
import Frond.Toml.Table
import Frond.Toml.Value
import Frond.Turtle.MoveCount
import Frond.Turtle.Walk
import Frond.Proofs.Session.Start
import Frond.Proofs.Preset.Room
import Frond.Proofs.Cli.Sequence
import Frond.Proofs.Cli.Reading
import Frond.Proofs.Files.Directories
import Frond.Proofs.Cli.Agreement
import Frond.Proofs.Number.Mantissa
import Frond.Proofs.Number.Rounded
import Frond.Proofs.Number.Doubles
import Frond.Proofs.Number.Arithmetic
import Frond.Proofs.Number.Region
import Frond.Proofs.Session.Bounds
import Frond.Proofs.Expansion.Overflow
import Frond.Proofs.Session.InPlace
import Frond.Proofs.Session.Refusals
import Frond.Proofs.Session.LastWrites
import Frond.Proofs.Text.EditScripts
import Frond.Proofs.Text.TwoRows
import Frond.Proofs.Turtle.Continuation
import Frond.Proofs.Turtle.Strokes
import Frond.Proofs.Turtle.Branch
import Frond.Proofs.Text.BracketWords
import Frond.Proofs.Turtle.StackHeights
import Frond.Proofs.Expansion.Composition
import Frond.Proofs.Expansion.Passes
import Frond.Proofs.Expansion.Stripping
import Frond.Proofs.Expansion.Growth
import Frond.Proofs.Preset.Growth
import Frond.Proofs.Svg.PenMoves
import Frond.Proofs.Turtle.Successive
import Frond.Proofs.Turtle.Subpaths
import Frond.Proofs.Frames.Names
import Frond.Proofs.Number.Digits
import Frond.Proofs.Number.HalfEven
import Frond.Proofs.Number.Exact
import Frond.Proofs.Number.Hundredths
import Frond.Proofs.Number.Coordinates
import Frond.Proofs.Geometry.Spans
import Frond.Proofs.Svg.ViewBox
import Frond.Proofs.Svg.Replacements
import Frond.Proofs.Preset.Names
import Frond.Proofs.Preset.Suggestions
import Frond.Proofs.Turtle.SideBySide
import Frond.Proofs.Turtle.Placement
import Frond.Proofs.Session.ExactDrawing
import Frond.Proofs.Grammar.Overrides
import Frond.Proofs.Grammar.Summary
import Frond.Proofs.Text.Cutting
import Frond.Proofs.Files.Paths
import Frond.Proofs.Files.Writing
import Frond.Proofs.Files.Making
import Frond.Proofs.Geometry.Stretches
import Frond.Proofs.Number.Integers
import Frond.Proofs.Number.Packing
import Frond.Proofs.Number.Quotients
import Frond.Proofs.Number.Decimals
import Frond.Proofs.Number.Numerals
import Frond.Proofs.Cli.Values
import Frond.Proofs.Cli.Words
import Frond.Proofs.Cli.Taking
import Frond.Proofs.Cli.Meaning
