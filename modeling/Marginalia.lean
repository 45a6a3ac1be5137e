import Marginalia.Anchor
import Marginalia.Binary64
import Marginalia.Card.Basic
import Marginalia.Card.Finished
import Marginalia.Command.Deed
import Marginalia.Command.Flag
import Marginalia.Command.Inquiry
import Marginalia.Command.Line
import Marginalia.Command.Run
import Marginalia.Command.Task
import Marginalia.Diagnosis
import Marginalia.Glob
import Marginalia.Glob.Comparison
import Marginalia.Glob.Files
import Marginalia.Grid
import Marginalia.Highlight
import Marginalia.Json
import Marginalia.Language
import Marginalia.Main
import Marginalia.Markdown
import Marginalia.Markdown.Anchoring
import Marginalia.Markdown.Block
import Marginalia.Markdown.Block.Leaf
import Marginalia.Markdown.Block.Reader
import Marginalia.Markdown.Block.Table
import Marginalia.Markdown.Definition
import Marginalia.Markdown.Entity
import Marginalia.Markdown.Entity.Names
import Marginalia.Markdown.Glyph
import Marginalia.Markdown.Html
import Marginalia.Markdown.Info
import Marginalia.Markdown.Punctuation
import Marginalia.Markdown.Span
import Marginalia.Markdown.Span.Emphasis
import Marginalia.Markdown.Span.Link
import Marginalia.Markdown.Span.Reader
import Marginalia.Numeral
import Marginalia.Page.Html
import Marginalia.Page.Listing
import Marginalia.Page.Record
import Marginalia.Page.View
import Marginalia.Path
import Marginalia.Path.Clean
import Marginalia.Reading
import Marginalia.Reading.Crew
import Marginalia.Reference
import Marginalia.Report
import Marginalia.Search
import Marginalia.Segment.Basic
import Marginalia.Segment.Error
import Marginalia.Segment.Marker
import Marginalia.Segment.Scanner
import Marginalia.Settings.Basic
import Marginalia.Settings.Decode
import Marginalia.Settings.Load
import Marginalia.Settings.Starter
import Marginalia.Sorting
import Marginalia.Text.Basic
import Marginalia.Text.Case
import Marginalia.Text.Percent
import Marginalia.Text.Pieces
import Marginalia.Text.Printable
import Marginalia.Text.Quoted
import Marginalia.Text.Space
import Marginalia.Text.Utf8
import Marginalia.Text.Width
import Marginalia.Toml.Definition
import Marginalia.Toml.Number
import Marginalia.Toml.Reader
import Marginalia.Toml.Token
import Marginalia.Toml.Value
import Marginalia.Url
import Marginalia.Weave
import Marginalia.Workspace.Basic
import Marginalia.Workspace.Write
import Marginalia.Proofs.Marker
import Marginalia.Proofs.Scanner
import Marginalia.Proofs.Lossless
import Marginalia.Proofs.Decomposition
import Marginalia.Proofs.Grouping
import Marginalia.Proofs.Anchors
import Marginalia.Proofs.FirstLine
import Marginalia.Proofs.Foresight
import Marginalia.Proofs.Cut
import Marginalia.Proofs.Boundary
import Marginalia.Proofs.Script
import Marginalia.Proofs.LineEnding.Text
import Marginalia.Proofs.LineEnding.Scan
import Marginalia.Proofs.Revision
import Marginalia.Proofs.LineEnding.Cards
import Marginalia.Proofs.Panel
import Marginalia.Proofs.Gutter
import Marginalia.Proofs.PanelOrder
import Marginalia.Proofs.Locality
import Marginalia.Proofs.Exchange
import Marginalia.Proofs.Literal
import Marginalia.Proofs.Choice
import Marginalia.Proofs.Onset
import Marginalia.Proofs.Emission
import Marginalia.Proofs.LineNumber
import Marginalia.Proofs.Invisible
import Marginalia.Proofs.Outline.Lines
import Marginalia.Proofs.Outline.Scan
import Marginalia.Proofs.Failure
import Marginalia.Proofs.Contents
import Marginalia.Proofs.Isolation
import Marginalia.Proofs.CleanPath
import Marginalia.Proofs.Walk
import Marginalia.Proofs.Writing
import Marginalia.Proofs.Frame
import Marginalia.Proofs.Bounds
import Marginalia.Proofs.Markup
import Marginalia.Proofs.Percent
import Marginalia.Proofs.StartTag
import Marginalia.Proofs.Distinct
import Marginalia.Proofs.Links
import Marginalia.Proofs.Crew
import Marginalia.Proofs.Schedule
import Marginalia.Proofs.Stream
import Marginalia.Proofs.Opening
import Marginalia.Proofs.BlockComment
import Marginalia.Proofs.Indentation
import Marginalia.Proofs.Escape
import Marginalia.Proofs.Calls
import Marginalia.Proofs.LeastVariant
import Marginalia.Proofs.Atomic
import Marginalia.Proofs.Expansion
import Marginalia.Proofs.SameFile
import Marginalia.Proofs.Lookup
import Marginalia.Proofs.Discovery
import Marginalia.Proofs.Languages
import Marginalia.Proofs.Configuration
import Marginalia.Proofs.LetterCase
import Marginalia.Proofs.Slug
import Marginalia.Proofs.Sorting
import Marginalia.Proofs.Search
