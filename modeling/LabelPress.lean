import LabelPress.Barcode.Pattern
import LabelPress.Barcode.Symbol
import LabelPress.Bitmap.Encoder
import LabelPress.Bitmap.Flaw
import LabelPress.Bitmap.FloatMap
import LabelPress.Bitmap.Grid
import LabelPress.Bitmap.Packing
import LabelPress.Bitmap.Picture
import LabelPress.Bitmap.Portable
import LabelPress.Bitmap.Reading
import LabelPress.Bitmap.Saving
import LabelPress.Bitmap.XBitmap
import LabelPress.Bitmap.XPixmap
import LabelPress.Box
import LabelPress.Canvas.Basic
import LabelPress.Canvas.Primitive
import LabelPress.Command.Basic
import LabelPress.Command.Reader
import LabelPress.Command.Shape
import LabelPress.Command.Spelling
import LabelPress.Dependencies
import LabelPress.Drawing.State
import LabelPress.Entries
import LabelPress.Fault
import LabelPress.Field.Data
import LabelPress.Field.Layouts
import LabelPress.Files.Path
import LabelPress.Files.Tree
import LabelPress.Font.Selection
import LabelPress.Journal
import LabelPress.Label.Conversion
import LabelPress.Label.Desk
import LabelPress.Label.Export
import LabelPress.Label.Painting
import LabelPress.Label.Plan
import LabelPress.Label.Source
import LabelPress.Number.Binary64
import LabelPress.Number.Fit
import LabelPress.Number.Numeral
import LabelPress.Number.Quantity
import LabelPress.Number.Reading
import LabelPress.Number.Rounding
import LabelPress.Number.Shortest
import LabelPress.Number.Word
import LabelPress.Proofs.Barcode.Decoding
import LabelPress.Proofs.Barcode.Geometry
import LabelPress.Proofs.Bitmap.Encoder
import LabelPress.Proofs.Bitmap.Flattening
import LabelPress.Proofs.Canvas.FontTables
import LabelPress.Proofs.Command.Endings
import LabelPress.Proofs.Command.Grammar
import LabelPress.Proofs.Command.Markup
import LabelPress.Proofs.Command.Parts
import LabelPress.Proofs.Command.RoundTrip
import LabelPress.Proofs.Entries
import LabelPress.Proofs.Entries.Places
import LabelPress.Proofs.Field.Bindings
import LabelPress.Proofs.Field.BoundTexts
import LabelPress.Proofs.Field.Declarations
import LabelPress.Proofs.Field.LayoutPlaces
import LabelPress.Proofs.Files.NormalForm
import LabelPress.Proofs.Files.Spelling
import LabelPress.Proofs.Files.Writing
import LabelPress.Proofs.Font.Acceptance
import LabelPress.Proofs.Journal.Recorder
import LabelPress.Proofs.Label.Bitmaps
import LabelPress.Proofs.Label.Completion
import LabelPress.Proofs.Label.Exports
import LabelPress.Proofs.Label.FieldShares
import LabelPress.Proofs.Label.FontUse
import LabelPress.Proofs.Label.Histories
import LabelPress.Proofs.Label.LineBreaks
import LabelPress.Proofs.Label.Payloads
import LabelPress.Proofs.Label.Reversal
import LabelPress.Proofs.Label.Rewording
import LabelPress.Proofs.Label.Shapes
import LabelPress.Proofs.Label.Translation
import LabelPress.Proofs.Label.WellFormed
import LabelPress.Proofs.Number.FloatRange
import LabelPress.Proofs.Number.Numerals
import LabelPress.Proofs.Painting.Failures
import LabelPress.Proofs.Painting.Performed
import LabelPress.Proofs.Painting.Places
import LabelPress.Proofs.Painting.Ranges
import LabelPress.Proofs.Painting.Strokes
import LabelPress.Proofs.Rasterizer.Fallback
import LabelPress.Proofs.Rasterizer.Order
import LabelPress.Proofs.Settings.Coercion
import LabelPress.Proofs.Settings.Json
import LabelPress.Proofs.Settings.Loading
import LabelPress.Proofs.Settings.Overlay
import LabelPress.Proofs.Settings.Shown
import LabelPress.Proofs.Stream.Agreement
import LabelPress.Proofs.Stream.Changes
import LabelPress.Proofs.Stream.Places
import LabelPress.Proofs.Stream.Reversals
import LabelPress.Proofs.Stream.Settled
import LabelPress.Proofs.Stream.Standing
import LabelPress.Proofs.Stream.Unrecognized
import LabelPress.Proofs.Stream.Visits
import LabelPress.Proofs.Svg.Document
import LabelPress.Proofs.Svg.Markup
import LabelPress.Proofs.Svg.StyleSheet
import LabelPress.Proofs.Svg.WellFormed
import LabelPress.Proofs.Text.Base64
import LabelPress.Proofs.Text.Delimiters
import LabelPress.Proofs.Text.Runs
import LabelPress.Proofs.Xml.Grammar
import LabelPress.Rasterizer.Basic
import LabelPress.Rasterizer.Cairo
import LabelPress.Rasterizer.Request
import LabelPress.Rasterizer.RsvgConvert
import LabelPress.Rasterizer.Selection
import LabelPress.Recorder
import LabelPress.Reported
import LabelPress.Settings.Configuration
import LabelPress.Settings.Json
import LabelPress.Settings.Value
import LabelPress.Svg.Document
import LabelPress.Svg.Node
import LabelPress.Text.Base64
import LabelPress.Text.Blank
import LabelPress.Text.CodePoint
import LabelPress.Text.Cut
import LabelPress.Text.Digit
import LabelPress.Text.Hex
import LabelPress.Text.Md5
import LabelPress.Text.Printable
import LabelPress.Text.Quoted
import LabelPress.Text.Span
import LabelPress.Text.Utf8
import LabelPress.Text.Word
import LabelPress.Work
