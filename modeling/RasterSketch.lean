import RasterSketch.Main
import RasterSketch.Number.Word
import RasterSketch.Session.Holding
import RasterSketch.Session.Scanning
import RasterSketch.Session.Sketching
import RasterSketch.Sketch.Numeral
import RasterSketch.Raster.Filled
import RasterSketch.Proofs.Delivery
import RasterSketch.Proofs.Number.Nearest
import RasterSketch.Proofs.Number.Order
import RasterSketch.Proofs.Number.Nearly
import RasterSketch.Proofs.Scan.Points
import RasterSketch.Proofs.Drawing
import RasterSketch.Proofs.Visibility
import RasterSketch.Proofs.Incremental
import RasterSketch.Proofs.Number.Numeral
import RasterSketch.Proofs.Text.Units
import RasterSketch.Proofs.Sketch.Lexer
import RasterSketch.Proofs.Sketch.Parser
import RasterSketch.Proofs.Sketch.ReadBack
import RasterSketch.Proofs.Sketch.Inline
import RasterSketch.Proofs.Sketch.Outline
import RasterSketch.Proofs.Sketch.Layout
import RasterSketch.Proofs.Sketch.Structure
import RasterSketch.Proofs.Sketch.Sections
import RasterSketch.Proofs.Number.Between
import RasterSketch.Proofs.Fields
import RasterSketch.Proofs.Canvas
import RasterSketch.Proofs.Density
import RasterSketch.Proofs.Exactness
import RasterSketch.Proofs.Fitting
import RasterSketch.Proofs.Tiling
import RasterSketch.Proofs.Scan.Restart
import RasterSketch.Proofs.Scan.Bands
import RasterSketch.Proofs.Scan.Inside
import RasterSketch.Proofs.Sketch.Plain
import RasterSketch.Proofs.Style.Cells
import RasterSketch.Proofs.Totality
import RasterSketch.Proofs.Number.Apart
import RasterSketch.Proofs.Placing
import RasterSketch.Proofs.Number.Halves
import RasterSketch.Proofs.Sketch.Meaning
import RasterSketch.Proofs.Style.Frames
import RasterSketch.Proofs.Scan.Sessions
import RasterSketch.Proofs.CommandLine.Settings
import RasterSketch.Proofs.CommandLine.Outcome
import RasterSketch.Proofs.Raster.Pixels
import RasterSketch.Proofs.Raster.Flat
import RasterSketch.Proofs.Raster.Loading
import RasterSketch.Proofs.Raster.PngFiles
import RasterSketch.Proofs.Raster.PnmFiles
import RasterSketch.Proofs.Presenting
import RasterSketch.Proofs.Number.UpTo
import RasterSketch.Proofs.CommandLine.Escaping
import RasterSketch.Proofs.Raster.Values
import RasterSketch.Proofs.Raster.RoundTrip
import RasterSketch.Proofs.Holding
import RasterSketch.Proofs.Number.Whole
import RasterSketch.Proofs.Coarseness
import RasterSketch.Proofs.Sides
import RasterSketch.Proofs.Edges
import RasterSketch.Proofs.Number.Canonical
import RasterSketch.Proofs.Sketch.Literals
import RasterSketch.Proofs.Scan.Counting
import RasterSketch.Proofs.Style.Brightness
import RasterSketch.Proofs.Style.Glyphs
import RasterSketch.Proofs.Style.Shapes
import RasterSketch.Proofs.Style.Colours
import RasterSketch.Proofs.Sketch.Faults
import RasterSketch.Proofs.CommandLine.Orders
import RasterSketch.Proofs.Sketching
import RasterSketch.Proofs.Raster.Recognition
import RasterSketch.Proofs.Sketch.Indentation
