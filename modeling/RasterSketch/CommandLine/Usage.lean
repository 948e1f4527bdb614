import RasterSketch.CommandLine.Request
import RasterSketch.Sketch.Program
/-!
# Usage and help
-/

namespace RasterSketch.CommandLine

/-- The styles that may be chosen, in braces. -/
def choices : String := "\x7b" ++ ",".intercalate (Style.all.map Style.name) ++ "\x7d"

def usageLines : List String := [
  "usage: codeart [-h]",
  "               [-s " ++ choices ++ "]",
  "               [--legacy] [-m MAX_SIZE] [-o OUTPUT] [-v]",
  "               image"]

def helpLines : List String := usageLines ++ [
  "",
  "Turn an image into p5.js drawing code",
  "",
  "positional arguments:",
  "  image                 Path to input image (PNG, JPEG, SVG, ...)",
  "",
  "options:",
  "  -h, --help            show this help message and exit",
  "  -s " ++ choices ++ ", --style " ++ choices,
  "                        Drawing style (default: pixels)",
  "  --legacy              Use the original converter's denser grid and keep any",
  "                        non-transparent pixel",
  "  -m MAX_SIZE, --max-size MAX_SIZE",
  "                        Longest canvas side in pixels (default: 400)",
  "  -o OUTPUT, --output OUTPUT",
  "                        Write the program to a file instead of stdout",
  "  -v, --verbose         Log progress to stderr"]

/-- What is said of a usage error: how the program is used, and the error. -/
def UsageError.lines (e : UsageError) : List Text :=
  usageLines.map Text.ofString ++ ["codeart: error: " ++ e.message]

end RasterSketch.CommandLine
