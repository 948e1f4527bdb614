import RasterSketch.Text.Basic
/-!
# Switches

The switches of the command line, by a letter or by a long name, with or without a value.
-/

namespace RasterSketch.CommandLine

inductive Switch where
  | help
  | style
  | legacy
  | maxSize
  | output
  | verbose
  deriving DecidableEq

namespace Switch

def all : List Switch := [help, style, legacy, maxSize, output, verbose]

def letter? : Switch → Option Char
  | help => some 'h'
  | style => some 's'
  | legacy => none
  | maxSize => some 'm'
  | output => some 'o'
  | verbose => some 'v'

def long : Switch → String
  | help => "--help"
  | style => "--style"
  | legacy => "--legacy"
  | maxSize => "--max-size"
  | output => "--output"
  | verbose => "--verbose"

def takesValue : Switch → Bool
  | style => true
  | maxSize => true
  | output => true
  | _ => false

/-- The switch as an error names it. -/
def title (s : Switch) : String :=
  match s.letter? with
  | some c => String.ofList ['-', c] ++ "/" ++ s.long
  | none => s.long

def ofLetter? (c : CodePoint) : Option Switch := all.find? fun s => s.letter?.map .char = some c

/-- The switches whose long names begin with a text. -/
def beginning (text : Text) : List Switch :=
  all.filter fun s => text.codes.isPrefixOf (Text.ofString s.long).codes

end Switch

end RasterSketch.CommandLine
