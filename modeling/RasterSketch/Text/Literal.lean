import RasterSketch.Text.Basic
import RasterSketch.Text.Hex
/-!
# String literals

A string in a sketch is written between double quotes in printable ASCII alone: every other
character is escaped by its UTF-16 units, the common controls by a letter.  A surrogate is a unit of
its own.
-/

namespace RasterSketch.Text

/-- The UTF-16 units of a code point. -/
def units16 (n : Nat) : List Nat :=
  if n < 0x10000 then [n] else [0xd800 + (n - 0x10000) / 0x400, 0xdc00 + (n - 0x10000) % 0x400]

def unitEscape (unit : Nat) : List Char := '\\' :: 'u' :: hexDigits 4 unit

/-- A character as a literal has it. -/
def escapeChar (c : Char) : List Char :=
  if c = '"' then ['\\', '"']
  else if c = '\\' then ['\\', '\\']
  else if ' ' ≤ c ∧ c ≤ '~' then [c]
  else if c = '\n' then ['\\', 'n']
  else if c = '\r' then ['\\', 'r']
  else if c = '\t' then ['\\', 't']
  else if c = '\x08' then ['\\', 'b']
  else if c = '\x0c' then ['\\', 'f']
  else (units16 c.toNat).flatMap unitEscape

def escape : CodePoint → List Char
  | .char c => escapeChar c
  | .surrogate place => unitEscape (0xd800 + place)

/-- The literal of a text. -/
def literal (text : Text) : String :=
  String.ofList ('"' :: text.codes.flatMap escape ++ ['"'])

end RasterSketch.Text
