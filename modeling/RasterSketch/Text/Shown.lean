import RasterSketch.Text.Basic
import RasterSketch.Text.Hex
import RasterSketch.Text.Printable
/-!
# Text in messages

A message shows a text between single quotes, or between double quotes if it holds a single one and
no double one.  What is not printable is shown by its code point, with as few digits as its range
needs.
-/

namespace RasterSketch.Text

def quoteFor (codes : List CodePoint) : Char :=
  if codes.contains (.char '\'') && !codes.contains (.char '"') then '"' else '\''

/-- The code point in two, four or eight digits. -/
def codePointEscape (n : Nat) : List Char :=
  if n ≤ 0xff then '\\' :: 'x' :: hexDigits 2 n
  else if n ≤ 0xffff then '\\' :: 'u' :: hexDigits 4 n
  else '\\' :: 'U' :: hexDigits 8 n

def showCode (quote : Char) : CodePoint → List Char
  | .surrogate place => codePointEscape (0xd800 + place)
  | .char c =>
    if c = quote || c = '\\' then ['\\', c]
    else if c = '\n' then ['\\', 'n']
    else if c = '\r' then ['\\', 'r']
    else if c = '\t' then ['\\', 't']
    else if isPrintable c then [c]
    else codePointEscape c.toNat

/-- A text as a message shows it. -/
def shown (text : Text) : String :=
  let quote := quoteFor text.codes
  String.ofList (quote :: text.codes.flatMap (showCode quote) ++ [quote])

end RasterSketch.Text
