import RasterSketch.Number.Decimal
import RasterSketch.Text.Basic
/-!
# Integers as people write them

An integer on the command line may use the digits of any script, an underscore between two digits,
a sign, leading zeros, and blanks around it.
-/

namespace RasterSketch.Text

/-- The zero of each decimal script of Unicode 14 beyond ASCII; its nine digits follow. -/
def scriptZeros : List Nat := [
  0x660, 0x6f0, 0x7c0, 0x966, 0x9e6, 0xa66, 0xae6, 0xb66, 0xbe6, 0xc66, 0xce6, 0xd66, 0xde6, 0xe50,
  0xed0, 0xf20, 0x1040, 0x1090, 0x17e0, 0x1810, 0x1946, 0x19d0, 0x1a80, 0x1a90, 0x1b50, 0x1bb0,
  0x1c40, 0x1c50, 0xa620, 0xa8d0, 0xa900, 0xa9d0, 0xa9f0, 0xaa50, 0xabf0, 0xff10, 0x104a0, 0x10d30,
  0x11066, 0x110f0, 0x11136, 0x111d0, 0x112f0, 0x11450, 0x114d0, 0x11650, 0x116c0, 0x11730,
  0x118e0, 0x11950, 0x11c50, 0x11d50, 0x11da0, 0x16a60, 0x16ac0, 0x16b50, 0x1d7ce, 0x1d7d8,
  0x1d7e2, 0x1d7ec, 0x1d7f6, 0x1e140, 0x1e2f0, 0x1e950, 0x1fbf0]

/-- The value of a decimal digit of any script. -/
def digitValue? (c : CodePoint) : Option Nat :=
  let n := c.value
  if 48 ≤ n ∧ n < 58 then some (n - 48)
  else (scriptZeros.find? fun z => z ≤ n && n < z + 10).map (n - ·)

def isDecimalDigit (c : CodePoint) : Bool := (digitValue? c).isSome

/-- Blanks that may stand around an integer. -/
def isBlank (c : CodePoint) : Bool :=
  let n := c.value
  n == 0x20 || (0x9 ≤ n && n ≤ 0xd) || n == 0x85 || n == 0xa0 || n == 0x1680 ||
    (0x2000 ≤ n && n ≤ 0x200a) || n == 0x2028 || n == 0x2029 || n == 0x202f || n == 0x205f ||
    n == 0x3000

def stripBlanks (cs : List CodePoint) : List CodePoint :=
  ((cs.dropWhile isBlank).reverse.dropWhile isBlank).reverse

/-- Digits with single underscores between them; `after` tells whether a digit stands before. -/
def digitValues? : (after : Bool) → List CodePoint → Option (List Nat)
  | after, [] => if after then some [] else none
  | after, c :: cs =>
    if c = .char '_' then if after then digitValues? false cs else none
    else do
      let d ← digitValue? c
      let ds ← digitValues? true cs
      return d :: ds

def natural? (cs : List CodePoint) : Option Nat := do
  let ds ← digitValues? false cs
  if ds.length ≤ Decimal.digitLimit then some (ds.foldl (fun n d => 10 * n + d) 0) else none

/-- The integer that a text denotes, if it denotes one. -/
def integer? (text : Text) : Option Int :=
  match stripBlanks text.codes with
  | .char '-' :: cs => (natural? cs).map fun n => -(n : Int)
  | .char '+' :: cs => (natural? cs).map fun n => (n : Int)
  | cs => (natural? cs).map fun n => (n : Int)

end RasterSketch.Text
