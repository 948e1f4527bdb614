import RasterSketch.Number.Basic
/-!
# Decimal numerals

A numeral with a fixed number of places is the nearest multiple of the last place, written out.
A number in a sketch has at most three places and no zero at their end, so that each multiple of a
thousandth has one text (`Double.thousandthsText`).
-/

namespace RasterSketch.Decimal

/-- The digits of a natural, most significant first. -/
def digits (n : Nat) : List Char :=
  if n < 10 then [Nat.digitChar n] else digits (n / 10) ++ [Nat.digitChar (n % 10)]
termination_by n

/-- The last `places` digits, with leading zeros. -/
def lastDigits : (places : Nat) → Nat → List Char
  | 0, _ => []
  | p + 1, n => lastDigits p (n / 10) ++ [Nat.digitChar (n % 10)]

/-- Without the zeros at the end. -/
def trimZeros : List Char → List Char
  | [] => []
  | c :: cs => match trimZeros cs with
    | [] => if c = '0' then [] else [c]
    | ds => c :: ds

def intText (n : Int) : String :=
  String.ofList (if n < 0 then '-' :: digits n.natAbs else digits n.natAbs)

/-- As many digits may an integer have that is read or written. -/
def digitLimit : Nat := 4300

/-- Whether an integer has more digits than may be written. -/
def exceedsLimit (n : Int) : Bool := tenTo digitLimit ≤ n.natAbs

def limitMessage : String :=
  "Exceeds the limit (4300 digits) for integer string conversion; " ++
    "use sys.set_int_max_str_digits() to increase the limit"

/-- A fraction behind a point, if there is any. -/
def withFraction (whole fraction : List Char) : List Char :=
  if fraction.isEmpty then whole else whole ++ '.' :: fraction

end RasterSketch.Decimal

namespace RasterSketch

open Decimal

/-- The magnitude in units of `10 ^ -places`, to the nearest. -/
def Magnitude.inPlaces (m : Magnitude) (places : Nat) : Nat := roundDiv (m.num * tenTo places) m.den

namespace Double

/-- A finite value to exactly `places` places. -/
def fixedText (places : Nat) (negative : Bool) (m : Magnitude) : String :=
  let n := m.inPlaces places
  let sign := if negative then ['-'] else []
  String.ofList (sign ++ withFraction (digits (n / tenTo places)) (lastDigits places n))

/-- A finite value to three places, the zeros at their end dropped; what rounds to zero has no
sign. -/
def thousandthsText (negative : Bool) (m : Magnitude) : String :=
  let n := m.inPlaces 3
  let sign := if negative && n != 0 then ['-'] else []
  String.ofList (sign ++ withFraction (digits (n / 1000)) (trimZeros (lastDigits 3 n)))

end Double

end RasterSketch
