import RasterSketch.Number.Decimal
/-!
# The shortest decimal that reads back

A double that is shown in a message has the fewest digits that round to it again, and of those the
nearest; of two equally near, the even one.  With exponents from -4 to 15 it is written
positionally, with at least one place; otherwise in scientific notation, the exponent signed and of
two digits at least.
-/

namespace RasterSketch

/-- The decimal `significand * 10 ^ exponent`. -/
structure DecimalForm where
  significand : Nat
  exponent : Int
  deriving DecidableEq

namespace DecimalForm

def num (d : DecimalForm) : Nat := d.significand * tenTo d.exponent.toNat

def den (d : DecimalForm) : Nat := tenTo (-d.exponent).toNat

/-- Rounded, the decimal is this magnitude. -/
def ReadsBack (d : DecimalForm) (m : Magnitude) : Prop := Magnitude.round d.num d.den = some m

instance (d : DecimalForm) (m : Magnitude) : Decidable (d.ReadsBack m) :=
  inferInstanceAs (Decidable (_ = _))

/-- Twice the distance to `num / den`, over a denominator common to all decimals of one exponent. -/
def distance (d : DecimalForm) (num den : Nat) : Nat :=
  let a := d.num * den
  let b := num * d.den
  if a ≤ b then b - a else a - b

end DecimalForm

namespace Magnitude

/-- The largest `e` with `10 ^ e ≤ num / den`, for positive `num` and `den`. -/
def decimalOrder (num den : Nat) : Int :=
  if den ≤ num then ((Decimal.digits (num / den)).length : Int) - 1
  else -((Decimal.digits ((den + num - 1) / num - 1)).length : Int)

/-- The two neighbours of the magnitude among the multiples of `10 ^ e`. -/
def neighbours (m : Magnitude) (e : Int) : DecimalForm × DecimalForm :=
  let below := m.num * tenTo (-e).toNat / (m.den * tenTo e.toNat)
  (⟨below, e⟩, ⟨below + 1, e⟩)

/-- The neighbour that is nearer to the magnitude; of two equally near, the one whose last digit is
even. -/
def nearerNeighbour (m : Magnitude) (e : Int) : DecimalForm :=
  let (below, above) := m.neighbours e
  match compare (below.distance m.num m.den) (above.distance m.num m.den) with
  | .lt => below
  | .gt => above
  | .eq => if below.significand % 2 = 0 then below else above

/-- The neighbour that reads back, the nearer if both do. -/
def neighbour? (m : Magnitude) (e : Int) : Option DecimalForm :=
  let (below, above) := m.neighbours e
  match decide (below.ReadsBack m), decide (above.ReadsBack m) with
  | true, true => some (m.nearerNeighbour e)
  | true, false => some below
  | false, true => some above
  | false, false => none

/-- The first exponent, from `e` down, at which a neighbour reads back. -/
def shortestFrom (m : Magnitude) : (steps : Nat) → (e : Int) → DecimalForm
  | 0, e => (m.neighbours e).1
  | k + 1, e => match m.neighbour? e with
    | some d => d
    | none => shortestFrom m k (e - 1)

/-- The shortest decimal of a magnitude.  Seventeen digits always read back. -/
def shortest (m : Magnitude) : DecimalForm :=
  if m.mantissa = 0 then ⟨0, 0⟩ else m.shortestFrom 17 (decimalOrder m.num m.den)

end Magnitude

namespace DecimalForm

/-- Digits behind the first, as `digits` has it; a sole digit gets no point. -/
def scientific (ds : List Char) (order : Int) : List Char :=
  let exponent := Decimal.digits order.natAbs
  withPoint ds ++ 'e' :: (if order < 0 then '-' else '+') ::
    (if exponent.length < 2 then '0' :: exponent else exponent)
where
  withPoint : List Char → List Char
    | [] => []
    | [d] => [d]
    | d :: rest => d :: '.' :: rest

/-- Written out, with a zero on either side of the point where there is nothing else. -/
def positional (ds : List Char) (exponent : Int) : List Char :=
  let places := (-exponent).toNat
  let whole := ds ++ List.replicate exponent.toNat '0'
  if places = 0 then whole ++ ['.', '0']
  else
    let padded := List.replicate (places + 1 - whole.length) '0' ++ whole
    padded.take (padded.length - places) ++ '.' :: padded.drop (padded.length - places)

def text (d : DecimalForm) : List Char :=
  let ds := Decimal.trimZeros (Decimal.digits d.significand)
  let order := d.exponent + (Decimal.digits d.significand).length - 1
  if d.significand = 0 then ['0', '.', '0']
  else if -4 ≤ order ∧ order < 16 then positional ds (order + 1 - ds.length)
  else scientific ds order

end DecimalForm

/-- How a double is shown in a message. -/
def Double.shown : Double → String
  | .finite s m => String.ofList ((if s then ['-'] else []) ++ m.shortest.text)
  | .infinity false => "inf"
  | .infinity true => "-inf"
  | .nan => "nan"

/-- How a number is shown in a message. -/
def Number.shown : Number → String
  | .int n => Decimal.intText n
  | .real x => x.shown

end RasterSketch
