import RasterSketch.Number.Power
import RasterSketch.Number.Rounding
/-!
# Doubles

A double is an infinity, a NaN, or a sign and a magnitude `mantissa * 2 ^ exponent`.  The mantissa
has 53 bits, or fewer at the least exponent, so that a value has one form and equality of doubles
is equality of values but for the two zeros.  Every operation is the exact result on fractions,
rounded once (`Magnitude.round`): to the nearest, ties to the even mantissa, past the largest to
infinity.
-/

namespace RasterSketch

/-! ## Magnitudes -/

/-- The one form of a finite magnitude: a mantissa of full 53 bits, or the least exponent. -/
def Canonical (mantissa : Nat) (exponent : Int) : Prop :=
  mantissa < 0x20000000000000 ∧ -1074 ≤ exponent ∧ exponent ≤ 971 ∧
    (0x10000000000000 ≤ mantissa ∨ exponent = -1074)

instance (m : Nat) (e : Int) : Decidable (Canonical m e) :=
  inferInstanceAs (Decidable (_ ∧ _ ∧ _ ∧ _))

/-- A finite double without its sign. -/
structure Magnitude where
  mantissa : Nat
  exponent : Int
  canonical : Canonical mantissa exponent
  deriving DecidableEq

namespace Magnitude

def zero : Magnitude := ⟨0, -1074, by decide⟩

instance : Inhabited Magnitude := ⟨zero⟩

/-- With `den`, the exact value `num / den`. -/
def num (m : Magnitude) : Nat := m.mantissa * twoTo m.exponent.toNat

def den (m : Magnitude) : Nat := twoTo (-m.exponent).toNat

theorem den_pos (m : Magnitude) : 0 < m.den := twoTo_pos _

/-- The largest `e` with `2 ^ e ≤ num / den`, for positive `num` and `den`. -/
def binaryOrder (num den : Nat) : Int :=
  let e : Int := (num.log2 : Int) - den.log2
  if den * twoTo e.toNat ≤ num * twoTo (-e).toNat then e else e - 1

/-- The quotient in units of `2 ^ e`. -/
def inUnits (num den : Nat) (e : Int) : Nat :=
  roundDiv (num * twoTo (-e).toNat) (den * twoTo e.toNat)

def ofParts? (mantissa : Nat) (exponent : Int) : Option Magnitude :=
  if h : Canonical mantissa exponent then some ⟨mantissa, exponent, h⟩ else none

/-- The magnitude nearest to `num / den` with `0 < den`, or none past the largest.  The unit is
chosen so that the quotient has 53 bits of it; rounded up to 54, it is the next power of two. -/
def round (num den : Nat) : Option Magnitude :=
  if num = 0 then some zero else
  let e := max (-1074) (binaryOrder num den - 52)
  let m := inUnits num den e
  if m < 0x20000000000000 then ofParts? m e else ofParts? 0x10000000000000 (e + 1)

end Magnitude

/-! ## Doubles -/

inductive Double where
  | finite (negative : Bool) (magnitude : Magnitude)
  | infinity (negative : Bool)
  | nan
  deriving DecidableEq

namespace Double

instance : Inhabited Double := ⟨.finite false .zero⟩

/-- The double nearest to `num / den` with the given sign, for a positive `den`. -/
def ofRatio (negative : Bool) (num den : Nat) : Double :=
  match Magnitude.round num den with
  | some m => .finite negative m
  | none => .infinity negative

/-- A decimal literal denotes the double nearest to it. -/
instance : OfScientific Double where
  ofScientific m tenths e :=
    if tenths then ofRatio false m (tenTo e) else ofRatio false (m * tenTo e) 1

/-- The numerator with the sign; over `Magnitude.den` it is the exact value. -/
def signed (negative : Bool) (m : Magnitude) : Int := if negative then -(m.num : Int) else m.num

def isFinite : Double → Bool
  | .finite .. => true
  | _ => false

/-- Less than zero: the negative zero is not. -/
def isNegative : Double → Bool
  | .finite s m => s && m.mantissa != 0
  | .infinity s => s
  | .nan => false

def isZero : Double → Bool
  | .finite _ m => m.mantissa == 0
  | _ => false

/-- Comparison by value; nothing is less than a NaN or greater. -/
def lt : Double → Double → Bool
  | .finite s m, .finite t n => signed s m * n.den < signed t n * m.den
  | .finite .., .infinity t => !t
  | .infinity s, .finite .. => s
  | .infinity s, .infinity t => s && !t
  | _, _ => false

/-- The lesser of two; of equals the first. -/
def min (x y : Double) : Double := if y.lt x then y else x

/-! ## Arithmetic -/

/-- An exact zero is positive, but for the sum of two negative zeros. -/
def add : Double → Double → Double
  | .finite s m, .finite t n =>
    let sum := signed s m * n.den + signed t n * m.den
    ofRatio (if sum = 0 then s && t else sum < 0) sum.natAbs (m.den * n.den)
  | .infinity s, .infinity t => if s = t then .infinity s else .nan
  | .infinity s, .finite .. => .infinity s
  | .finite .., .infinity t => .infinity t
  | _, _ => .nan

def mul : Double → Double → Double
  | .finite s m, .finite t n => ofRatio (s != t) (m.num * n.num) (m.den * n.den)
  | .infinity s, .infinity t => .infinity (s != t)
  | .infinity s, .finite t n => if n.mantissa = 0 then .nan else .infinity (s != t)
  | .finite s m, .infinity t => if m.mantissa = 0 then .nan else .infinity (s != t)
  | _, _ => .nan

/-- The quotient, for a divisor that is not zero. -/
def div : Double → Double → Double
  | .finite s m, .finite t n => ofRatio (s != t) (m.num * n.den) (m.den * n.num)
  | .infinity s, .finite t _ => .infinity (s != t)
  | .finite s _, .infinity t => .finite (s != t) .zero
  | _, _ => .nan

instance : Add Double := ⟨add⟩
instance : Mul Double := ⟨mul⟩

end Double

end RasterSketch
