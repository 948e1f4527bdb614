import RasterSketch.Number.Double
/-!
# Numbers

A number is an integer of any size or a double, and the two never turn into each other unasked.
What can go wrong is a cause of `ArithmeticError`: an integer too large for a double, a division by
zero, an infinity or a NaN where an integer is asked for.
-/

namespace RasterSketch

inductive ArithmeticError where
  | integerTooLarge
  | quotientTooLarge
  | divisionByZero
  | doubleDivisionByZero
  | infinityToInteger
  | nanToInteger
  deriving DecidableEq

def ArithmeticError.message : ArithmeticError → String
  | .integerTooLarge => "int too large to convert to float"
  | .quotientTooLarge => "integer division result too large for a float"
  | .divisionByZero => "division by zero"
  | .doubleDivisionByZero => "float division by zero"
  | .infinityToInteger => "cannot convert float infinity to integer"
  | .nanToInteger => "cannot convert float NaN to integer"

namespace Double

/-- The double nearest to an integer. -/
def ofInt (n : Int) : Except ArithmeticError Double :=
  match Magnitude.round n.natAbs 1 with
  | some m => .ok (.finite (n < 0) m)
  | none => .error .integerTooLarge

/-- The double nearest to the exact quotient of two integers.  Zero over a negative integer is the
negative zero. -/
def quotient (a b : Int) : Except ArithmeticError Double :=
  if b = 0 then .error .divisionByZero else
  match Magnitude.round a.natAbs b.natAbs with
  | some m => .ok (.finite (decide (a < 0) != decide (b < 0)) m)
  | none => .error .quotientTooLarge

/-- The quotient of two doubles, refused for a divisor that is zero. -/
def divide (x y : Double) : Except ArithmeticError Double :=
  if y.isZero then .error .doubleDivisionByZero else .ok (x.div y)

/-- The product of an integer and a double. -/
def scale (x : Double) (n : Int) : Except ArithmeticError Double := return (← ofInt n) * x

/-- The sum of an integer and a double. -/
def shift (x : Double) (n : Int) : Except ArithmeticError Double := return (← ofInt n) + x

/-- A whole number made of the exact value by `f`, which is given numerator and denominator. -/
def toIntBy (f : Int → Int → Int) : Double → Except ArithmeticError Int
  | .finite s m => .ok (f (signed s m) m.den)
  | .infinity _ => .error .infinityToInteger
  | .nan => .error .nanToInteger

def floor : Double → Except ArithmeticError Int := toIntBy fun n d => n / d

def ceil : Double → Except ArithmeticError Int := toIntBy fun n d => -(-n / d)

/-- The whole part, toward zero. -/
def truncate : Double → Except ArithmeticError Int := toIntBy Int.tdiv

end Double

/-! ## Integers and doubles -/

inductive Number where
  | int (value : Int)
  | real (value : Double)
  deriving DecidableEq

namespace Number

instance (n : Nat) : OfNat Number n := ⟨.int n⟩

def isNegative : Number → Bool
  | .int n => n < 0
  | .real x => x.isNegative

/-- The product with an integer: exact with an integer, a double with a double. -/
def scale (n : Int) : Number → Except ArithmeticError Number
  | .int k => .ok (.int (n * k))
  | .real x => return .real (← x.scale n)

/-- The quotient by an integer that is not zero. -/
def dividedBy (n : Int) : Number → Except ArithmeticError Double
  | .int k => Double.quotient k n
  | .real x => return x.div (← Double.ofInt n)

def floor : Number → Except ArithmeticError Int
  | .int n => .ok n
  | .real x => x.floor

def truncate : Number → Except ArithmeticError Int
  | .int n => .ok n
  | .real x => x.truncate

end Number

/-- The range of words of 64 bits with a sign. -/
def fitsWord (n : Int) : Bool := -0x8000000000000000 ≤ n && n < 0x8000000000000000

/-- The least integer not below the exact quotient, taken through the rounded one. -/
def ceilQuotient (a b : Int) : Except ArithmeticError Int := do (← Double.quotient a b).ceil

end RasterSketch
