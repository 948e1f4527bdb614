import RasterSketch.Raster.TimeStep
/-!
# Types of elements

The elements of an array have a type: a family, a size, and the order of bytes where an element has
several; the last byte first is what is meant unless something else is said.  A type is shown by its
word, or by a code if it has none.
-/

namespace RasterSketch

/-- The families of types.  The long integers are a family beside the others, though they have the
same range: what is too large for them is found out in another way. -/
inductive ElementFamily where
  | truth
  | signed
  | unsigned
  | longSigned
  | longUnsigned
  | real
  | complex
  | object
  | byteText
  | text
  | freeText
  | raw
  | date (step : Option TimeStep)
  | duration (step : Option TimeStep)
  deriving DecidableEq

/-- A type of elements; the size counts characters for text, and bytes for any other family. -/
structure ElementType where
  family : ElementFamily
  size : Nat
  firstByteFirst : Bool := false
  deriving DecidableEq

namespace ElementFamily

def letter : ElementFamily → Char
  | truth => 'b'
  | signed => 'i'
  | unsigned => 'u'
  | longSigned => 'i'
  | longUnsigned => 'u'
  | real => 'f'
  | complex => 'c'
  | object => 'O'
  | byteText => 'S'
  | text => 'U'
  | freeText => 'T'
  | raw => 'V'
  | date _ => 'M'
  | duration _ => 'm'

/-- The step of a date or a duration, in brackets, if there is one. -/
def stepText : ElementFamily → String
  | date (some step) => step.text
  | duration (some step) => step.text
  | _ => ""

end ElementFamily

namespace ElementType

open ElementFamily Decimal

def byte : ElementType := ⟨unsigned, 1, false⟩

/-- The type of the words that values are counted in. -/
def word : ElementType := ⟨signed, 8, false⟩

/-- Whether the order of bytes matters. -/
def hasOrder (t : ElementType) : Bool :=
  match t.family with
  | object => false
  | byteText => false
  | freeText => false
  | raw => false
  | text => true
  | _ => 1 < t.size

/-- Whether elements have the size of the values that are given. -/
def isUnsized (t : ElementType) : Bool := t.size = 0

/-- The order of bytes, if it matters, as a mark. -/
def orderMark (t : ElementType) : String :=
  if !t.hasOrder then "" else if t.firstByteFirst then ">" else "<"

/-- The letter and the size, behind the order of bytes. -/
def code (t : ElementType) : String :=
  (if t.hasOrder then t.orderMark else "|").push t.family.letter ++ intText t.size ++
    t.family.stepText

/-- A type by its word, if it has one. -/
def name (t : ElementType) : String :=
  if t.hasOrder && t.firstByteFirst then t.code
  else match t.family with
    | truth => "bool"
    | signed => "int" ++ intText (8 * t.size)
    | longSigned => "int" ++ intText (8 * t.size)
    | unsigned => "uint" ++ intText (8 * t.size)
    | longUnsigned => "uint" ++ intText (8 * t.size)
    | real => "float" ++ intText (8 * t.size)
    | complex => "complex" ++ intText (8 * t.size)
    | object => "object"
    | freeText => "StringDType()"
    | date _ => "datetime64" ++ t.family.stepText
    | duration _ => "timedelta64" ++ t.family.stepText
    | _ => t.code

/-- A type as a field of a record is shown. -/
def shortName (t : ElementType) : String :=
  match t.family with
  | truth => "?"
  | object => "O"
  | freeText => "T"
  | _ =>
    t.orderMark.push t.family.letter ++ (if t.isUnsized then "" else intText t.size) ++
      t.family.stepText

/-- Least and greatest integer of a type of integers. -/
def range? (t : ElementType) : Option (Int × Int) :=
  match t.family with
  | signed => some (-twoTo (8 * t.size - 1), twoTo (8 * t.size - 1) - 1)
  | longSigned => some (-twoTo (8 * t.size - 1), twoTo (8 * t.size - 1) - 1)
  | unsigned => some (0, twoTo (8 * t.size) - 1)
  | longUnsigned => some (0, twoTo (8 * t.size) - 1)
  | _ => none

def isByte (t : ElementType) : Bool := t.family = unsigned && t.size = 1

/-- The bytes of an element. -/
def bytes (t : ElementType) : Nat := if t.family = text then 4 * t.size else t.size

/-- Text without a size gets that of the longest value, or of one character, and elements without
any meaning get eight bytes if there are no values; then the usual order of bytes is meant. -/
def fit (t : ElementType) (lengths : List Nat) : ElementType :=
  if !t.isUnsized then t
  else if t.family = raw then ⟨raw, 8, false⟩
  else ⟨t.family, lengths.foldl max 1, false⟩

end ElementType

end RasterSketch
