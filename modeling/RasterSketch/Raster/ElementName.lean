import RasterSketch.Raster.ElementType
import RasterSketch.Text.Integer
import RasterSketch.Text.Shown
/-!
# Names of types of elements

What elements an array has is asked for by a name: a word, a letter, or the letter of a family with
a size in bytes; before a letter a mark may say which byte is first.  Behind a number or a shape in
front of it, an element is a row of so many values; names between commas make a record.
-/

namespace RasterSketch

/-- What a name may be refused for. -/
inductive ElementNameError where
  | unknown (name : String)
  | removed (name : String)
  | time (text : String) (fault : TimeFault)
  | format (place : Nat) (name : String)
  | byteOrders (first second : Char)
  | shapeMalformed (reason : String)
  | shapeLeadingZero
  | size
  | dimensionTooLarge
  | rowTooLarge

namespace ElementNameError

open Decimal (intText)

def message : ElementNameError → String
  | unknown name => "data type " ++ Text.shown name ++ " not understood"
  | removed name =>
    "Alias '" ++ name ++ "' was removed in NumPy 2.0. Use a name without a digit at the end."
  | time text fault => fault.message text
  | format place name =>
    "format number " ++ intText place ++ " of \"" ++ name ++ "\" is not recognized"
  | byteOrders first second =>
    "inconsistent byte-order specification " ++ first.toString ++ " and " ++ second.toString
  | shapeMalformed reason => reason ++ " (<unknown>, line 1)"
  | shapeLeadingZero =>
    "leading zeros in decimal integer literals are not permitted; use an 0o prefix for octal " ++
      "integers (<unknown>, line 1)"
  | size => "invalid itemsize in generic type tuple"
  | dimensionTooLarge =>
    "invalid shape in fixed-type tuple: dimension does not fit into a C int."
  | rowTooLarge =>
    "invalid shape in fixed-type tuple: dtype size in bytes must fit into a C int."

end ElementNameError

/-- A row of values of one type; a single value is a row of no dimension. -/
structure ElementRow where
  shape : List Nat
  type : ElementType

namespace ElementRow

/-- The values of a row. -/
def count (r : ElementRow) : Nat := r.shape.foldl (· * ·) 1

def bytes (r : ElementRow) : Nat := r.count * r.type.bytes

end ElementRow

/-- How each element of an array is laid out. -/
inductive Layout where
  | row (row : ElementRow)
  | record (fields : List ElementRow)

namespace Layout

def single (t : ElementType) : Layout := .row ⟨[], t⟩

def rows : Layout → List ElementRow
  | row r => [r]
  | record fields => fields

end Layout

/-! ## Single types -/

namespace ElementType

open ElementFamily

/-- The types that have a letter of their own.  Those that have a number come in its order. -/
def letters : List (Char × ElementType) := [
  ('?', ⟨truth, 1, false⟩), ('b', ⟨signed, 1, false⟩), ('B', byte), ('h', ⟨signed, 2, false⟩),
  ('H', ⟨unsigned, 2, false⟩), ('i', ⟨signed, 4, false⟩), ('I', ⟨unsigned, 4, false⟩),
  ('l', word), ('L', ⟨unsigned, 8, false⟩), ('q', ⟨longSigned, 8, false⟩),
  ('Q', ⟨longUnsigned, 8, false⟩), ('f', ⟨real, 4, false⟩), ('d', ⟨real, 8, false⟩),
  ('g', ⟨real, 16, false⟩), ('F', ⟨complex, 8, false⟩), ('D', ⟨complex, 16, false⟩),
  ('G', ⟨complex, 32, false⟩), ('O', ⟨object, 8, false⟩), ('S', ⟨byteText, 0, false⟩),
  ('U', ⟨text, 0, false⟩), ('V', ⟨raw, 0, false⟩), ('M', ⟨date none, 8, false⟩),
  ('m', ⟨duration none, 8, false⟩), ('e', ⟨real, 2, false⟩),
  ('p', word), ('P', ⟨unsigned, 8, false⟩), ('n', word), ('N', ⟨unsigned, 8, false⟩),
  ('a', ⟨byteText, 0, false⟩), ('c', ⟨byteText, 1, false⟩), ('T', ⟨freeText, 16, false⟩)]

/-- As many types have a number. -/
def numbered : Nat := 24

/-- The types that have a word. -/
def words : List (String × ElementType) := [
  ("bool", ⟨truth, 1, false⟩), ("bool_", ⟨truth, 1, false⟩),
  ("int8", ⟨signed, 1, false⟩), ("byte", ⟨signed, 1, false⟩),
  ("int16", ⟨signed, 2, false⟩), ("short", ⟨signed, 2, false⟩),
  ("int32", ⟨signed, 4, false⟩), ("intc", ⟨signed, 4, false⟩),
  ("int64", word), ("int", word), ("int_", word), ("intp", word), ("long", word),
  ("longlong", ⟨longSigned, 8, false⟩),
  ("uint8", byte), ("ubyte", byte),
  ("uint16", ⟨unsigned, 2, false⟩), ("ushort", ⟨unsigned, 2, false⟩),
  ("uint32", ⟨unsigned, 4, false⟩), ("uintc", ⟨unsigned, 4, false⟩),
  ("uint64", ⟨unsigned, 8, false⟩), ("uint", ⟨unsigned, 8, false⟩),
  ("uintp", ⟨unsigned, 8, false⟩), ("ulong", ⟨unsigned, 8, false⟩),
  ("ulonglong", ⟨longUnsigned, 8, false⟩),
  ("float16", ⟨real, 2, false⟩), ("half", ⟨real, 2, false⟩),
  ("float32", ⟨real, 4, false⟩), ("single", ⟨real, 4, false⟩),
  ("float64", ⟨real, 8, false⟩), ("double", ⟨real, 8, false⟩), ("float", ⟨real, 8, false⟩),
  ("float128", ⟨real, 16, false⟩), ("longdouble", ⟨real, 16, false⟩),
  ("complex64", ⟨complex, 8, false⟩), ("csingle", ⟨complex, 8, false⟩),
  ("complex128", ⟨complex, 16, false⟩), ("cdouble", ⟨complex, 16, false⟩),
  ("complex", ⟨complex, 16, false⟩),
  ("complex256", ⟨complex, 32, false⟩), ("clongdouble", ⟨complex, 32, false⟩),
  ("object", ⟨object, 8, false⟩), ("object_", ⟨object, 8, false⟩),
  ("bytes", ⟨byteText, 0, false⟩), ("bytes_", ⟨byteText, 0, false⟩),
  ("str", ⟨text, 0, false⟩), ("str_", ⟨text, 0, false⟩), ("unicode", ⟨text, 0, false⟩),
  ("void", ⟨raw, 0, false⟩)]

/-- Words that types had once. -/
def removedWords : List String :=
  ["int0", "uint0", "void0", "object0", "str0", "bytes0", "bool8"]

/-- The type of a letter, or of its number as a control character. -/
def ofLetter? (c : Char) : Option ElementType :=
  if c.toNat < numbered then letters[c.toNat]?.map (·.2)
  else (letters.find? (·.1 = c)).map (·.2)

/-- The type of a family's letter with a size. -/
def sized? (letter : Char) (size : Nat) : Option ElementType :=
  let oneOf (family : ElementFamily) (sizes : List Nat) : Option ElementType :=
    if sizes.contains size then some ⟨family, size, false⟩ else none
  match letter with
  | 'b' => oneOf truth [1]
  | 'i' => oneOf signed [1, 2, 4, 8]
  | 'u' => oneOf unsigned [1, 2, 4, 8]
  | 'f' => oneOf real [2, 4, 8, 16]
  | 'c' => oneOf complex [8, 16, 32]
  | 'O' => if size = 4 ∨ size = 8 then some ⟨object, 8, false⟩ else none
  | 'S' => some ⟨byteText, size, false⟩
  | 'a' => some ⟨byteText, size, false⟩
  | 'U' => some ⟨text, size, false⟩
  | 'V' => some ⟨raw, size, false⟩
  | _ => none

/-- The type of a letter, alone or with a size behind it. -/
def ofCode? : List Char → Option ElementType
  | [] => none
  | [c] => ofLetter? c
  | c :: size => match leadingInteger? size with
    | some (n, []) => if n < 0 ∨ greatestHalfWord < n then none else sized? c n.toNat
    | _ => none

/-- What follows `start`, if the characters begin with it. -/
def behind? : (start cs : List Char) → Option (List Char)
  | [], cs => some cs
  | s :: start, c :: cs => if s = c then behind? start cs else none
  | _ :: _, [] => none

/-- The family of a name of dates or durations, which needs a step, and what stands behind it. -/
def time? (cs : List Char) : Option ((Option TimeStep → ElementFamily) × List Char) :=
  let named (start : String) (family : Option TimeStep → ElementFamily) :=
    (behind? start.toList cs).map fun rest => (family, rest)
  (named "m8" .duration).orElse fun _ =>
    (named "M8" .date).orElse fun _ =>
      (named "timedelta64" .duration).orElse fun _ => named "datetime64" .date

/-- The order of bytes that a mark says, if it is a mark. -/
def order? : Char → Option Bool
  | '>' => some true
  | '<' => some false
  | '=' => some false
  | '|' => some false
  | _ => none

/-- The type of a name without commas. -/
def ofName (name : List Char) : Except ElementNameError ElementType :=
  let unknown := .error (.unknown (String.ofList name))
  let (order, code) := match name with
    | [] => (none, [])
    | c :: rest => match order? c with
      | some order => (some order, rest)
      | none => (none, name)
  match time? code with
  | some (family, step) => do
    let step ← (TimeStep.ofText step).mapError (.time (String.ofList step))
    return ⟨family step, 8, order = some true⟩
  | none => match ofCode? code with
    | some t => .ok { t with firstByteFirst := order = some true }
    | none =>
      if order.isNone then
        match words.find? (·.1 = String.ofList name) with
        | some (_, t) => .ok t
        | none =>
          if removedWords.contains (String.ofList code) then .error (.removed (String.ofList code))
          else unknown
      else if removedWords.contains (String.ofList code) then
        .error (.removed (String.ofList code))
      else unknown

end ElementType

/-! ## Rows and records -/

/-- What stands between commas: marks of order on either side of a number or a shape, and a name. -/
structure ElementFormat where
  orderBefore : Option Char
  shape : List Char
  orderBehind : Option Char
  type : List Char

namespace ElementFormat

def isMark (c : Char) : Bool := (ElementType.order? c).isSome

def takeMark : List Char → Option Char × List Char
  | [] => (none, [])
  | c :: cs => if isMark c then (some c, cs) else (none, c :: cs)

def takeBlanks (cs : List Char) : List Char × List Char := cs.span (· = ' ')

def takeOne (c : Char) : List Char → List Char × List Char
  | d :: cs => if c = d then ([d], cs) else ([], d :: cs)
  | [] => ([], [])

/-- A number or a shape, perhaps in parentheses, with the blanks around it. -/
def takeShape (cs : List Char) : List Char × List Char :=
  let (before, cs) := takeBlanks cs
  let (opening, cs) := takeOne '(' cs
  let (inner, cs) := cs.span fun c => c = ' ' || c = ',' || c.isDigit
  let (closing, cs) := takeOne ')' cs
  let (behind, cs) := takeBlanks cs
  (before ++ opening ++ inner ++ closing ++ behind, cs)

/-- A name, perhaps with a step in brackets. -/
def takeType (cs : List Char) : List Char × List Char :=
  let (word, rest) := cs.span fun c => c.isAlphanum || c = '.' || c = '?'
  match rest with
  | '[' :: rest' =>
    match rest'.span fun c => c.isAlphanum || c = ',' || c = '.' with
    | (inner, ']' :: behind) => (word ++ '[' :: inner ++ [']'], behind)
    | _ => (word, rest)
  | _ => (word, rest)

/-- The format at the start, and what follows. -/
def take (cs : List Char) : ElementFormat × List Char :=
  let (orderBefore, cs) := takeMark cs
  let (shape, cs) := takeShape cs
  let (orderBehind, cs) := takeMark cs
  let (type, cs) := takeType cs
  (⟨orderBefore, shape, orderBehind, type⟩, cs)

/-- A mark that says nothing says the usual order. -/
def usual (c : Char) : Char := if c = '=' then '<' else c

/-- The mark that a format has, on either side. -/
def order (f : ElementFormat) : Except ElementNameError (List Char) := do
  let mark ← match f.orderBefore, f.orderBehind with
    | none, none => return []
    | some c, none => pure c
    | none, some c => pure c
    | some c, some d =>
      if usual c = usual d then pure (usual c) else throw (.byteOrders (usual c) (usual d))
  return if mark = '>' then ['>'] else []

end ElementFormat

/-- What stands before the name of a row: one number, or a shape. -/
inductive RowShape where
  | number (n : Nat)
  | shape (dimensions : List Nat)

namespace RowShape

def stripBlanks (cs : List Char) : List Char :=
  ((cs.dropWhile (· = ' ')).reverse.dropWhile (· = ' ')).reverse

def natural? (cs : List Char) : Except ElementNameError Nat :=
  let cs := stripBlanks cs
  if cs.isEmpty || !cs.all Char.isDigit then .error (.shapeMalformed "invalid syntax")
  else if 1 < cs.length && cs.head? = some '0' && cs.any (· ≠ '0') then .error .shapeLeadingZero
  else .ok (cs.foldl (fun (n : Nat) c => 10 * n + (c.toNat - 48)) 0)

/-- The parts of a text between commas. -/
def between : List Char → List (List Char)
  | [] => [[]]
  | c :: cs =>
    if c = ',' then [] :: between cs
    else match between cs with
      | [] => [[c]]
      | part :: parts => (c :: part) :: parts

def naturals : List (List Char) → Except ElementNameError (List Nat)
  | [] => .ok []
  | cs :: rest => do
    let n ← natural? cs
    let ns ← naturals rest
    return n :: ns

/-- Numbers between commas are a shape; behind the last of them a comma may stand. -/
def ofInner (cs : List Char) : Except ElementNameError RowShape :=
  match (between cs).reverse with
  | [] => .ok (.shape [])
  | [only] => number <$> natural? only
  | last :: others =>
    let others := others.reverse
    shape <$> naturals (if (stripBlanks last).isEmpty then others else others ++ [last])

def ofChars (cs : List Char) : Except ElementNameError RowShape :=
  match stripBlanks cs with
  | '(' :: rest => match rest.reverse with
    | ')' :: inner =>
      if (stripBlanks inner).isEmpty then .ok (.shape []) else ofInner inner.reverse
    | _ => .error (.shapeMalformed "'(' was never closed")
  | cs =>
    if cs.contains ')' then .error (.shapeMalformed "unmatched ')'") else ofInner cs

/-- The row of a shape of rows.  Of a type without a size the number is its size. -/
def row (s : RowShape) (r : ElementRow) : Except ElementNameError ElementRow :=
  let shaped (dimensions : List Nat) : Except ElementNameError ElementRow :=
    let r : ElementRow := ⟨dimensions ++ r.shape, r.type⟩
    if dimensions.any fun n => greatestHalfWord < n then .error .dimensionTooLarge
    else if greatestHalfWord < r.bytes ∨ greatestHalfWord < r.count then .error .rowTooLarge
    else .ok r
  match s with
  | .number n =>
    if r.type.isUnsized then
      if greatestHalfWord < n then .error .size else .ok ⟨r.shape, { r.type with size := n }⟩
    else if n = 1 then .ok r
    else shaped [n]
  | .shape dimensions =>
    if r.type.isUnsized then .error .size
    else if dimensions.isEmpty then .ok r
    else shaped dimensions

end RowShape

namespace Layout

/-- Whether a name has formats in it: a number or an empty shape in front, or a comma outside of
brackets. -/
def hasFormats (cs : List Char) : Bool :=
  begins cs || beginsBehindMark cs || comma 0 cs
where
  begins : List Char → Bool
    | '(' :: ')' :: _ => true
    | c :: _ => c.isDigit
    | [] => false
  beginsBehindMark : List Char → Bool
    | c :: cs => ElementFormat.isMark c && begins cs
    | [] => false
  comma : Int → List Char → Bool
    | _, [] => false
    | depth, c :: cs =>
      if c = ',' ∧ depth = 0 then true
      else comma (if c = '[' then depth + 1 else if c = ']' then depth - 1 else depth) cs

def isBlank (c : Char) : Bool := Text.isBlank (.char c) || ('\x1c' ≤ c && c ≤ '\x1f')

/-- The formats of a name one after the other, and whether there was a comma. -/
def formats (name : String) : (fuel : Nat) → (place : Nat) → List Char →
    Except ElementNameError (List ElementFormat × Bool)
  | 0, _, _ => .ok ([], false)
  | _ + 1, _, [] => .ok ([], false)
  | fuel + 1, place, cs => do
    let (first, rest) := ElementFormat.take cs
    if rest.all isBlank then return ([first], false)
    match rest.dropWhile isBlank with
    | ',' :: rest =>
      let (others, _) ← formats name fuel (place + 1) (rest.dropWhile isBlank)
      return (first :: others, true)
    | _ => throw (.format place name)

/-- The row of a format.  The fuel counts formats in formats. -/
def rowOf : (fuel : Nat) → List Char → Except ElementNameError ElementRow
  | 0, name => return ⟨[], ← ElementType.ofName name⟩
  | fuel + 1, name =>
    if !hasFormats name then return ⟨[], ← ElementType.ofName name⟩
    else do
      let (fs, _) ← formats (String.ofList name) 1 1 name
      match fs with
      | f :: _ => formatRow (rowOf fuel) f
      | [] => throw (.unknown (String.ofList name))
where
  formatRow (rowOf : List Char → Except ElementNameError ElementRow) (f : ElementFormat) :
      Except ElementNameError ElementRow := do
    let name := (← f.order) ++ f.type
    if f.shape.isEmpty then rowOf name
    else do
      let shape ← RowShape.ofChars f.shape
      shape.row (← rowOf name)

def rowsOf : List ElementFormat → Except ElementNameError (List ElementRow)
  | [] => .ok []
  | f :: fs => do
    let r ← rowOf.formatRow (rowOf f.type.length) f
    let rs ← rowsOf fs
    return r :: rs

/-- The layout that a name asks for. -/
def ofName (name : String) : Except ElementNameError Layout := do
  let cs := name.toList
  if !hasFormats cs then return .single (← ElementType.ofName cs)
  let (fs, commas) ← formats name (cs.length + 1) 1 cs
  let rows ← rowsOf fs
  match rows, commas with
  | [r], false => return .row r
  | rows, _ => return .record rows

/-- A layout as it is shown: a type, or the fields of a record with the names that they get. -/
def name : Layout → String
  | row r => r.type.name
  | record fields => "[" ++ ", ".intercalate (fieldNames 0 fields) ++ "]"
where
  fieldNames : Nat → List ElementRow → List String
    | _, [] => []
    | k, r :: rs =>
      ("('f" ++ Decimal.intText k ++ "', '" ++ r.type.shortName ++ "'" ++ shapeText r.shape ++ ")")
        :: fieldNames (k + 1) rs
  shapeText : List Nat → String
    | [] => ""
    | [n] => ", (" ++ Decimal.intText n ++ ",)"
    | ns => ", (" ++ ", ".intercalate (ns.map fun (n : Nat) => Decimal.intText n) ++ ")"

def isByte : Layout → Bool
  | row r => r.type.isByte
  | record _ => false

/-- The bytes of an element. -/
def bytes (l : Layout) : Nat := l.rows.foldl (fun n r => n + r.bytes) 0

end Layout

end RasterSketch
