import RasterSketch.Error
/-!
# Values of elements

What a value becomes as an element of a type, or why it is refused.  Lists of values of one length
stand for the rows of an array, to any depth (`Value.leaves`).
-/

namespace RasterSketch

namespace Value

/-- The whole part of a value. -/
def whole : Value → Except Error Int
  | .expr (.number n) => n.truncate.mapError .arithmetic
  | .truth b => .ok (if b then 1 else 0)
  | .bare t => match Text.integer? t with
    | some n => .ok n
    | none => .error (.argument (.integerText t))
  | v => .error (.kind (.notWhole v))

/-- Whether a value becomes a double.  What is nothing becomes one that is no number. -/
def checkReal : Value → Except Error Unit
  | .expr (.number (.int n)) => do
    let _ ← Double.ofInt n
    return ()
  | .expr (.number (.real _)) => .ok ()
  | .truth _ => .ok ()
  | .nothing => .ok ()
  | .bare _ => .ok ()
  | v => .error (.kind (.notReal v))

/-- Whether a value becomes a complex number. -/
def checkComplex : Value → Except Error Unit
  | .record keys items => .error (.kind (.notNumber (.record keys items)))
  | v => v.checkReal

/-- Whether a value counts steps of time. -/
def checkSteps (refused : ArrayError) : Value → Except Error Unit
  | .expr (.number (.int n)) => if fitsWord n then .ok () else .error (.word .tooBig)
  | .truth _ => .ok ()
  | .nothing => .ok ()
  | _ => .error (.array refused)

/-- Whether a value becomes a date.  Without a step a number says nothing. -/
def checkDate (step : Option TimeStep) (v : Value) : Except Error Unit :=
  match step, v with
  | none, .expr (.number (.int _)) => .error (.array .noStep)
  | none, .truth _ => .error (.array .noStep)
  | _, v => v.checkSteps .noDate

/-- The characters of a value that is written as text. -/
def textLength : Value → Nat
  | .bare t => t.codes.length
  | v => v.shown.length

/-- The rows of an array, if all its items are lists of one length, with the items of all lists. -/
def rows? (items : List Value) : Option (Nat × List Value) := do
  let lists ← items.mapM fun
    | .list row => some row
    | _ => none
  let length := (lists.head?.map List.length).getD 0
  if lists.all (·.length = length) then return (length, lists.flatten) else none

def isList : Value → Bool
  | .list _ => true
  | _ => false

/-- As many dimensions may an array have. -/
def dimensionLimit : Nat := 64

/-- The shape and the items of an array of so many dimensions at most. -/
def leavesTo : (dimensions : Nat) → (shape : List Nat) → List Value →
    Except ArrayError (List Nat × List Value)
  | 0, shape, _ => .error (.ragged shape)
  | n + 1, shape, items =>
    if !items.any isList then .ok (shape, items)
    else match rows? items with
      | some (length, items) => leavesTo n (shape ++ [length]) items
      | none => .error (.ragged shape)

def leaves (items : List Value) : Except ArrayError (List Nat × List Value) :=
  leavesTo dimensionLimit [items.length] items

end Value

namespace ElementType

open ElementFamily

/-- The range of words of 64 bits with a sign or without. -/
def fitsEitherWord (n : Int) : Bool := -0x8000000000000000 ≤ n && n < 0x10000000000000000

/-- An integer is handed over as a word, before it is looked at. -/
def checkWord (t : ElementType) (n : Int) : Except WordError Unit :=
  match t.family with
  | longSigned => if fitsWord n then .ok () else .error .tooBig
  | longUnsigned => if fitsEitherWord n then .ok () else .error .tooBig
  | unsigned =>
    if fitsWord n || 4 ≤ t.size && fitsEitherWord n then .ok () else .error .noWord
  | _ => if fitsWord n then .ok () else .error .noWord

/-- The integer that a value becomes, which has to be in the range of the type. -/
def integer (t : ElementType) (v : Value) : Except Error Int := do
  let n ← v.whole
  (t.checkWord n).mapError .word
  match t.range? with
  | none => return n
  | some (least, greatest) =>
    if least ≤ n ∧ n ≤ greatest then return n
    else throw (.array (.elementRange n { t with firstByteFirst := false }.name))

def integers (t : ElementType) : List Value → Except Error (List Int)
  | [] => .ok []
  | v :: vs => do
    let n ← t.integer v
    let ns ← t.integers vs
    return n :: ns

/-- Whether a value may be an element. -/
def check (t : ElementType) (v : Value) : Except Error Unit :=
  match t.family with
  | truth => .ok ()
  | object => .ok ()
  | byteText => .ok ()
  | text => .ok ()
  | freeText => .ok ()
  | raw => .error (.kind (.notBytes v))
  | real =>
    match v with
    | .expr (.number (.int _)) => if t.size = 16 then .ok () else v.checkReal
    | v => v.checkReal
  | complex => v.checkComplex
  | date step => v.checkDate step
  | duration _ => v.checkSteps .noDuration
  | _ => do
    let _ ← t.integer v
    return ()

/-- The type for values that has their size, if it has none of its own. -/
def fitTo (t : ElementType) (values : List Value) : Except Error ElementType :=
  match values with
  | v :: _ =>
    if t.isUnsized && t.family = raw then .error (.kind (.notAnyBytes v))
    else .ok (t.fit (values.map Value.textLength))
  | [] => .ok (t.fit [])

end ElementType

namespace Layout

/-- The layout of elements for values.  The fields of a record keep the sizes that they have. -/
def fitTo (l : Layout) (values : List Value) : Except Error Layout :=
  match l with
  | row ⟨[], t⟩ => single <$> t.fitTo values
  | l => .ok l

def check (l : Layout) (v : Value) : Except Error Unit := checkAll v l.rows
where
  checkAll (v : Value) : List ElementRow → Except Error Unit
    | [] => .ok ()
    | r :: rs => do
      r.type.check v
      checkAll v rs

def checks (l : Layout) : List Value → Except Error Unit
  | [] => .ok ()
  | v :: vs => do
    l.check v
    l.checks vs

end Layout

end RasterSketch
