import RasterSketch.Number.Decimal
/-!
# Steps of time

Elements that are dates or durations count steps of time: so many of a unit.  The step stands in
brackets behind the name of the type, and may be given as a part of a longer unit
(`TimeStep.part?`).  A type without brackets has no step.
-/

namespace RasterSketch

inductive TimeUnit where
  | year
  | month
  | week
  | day
  | hour
  | minute
  | second
  | milli
  | micro
  | nano
  | pico
  | femto
  | atto
  deriving DecidableEq

namespace TimeUnit

def name : TimeUnit → String
  | year => "Y"
  | month => "M"
  | week => "W"
  | day => "D"
  | hour => "h"
  | minute => "m"
  | second => "s"
  | milli => "ms"
  | micro => "us"
  | nano => "ns"
  | pico => "ps"
  | femto => "fs"
  | atto => "as"

def all : List TimeUnit :=
  [year, month, week, day, hour, minute, second, milli, micro, nano, pico, femto, atto]

/-- The unit of a name.  A millionth of a second may also have its Greek letter. -/
def ofName? (name : String) : Option TimeUnit :=
  if name = "μs" then some micro else all.find? (·.name = name)

theorem ofName?_name (u : TimeUnit) : ofName? u.name = some u := by
  cases u <;> decide

/-- How many of which shorter units make one, the longest of them first. -/
def shorter : TimeUnit → List (Nat × TimeUnit)
  | year => [(12, month), (52, week), (365, day)]
  | month => [(4, week), (30, day), (720, hour)]
  | week => [(7, day), (168, hour), (10080, minute), (604800, second)]
  | day => [(24, hour), (1440, minute), (86400, second)]
  | hour => [(60, minute), (3600, second)]
  | minute => [(60, second), (60000, milli)]
  | second => [(1000, milli), (1000000, micro)]
  | milli => [(1000, micro), (1000000, nano)]
  | micro => [(1000, nano), (1000000, pico)]
  | nano => [(1000, pico), (1000000, femto)]
  | pico => [(1000, femto), (1000000, atto)]
  | femto => [(1000, atto)]
  | atto => []

end TimeUnit

structure TimeStep where
  count : Int
  unit : TimeUnit
  deriving DecidableEq

namespace TimeStep

def text (s : TimeStep) : String :=
  "[" ++ (if s.count = 1 then "" else Decimal.intText s.count) ++ s.unit.name ++ "]"

/-- The step that is one of `parts` equal parts of another, in the longest unit that it is whole
in. -/
def part? (s : TimeStep) (parts : Int) : Option TimeStep :=
  if parts = 1 then some s
  else (s.unit.shorter.find? fun (n, _) => parts ≠ 0 && (n : Int).tmod parts = 0).map
    fun (n, unit) => ⟨s.count * (n : Int).tdiv parts, unit⟩

end TimeStep

/-! ## Reading a step -/

/-- What is wrong in brackets: something in a wrong place, counted in bytes, if it is known; no
unit; or a number of parts that no shorter unit has. -/
inductive TimeFault where
  | misplaced (place : Option Nat)
  | unit
  | parts (count : Int)
  | noUnitToPart

namespace TimeFault

def message (text : String) : TimeFault → String
  | misplaced none => "Invalid datetime metadata string \"" ++ text ++ "\""
  | misplaced (some place) =>
    "Invalid datetime metadata string \"" ++ text ++ "\" at position " ++ Decimal.intText place
  | unit => "Invalid datetime unit in metadata string \"" ++ text ++ "\""
  | parts count =>
    "divisor (" ++ Decimal.intText count ++ ") is not a multiple of a lower-unit in datetime " ++
      "metadata \"" ++ text ++ "\""
  | noUnitToPart => "Can't use 'den' divisor with generic units"

end TimeFault

/-- The greatest integer of 32 bits. -/
def greatestHalfWord : Int := 0x7fffffff

/-- An integer at the start, behind blanks, and what follows it. -/
def leadingInteger? (cs : List Char) : Option (Int × List Char) :=
  let cs := cs.dropWhile fun c => c = ' ' || ('\t' ≤ c && c ≤ '\r')
  let (sign, cs) := match cs with
    | '-' :: cs => ((-1 : Int), cs)
    | '+' :: cs => (1, cs)
    | cs => (1, cs)
  let digits := cs.takeWhile Char.isDigit
  if digits.isEmpty then none
  else
    let n := digits.foldl (fun (n : Nat) c => 10 * n + (c.toNat - 48)) 0
    some (sign * n, cs.dropWhile Char.isDigit)

namespace TimeStep

/-- Where the rest of a text begins, in bytes. -/
def placeOf (text rest : List Char) : Nat :=
  (String.ofList text).utf8ByteSize - (String.ofList rest).utf8ByteSize

/-- The step that stands between brackets; the word for no unit stands for none. -/
def ofBracketed (place : List Char → Nat) (inside : List Char) :
    Except TimeFault (Option TimeStep) := do
  let (count, rest) := (leadingInteger? inside).getD (1, inside)
  if count < 0 ∨ greatestHalfWord < count then throw (.misplaced (place inside))
  let unit := rest.takeWhile (· ≠ '/')
  if unit.isEmpty then throw (.misplaced (place rest))
  let unit := String.ofList unit
  let unit? := TimeUnit.ofName? unit
  if unit?.isNone ∧ unit ≠ "generic" then throw .unit
  let parts ← match rest.dropWhile (· ≠ '/') with
    | [] => pure 1
    | _ :: behind => match leadingInteger? behind with
      | some (parts, []) => pure parts
      | _ => throw (.misplaced (place behind))
  match unit? with
  | none => if parts = 1 then return none else throw .noUnitToPart
  | some unit => match TimeStep.part? ⟨count, unit⟩ parts with
    | some step => return some step
    | none => throw (.parts parts)

/-- The step of what stands behind the name of a type: nothing, or a step in brackets. -/
def ofText (text : List Char) : Except TimeFault (Option TimeStep) :=
  match text with
  | [] => .ok none
  | first :: behind =>
    if text.length < 3 then .error (.misplaced none)
    else if first ≠ '[' then .error (.misplaced (some 1))
    else
      let inside := behind.takeWhile (· ≠ ']')
      match behind.dropWhile (· ≠ ']') with
      | [] => .error (.misplaced (placeOf text []))
      | _ :: rest =>
        if inside.isEmpty then .error (.misplaced (some 1))
        else do
          let step ← ofBracketed (fun part => placeOf text (part ++ ']' :: rest)) inside
          if rest.isEmpty then return step else throw (.misplaced (placeOf text rest))

end TimeStep

end RasterSketch
