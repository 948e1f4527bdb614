/-!
# Reading bytes
-/

namespace RasterSketch

abbrev Bytes := List UInt8

/-- The bytes of an ASCII text. -/
def ascii (text : String) : List UInt8 := text.toList.map fun c => UInt8.ofNat c.toNat

/-- The blanks of ASCII. -/
def isAsciiBlank (b : UInt8) : Bool := b == 32 || (9 ≤ b && b ≤ 13)

/-- The first `n` bytes and the rest, if there are as many. -/
def split? (n : Nat) (bytes : List UInt8) : Option (List UInt8 × List UInt8) :=
  let (first, rest) := bytes.splitAt n
  if first.length = n then some (first, rest) else none

/-- What follows `start`, if the bytes begin with it. -/
def after? : (start bytes : List UInt8) → Option (List UInt8)
  | [], bytes => some bytes
  | s :: start, b :: bytes => if s = b then after? start bytes else none
  | _ :: _, [] => none

/-- A number in bytes, the most significant first. -/
def bigEndian (bytes : List UInt8) : Nat := bytes.foldl (fun n b => 256 * n + b.toNat) 0

/-- Whether `part` occurs anywhere. -/
def occurs (part : List UInt8) : List UInt8 → Bool
  | [] => part.isEmpty
  | b :: bytes => part.isPrefixOf (b :: bytes) || occurs part bytes

end RasterSketch
