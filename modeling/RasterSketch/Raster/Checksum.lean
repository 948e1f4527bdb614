/-!
# Checksums

Two checksums of 32 bits: the remainder of bytes as a polynomial, lowest bit first, and a pair of
sums.
-/

namespace RasterSketch

/-- The remainder after so many more bits. -/
def shiftRemainder (r : UInt32) : (bits : Nat) → UInt32
  | 0 => r
  | k + 1 => shiftRemainder (if r &&& 1 = 1 then (r >>> 1) ^^^ 0xedb88320 else r >>> 1) k

def remainderSum (bytes : List UInt8) : Nat :=
  (bytes.foldl (fun r b => shiftRemainder (r ^^^ b.toUInt32) 8) 0xffffffff ^^^ 0xffffffff).toNat

/-- The greatest prime below 65536. -/
def pairModulus : Nat := 65521

/-- The sum of the bytes, below the sum of all sums on the way. -/
def pairSum (bytes : List UInt8) : Nat :=
  let (low, high) := bytes.foldl
    (fun (low, high) b =>
      let low := (low + b.toNat) % pairModulus
      (low, (high + low) % pairModulus))
    (1, 0)
  0x10000 * high + low

end RasterSketch
