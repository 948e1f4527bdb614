/-!
# Powers

The powers of two scale doubles, those of ten decimals.
-/

namespace RasterSketch

def twoTo (e : Nat) : Nat := Nat.pow 2 e

def tenTo (e : Nat) : Nat := Nat.pow 10 e

theorem twoTo_pos (e : Nat) : 0 < twoTo e := Nat.two_pow_pos e

theorem tenTo_pos (e : Nat) : 0 < tenTo e := Nat.pow_pos (by decide)

end RasterSketch
