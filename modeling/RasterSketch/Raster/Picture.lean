/-!
# Pictures

A picture as it is decoded or handed over: a size, a mode, and the samples of all pixels in one row
after the other.  Whatever the mode, its pixels have a colour of four channels: grey stands for
three equal ones, and a missing alpha is opaque.
-/

namespace RasterSketch

/-- The bytes of a pixel of a buffer: red, green, blue and alpha. -/
def channels : Nat := 4

/-- A colour of red, green and blue. -/
structure Colour where
  r : UInt8
  g : UInt8
  b : UInt8
  deriving DecidableEq

inductive Mode where
  | bilevel
  | grey
  | greyAlpha
  | rgb
  | rgba
  | indexed (palette : List Colour)
  | indexedAlpha (palette : List Colour)
  deriving DecidableEq

namespace Mode

/-- Samples for each pixel. -/
def samples : Mode → Nat
  | .bilevel => 1
  | .grey => 1
  | .greyAlpha => 2
  | .rgb => 3
  | .rgba => 4
  | .indexed _ => 1
  | .indexedAlpha _ => 2

/-- White, unless the sample is zero. -/
def bilevelColour (v : UInt8) : List UInt8 :=
  let v := if v = 0 then 0 else 255
  [v, v, v, 255]

/-- A colour of a palette with an alpha; black beyond its end. -/
def paletteColour (palette : List Colour) (i : Nat) (alpha : UInt8) : List UInt8 :=
  match palette[i]? with
  | some c => [c.r, c.g, c.b, alpha]
  | none => [0, 0, 0, alpha]

/-- The channels of all pixels.  Samples that fill no pixel are dropped. -/
def toRgba : Mode → List UInt8 → List UInt8
  | .bilevel, v :: rest => bilevelColour v ++ toRgba .bilevel rest
  | .grey, v :: rest => v :: v :: v :: 255 :: toRgba .grey rest
  | .greyAlpha, v :: a :: rest => v :: v :: v :: a :: toRgba .greyAlpha rest
  | .rgb, r :: g :: b :: rest => r :: g :: b :: 255 :: toRgba .rgb rest
  | .rgba, r :: g :: b :: a :: rest => r :: g :: b :: a :: toRgba .rgba rest
  | .indexed p, i :: rest => paletteColour p i.toNat 255 ++ toRgba (.indexed p) rest
  | .indexedAlpha p, i :: a :: rest =>
    paletteColour p i.toNat a ++ toRgba (.indexedAlpha p) rest
  | _, _ => []

theorem length_paletteColour (palette : List Colour) (i : Nat) (alpha : UInt8) :
    (paletteColour palette i alpha).length = channels := by
  unfold paletteColour
  split <;> rfl

theorem length_toRgba (mode : Mode) (n : Nat) (samples : List UInt8)
    (h : samples.length = n * mode.samples) : (mode.toRgba samples).length = n * channels := by
  induction n generalizing samples with
  | zero =>
    have : samples = [] := List.length_eq_zero_iff.1 (by omega)
    subst this
    cases mode <;> simp [toRgba]
  | succ n ih =>
    rw [Nat.succ_mul] at h
    match mode, samples, h with
    | .bilevel, v :: rest, h =>
      have := ih rest (by simpa [Mode.samples] using h)
      simp [toRgba, bilevelColour, channels, this, Nat.succ_mul]
    | .grey, v :: rest, h =>
      have := ih rest (by simpa [Mode.samples] using h)
      simp [toRgba, channels, this, Nat.succ_mul]
    | .greyAlpha, v :: a :: rest, h =>
      have := ih rest (by simp only [Mode.samples, List.length_cons] at h ⊢; omega)
      simp [toRgba, channels, this, Nat.succ_mul]
    | .rgb, r :: g :: b :: rest, h =>
      have := ih rest (by simp only [Mode.samples, List.length_cons] at h ⊢; omega)
      simp [toRgba, channels, this, Nat.succ_mul]
    | .rgba, r :: g :: b :: a :: rest, h =>
      have := ih rest (by simp only [Mode.samples, List.length_cons] at h ⊢; omega)
      simp [toRgba, channels, this, Nat.succ_mul]
    | .indexed p, i :: rest, h =>
      have := ih rest (by simpa [Mode.samples] using h)
      simp [toRgba, length_paletteColour, this, Nat.succ_mul, Nat.add_comm]
    | .indexedAlpha p, i :: a :: rest, h =>
      have := ih rest (by simp only [Mode.samples, List.length_cons] at h ⊢; omega)
      simp [toRgba, length_paletteColour, this, Nat.succ_mul, Nat.add_comm]

end Mode

structure Picture where
  width : Nat
  height : Nat
  mode : Mode
  samples : List UInt8
  length_eq : samples.length = width * height * mode.samples

/-- Red, green, blue and alpha of all pixels. -/
def Picture.rgba (p : Picture) : List UInt8 := p.mode.toRgba p.samples

theorem Picture.length_rgba (p : Picture) : p.rgba.length = p.width * p.height * channels :=
  p.mode.length_toRgba _ _ p.length_eq

/-- A picture of the given size, if there are just the samples for it. -/
def Picture.ofSamples? (width height : Nat) (mode : Mode) (samples : List UInt8) :
    Option Picture :=
  if h : samples.length = width * height * mode.samples then
    some ⟨width, height, mode, samples, h⟩
  else none

end RasterSketch
