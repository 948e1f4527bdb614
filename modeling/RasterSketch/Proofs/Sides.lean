import RasterSketch.Proofs.Fitting
import RasterSketch.Proofs.Totality
/-!
# The sides of a canvas

A canvas may have a side without any pixels, and then nothing that is drawn on it shows.  A side of an image is cut to
none where it is shorter than the longer side divided by the bound, and never where it is longer; between the two the
exact side is one pixel, and what the doubles make of it decides (`Grid.compute_sides`).  Each frame creates its canvas
with the sides of its grid as they are.
-/
namespace RasterSketch

open Magnitude

/-- A whole number times what its inverse is rounded to, rounded and cut: one, or nothing if it is rounded down. -/
def Double.timesInverse (n : Int) : Except ArithmeticError Int := do (← (← quotient 1 n).scale n).floor

example : Double.timesInverse 48 = .ok 1 ∧ Double.timesInverse 49 = .ok 0 := by decide +kernel

/-- The program creates a canvas of these sides before all else. -/
def Program.Creates (p : Program) (width height : Int) : Prop :=
  p.setup.head? = some (.callInts "createCanvas" [width, height])

theorem StyleRef.frame_creates {r : StyleRef} {g : Grid} {p : Program} (h : r.frame g = .ok p) :
    p.Creates g.scaledWidth g.scaledHeight := by
  unfold frame at h
  obtain ⟨style, -, h⟩ := bind_eq_ok.1 h
  obtain ⟨text, -, h⟩ := bind_eq_ok.1 h
  cases hcanvas : style.canvas with
  | still =>
    rw [hcanvas] at h
    cases h
    rfl
  | moving clock =>
    rw [hcanvas] at h
    cases h
    rfl

/-- A still style without a glyph has a frame on any canvas. -/
theorem StyleRef.exists_pixels_frame (g : Grid) :
    ∃ p, (StyleRef.style .pixels).frame g = .ok p ∧ p.Creates g.scaledWidth g.scaledHeight :=
  ⟨_, rfl, rfl⟩

namespace Grid

/-- What becomes of a side of `n` pixels on a canvas whose bound the longer side is scaled to. -/
structure HasSide (longer bound n side : Int) : Prop where
  nonneg : 0 ≤ side
  pos_of_lt : longer < n * bound → 1 ≤ side
  eq_zero_of_lt : n * bound < longer → side = 0
  eq_of_eq : n * bound = longer → Double.timesInverse n = .ok side

variable {w h base bound n n' longer : Int} {s m : Magnitude}

section

variable (hlonger : IsCount longer) (ht : IsCount bound) (hs : Rounds (bound / longer) s)

include hlonger ht hs

/-- The scale is the share of the bound but for a rounding, taken without a division. -/
theorem scale_mul_bounds : bound * kept ≤ longer * s.value ∧ longer * s.value * kept ≤ bound := by
  have hnear := scale_nearly ht.isSize hlonger.isSize hs
  have hpos := hlonger.isSize.pos
  have hlow := mul_le_mul_of_nonneg_left hnear.le hpos.le
  have hhigh := mul_le_mul_of_nonneg_left hnear.ge hpos.le
  rw [pow_one, ← mul_assoc, mul_div_cancel₀ _ hpos.ne'] at hlow
  rw [pow_one, ← mul_assoc, mul_div_cancel₀ _ hpos.ne'] at hhigh
  exact ⟨hlow, hhigh⟩

variable (hn : IsCount n) (hm : Rounds (n * s.value) m)

include hn hm

theorem one_le_side (hlt : longer < n * bound) : 1 ≤ ⌊m.value⌋ := by
  have hlow := (scale_mul_bounds hlonger ht hs).1
  have hpos := hlonger.isSize.pos
  have hnext : (longer : ℚ) + 1 ≤ n * bound := by exact_mod_cast hlt
  have hlimit : (longer : ℚ) ≤ 2 ^ 31 := by linarith [hlonger.cast.2]
  -- one more than the longer side outweighs what the scale may have lost
  have hkept : (longer : ℚ) ≤ (longer + 1) * kept := by
    unfold kept
    norm_num
    linarith
  have hproduct : longer * 1 ≤ longer * (n * s.value) := by
    calc (longer : ℚ) * 1 ≤ (longer + 1) * kept := by linarith
      _ ≤ n * bound * kept := mul_le_mul_of_nonneg_right hnext kept_pos.le
      _ = n * (bound * kept) := mul_assoc _ _ _
      _ ≤ n * (longer * s.value) := mul_le_mul_of_nonneg_left hlow hn.isSize.pos.le
      _ = longer * (n * s.value) := mul_left_comm _ _ _
  have hone : ((1 : Int) : ℚ) ≤ n * s.value := by
    rw [Int.cast_one]
    exact le_of_mul_le_mul_left hproduct hpos
  exact Int.le_floor.2 (hm.le_value (isValue_intCast (by decide) (by decide)) hone)

theorem side_eq_zero (hlt : n * bound < longer) : ⌊m.value⌋ = 0 := by
  have hhigh := (scale_mul_bounds hlonger ht hs).2
  have hpos := hlonger.isSize.pos
  have hbefore : (n : ℚ) * bound ≤ longer - 1 := by
    have : n * bound ≤ longer - 1 := by omega
    exact_mod_cast this
  have hlimit : (longer : ℚ) ≤ 2 ^ 31 := by linarith [hlonger.cast.2]
  -- one less than the longer side is less than what two roundings leave of it
  have hkept : ((longer : ℚ) - 1) ≤ longer * (kept * kept) := by
    unfold kept
    norm_num
    linarith
  have hproduct : longer * kept * (n * s.value) ≤ longer * kept * kept := by
    calc longer * kept * (n * s.value) = n * (longer * s.value * kept) := by ring
      _ ≤ n * bound := mul_le_mul_of_nonneg_left hhigh hn.isSize.pos.le
      _ ≤ longer - 1 := hbefore
      _ ≤ longer * (kept * kept) := hkept
      _ = longer * kept * kept := (mul_assoc _ _ _).symm
  have hle := hm.value_le isValue_kept (le_of_mul_le_mul_left hproduct (mul_pos hpos kept_pos))
  have hone : m.value < 1 := hle.trans_lt (by norm_num [kept])
  exact Int.floor_eq_zero_iff.2 ⟨m.value_nonneg, hone⟩

/-- A side that is one pixel exactly is scaled by its rounded inverse. -/
theorem timesInverse_eq (heq : n * bound = longer) : Double.timesInverse n = .ok ⌊m.value⌋ := by
  have hn0 : (n : ℚ) ≠ 0 := hn.isSize.pos.ne'
  have hinverse : (bound / longer : ℚ) = (1 : Int) / n := by
    have hb0 : (bound : ℚ) ≠ 0 := ht.isSize.pos.ne'
    rw [← heq, Int.cast_mul, Int.cast_one]
    field_simp
  have hle : ((1 : Int) / n : ℚ) ≤ (1 : Int) := div_le_self (by norm_num) hn.isSize.cast.1
  obtain ⟨k, hk, hr⟩ := Double.quotient_rounds (by decide) (by exact_mod_cast hn.isSize.pos)
    (isValue_intCast (n := 1) (by decide) (by decide)) hle
  obtain rfl : s = k := hs.unique (hinverse ▸ hr)
  obtain ⟨p, hp, hpr⟩ := scaled_rounds (scale_bounds ht.isSize hlonger.isSize hs).2 (by linarith [hn.1]) hn.isSize.2
  obtain rfl : m = p := hm.unique hpr
  unfold Double.timesInverse
  exact bind_eq_ok.2 ⟨_, hk, bind_eq_ok.2 ⟨_, hp, Double.floor_finite m⟩⟩

theorem hasSide : HasSide longer bound n ⌊m.value⌋ :=
  ⟨Int.floor_nonneg.2 m.value_nonneg, one_le_side hlonger ht hs hn hm, side_eq_zero hlonger ht hs hn hm,
    timesInverse_eq hlonger ht hs hn hm⟩

end

theorem HasSide.of_shorter {side : Int} (h : HasSide longer bound n side) (hle : n' ≤ n) (hb : 1 ≤ bound)
    (hlt : longer < n' * bound) : 1 ≤ side := by
  have : n' * bound ≤ n * bound := mul_le_mul_of_nonneg_right hle (by omega)
  exact h.pos_of_lt (by omega)

/-- **A side of a canvas is positive where the bound, taken as often as the image has pixels there, exceeds the longer
side, and no pixel at all where it comes short of it**; so both sides are positive unless the longer side of the image
is the shorter one taken as often as the bound, or more.  Each style has a frame on that canvas. -/
theorem compute_sides (w h base bound : Int) (hw : IsCount w) (hh : IsCount h) (hb : IsCount base) (ht : IsCount bound) :
    ∃ g, compute w h base bound = .ok g ∧ HasSide (max w h) bound w g.scaledWidth ∧
      HasSide (max w h) bound h g.scaledHeight ∧
      (max w h < min w h * bound → 1 ≤ g.scaledWidth ∧ 1 ≤ g.scaledHeight) ∧
      (∀ style : Style, ∃ p, (StyleRef.style style).frame g = .ok p) ∧
      ∀ (r : StyleRef) (p : Program), r.frame g = .ok p → p.Creates g.scaledWidth g.scaledHeight := by
  obtain ⟨g, s, hg, hf⟩ := exists_roundedFrom hw.isSize hh.isSize hb.isSize ht.isSize
  obtain ⟨mw, hmw, hwidth⟩ := hf.scaledWidth
  obtain ⟨mh, hmh, hheight⟩ := hf.scaledHeight
  have hlonger := hw.max hh
  have hw' := hasSide hlonger ht hf.scale hw hmw
  have hh' := hasSide hlonger ht hf.scale hh hmh
  rw [← hwidth] at hw'
  rw [← hheight] at hh'
  refine ⟨g, hg, hw', hh', fun hlt => ?_, fun style => ?_, fun r p => StyleRef.frame_creates⟩
  · exact ⟨hw'.of_shorter (min_le_left w h) ht.1 hlt, hh'.of_shorter (min_le_right w h) ht.1 hlt⟩
  · have hfits := hf.fits hw.isSize hh.isSize ht.1 ht.isSize.onSheet (by decide) hb.isSize le_rfl
    obtain ⟨p, hp, -⟩ := style.exists_frame (by decide) hfits
    exact ⟨p, hp⟩

/-- An image that is cut to its full width. -/
theorem three_rows_sides : IsCount 1000 ∧ IsCount 3 ∧ IsCount 8 ∧ IsCount targetMax ∧
    ∃ g, compute 1000 3 8 targetMax = .ok g ∧ HasSide (max 1000 3) targetMax 1000 g.scaledWidth ∧
      HasSide (max 1000 3) targetMax 3 g.scaledHeight ∧
      (max 1000 3 < min 1000 3 * targetMax → 1 ≤ g.scaledWidth ∧ 1 ≤ g.scaledHeight) ∧
      (∀ style : Style, ∃ p, (StyleRef.style style).frame g = .ok p) ∧
      ∀ (r : StyleRef) (p : Program), r.frame g = .ok p → p.Creates g.scaledWidth g.scaledHeight :=
  ⟨by decide, by decide, by decide, by decide,
    compute_sides 1000 3 8 targetMax (by decide) (by decide) (by decide) (by decide)⟩

/-- **Canvases without any pixels**: a row of 401 pixels comes to less than one line, and both sides of a square of 49,
fitted into one pixel, come to just less than that pixel. -/
theorem canvases_without_pixels :
    (IsCount 401 ∧ IsCount 1 ∧ IsCount 8 ∧ IsCount targetMax ∧ ∃ g p, compute 401 1 8 targetMax = .ok g ∧
      g.scaledHeight = 0 ∧ (StyleRef.style .pixels).frame g = .ok p ∧ p.Creates 400 0) ∧
    (IsCount 49 ∧ IsCount 8 ∧ IsCount 1 ∧ ∃ g p, compute 49 49 8 1 = .ok g ∧
      g.scaledWidth = 0 ∧ g.scaledHeight = 0 ∧ (StyleRef.style .pixels).frame g = .ok p ∧ p.Creates 0 0) := by
  constructor
  · obtain ⟨g, hg, hsides⟩ := exists_ok_of_any (x := compute 401 1 8 targetMax)
      (p := fun g => g.scaledWidth = 400 ∧ g.scaledHeight = 0) (by decide +kernel)
    obtain ⟨hwidth, hheight⟩ := of_decide_eq_true hsides
    obtain ⟨p, hp, hcreates⟩ := StyleRef.exists_pixels_frame g
    rw [hwidth, hheight] at hcreates
    exact ⟨by decide, by decide, by decide, by decide, g, p, hg, hheight, hp, hcreates⟩
  · obtain ⟨g, hg, hsides⟩ := exists_ok_of_any (x := compute 49 49 8 1)
      (p := fun g => g.scaledWidth = 0 ∧ g.scaledHeight = 0) (by decide +kernel)
    obtain ⟨hwidth, hheight⟩ := of_decide_eq_true hsides
    obtain ⟨p, hp, hcreates⟩ := StyleRef.exists_pixels_frame g
    rw [hwidth, hheight] at hcreates
    exact ⟨by decide, by decide, by decide, g, p, hg, hwidth, hheight, hp, hcreates⟩

end Grid
end RasterSketch
