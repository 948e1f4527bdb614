import RasterSketch.Proofs.Drawing
import RasterSketch.Proofs.Style.Brightness
/-!
# What a program shows of its buffer

A style looks at the pixels of its grid only, and of these at the colour of those that it accepts.  Two buffers of one
size that it cannot tell apart by that (`StyleConfig.Alike`) give the same text, or fail alike
(`Buffer.generateNamed_eq_of_alike`): pixels off the grid, the colour of what is rejected and, unless it is drawn, how
opaque the rest is, never show.
-/
namespace RasterSketch

/-- Two pixels that a style cannot tell apart: it rejects both, or accepts both, in one colour and, where the alpha is
drawn, with one alpha. -/
structure StyleConfig.Alike (config : StyleConfig) (p q : Pixel) : Prop where
  accepted_iff : config.alphaThreshold < p.a.toNat ↔ config.alphaThreshold < q.a.toNat
  colour_eq : config.alphaThreshold < p.a.toNat → p.r = q.r ∧ p.g = q.g ∧ p.b = q.b
  alpha_eq : config.alphaThreshold < p.a.toNat → config.includeAlpha = true → p.a = q.a

instance (config : StyleConfig) (p q : Pixel) : Decidable (config.Alike p q) :=
  decidable_of_iff
    ((config.alphaThreshold < p.a.toNat ↔ config.alphaThreshold < q.a.toNat) ∧
      (config.alphaThreshold < p.a.toNat → p.r = q.r ∧ p.g = q.g ∧ p.b = q.b) ∧
      (config.alphaThreshold < p.a.toNat → config.includeAlpha = true → p.a = q.a))
    ⟨fun ⟨ha, hc, hi⟩ => ⟨ha, hc, hi⟩, fun ⟨ha, hc, hi⟩ => ⟨ha, hc, hi⟩⟩

/-! ## One cell -/

/-- A sample that is as opaque as is said. -/
def Sample.withAlpha (s : Sample) (a : Int) : Sample := { s with a }

def Cell.withAlpha (c : Cell) (a : Int) : Cell := { c with sample := c.sample.withAlpha a }

theorem Cell.colour_withAlpha {c : Cell} (hc : c.includeAlpha = false) (a : Int) :
    (c.withAlpha a).colour = c.colour := by
  simp [colour, withAlpha, Sample.withAlpha, hc]

theorem Cell.fill_withAlpha {c : Cell} (hc : c.includeAlpha = false) (a : Int) : (c.withAlpha a).fill = c.fill := by
  rw [fill, fill, colour_withAlpha hc]

/-- **No style draws how opaque a cell is**, unless it is to include the alpha. -/
theorem Style.emit_withAlpha (style : Style) {c : Cell} (hc : c.includeAlpha = false) (a : Int) :
    style.emit (c.withAlpha a) = style.emit c := by
  have hcolour := Cell.colour_withAlpha hc a
  have hfill := Cell.fill_withAlpha hc a
  cases style with
  | pixels => simp only [emit, Cell.pixels, hfill]; rfl
  | circles => simp only [emit, Cell.circles, hfill]; rfl
  | triangles => simp only [emit, Cell.triangles, hfill]; rfl
  | lines => simp only [emit, Cell.lines, hcolour]; rfl
  | dots => simp only [emit, Cell.dots, hfill]; rfl
  | ascii | psychedelic | statue | animation => rfl

theorem Cell.ofSample_withAlpha (s : Sample) (a cellSize : Int) (includeAlpha : Bool) :
    ofSample (s.withAlpha a) cellSize includeAlpha = (·.withAlpha a) <$> ofSample s cellSize includeAlpha := by
  unfold ofSample
  simp only [map_bind, map_pure]
  rfl

theorem Cell.includeAlpha_eq {s : Sample} {cellSize : Int} {includeAlpha : Bool} {c : Cell}
    (h : ofSample s cellSize includeAlpha = .ok c) : c.includeAlpha = includeAlpha := by
  obtain ⟨brightness, grown, -, -, rfl⟩ := ofSample_eq_ok.1 h
  rfl

/-- The sample of a pixel that lies so and is drawn there. -/
def Pixel.sampled (p : Pixel) (x y destX destY : Int) : Sample :=
  ⟨x, y, p.r.toNat, p.g.toNat, p.b.toNat, p.a.toNat, destX, destY⟩

theorem Style.draw_sampled_of_alike (style : Style) {config : StyleConfig} {p q : Pixel} (h : config.Alike p q)
    (cellSize x y destX destY : Int) :
    style.draw config cellSize (p.sampled x y destX destY) =
      style.draw config cellSize (q.sampled x y destX destY) := by
  have hp : config.accepts (p.sampled x y destX destY) = decide (config.alphaThreshold < p.a.toNat) := rfl
  have hq : config.accepts (q.sampled x y destX destY) = decide (config.alphaThreshold < q.a.toNat) := rfl
  unfold draw
  rw [hp, hq]
  by_cases hacc : config.alphaThreshold < p.a.toNat
  · obtain ⟨hr, hg, hb⟩ := h.colour_eq hacc
    have hsample : q.sampled x y destX destY = (p.sampled x y destX destY).withAlpha q.a.toNat := by
      simp [Pixel.sampled, Sample.withAlpha, hr, hg, hb]
    rw [decide_eq_true hacc, decide_eq_true (h.accepted_iff.1 hacc), if_pos rfl, if_pos rfl]
    by_cases halpha : config.includeAlpha = true
    · rw [hsample, ← h.alpha_eq hacc halpha]
      rfl
    · rw [hsample, Cell.ofSample_withAlpha]
      cases hc : Cell.ofSample (p.sampled x y destX destY) cellSize config.includeAlpha with
      | error e => rfl
      | ok c =>
        have hhidden : c.includeAlpha = false := by rw [Cell.includeAlpha_eq hc, Bool.eq_false_iff]; exact halpha
        exact (style.emit_withAlpha hhidden q.a.toNat).symm
  · rw [decide_eq_false hacc, decide_eq_false (mt h.accepted_iff.2 hacc)]
    rfl

/-! ## All cells -/

namespace Scan

/-- The sample of a point reads the pixel there, after all that can fail. -/
theorem samplePoint_bind_congr {α : Type} {b b' : Buffer} {x y : Nat} (hy : y < b.height) (hy' : y < b'.height)
    (scale : Number) {f : Sample → Except Error α}
    (h : ∀ destX destY, f ((b.pixelAt x y).sampled x y destX destY) = f ((b'.pixelAt x y).sampled x y destX destY)) :
    (samplePoint b scale (x, y) >>= f) = (samplePoint b' scale (x, y) >>= f) := by
  unfold samplePoint rowAt sampleAt
  simp only [Buffer.rowIndex_natCast hy, Buffer.rowIndex_natCast hy']
  cases placed scale y with
  | error e => rfl
  | ok destY =>
    cases checkIndex y with
    | error e => rfl
    | ok _ =>
      cases placed scale x with
      | error e => rfl
      | ok destX => exact h destX destY

end Scan

namespace Buffer

/-- A style cannot tell two buffers apart at the points of a stride. -/
def AlikeOn (b b' : Buffer) (config : StyleConfig) (step : Int) : Prop :=
  ∀ x < b.width, ∀ y < b.height, step ∣ x → step ∣ y → config.Alike (b.pixelAt x y) (b'.pixelAt x y)

section

variable {b b' : Buffer} {config : StyleConfig} {g : Grid} (hw : b.width = b'.width) (hh : b.height = b'.height)

include hw hh

theorem gridFor_eq_of_size (bound : Int) : b.gridFor config bound = b'.gridFor config bound := by
  rw [gridFor, gridFor, hw, hh]

/-- **The programs of buffers that cannot be told apart are the same**, or end with the same failure. -/
theorem AlikeOn.build_eq (h : b.AlikeOn b' config g.step) (hstep : 1 ≤ g.step) (hpos : 0 < b.width) (style : Style) :
    style.build g (b.samplesOn g) config = style.build g (b'.samplesOn g) config := by
  have hs : 0 < g.step.toNat := by omega
  have hcast : ((g.step.toNat : Nat) : Int) = g.step := Int.toNat_of_nonneg (by omega)
  have hdvd : ∀ k : Nat, g.step ∣ ((k * g.step.toNat : Nat) : Int) := fun k => by
    rw [Nat.cast_mul, hcast]
    exact dvd_mul_left _ _
  have hcells : style.drawAll config g.cellSize (b.samplesOn g) = style.drawAll config g.cellSize (b'.samplesOn g) := by
    rw [samplesOn_eq hstep hpos, samplesOn_eq hstep (hw ▸ hpos), ← hw, ← hh, Style.drawAll_traverse,
      Style.drawAll_traverse]
    congr 1
    -- point by point: what is drawn before the first failure is the same, and so is the failure
    refine mapM_congr fun point hpoint => ?_
    obtain ⟨gx, gy, hx, hy, rfl⟩ := Scan.exists_of_mem_gridPoints hpoint
    rw [Scan.lt_cells_iff hs] at hx hy
    exact Scan.samplePoint_bind_congr hy (hh ▸ hy) _ fun destX destY =>
      style.draw_sampled_of_alike (h _ hx _ hy (hdvd gx) (hdvd gy)) _ _ _ destX destY
  unfold Style.build
  rw [hcells]

/-- The same holds of what is noted on the way. -/
theorem notedProgram_eq_of_alike (name : Value) (config : Option StyleConfig) (bound : Int)
    (h : ∀ style g, Style.ofValue name = .ok style → b.gridFor (configOr style config) bound = .ok g →
      b.AlikeOn b' (configOr style config) g.step) :
    b.notedProgram name config bound = b'.notedProgram name config bound := by
  unfold notedProgram
  cases hstyle : Style.ofValue name with
  | error e => rfl
  | ok style =>
    dsimp only
    rw [← gridFor_eq_of_size hw hh]
    cases hg : b.gridFor (configOr style config) bound with
    | error e => rfl
    | ok g =>
      have hpos : 0 < b.width := by exact_mod_cast (Grid.of_compute hg).1
      dsimp only
      rw [(h style g hstyle hg).build_eq hw hh (Grid.step_bounds hg).1 hpos style]

end

/-- **A text shows nothing of its buffer but the pixels that are sampled and accepted.** -/
theorem generateNamed_eq_of_alike (b b' : Buffer) (name : Value) (config : Option StyleConfig) (bound : Int)
    (hw : b.width = b'.width) (hh : b.height = b'.height)
    (h : ∀ style g, Style.ofValue name = .ok style → b.gridFor (configOr style config) bound = .ok g →
      b.AlikeOn b' (configOr style config) g.step) :
    b.generateNamed name config bound = b'.generateNamed name config bound := by
  have hnoted := notedProgram_eq_of_alike hw hh name config bound h
  rw [← result_code, ← result_code]
  unfold code
  rw [hnoted]

/-- The buffer `threeByTwo` with other pixels off the grid, a less opaque first pixel, and another colour where it is all
but clear. -/
def threeByTwoRetouched : Buffer where
  width := 3
  height := 2
  bytes := #[10, 20, 30, 201, 1, 2, 3, 255, 90, 0, 60, 7, 9, 9, 9, 9, 250, 0, 1, 0, 70, 80, 90, 2]
  size_eq := by decide

theorem threeByTwo_retouched : threeByTwo.width = threeByTwoRetouched.width ∧
    threeByTwo.height = threeByTwoRetouched.height ∧
    (∀ style g, Style.ofValue (.bare "dots") = .ok style →
      threeByTwo.gridFor (configOr style (some ⟨2, 200, false⟩)) 3 = .ok g →
      threeByTwo.AlikeOn threeByTwoRetouched (configOr style (some ⟨2, 200, false⟩)) g.step) ∧
    threeByTwo.generateNamed (.bare "dots") (some ⟨2, 200, false⟩) 3 =
      threeByTwoRetouched.generateNamed (.bare "dots") (some ⟨2, 200, false⟩) 3 := by
  have halike : ∀ style g, Style.ofValue (.bare "dots") = .ok style →
      threeByTwo.gridFor (configOr style (some ⟨2, 200, false⟩)) 3 = .ok g →
      threeByTwo.AlikeOn threeByTwoRetouched (configOr style (some ⟨2, 200, false⟩)) g.step := by
    intro style g _ hg
    obtain ⟨grid, hgrid, hstep⟩ := exists_ok_of_any (x := threeByTwo.gridFor ⟨2, 200, false⟩ 3)
      (p := fun g => g.step == 2) (by decide +kernel)
    obtain rfl : grid = g := Except.ok.inj (hgrid.symm.trans hg)
    rw [beq_iff_eq] at hstep
    rw [hstep]
    show ∀ x < 3, ∀ y < 2, (2 : Int) ∣ (x : Nat) → (2 : Int) ∣ (y : Nat) →
      StyleConfig.Alike ⟨2, 200, false⟩ (threeByTwo.pixelAt x y) (threeByTwoRetouched.pixelAt x y)
    decide +kernel
  exact ⟨rfl, rfl, halike, generateNamed_eq_of_alike _ _ _ _ _ rfl rfl halike⟩

end Buffer

end RasterSketch
