import RasterSketch.Proofs.Placing
import RasterSketch.Proofs.Totality
/-!
# Cells at the edge of the canvas

No cell lies behind the end of its canvas, and only the last ones of an axis can lie at it.  Coordinates that are a pixel
of the canvas apart are cut to different numbers, and the end of an image is that far from all coordinates but those of
the last column or row that is visited.  What is left of the image there may be less than a pixel; then the coordinate
and the end may be cut to one number, and nothing of the cell is on the canvas (`Grid.compute_places_samples`).
-/
namespace RasterSketch

open Magnitude

namespace Grid

/-- Where a visited coordinate comes to lie on an axis of the canvas: at its end at most, and before it unless the
coordinate is the last one and what is left behind it is less than a pixel of the canvas. -/
structure Bounds (g : Grid) (size extent c d : Int) : Prop where
  visits : g.Visits size c
  placed : g.place c = .ok d
  nonneg : 0 ≤ d
  le : d ≤ extent
  lt_of_next : g.Visits size (c + g.step) → d < extent
  lt_of_pixel : 1 ≤ (size - c) * g.scale.value → d < extent

variable {w h base bound size extent c d : Int} {g : Grid} {s m n : Magnitude}

theorem exists_fitted_rounded (hw : IsCount w) (hh : IsCount h) (hb : IsCount base) (ht : IsCount bound) :
    ∃ g s, compute w h base bound = .ok g ∧ Fitted w h base bound g s ∧ g.RoundedFrom w h base bound s := by
  obtain ⟨g, s, hg, hf⟩ := exists_fitted hw hh hb ht
  obtain ⟨g', s', hg', hr⟩ := exists_roundedFrom hw.isSize hh.isSize hb.isSize ht.isSize
  obtain rfl : g = g' := Except.ok.inj (hg.symm.trans hg')
  obtain rfl : s = s' := (Double.finite.inj (hf.scale_eq.symm.trans hr.scale_eq)).2
  exact ⟨g, s, hg, hf, hr⟩

/-! ## The stride on the canvas -/

/-- **One more than a stride is not less than a pixel of the canvas**: the stride that is rounded and cut would reach
that number otherwise. -/
theorem RoundedFrom.one_le_succ_step_mul (hf : g.RoundedFrom w h base bound s) (hw : IsSize w) (hh : IsSize h)
    (hb : IsSize base) (ht : IsSize bound) : 1 ≤ (g.step + 1) * s.value := by
  obtain ⟨hlow, -⟩ := hf.scale_bounds hw hh ht
  obtain ⟨m, hm, hstep⟩ := hf.step
  have hs0 : 0 < s.value := (two_zpow_pos _).trans_le hlow
  by_contra hlt
  rw [not_le] at hlt
  have hpos : (0 : ℚ) ≤ g.step + 1 := by exact_mod_cast (by linarith [hf.step_pos] : 0 ≤ g.step + 1)
  have hshare : ((g.step + 1 : Int) : ℚ) ≤ base / s.value := by
    rw [le_div_iff₀ hs0]
    push_cast
    exact hlt.le.trans hb.cast.1
  have hlimit : g.step + 1 < 2 ^ 53 := by
    have hproduct : ((g.step : ℚ) + 1) * 2 ^ (-53 : ℤ) < 1 := (mul_le_mul_of_nonneg_left hlow hpos).trans_lt hlt
    have hcast : ((g.step + 1 : Int) : ℚ) < (2 ^ 53 : Int) := by
      push_cast
      norm_num at hproduct ⊢
      linarith
    exact_mod_cast hcast
  have hfloor := Int.le_floor.2 (hm.le_value (isValue_intCast (by linarith [hf.step_pos]) hlimit) hshare)
  omega

/-- An image that its square has room for is not scaled down. -/
theorem RoundedFrom.one_le_scale (hf : g.RoundedFrom w h base bound s) (hw : IsSize w) (hh : IsSize h)
    (hle : max w h ≤ bound) : 1 ≤ s.value := by
  have hpos := (hw.max hh).pos
  have hshare : ((1 : Int) : ℚ) ≤ bound / (max w h : Int) := by
    rw [le_div_iff₀ hpos, Int.cast_one, one_mul]
    exact_mod_cast hle
  exact_mod_cast hf.scale.le_value (isValue_intCast (by decide) (by decide)) hshare

/-! ## One axis -/

/-- A coordinate is not placed behind a later one, and before it if they are a pixel of the canvas apart. -/
theorem floor_le_floor_of_le (hc : c ≤ size) (hlt : size * s.value ≤ 2 ^ 31) (hm : Rounds (c * s.value) m)
    (hn : Rounds (size * s.value) n) :
    ⌊m.value⌋ ≤ ⌊n.value⌋ ∧ (1 ≤ (size - c) * s.value → ⌊m.value⌋ < ⌊n.value⌋) := by
  have hle : (c : ℚ) * s.value ≤ size * s.value :=
    mul_le_mul_of_nonneg_right (by exact_mod_cast hc) s.value_nonneg
  refine ⟨Int.floor_le_floor (hm.mono hn hle), fun hpixel => ?_⟩
  have hapart : (c : ℚ) * s.value + 1 ≤ size * s.value := by linarith [sub_mul (size : ℚ) c s.value]
  have := hm.floor_add_one_le hn hapart ((hle.trans hlt).trans_lt (by norm_num))
  omega

/-- **A visited coordinate is placed at the end of its axis at most.** -/
theorem bounds_of_visits (hscale : g.scale = .finite false s) (hnext : 1 ≤ (g.step + 1) * s.value)
    (hsize : IsCount size) (hlt : size * s.value ≤ 2 ^ 31) (hend : g.place size = .ok extent)
    (hc : g.Visits size c) (hd : g.place c = .ok d) : g.Bounds size extent c d := by
  have hle : (c : ℚ) * s.value ≤ 2 ^ 31 :=
    (mul_le_mul_of_nonneg_right (by exact_mod_cast hc.2.1.le) s.value_nonneg).trans hlt
  obtain ⟨m, hm, hplace⟩ := place_rounds hscale hc.1 (by linarith [hc.2.1, hsize.2]) hle
  obtain ⟨n, hn, hplace'⟩ := place_rounds hscale (by linarith [hsize.1]) (by linarith [hsize.2]) hlt
  obtain rfl : ⌊m.value⌋ = d := Except.ok.inj (hplace.symm.trans hd)
  obtain rfl : ⌊n.value⌋ = extent := Except.ok.inj (hplace'.symm.trans hend)
  obtain ⟨hfloor, hpixel⟩ := floor_le_floor_of_le hc.2.1.le hlt hm hn
  have hvalue := value_of_scale hscale
  refine ⟨hc, hd, Int.floor_nonneg.2 m.value_nonneg, hfloor, fun hv => hpixel ?_, fun hone => hpixel (hvalue ▸ hone)⟩
  -- behind a coordinate that is not the last lies a stride, and one pixel of the image more
  have hrest : g.step + 1 ≤ size - c := by
    have := hv.2.1
    omega
  have hcast : (g.step : ℚ) + 1 ≤ size - c := by exact_mod_cast hrest
  exact hnext.trans (mul_le_mul_of_nonneg_right hcast s.value_nonneg)

end Grid

/-! ## Samples -/

/-- A sample whose coordinates are placed so on both axes. -/
structure Sample.Bounds (g : Grid) (w h : Int) (s : Sample) : Prop where
  x : g.Bounds w g.scaledWidth s.sourceX s.destX
  y : g.Bounds h g.scaledHeight s.sourceY s.destY

/-- The first pixel of the cell of a sample is on the canvas. -/
structure Sample.StartsOn (g : Grid) (s : Sample) : Prop where
  x : 0 ≤ s.destX ∧ s.destX < g.scaledWidth
  y : 0 ≤ s.destY ∧ s.destY < g.scaledHeight

theorem Sample.Bounds.startsOn {g : Grid} {w h : Int} {s : Sample} (hs : s.Bounds g w h) (hone : 1 ≤ g.scale.value) :
    s.StartsOn g := by
  have hpixel : ∀ {size c : Int}, g.Visits size c → 1 ≤ (size - c) * g.scale.value := by
    intro size c hc
    have hrest : (1 : ℚ) ≤ size - c := by
      have : 1 ≤ size - c := by linarith [hc.2.1]
      exact_mod_cast this
    exact hone.trans (le_mul_of_one_le_left (by linarith) hrest)
  exact ⟨⟨hs.x.nonneg, hs.x.lt_of_pixel (hpixel hs.x.visits)⟩, hs.y.nonneg, hs.y.lt_of_pixel (hpixel hs.y.visits)⟩

/-- The statements of a program are what samples draw, one group after the other. -/
def Program.DrawnFrom (p : Program) (style : Style) (config : StyleConfig) (cellSize : Int) (samples : List Sample) :
    Prop :=
  ∃ groups, List.Forall₂ (fun s group => style.draw config cellSize s = .ok group) samples groups ∧
    p.statements = groups.flatten

namespace Buffer

variable {b : Buffer} {g : Grid}

theorem exists_cell_of_mem {step : Int} {scale : Number} {cells : List (Nat × Nat)} {samples : List Sample}
    (hcells : List.Forall₂ (b.IsSampleOf step scale) cells samples) {s : Sample} (hs : s ∈ samples) :
    ∃ p ∈ cells, b.IsSampleOf step scale p s := by
  obtain ⟨i, hi, rfl⟩ := List.mem_iff_getElem.1 hs
  have hi' : i < cells.length := hcells.length_eq ▸ hi
  exact ⟨cells[i], List.getElem_mem hi', hcells.get hi' hi⟩

theorem drawnFrom_samplesOn {style : Style} {config : Option StyleConfig} {bound : Int} {p : Program}
    (hg : b.gridFor (configOr style config) bound = .ok g) {samples : List Sample}
    (hsamples : (b.samplesOn g).toList = .ok samples) (hp : b.toProgram style config bound = .ok p) :
    p.DrawnFrom style (configOr style config) g.cellSize samples := by
  obtain ⟨grid, frame, groups, hgrid, -, hgroups, rfl⟩ := of_toProgram hp
  obtain rfl : g = grid := Except.ok.inj (hg.symm.trans hgrid)
  obtain ⟨drawn, hdrawn, hdraw⟩ := mapM_bind_eq_ok hgroups
  have hw : 0 < b.width := by exact_mod_cast (Grid.of_compute hgrid).1
  rw [samplesOn_eq (Grid.step_bounds hgrid).1 hw, Delivery.toList_traverse] at hsamples
  obtain rfl : samples = drawn := Except.ok.inj (hsamples.symm.trans hdrawn)
  exact ⟨groups, mapM_eq_ok_iff_forall₂.1 hdraw, rfl⟩

end Buffer

namespace Grid

variable {w h base bound : Int}

/-- **A cell starts on the canvas or at its edge**: at the edge only if its coordinate is the last one and what is left
of the image behind it is less than a pixel of the canvas, and so never where the image is not scaled down.  The
statements of a program are what such cells are drawn with. -/
theorem compute_places_samples (w h base bound : Int) (hw : IsCount w) (hh : IsCount h) (hb : IsCount base)
    (ht : IsCount bound) : ∃ g, compute w h base bound = .ok g ∧ ∀ b : Buffer, b.width = w → b.height = h →
      ∃ samples, (b.samplesOn g).toList = .ok samples ∧ (∀ s ∈ samples, s.Bounds g w h) ∧
        (max w h ≤ bound → ∀ s ∈ samples, s.StartsOn g) ∧
        ∀ (style : Style) (config : Option StyleConfig), (Buffer.configOr style config).baseStep = base →
          ∃ p, b.toProgram style config bound = .ok p ∧
            p.DrawnFrom style (Buffer.configOr style config) g.cellSize samples := by
  obtain ⟨g, s, hg, hf, hr⟩ := exists_fitted_rounded hw hh hb ht
  have hstep := hf.step_pos
  have hnext := hr.one_le_succ_step_mul hw.isSize hh.isSize hb.isSize ht.isSize
  have hlimit : (bound : ℚ) + 1 ≤ 2 ^ 31 := ht.cast.2
  have hx := fun c d => bounds_of_visits (c := c) (d := d) hf.scale_eq hnext hw (hf.width_lt.le.trans hlimit)
    hf.scaledWidth_eq
  have hy := fun c d => bounds_of_visits (c := c) (d := d) hf.scale_eq hnext hh (hf.height_lt.le.trans hlimit)
    hf.scaledHeight_eq
  refine ⟨g, hg, ?_⟩
  rintro b rfl rfl
  have hwidth : b.width < 2 ^ 31 := by exact_mod_cast hw.2
  have hheight : b.height < 2 ^ 31 := by exact_mod_cast hh.2
  obtain ⟨samples, hsamples, hcells⟩ := Buffer.exists_samplesOn_cells hf.scale_eq
    (hr.scale_bounds hw.isSize hh.isSize ht.isSize).2 hstep (by omega : b.width < 2 ^ 53) (by omega : b.height < 2 ^ 53)
  have hbounds : ∀ t ∈ samples, t.Bounds g b.width b.height := by
    intro t hmem
    obtain ⟨p, hp, hpt⟩ := Buffer.exists_cell_of_mem hcells hmem
    obtain ⟨⟨hvx, hdx⟩, hvy, hdy⟩ := hpt.visits (Int.toNat_of_nonneg (by omega)) (by omega) hp
    exact ⟨hx _ _ hvx hdx, hy _ _ hvy hdy⟩
  refine ⟨samples, hsamples, hbounds, fun hle t hmem => (hbounds t hmem).startsOn ?_, ?_⟩
  · rw [value_of_scale hf.scale_eq]
    exact hr.one_le_scale hw.isSize hh.isSize hle
  · rintro style config rfl
    obtain ⟨p, hp, -⟩ := b.exists_toProgram style config bound hw hh hb ht
    exact ⟨p, hp, Buffer.drawnFrom_samplesOn hg hsamples hp⟩

/-- A wide image whose last row lies at the edge. -/
theorem wide_places_samples : IsCount 1000 ∧ IsCount 21 ∧ IsCount 8 ∧ IsCount targetMax ∧
    ∃ g, compute 1000 21 8 targetMax = .ok g ∧ ∀ b : Buffer, b.width = (1000 : Int) → b.height = (21 : Int) →
      ∃ samples, (b.samplesOn g).toList = .ok samples ∧ (∀ s ∈ samples, s.Bounds g 1000 21) ∧
        (max 1000 21 ≤ targetMax → ∀ s ∈ samples, s.StartsOn g) ∧
        ∀ (style : Style) (config : Option StyleConfig), (Buffer.configOr style config).baseStep = 8 →
          ∃ p, b.toProgram style config targetMax = .ok p ∧
            p.DrawnFrom style (Buffer.configOr style config) g.cellSize samples :=
  ⟨by decide, by decide, by decide, by decide,
    compute_places_samples 1000 21 8 targetMax (by decide) (by decide) (by decide) (by decide)⟩

end Grid

namespace Buffer

/-- Four columns and three rows of white, of which a bound of two pixels leaves two columns and one row. -/
def fourByThree : Buffer where
  width := 4
  height := 3
  bytes := Array.replicate 48 255
  size_eq := by decide

def fourByThreeGrid : Grid := ⟨4, 3, 0.5, 2, 1, 2, 1⟩

def fourByThreeSamples : List Sample :=
  [⟨0, 0, 255, 255, 255, 255, 0, 0⟩, ⟨2, 0, 255, 255, 255, 255, 1, 0⟩, ⟨0, 2, 255, 255, 255, 255, 0, 1⟩,
    ⟨2, 2, 255, 255, 255, 255, 1, 1⟩]

theorem gridFor_fourByThree : fourByThree.gridFor (configOr .pixels (some ⟨1, 128, false⟩)) 2 = .ok fourByThreeGrid := by
  rfl

theorem toList_fourByThree : (fourByThree.samplesOn fourByThreeGrid).toList = .ok fourByThreeSamples := by
  obtain ⟨samples, hsamples, heq⟩ := exists_ok_of_any (x := (fourByThree.samplesOn fourByThreeGrid).toList)
    (p := fun samples => samples = fourByThreeSamples) (by decide +kernel)
  rw [hsamples, of_decide_eq_true heq]

/-- **Cells can lie off the canvas**: the lower row of cells lies at one, where a canvas that is one pixel high has
ended, and it is drawn all the same. -/
theorem lower_row_off_canvas : Grid.IsCount 4 ∧ Grid.IsCount 3 ∧ Grid.IsCount 1 ∧ Grid.IsCount 2 ∧
    ∃ g samples p, Grid.compute 4 3 1 2 = .ok g ∧ g.scaledWidth = 2 ∧ g.scaledHeight = 1 ∧
      (fourByThree.samplesOn g).toList = .ok samples ∧ (∃ s ∈ samples, s.destX = 0 ∧ s.destY = 1 ∧ ¬ s.StartsOn g) ∧
      fourByThree.toProgram .pixels (some ⟨1, 128, false⟩) 2 = .ok p ∧
      .callInts "rect" [0, 1, 1, 1] ∈ p.statements := by
  obtain ⟨p, hp⟩ := exists_ok (x := fourByThree.toProgram .pixels (some ⟨1, 128, false⟩) 2) (by decide +kernel)
  obtain ⟨groups, hgroups, hstatements⟩ := drawnFrom_samplesOn gridFor_fourByThree toList_fourByThree hp
  have hlower : ∃ s ∈ fourByThreeSamples, s.destX = 0 ∧ s.destY = 1 ∧ ¬ s.StartsOn fourByThreeGrid :=
    ⟨⟨0, 2, 255, 255, 255, 255, 0, 1⟩, .tail _ (.tail _ (.head _)), rfl, rfl, fun hs => absurd hs.y.2 (by decide)⟩
  refine ⟨by decide, by decide, by decide, by decide, fourByThreeGrid, fourByThreeSamples, p, gridFor_fourByThree, rfl,
    rfl, toList_fourByThree, hlower, hp, ?_⟩
  rw [← mapM_eq_ok_iff_forall₂] at hgroups
  cases hgroups
  rw [hstatements]
  exact .tail _ (.tail _ (.tail _ (.tail _ (.tail _ (.head _)))))

end Buffer
end RasterSketch
