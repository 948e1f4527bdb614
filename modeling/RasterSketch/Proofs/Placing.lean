import Mathlib.Algebra.Order.Archimedean.Basic
import RasterSketch.Proofs.Density
import RasterSketch.Proofs.Number.Apart
import RasterSketch.Proofs.Tiling
/-!
# Cells in order

From a stride of two pixels of the canvas on, no two cells of a grid lie at one place, and the cells lie on the canvas
in the order in which they are visited (`Grid.compute_keeps_order`).  The stride is cut to a whole number of image
pixels, but never to less than one pixel of the canvas: where it is not cut to one, a power of two lies between the
inverse of the scale and twice that, and no rounding falls below it.  Places that are one pixel apart stay apart when
they are rounded.
-/
namespace RasterSketch

open Magnitude

/-- Before another sample of a scan, row after row and each row from the left: of the image, and of the canvas. -/
structure Sample.Precedes (s t : Sample) : Prop where
  source : s.sourceY < t.sourceY ∨ s.sourceY = t.sourceY ∧ s.sourceX < t.sourceX
  dest : s.destY < t.destY ∨ s.destY = t.destY ∧ s.destX < t.destX

def Sample.origin (s : Sample) : Int × Int := (s.destX, s.destY)

theorem Sample.nodup_origins {samples : List Sample} (h : samples.Pairwise Precedes) :
    (samples.map origin).Nodup := by
  refine List.pairwise_map.2 (h.imp fun {s t} hst heq => ?_)
  obtain ⟨hx, hy⟩ := Prod.mk.inj heq
  have := hst.dest
  omega

namespace Grid

/-- The coordinates of an axis that are visited lie one behind the other, each at a place of its own. -/
structure PlacesInOrder (g : Grid) (size : Int) : Prop where
  placed : ∀ c, g.Visits size c → ∃ d, g.place c = .ok d
  lt : ∀ c c' d d', g.Visits size c → g.Visits size c' → c < c' → g.place c = .ok d → g.place c' = .ok d' → d < d'

variable {w h base bound size c c' : Int} {g : Grid} {s : Magnitude}

/-! ## The stride on the canvas -/

/-- Between the inverse of a scale below one and twice that is a power of two. -/
theorem exists_two_pow (hlow : (2 : ℚ) ^ (-53 : ℤ) ≤ s.value) (hs1 : s.value < 1) :
    ∃ k : ℕ, 1 ≤ (2 : ℚ) ^ k * s.value ∧ (2 : ℚ) ^ k * s.value ≤ 2 ∧ IsValue ((2 : ℚ) ^ k) := by
  have hs0 : 0 < s.value := (two_zpow_pos _).trans_le hlow
  obtain ⟨k, hle, hlt⟩ := exists_nat_pow_near (one_le_one_div hs0 hs1.le) one_lt_two
  rw [le_div_iff₀ hs0] at hle
  rw [div_lt_iff₀ hs0] at hlt
  have hk : (k : ℤ) ≤ 53 := by
    have hpow : (2 : ℚ) ^ ((k : ℤ) + -53) ≤ 2 ^ (0 : ℤ) := by
      rw [two_zpow_add, zpow_natCast, zpow_zero]
      exact (mul_le_mul_of_nonneg_left hlow (by positivity)).trans hle
    rw [zpow_le_zpow_iff_right₀ one_lt_two] at hpow
    omega
  refine ⟨k + 1, hlt.le, by rw [pow_succ]; linarith, ?_⟩
  rw [← zpow_natCast]
  exact isValue_two_zpow (by omega) (by omega)

/-- **A stride is not less than a pixel of the canvas**, however it is cut. -/
theorem RoundedFrom.one_le_step_mul (hf : g.RoundedFrom w h base bound s) (hw : IsSize w) (hh : IsSize h)
    (ht : IsSize bound) (hbase : 2 ≤ base) : 1 ≤ g.step * s.value := by
  obtain ⟨hlow, -⟩ := hf.scale_bounds hw hh ht
  rcases le_or_gt 1 s.value with hs1 | hs1
  · have hstep : (1 : ℚ) ≤ g.step := by exact_mod_cast hf.step_pos
    exact hs1.trans (le_mul_of_one_le_left s.value_nonneg hstep)
  · obtain ⟨m, hm, hstep⟩ := hf.step
    obtain ⟨k, hone, htwo, hvalue⟩ := exists_two_pow hlow hs1
    have hquotient : (2 : ℚ) ^ k ≤ base / s.value := by
      rw [le_div_iff₀ ((two_zpow_pos _).trans_le hlow)]
      exact htwo.trans (by exact_mod_cast hbase)
    have hcut : (2 : ℚ) ^ k ≤ g.step := by
      have hfloor : (2 ^ k : ℤ) ≤ ⌊m.value⌋ := Int.le_floor.2 (by exact_mod_cast hm.le_value hvalue hquotient)
      rw [hstep]
      exact_mod_cast hfloor.trans (le_max_right _ _)
    exact hone.trans (mul_le_mul_of_nonneg_right hcut s.value_nonneg)

/-! ## One axis -/

theorem Visits.add_step_le (hc : g.Visits size c) (hc' : g.Visits size c') (hlt : c < c') : c + g.step ≤ c' := by
  have := Int.le_of_dvd (by omega) (dvd_sub hc'.2.2 hc.2.2)
  omega

/-- **Where the stride is a pixel of the canvas or more, places are kept apart** by the rounding of products too. -/
theorem placesInOrder (hscale : g.scale = .finite false s) (hone : 1 ≤ g.step * s.value) (hsize : size < 2 ^ 31)
    (hlt : size * s.value ≤ 2 ^ 31) : g.PlacesInOrder size := by
  have hplace : ∀ c, g.Visits size c → c * s.value ≤ 2 ^ 31 ∧
      ∃ m, Rounds (c * s.value) m ∧ g.place c = .ok ⌊m.value⌋ := by
    intro c hc
    have hle : c * s.value ≤ 2 ^ 31 :=
      (mul_le_mul_of_nonneg_right (by exact_mod_cast hc.2.1.le) s.value_nonneg).trans hlt
    exact ⟨hle, place_rounds hscale hc.1 (by linarith [hc.2.1]) hle⟩
  refine ⟨fun c hc => ?_, fun c c' d d' hc hc' hcc hd hd' => ?_⟩
  · obtain ⟨-, m, -, hm⟩ := hplace c hc
    exact ⟨_, hm⟩
  · obtain ⟨hle, m, hr, hm⟩ := hplace c hc
    obtain ⟨-, m', hr', hm'⟩ := hplace c' hc'
    have hapart : (c : ℚ) * s.value + 1 ≤ c' * s.value := by
      have hstep : ((c + g.step : Int) : ℚ) ≤ c' := by exact_mod_cast hc.add_step_le hc' hcc
      calc (c : ℚ) * s.value + 1 ≤ c * s.value + g.step * s.value := by linarith
        _ = (c + g.step : Int) * s.value := by push_cast; ring
        _ ≤ c' * s.value := mul_le_mul_of_nonneg_right hstep s.value_nonneg
    have hfloor := hr.floor_add_one_le hr' hapart (hle.trans_lt (by norm_num))
    obtain rfl := Except.ok.inj (hm.symm.trans hd)
    obtain rfl := Except.ok.inj (hm'.symm.trans hd')
    omega

end Grid

/-! ## The samples of a scan -/

theorem pairwise_of_forall₂ {α β : Type} {R : α → α → Prop} {S : α → β → Prop} {T : β → β → Prop} {as : List α}
    {bs : List β} (h : List.Forall₂ S as bs) (hR : as.Pairwise R)
    (hT : ∀ a ∈ as, ∀ a' ∈ as, ∀ b b', R a a' → S a b → S a' b' → T b b') : bs.Pairwise T := by
  rw [List.pairwise_iff_getElem] at hR ⊢
  intro i j hi hj hij
  have hi' : i < as.length := h.length_eq ▸ hi
  have hj' : j < as.length := h.length_eq ▸ hj
  exact hT _ (List.getElem_mem hi') _ (List.getElem_mem hj') _ _ (hR i j hi' hj' hij) (h.get hi' hi) (h.get hj' hj)

namespace Buffer

variable {b : Buffer} {g : Grid}

/-- The coordinates of a sample of a grid are visited, and lie at their places. -/
theorem IsSampleOf.visits {step first : Nat} (hstep : (step : Int) = g.step) (hs : 0 < step) {p : Nat × Nat}
    (hp : p ∈ b.cellsFrom step first) {s : Sample} (hps : b.IsSampleOf step (.real g.scale) p s) :
    (g.Visits b.width s.sourceX ∧ g.place s.sourceX = .ok s.destX) ∧
      g.Visits b.height s.sourceY ∧ g.place s.sourceY = .ok s.destY := by
  obtain ⟨gx, gy⟩ := p
  obtain ⟨-, hy, hx⟩ := (mem_cellsFrom hs).1 hp
  have hvisits : ∀ {k size : Nat}, k * step < size → g.Visits size ((k : Int) * step) := fun {k size} hk =>
    ⟨by positivity, by exact_mod_cast hk, hstep ▸ dvd_mul_left _ _⟩
  rw [hps.sourceX_eq, hps.sourceY_eq]
  exact ⟨⟨hvisits hx, Scan.placed_real_eq_ok.1 (Scan.placed_eq_ok.2 hps.destX_eq)⟩,
    hvisits hy, Scan.placed_real_eq_ok.1 (Scan.placed_eq_ok.2 hps.destY_eq)⟩

/-- The sample of a cell comes before that of a later cell, where places are in order. -/
theorem precedes_of_rowMajor {step : Nat} (hstep : (step : Int) = g.step) (hs : 0 < step)
    (hx : g.PlacesInOrder b.width) (hy : g.PlacesInOrder b.height) {first : Nat} {p q : Nat × Nat}
    (hp : p ∈ b.cellsFrom step first) (hq : q ∈ b.cellsFrom step first) {s t : Sample} (hlt : Scan.RowMajor p q)
    (hps : b.IsSampleOf step (.real g.scale) p s) (hqt : b.IsSampleOf step (.real g.scale) q t) : s.Precedes t := by
  obtain ⟨⟨hsx, hsx'⟩, hsy, hsy'⟩ := hps.visits hstep hs hp
  obtain ⟨⟨htx, htx'⟩, hty, hty'⟩ := hqt.visits hstep hs hq
  have hmul : ∀ {i j : Nat}, i < j → (i : Int) * step < j * step := fun hij => by
    exact_mod_cast Nat.mul_lt_mul_of_pos_right hij hs
  rcases hlt with hrow | ⟨hrow, hcolumn⟩
  · have hsource : s.sourceY < t.sourceY := by
      rw [hps.sourceY_eq, hqt.sourceY_eq]
      exact hmul hrow
    exact ⟨.inl hsource, .inl (hy.lt _ _ _ _ hsy hty hsource hsy' hty')⟩
  · have hsame : s.sourceY = t.sourceY := by rw [hps.sourceY_eq, hqt.sourceY_eq, hrow]
    have hsource : s.sourceX < t.sourceX := by
      rw [hps.sourceX_eq, hqt.sourceX_eq]
      exact hmul hcolumn
    rw [hsame] at hsy'
    exact ⟨.inr ⟨hsame, hsource⟩,
      .inr ⟨Except.ok.inj (hsy'.symm.trans hty'), hx.lt _ _ _ _ hsx htx hsource hsx' htx'⟩⟩

end Buffer

namespace Grid

/-- **Cells keep their order and never share a place**: on each axis of an image, and so in every scan of it, which has
the samples of all cells from its first row on. -/
theorem compute_keeps_order (w h base bound : Int) (hw : IsCount w) (hh : IsCount h) (hb : IsCount base)
    (hbase : 2 ≤ base) (ht : IsCount bound) : ∃ g, compute w h base bound = .ok g ∧
      g.PlacesInOrder w ∧ g.PlacesInOrder h ∧
      ∀ b : Buffer, b.width = w → b.height = h → ∀ first : Nat, ∃ cells samples,
        (∀ gx gy : Nat, (gx, gy) ∈ cells ↔ first ≤ gy ∧ gy * g.step < h ∧ gx * g.step < w) ∧
        (b.scan g.step (.real g.scale) first).toList = .ok samples ∧
        List.Forall₂ (b.IsSampleOf g.step (.real g.scale)) cells samples ∧ cells.Pairwise Scan.RowMajor ∧
        samples.Pairwise Sample.Precedes ∧ (samples.map Sample.origin).Nodup := by
  obtain ⟨g, s, hg, hf⟩ := exists_fitted hw hh hb ht
  obtain ⟨g', s', hg', hr⟩ := exists_roundedFrom hw.isSize hh.isSize hb.isSize ht.isSize
  obtain rfl := Except.ok.inj (hg.symm.trans hg')
  obtain rfl : s = s' := (Double.finite.inj (hf.scale_eq.symm.trans hr.scale_eq)).2
  have hone := hr.one_le_step_mul hw.isSize hh.isSize ht.isSize hbase
  have hlimit : (bound : ℚ) + 1 ≤ 2 ^ 31 := ht.cast.2
  have hx := placesInOrder hf.scale_eq hone hw.2 (hf.width_lt.le.trans hlimit)
  have hy := placesInOrder hf.scale_eq hone hh.2 (hf.height_lt.le.trans hlimit)
  refine ⟨g, hg, hx, hy, fun b hbw hbh first => ?_⟩
  subst hbw hbh
  obtain ⟨step, hstep⟩ := Int.eq_ofNat_of_zero_le (by linarith [hf.step_pos] : 0 ≤ g.step)
  have hs : 0 < step := by
    have := hf.step_pos
    omega
  have hwidth : b.width < 2 ^ 31 := by exact_mod_cast hw.2
  have hheight : b.height < 2 ^ 31 := by exact_mod_cast hh.2
  have hscale := (hr.scale_bounds hw.isSize hh.isSize ht.isSize).2
  have hvisits : ∀ c, b.Visits step first c → Scan.HasProduct (.real g.scale) c := fun _ hc =>
    Buffer.hasProduct_of_visits hf.scale_eq hscale (by omega) (by omega) hc
  obtain ⟨samples, hsamples, hcells⟩ := Buffer.toList_scan_cells hs (by omega) (by omega) hvisits
  have hrows : (b.cellsFrom step first).Pairwise Scan.RowMajor := Scan.pairwise_gridCells _ _ _
  have hpairwise : samples.Pairwise Sample.Precedes :=
    pairwise_of_forall₂ hcells hrows fun p hp q hq _ _ hlt hps hqt =>
      Buffer.precedes_of_rowMajor hstep.symm hs hx hy hp hq hlt hps hqt
  refine ⟨b.cellsFrom step first, samples, fun gx gy => ?_, by rw [hstep]; exact hsamples, by rw [hstep]; exact hcells,
    hrows, hpairwise, Sample.nodup_origins hpairwise⟩
  rw [Buffer.mem_cellsFrom hs, hstep]
  exact_mod_cast Iff.rfl

/-- An image that is one pixel too wide for its canvas, on the grid with the smallest stride. -/
theorem narrow_keeps_order : IsCount 401 ∧ IsCount 21 ∧ IsCount 2 ∧ (2 : Int) ≤ 2 ∧ IsCount targetMax ∧
    ∃ g, compute 401 21 2 targetMax = .ok g ∧ g.PlacesInOrder 401 ∧ g.PlacesInOrder 21 ∧
      ∀ b : Buffer, b.width = (401 : Int) → b.height = (21 : Int) → ∀ first : Nat, ∃ cells samples,
        (∀ gx gy : Nat, (gx, gy) ∈ cells ↔ first ≤ gy ∧ gy * g.step < 21 ∧ gx * g.step < 401) ∧
        (b.scan g.step (.real g.scale) first).toList = .ok samples ∧
        List.Forall₂ (b.IsSampleOf g.step (.real g.scale)) cells samples ∧ cells.Pairwise Scan.RowMajor ∧
        samples.Pairwise Sample.Precedes ∧ (samples.map Sample.origin).Nodup :=
  ⟨by decide, by decide, by decide, by decide, by decide,
    compute_keeps_order 401 21 2 targetMax (by decide) (by decide) (by decide) (by decide) (by decide)⟩

end Grid
end RasterSketch
