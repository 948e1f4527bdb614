import RasterSketch.Proofs.Fitting
import RasterSketch.Proofs.Scan.Points
/-!
# Cells side by side

The cells of a grid come to lie side by side on the canvas, each as wide as the cell size from where its coordinate
lies.  Were no product rounded, no line of the canvas between them would be bare.  With rounding one can be
(`Grid.default_grid_has_gap`): a coordinate is rounded down from a whole number and the next is rounded up to one.  That
is all that can happen (`Grid.compute_nearly_tiles`).
-/
namespace RasterSketch

open Magnitude

namespace Grid

/-- The coordinates of an axis of the given size that are visited. -/
def Visits (g : Grid) (size c : Int) : Prop := 0 ≤ c ∧ c < size ∧ g.step ∣ c

/-- The coordinate visited next, or the end of the axis. -/
def next (g : Grid) (size c : Int) : Int := min (c + g.step) size

/-- The cells of an axis leave no line of the canvas bare: none reaches less far than where the next one lies, and the
last reaches the end of the canvas. -/
def Tiles (g : Grid) (size extent : Int) : Prop :=
  g.place size = .ok extent ∧
    ∀ c, g.Visits size c → ∃ d n, g.place c = .ok d ∧ g.place (g.next size c) = .ok n ∧ n ≤ d + g.cellSize

/-- A line of the canvas is in some cell of an axis. -/
def Covers (g : Grid) (size p : Int) : Prop :=
  ∃ c d, g.Visits size c ∧ g.place c = .ok d ∧ d ≤ p ∧ p < d + g.cellSize

/-- Behind the line a cell is to end that the exact product would put before its end. -/
def RoundedUpBehind (g : Grid) (size p : Int) : Prop :=
  ∃ c, g.Visits size c ∧ g.place (g.next size c) = .ok (p + 1) ∧ (g.next size c : ℚ) * g.scale.value < p + 1

/-- The cells of an axis leave no line bare but for one where a coordinate is rounded up to a whole number. -/
structure NearlyTiles (g : Grid) (size extent : Int) : Prop where
  place_size : g.place size = .ok extent
  reaches : ∀ c, g.Visits size c → ∃ d n, g.place c = .ok d ∧ g.place (g.next size c) = .ok n ∧
    n ≤ d + g.cellSize + 1 ∧ ((n : ℚ) ≤ g.next size c * g.scale.value → n ≤ d + g.cellSize)
  covers : ∀ p, 0 ≤ p → p < extent → g.Covers size p ∨ g.RoundedUpBehind size p

/-! ## One axis -/

variable {w h base bound size extent c : Int} {g : Grid} {s m : Magnitude}

theorem floor_le_of_rounds {q : ℚ} (hr : Rounds q m) (h0 : 0 ≤ q) (hq : q ≤ 2 ^ 31) : ⌊m.value⌋ ≤ ⌊q⌋ + 1 := by
  have hfloor : ⌊q⌋ ≤ 2 ^ 31 := by exact_mod_cast (Int.floor_le _).trans hq
  have hfloor0 : 0 ≤ ⌊q⌋ := Int.floor_nonneg.2 h0
  have hv : IsValue ((⌊q⌋ + 1 : Int) : ℚ) := isValue_intCast (by omega) (by omega)
  have := hr.value_le hv (by push_cast; exact (Int.lt_floor_add_one q).le)
  exact_mod_cast (Int.floor_le _).trans this

theorem place_rounds (hg : g.scale = .finite false s) (hc : 0 ≤ c) (hc' : c < 2 ^ 53) (hle : c * s.value ≤ 2 ^ 31) :
    ∃ m, Rounds (c * s.value) m ∧ g.place c = .ok ⌊m.value⌋ := by
  obtain ⟨k, hk, hv⟩ := Double.ofInt_exact hc hc'
  rw [← hv] at hle ⊢
  obtain ⟨m, hm, hr⟩ := Double.scale_rounds hk isValue_limit hle
  refine ⟨m, hr, ?_⟩
  rw [place, hg, hm]
  exact Double.floor_finite m

/-- The exact product behind a cell size: not less than that of any part of the stride, and just that of the stride
unless the stride is past all coordinates. -/
structure Behind (g : Grid) (s : Magnitude) (y : ℚ) : Prop where
  part_le : ∀ e : Int, 0 ≤ e → e ≤ g.step → e < 2 ^ 53 → e * s.value ≤ y
  step_eq : g.step < 2 ^ 53 → y = g.step * s.value
  le_limit : y ≤ 2 ^ 31
  sub_le : y - y * 2 ^ (-53 : ℤ) ≤ g.cellSize

theorem Fitted.exists_behind (hf : Fitted w h base bound g s) (hb : IsCount base) (ht : IsCount bound) :
    ∃ y, g.Behind s y := by
  obtain ⟨z, m, hz, hge, hle, hm, hcell⟩ := hf.cell_product hb ht
  refine ⟨z.value * s.value, fun e h0 he h53 => ?_, fun h53 => ?_, hle, ?_⟩
  · exact mul_le_mul_of_nonneg_right (hz.le_value (isValue_intCast h0 h53) (by exact_mod_cast he)) s.value_nonneg
  · rw [hz.value_eq (isValue_intCast (by linarith [hf.step_pos]) h53)]
  · have herr := hm.abs_sub_le (le_trans (two_zpow_mono (by decide)) hge)
    have := Int.le_ceil m.value
    rw [hcell]
    linarith [abs_le.1 herr]

namespace Behind

variable {y : ℚ}

theorem nonneg (hy : g.Behind s y) (hstep : 1 ≤ g.step) : 0 ≤ y := by
  have := hy.part_le 0 le_rfl (by omega) (by decide)
  simpa using this

/-- A visited coordinate is the exact product as often as the stride goes into it. -/
theorem mul_value_eq (hy : g.Behind s y) (hstep : 1 ≤ g.step) (hsize : size < 2 ^ 31) (hc : g.Visits size c) :
    ∃ k : Int, 0 ≤ k ∧ c * s.value = k * y := by
  obtain ⟨hc0, hcs, k, rfl⟩ := hc
  have hk : 0 ≤ k := by
    by_contra hneg
    exact absurd hc0 (not_le.2 (Int.mul_neg_of_pos_of_neg (by omega) (by omega)))
  refine ⟨k, hk, ?_⟩
  rcases hk.eq_or_lt with rfl | hk
  · simp
  · have : g.step ≤ g.step * k := le_mul_of_one_le_right (by omega) hk
    rw [hy.step_eq (by omega)]
    push_cast
    ring

/-- Where the cell size is rounded down, so little is lost that as many cells are a pixel short at most. -/
theorem mul_sub_lt (hy : g.Behind s y) {k : Int} (hk : 0 ≤ k) (hle : k * y ≤ 2 ^ 31) :
    (k + 1) * (y - g.cellSize) < 1 := by
  have hk0 : (0 : ℚ) ≤ k := by exact_mod_cast hk
  have hloss := hy.sub_le
  have hlimit := hy.le_limit
  calc ((k : ℚ) + 1) * (y - g.cellSize) ≤ (k + 1) * (y * 2 ^ (-53 : ℤ)) :=
        mul_le_mul_of_nonneg_left (by linarith) (by linarith)
    _ = (k * y + y) * 2 ^ (-53 : ℤ) := by ring
    _ ≤ (2 ^ 31 + 2 ^ 31) * 2 ^ (-53 : ℤ) := mul_le_mul_of_nonneg_right (by linarith) (two_zpow_pos _).le
    _ < 1 := by norm_num

/-- Cells that are smaller than the exact product lie behind as many whole cells. -/
theorem mul_cellSize_le_floor (hy : g.Behind s y) (hstep : 1 ≤ g.step) {k : Int} (hk : 0 ≤ k) (hle : k * y ≤ 2 ^ 31)
    (hcell : g.cellSize ≤ y) (hr : Rounds (k * y) m) : k * g.cellSize ≤ ⌊m.value⌋ := by
  have hk0 : (0 : ℚ) ≤ k := by exact_mod_cast hk
  have hcell0 : 0 ≤ g.cellSize := by
    have hy0 := hy.nonneg hstep
    have : y * (2 : ℚ) ^ (-53 : ℤ) ≤ y := mul_le_of_le_one_right hy0 (by norm_num)
    have h0 : (0 : ℚ) ≤ g.cellSize := by linarith [hy.sub_le]
    exact_mod_cast h0
  have hproduct : ((k * g.cellSize : Int) : ℚ) ≤ k * y := by
    push_cast
    exact mul_le_mul_of_nonneg_left hcell hk0
  have hlimit : k * g.cellSize ≤ 2 ^ 31 := by exact_mod_cast hproduct.trans hle
  have hvalue : IsValue ((k * g.cellSize : Int) : ℚ) := isValue_intCast (mul_nonneg hk hcell0) (by omega)
  exact Int.le_floor.2 (hr.le_value hvalue hproduct)

end Behind

/-- **A cell reaches the whole number below the exact product of the next coordinate.** -/
theorem Fitted.floor_next_le (hf : Fitted w h base bound g s) (hb : IsCount base) (ht : IsCount bound)
    (hsize : size < 2 ^ 31) (hlt : size * s.value ≤ 2 ^ 31) (hc : g.Visits size c) (hr : Rounds (c * s.value) m) :
    ⌊(g.next size c : ℚ) * s.value⌋ ≤ ⌊m.value⌋ + g.cellSize := by
  obtain ⟨y, hy⟩ := hf.exists_behind hb ht
  have hstep := hf.step_pos
  obtain ⟨k, hk, hcy⟩ := hy.mul_value_eq hstep hsize hc
  obtain ⟨hc0, hcs, -⟩ := hc
  have hle : (k : ℚ) * y ≤ 2 ^ 31 := by
    rw [← hcy]
    exact (mul_le_mul_of_nonneg_right (by exact_mod_cast hcs.le) s.value_nonneg).trans hlt
  obtain ⟨e, he⟩ : ∃ e, g.next size c = c + e := ⟨g.next size c - c, by omega⟩
  have hpart : (e : ℚ) * s.value ≤ y := by
    unfold next at he
    exact hy.part_le e (by omega) (by omega) (by omega)
  rw [he, Int.cast_add, add_mul, hcy, Int.floor_le_iff, Int.cast_add]
  rw [hcy] at hr
  rcases le_or_gt ((e : ℚ) * s.value) g.cellSize with hcell | hcell
  · have := hr.lt_floor_add_one (hle.trans (by norm_num))
    linarith
  · -- a cell size rounded down: the coordinates before all lie as far as whole cells, and so does this one
    have hfloor : (k : ℚ) * g.cellSize ≤ ⌊m.value⌋ := by
      exact_mod_cast hy.mul_cellSize_le_floor hstep hk hle (hcell.le.trans hpart) hr
    have hshort := hy.mul_sub_lt hk hle
    linarith

theorem Fitted.reaches (hf : Fitted w h base bound g s) (hb : IsCount base) (ht : IsCount bound)
    (hsize : size < 2 ^ 31) (hlt : size * s.value ≤ 2 ^ 31) (hc : g.Visits size c) :
    ∃ d n, g.place c = .ok d ∧ g.place (g.next size c) = .ok n ∧
      n ≤ d + g.cellSize + 1 ∧ ((n : ℚ) ≤ g.next size c * g.scale.value → n ≤ d + g.cellSize) := by
  have hle : ∀ b : Int, b ≤ size → b * s.value ≤ 2 ^ 31 := fun b hb =>
    (mul_le_mul_of_nonneg_right (by exact_mod_cast hb) s.value_nonneg).trans hlt
  have hstep := hf.step_pos
  have hnext : 0 ≤ g.next size c ∧ g.next size c ≤ size := by
    obtain ⟨hc0, hcs, -⟩ := hc
    unfold next
    omega
  obtain ⟨m, hr, hm⟩ := place_rounds hf.scale_eq hc.1 (by linarith [hc.2.1]) (hle c hc.2.1.le)
  obtain ⟨n, hn, hmn⟩ := place_rounds hf.scale_eq hnext.1 (by linarith) (hle _ hnext.2)
  have hfloor := hf.floor_next_le hb ht hsize hlt hc hr
  have hup := floor_le_of_rounds hn (mul_nonneg (by exact_mod_cast hnext.1) s.value_nonneg) (hle _ hnext.2)
  refine ⟨_, _, hm, hmn, by omega, fun hexact => ?_⟩
  rw [value_of_scale hf.scale_eq] at hexact
  exact (Int.le_floor.2 hexact).trans hfloor

/-- From a cell that begins at a line or before it, the cells go on to the line. -/
theorem Fitted.covers_from (hf : Fitted w h base bound g s) (hb : IsCount base) (ht : IsCount bound)
    (hsize : size < 2 ^ 31) (hlt : size * s.value ≤ 2 ^ 31) (hend : g.place size = .ok extent) {p c d : Int}
    (hp : p < extent) (hc : g.Visits size c) (hd : g.place c = .ok d) (hdp : d ≤ p) :
    g.Covers size p ∨ g.RoundedUpBehind size p := by
  obtain ⟨d', n, hd', hn, hreach, hexact⟩ := hf.reaches hb ht hsize hlt hc
  obtain rfl : d = d' := Except.ok.inj (hd.symm.trans hd')
  have hstep := hf.step_pos
  rcases le_or_gt n p with hnp | hpn
  · -- the next coordinate is not the end of the axis, which lies behind the line
    have hne : g.next size c ≠ size := fun he => by
      rw [he, hend] at hn
      cases hn
      omega
    have hnext : g.next size c = c + g.step := by
      unfold next at hne ⊢
      omega
    rw [hnext] at hn hne
    have hv : g.Visits size (c + g.step) := by
      refine ⟨?_, ?_, dvd_add hc.2.2 dvd_rfl⟩
      · linarith [hc.1]
      · unfold next at hnext
        omega
    exact hf.covers_from hb ht hsize hlt hend hp hv hn hnp
  · rcases lt_or_ge p (d + g.cellSize) with hlt' | hge
    · exact .inl ⟨c, d, hc, hd, hdp, hlt'⟩
    · obtain rfl : n = p + 1 := by omega
      refine .inr ⟨c, hc, hn, ?_⟩
      by_contra hle
      have := hexact (by push_cast; exact not_lt.1 hle)
      omega
termination_by (size - c).toNat
decreasing_by
  have := hc.2.1
  omega

theorem Fitted.nearlyTiles (hf : Fitted w h base bound g s) (hb : IsCount base) (ht : IsCount bound)
    (hsize : IsCount size) (hlt : size * s.value < bound + 1) (hextent : g.place size = .ok extent) :
    g.NearlyTiles size extent := by
  have hle : size * s.value ≤ 2 ^ 31 := hlt.le.trans (by linarith [ht.cast.2])
  have hfirst : g.Visits size 0 := ⟨le_rfl, by linarith [hsize.1], dvd_zero _⟩
  have hzero : g.place 0 = .ok 0 := by
    obtain ⟨m, hr, hm⟩ := place_rounds (c := 0) hf.scale_eq le_rfl (by decide) (by norm_num)
    have hv : m.value = 0 := by
      have := hr.value_eq (by simpa using isValue_intCast (n := 0) le_rfl (by decide))
      simpa using this
    rw [hm, hv, Int.floor_zero]
  exact ⟨hextent, fun c hc => hf.reaches hb ht hsize.2 hle hc,
    fun p hp hpe => hf.covers_from hb ht hsize.2 hle hextent hpe hfirst hzero hp⟩

/-- **The cells of a grid leave no line of the canvas bare but for one where a coordinate is rounded up.** -/
theorem compute_nearly_tiles (w h base bound : Int) (hw : IsCount w) (hh : IsCount h) (hb : IsCount base)
    (ht : IsCount bound) : ∃ g, compute w h base bound = .ok g ∧
      g.NearlyTiles w g.scaledWidth ∧ g.NearlyTiles h g.scaledHeight := by
  obtain ⟨g, s, hg, hf⟩ := exists_fitted hw hh hb ht
  exact ⟨g, hg, hf.nearlyTiles hb ht hw hf.width_lt hf.scaledWidth_eq,
    hf.nearlyTiles hb ht hh hf.height_lt hf.scaledHeight_eq⟩

/-- An image of 8050 columns on the grid that is taken unless another is asked for. -/
theorem default_nearly_tiles : IsCount 8050 ∧ IsCount 21 ∧ IsCount 8 ∧ IsCount targetMax ∧
    ∃ g, compute 8050 21 8 targetMax = .ok g ∧ g.NearlyTiles 8050 g.scaledWidth ∧ g.NearlyTiles 21 g.scaledHeight :=
  ⟨by decide, by decide, by decide, by decide,
    compute_nearly_tiles 8050 21 8 targetMax (by decide) (by decide) (by decide) (by decide)⟩

/-- **Cells do not always tile**: column 322 lies at 15 and is eight wide, the next one lies at 24, and so line 23 of the
canvas is bare. -/
theorem default_grid_has_gap : IsCount 8050 ∧ IsCount 21 ∧ IsCount 8 ∧ IsCount targetMax ∧
    ∃ g, compute 8050 21 8 targetMax = .ok g ∧ ¬ g.Tiles 8050 g.scaledWidth ∧
      23 < g.scaledWidth ∧ ¬ g.Covers 8050 23 := by
  obtain ⟨g, hg⟩ := exists_ok (x := compute 8050 21 8 targetMax) (by decide +kernel)
  have hall : (compute 8050 21 8 targetMax).toOption.all (fun g => g.step == 161 && g.cellSize == 8 &&
      decide (23 < g.scaledWidth) && (g.place 322).toOption == some 15 && (g.place 483).toOption == some 24 &&
      (List.range 50).all fun k => (g.place (161 * k)).toOption.all fun d => decide (23 < d ∨ d + 8 ≤ 23)) = true := by
    decide +kernel
  rw [hg] at hall
  simp only [Except.toOption, Option.all_some, Bool.and_eq_true, beq_iff_eq, decide_eq_true_eq, List.all_eq_true,
    List.mem_range] at hall
  obtain ⟨⟨⟨⟨⟨hstep, hcell⟩, hwide⟩, hdown⟩, hup⟩, hbare⟩ := hall
  refine ⟨by decide, by decide, by decide, by decide, g, hg, fun htiles => ?_, hwide, ?_⟩
  · obtain ⟨d, n, hd, hn, hle⟩ := htiles.2 322 ⟨by decide, by decide, hstep ▸ by decide⟩
    have hnext : g.next 8050 322 = 483 := by rw [next, hstep]; decide
    rw [hnext] at hn
    rw [hd] at hdown
    rw [hn] at hup
    simp only [Option.some.injEq] at hdown hup
    omega
  · rintro ⟨c, d, ⟨hc0, hcs, hdvd⟩, hd, hle, hlt⟩
    rw [hstep] at hdvd
    obtain ⟨k, rfl⟩ := hdvd
    obtain ⟨k, rfl⟩ := Int.eq_ofNat_of_zero_le (by omega : 0 ≤ k)
    have hk := hbare k (by omega)
    rw [hd] at hk
    simp only [Option.all_some, decide_eq_true_eq] at hk
    omega

end Grid
end RasterSketch
