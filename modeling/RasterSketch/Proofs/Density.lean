import RasterSketch.Proofs.Fields
import RasterSketch.Proofs.Scan.Restart
/-!
# How many cells a grid has

The cells of a grid are bounded by the canvas alone: however large an image is, its grid has no more columns and rows
than twice the bound holds strides, and one more (`Grid.compute_bounds_cells`).  A stride is cut to a whole number, which
takes less than half of it unless it is one; then the scale is more than half a stride, so that the longer side has no
more than two columns for a stride of the canvas.  A program has at most three statements for each cell.
-/
namespace RasterSketch

open Magnitude

namespace Grid

variable {w h base bound n : Int} {g : Grid} {s m : Magnitude}

/-! ## The longer side -/

/-- A stride that is cut to one: the scale is more than half of it. -/
theorem longer_mul_lt_of_stride_lt_two (hb : IsSize base) (hn : IsSize n) (hs : Rounds (bound / n) s) (hs0 : 0 < s.value)
    (hm : Rounds (base / s.value) m) (hlt : m.value < 2) : (n : ℚ) * base ≤ 2 * bound := by
  by_contra hlt'
  have hscale : s.value ≤ base / 2 := by
    refine hs.value_le (isValue_half (by linarith [hb.1]) hb.2) ?_
    rw [div_le_div_iff₀ hn.pos two_pos]
    linarith
  have htwo : ((2 : Int) : ℚ) ≤ base / s.value := by
    rw [le_div_iff₀ hs0]
    push_cast
    linarith
  have := hm.le_value (isValue_intCast (by decide) (by decide)) htwo
  push_cast at this
  linarith

/-- A stride that is cut to two or more: it is less than half as much again. -/
theorem le_twice_of_nearly {q y : ℚ} {k : Int} (h : Nearly 2 q y) (hk : 2 ≤ k) (hy : y < k + 1) : q ≤ 2 * k := by
  have hkept : (3 / 4 : ℚ) ≤ kept ^ 2 := by norm_num [kept]
  have hk' : (2 : ℚ) ≤ k := by exact_mod_cast hk
  have hq : q * (3 / 4) ≤ q * kept ^ 2 := mul_le_mul_of_nonneg_left hkept h.pos.le
  linarith [h.le]

/-- **The longer side has at most twice the strides that the bound has.** -/
theorem RoundedFrom.longer_mul_le (hf : g.RoundedFrom w h base bound s) (hw : IsSize w) (hh : IsSize h)
    (hb : IsSize base) (ht : IsSize bound) : max w h * base ≤ 2 * bound * g.step := by
  obtain ⟨m, hm, hstep⟩ := hf.step
  have hs0 : 0 < s.value := (two_zpow_pos _).trans_le (hf.scale_bounds hw hh ht).1
  have hexact : ((max w h : Int) : ℚ) * base ≤ 2 * bound * g.step := by
    by_cases hone : ⌊m.value⌋ ≤ 1
    · have hlt : m.value < 2 := by
        have : (⌊m.value⌋ : ℚ) ≤ 1 := by exact_mod_cast hone
        linarith [Int.lt_floor_add_one m.value]
      rw [hstep, max_eq_left hone, Int.cast_one, mul_one]
      exact longer_mul_lt_of_stride_lt_two hb (hw.max hh) hf.scale hs0 hm hlt
    · have htwo : 2 ≤ ⌊m.value⌋ := by omega
      have hle := le_twice_of_nearly (hf.stride_nearly hw hh ht hb hm) htwo (Int.lt_floor_add_one m.value)
      rw [div_le_iff₀ ht.pos] at hle
      have hcut : max 1 ⌊m.value⌋ = ⌊m.value⌋ := by omega
      rw [hstep, hcut]
      linarith
  exact_mod_cast hexact

/-- The columns of a side that is not longer than it may be. -/
theorem ceil_div_step_le (hb : 1 ≤ base) (hstep : 1 ≤ g.step) (hle : n * base ≤ 2 * bound * g.step) :
    ⌈(n : ℚ) / g.step⌉ ≤ 2 * bound / base + 1 := by
  have hstep' : (0 : ℚ) < g.step := by exact_mod_cast hstep
  rw [Int.ceil_le, div_le_iff₀ hstep']
  have hbound : 2 * bound < (2 * bound / base + 1) * base := Int.lt_ediv_add_one_mul_self _ (by omega)
  have hcolumns : n * base ≤ (2 * bound / base + 1) * g.step * base := by
    calc n * base ≤ 2 * bound * g.step := hle
      _ ≤ (2 * bound / base + 1) * base * g.step := mul_le_mul_of_nonneg_right hbound.le (by omega)
      _ = (2 * bound / base + 1) * g.step * base := by ring
  exact_mod_cast le_of_mul_le_mul_right hcolumns (by omega)

/-! ## Cells -/

/-- The cells are counted exactly, although each side is divided with a rounding. -/
theorem countCells_eq {step : Int} (hw : 0 ≤ w) (hw' : w < 2 ^ 53) (hh : 0 ≤ h) (hh' : h < 2 ^ 53) (hs : 1 ≤ step)
    (hs' : step < 2 ^ 1024) : countCells w h step = .ok (⌈(h : ℚ) / step⌉ * ⌈(w : ℚ) / step⌉) := by
  have hside : ∀ n : Int, 0 ≤ n → n < 2 ^ 53 → ceilQuotient n step = .ok ⌈(n : ℚ) / step⌉ := by
    intro n h0 h1
    obtain ⟨n, rfl⟩ := Int.eq_ofNat_of_zero_le h0
    obtain ⟨step, rfl⟩ := Int.eq_ofNat_of_zero_le (by omega : 0 ≤ step)
    exact ceilQuotient_eq (by exact_mod_cast h1) (by omega) (by exact_mod_cast hs')
  unfold countCells
  rw [hside h hh hh', hside w hw hw']
  rfl

end Grid

/-! ## Samples -/

theorem Scan.length_gridCells (columns first rows : Nat) : (gridCells columns first rows).length = rows * columns := by
  simp [gridCells, List.length_flatMap]

namespace Buffer

variable {b : Buffer} {g : Grid}

theorem cells_eq_ceil_div (hs : 1 ≤ g.step) (n : Nat) :
    ((Scan.cells n g.step.toNat : Nat) : Int) = ⌈(n : ℚ) / g.step⌉ := by
  have hnonneg : (0 : ℚ) ≤ n / g.step := div_nonneg (Nat.cast_nonneg n) (by exact_mod_cast (by omega : 0 ≤ g.step))
  rw [cells_eq_ceil_step hs, Int.natCast_ceil_eq_ceil hnonneg]

/-- The coordinates on the way of a scan have products with a scale that is not too large. -/
theorem hasProduct_of_visits {s : Magnitude} (hscale : g.scale = .finite false s) (hs : s.value ≤ 2 ^ (53 : ℤ))
    (hw : b.width < 2 ^ 53) (hh : b.height < 2 ^ 53) {step first : Nat} {c : Int} (hc : b.Visits step first c) :
    Scan.HasProduct (.real g.scale) c := by
  have hrange : 0 ≤ c ∧ c < 2 ^ 53 := by
    obtain ⟨gy, -, hy, rfl | ⟨gx, hx, rfl⟩⟩ := hc
    · exact ⟨by positivity, by omega⟩
    · exact ⟨by positivity, by omega⟩
  obtain ⟨m, hm, -⟩ := Grid.scaled_rounds hs hrange.1 hrange.2
  exact ⟨.real (.finite false m), by rw [hscale, Number.scale, hm]; rfl, rfl⟩

section

variable {s : Magnitude} (hscale : g.scale = .finite false s) (hs : s.value ≤ 2 ^ (53 : ℤ)) (hstep : 1 ≤ g.step)
  (hw : b.width < 2 ^ 53) (hh : b.height < 2 ^ 53)

include hscale hs hstep hw hh

/-- The scan of a buffer on a grid runs to its end, if the scale is not too large, and gives a sample for each cell. -/
theorem exists_samplesOn_cells : ∃ samples, (b.samplesOn g).toList = .ok samples ∧
    List.Forall₂ (b.IsSampleOf g.step.toNat (.real g.scale)) (b.cellsFrom g.step.toNat 0) samples := by
  have hcast : ((g.step.toNat : Nat) : Int) = g.step := Int.toNat_of_nonneg (by omega)
  have hvisits : ∀ c, b.Visits g.step.toNat (0 : Nat) c → Scan.HasProduct (.real g.scale) c := fun _ hc =>
    hasProduct_of_visits hscale hs hw hh hc
  obtain ⟨samples, hsamples, hcells⟩ := toList_scan_cells (by omega : 0 < g.step.toNat) (by omega) (by omega) hvisits
  refine ⟨samples, ?_, hcells⟩
  rw [hcast] at hsamples
  exact hsamples

theorem exists_samplesOn : ∃ samples, (b.samplesOn g).toList = .ok samples ∧
    (samples.length : Int) = ⌈(b.height : ℚ) / g.step⌉ * ⌈(b.width : ℚ) / g.step⌉ := by
  obtain ⟨samples, hsamples, hcells⟩ := exists_samplesOn_cells hscale hs hstep hw hh
  refine ⟨samples, hsamples, ?_⟩
  rw [← hcells.length_eq, cellsFrom, Scan.length_gridCells, Nat.sub_zero, Nat.cast_mul, cells_eq_ceil_div hstep,
    cells_eq_ceil_div hstep]

end

end Buffer

/-! ## Statements -/

/-- There are at most so many statements, if what is drawn is there. -/
def Statement.AtMost (n : Nat) (drawing : Except Error (List Statement)) : Prop :=
  ∀ ss, drawing = .ok ss → ss.length ≤ n

namespace Statement.AtMost

variable {α : Type} {n : Nat}

theorem ok {ss : List Statement} (h : ss.length ≤ n) : AtMost n (.ok ss) := fun _ heq => by cases heq; exact h

theorem bind {x : Except Error α} {f : α → Except Error (List Statement)} (h : ∀ a, AtMost n (f a)) :
    AtMost n (x >>= f) := fun ss heq => by
  obtain ⟨a, -, ha⟩ := bind_eq_ok.1 heq
  exact h a ss ha

theorem length_flatten {f : α → Except Error (List Statement)} (h : ∀ a, AtMost n (f a)) :
    ∀ {l : List α} {groups : List (List Statement)}, l.mapM f = .ok groups → groups.flatten.length ≤ n * l.length
  | [], groups, hg => by
    cases hg
    simp
  | a :: l, groups, hg => by
    rw [List.mapM_cons] at hg
    obtain ⟨group, ha, hg⟩ := bind_eq_ok.1 hg
    obtain ⟨rest, hrest, hg⟩ := bind_eq_ok.1 hg
    cases hg
    have hfirst := h a group ha
    have hothers := length_flatten h hrest
    rw [List.flatten_cons, List.length_append, List.length_cons, Nat.mul_add, Nat.mul_one]
    omega

end Statement.AtMost

open Statement (AtMost)

theorem Style.emit_atMost (style : Style) (c : Cell) : AtMost 3 (style.emit c) := by
  cases style with
  | pixels => exact .ok (by simp [Cell.pixels])
  | circles => exact .bind fun ⟨_, _⟩ => .ok (by simp)
  | triangles => exact .bind fun _ => .bind fun _ => .ok (by simp)
  | lines => exact .bind fun _ => .bind fun _ => .bind fun _ => .ok (by simp)
  | dots => exact .bind fun ⟨_, _⟩ => .ok (by simp)
  | ascii => exact .bind fun ⟨_, _⟩ => .bind fun _ => .bind fun _ => .ok (by simp)
  | psychedelic => exact .bind fun ⟨_, _⟩ => .bind fun _ => .bind fun _ => .ok (by simp)
  | statue => exact .bind fun _ => .ok (by simp)
  | animation => exact .bind fun ⟨_, _⟩ => .ok (by simp)

theorem Style.draw_atMost (style : Style) (config : StyleConfig) (cellSize : Int) (s : Sample) :
    AtMost 3 (style.draw config cellSize s) := by
  unfold draw
  split
  · exact .bind fun c => style.emit_atMost c
  · exact .ok (by simp)

namespace Buffer

theorem length_statements_le {b : Buffer} {style : Style} {config : Option StyleConfig} {bound : Int} {p : Program}
    {g : Grid} (hg : b.gridFor (configOr style config) bound = .ok g)
    (hp : b.toProgram style config bound = .ok p) :
    (p.statements.length : Int) ≤ 3 * (⌈(b.height : ℚ) / g.step⌉ * ⌈(b.width : ℚ) / g.step⌉) := by
  obtain ⟨grid, frame, groups, hgrid, -, hgroups, rfl⟩ := of_toProgram hp
  obtain rfl : g = grid := Except.ok.inj (hg.symm.trans hgrid)
  have hlength := AtMost.length_flatten (fun point => .bind fun s => style.draw_atMost _ _ s) hgroups
  rw [Scan.length_gridPoints] at hlength
  have hstep := (Grid.step_bounds hg).1
  rw [← cells_eq_ceil_div hstep, ← cells_eq_ceil_div hstep]
  exact_mod_cast hlength

end Buffer

/-! ## The bound -/

namespace Grid

/-- A grid whose columns and rows are bounded by the canvas, whatever the image: so are its cells, the samples of a scan
and those of them that a style accepts, and the statements that draw them. -/
structure Sparse (w h base bound : Int) (g : Grid) : Prop where
  columns_le : ⌈(w : ℚ) / g.step⌉ ≤ 2 * bound / base + 1
  rows_le : ⌈(h : ℚ) / g.step⌉ ≤ 2 * bound / base + 1
  cells_le : ∃ n, countCells w h g.step = .ok n ∧ n ≤ (2 * bound / base + 1) ^ 2
  samples_le : ∀ b : Buffer, b.width = w → b.height = h → ∃ samples, (b.samplesOn g).toList = .ok samples ∧
    countCells w h g.step = .ok samples.length ∧ (samples.length : Int) ≤ (2 * bound / base + 1) ^ 2 ∧
    ∀ config : StyleConfig, ((samples.filter config.accepts).length : Int) ≤ (2 * bound / base + 1) ^ 2
  statements_le : ∀ (b : Buffer) (style : Style) (config : Option StyleConfig) (p : Program), b.width = w →
    b.height = h → (Buffer.configOr style config).baseStep = base → b.toProgram style config bound = .ok p →
    (p.statements.length : Int) ≤ 3 * (2 * bound / base + 1) ^ 2

/-- **The cells of a grid are bounded by the canvas**, however large the image. -/
theorem compute_bounds_cells (w h base bound : Int) (hw : IsSize w) (hh : IsSize h) (hb : IsSize base)
    (ht : IsSize bound) : ∃ g, compute w h base bound = .ok g ∧ g.Sparse w h base bound := by
  obtain ⟨g, s, hg, hf⟩ := exists_roundedFrom hw hh hb ht
  obtain ⟨hstep, hstep'⟩ := step_bounds hg
  have hlonger := hf.longer_mul_le hw hh hb ht
  have hside : ∀ n : Int, n ≤ max w h → ⌈(n : ℚ) / g.step⌉ ≤ 2 * bound / base + 1 := fun n hn =>
    ceil_div_step_le hb.1 hstep ((mul_le_mul_of_nonneg_right hn (by linarith [hb.1])).trans hlonger)
  have hcolumns := hside w (le_max_left w h)
  have hrows := hside h (le_max_right w h)
  have hcount := countCells_eq (by linarith [hw.1]) hw.2 (by linarith [hh.1]) hh.2 hstep hstep'
  have hnonneg : ∀ n : Int, IsSize n → 0 ≤ ⌈(n : ℚ) / g.step⌉ := fun n hn =>
    Int.ceil_nonneg (div_nonneg hn.pos.le (by exact_mod_cast (by omega : 0 ≤ g.step)))
  have hcells : ⌈(h : ℚ) / g.step⌉ * ⌈(w : ℚ) / g.step⌉ ≤ (2 * bound / base + 1) ^ 2 := by
    rw [sq]
    exact mul_le_mul hrows hcolumns (hnonneg w hw) ((hnonneg h hh).trans hrows)
  refine ⟨g, hg, hcolumns, hrows, ⟨_, hcount, hcells⟩, ?_, ?_⟩
  · rintro b rfl rfl
    obtain ⟨samples, hsamples, hlength⟩ := Buffer.exists_samplesOn hf.scale_eq (hf.scale_bounds hw hh ht).2 hstep
      (by exact_mod_cast hw.2) (by exact_mod_cast hh.2)
    have hle : (samples.length : Int) ≤ (2 * bound / base + 1) ^ 2 := by
      rw [hlength]
      exact_mod_cast hcells
    refine ⟨samples, hsamples, ?_, hle, fun config => ?_⟩
    · rw [hlength, hcount]
      rfl
    · have := List.length_filter_le config.accepts samples
      omega
  · rintro b style config p rfl rfl rfl hp
    have hlength := Buffer.length_statements_le hg hp
    push_cast at hcells
    linarith

/-- A grid of the densest kind: a stride that is just not two. -/
theorem wide_bounds_cells : IsSize 1599 ∧ IsSize 1 ∧ IsSize 1 ∧ IsSize 800 ∧
    ∃ g, compute 1599 1 1 800 = .ok g ∧ g.Sparse 1599 1 1 800 :=
  ⟨by decide, by decide, by decide, by decide,
    compute_bounds_cells 1599 1 1 800 (by decide) (by decide) (by decide) (by decide)⟩

end Grid
end RasterSketch
