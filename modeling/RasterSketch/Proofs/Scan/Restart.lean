import RasterSketch.Proofs.Drawing
/-!
# Scans that begin at a row

A scan visits just the cells of its grid that are in the buffer, from its first row on, and gives for each the very
pixel that lies there; so a scan that begins at a later row is what is left of the whole scan behind the rows before
(`Buffer.scan_from_row`).  A coordinate has to have a place on the canvas for that: where a product is no number, or
too large for one, there is no sample.
-/
namespace RasterSketch

def Number.isFinite : Number → Bool
  | .int _ => true
  | .real x => x.isFinite

namespace Scan

/-- The cells of so many rows of a grid from `first` on, by column and row. -/
def gridCells (columns first rows : Nat) : List (Nat × Nat) :=
  (List.range' first rows).flatMap fun gy => (List.range columns).map fun gx => (gx, gy)

/-- Row after row, and each row from the left. -/
def RowMajor (p q : Nat × Nat) : Prop := p.2 < q.2 ∨ p.2 = q.2 ∧ p.1 < q.1

theorem mem_gridCells {columns first rows gx gy : Nat} :
    (gx, gy) ∈ gridCells columns first rows ↔ gx < columns ∧ first ≤ gy ∧ gy < first + rows := by
  unfold gridCells
  simp only [List.mem_flatMap, List.mem_map, List.mem_range'_1, List.mem_range, Prod.mk.injEq]
  constructor
  · rintro ⟨y, hy, x, hx, rfl, rfl⟩
    exact ⟨hx, hy⟩
  · rintro ⟨hx, hy⟩
    exact ⟨gy, hy, gx, hx, rfl, rfl⟩

theorem pairwise_gridCells (columns : Nat) : ∀ rows first : Nat, (gridCells columns first rows).Pairwise RowMajor
  | 0, _ => List.Pairwise.nil
  | rows + 1, first => by
    have hcons : gridCells columns first (rows + 1) =
        ((List.range columns).map fun gx => (gx, first)) ++ gridCells columns (first + 1) rows := by
      rw [gridCells, List.range'_succ, List.flatMap_cons]
      rfl
    rw [hcons, List.pairwise_append]
    refine ⟨?_, pairwise_gridCells columns rows (first + 1), ?_⟩
    · rw [List.pairwise_map]
      exact List.pairwise_lt_range.imp fun h => .inr ⟨rfl, h⟩
    · rintro ⟨gx, gy⟩ hp ⟨gx', gy'⟩ hq
      obtain ⟨x, -, hxy⟩ := List.mem_map.1 hp
      cases hxy
      exact .inl (mem_gridCells.1 hq).2.1

theorem gridPoints_eq_map (columns step first rows : Nat) : gridPoints columns step first rows =
    (gridCells columns first rows).map fun p => (p.1 * step, ((p.2 * step : Nat) : Int)) := by
  unfold gridPoints gridCells rowPoints
  rw [List.map_flatMap]
  simp only [List.map_map, Function.comp_def]

/-! ## Rows left out -/

theorem toList_append_eq_ok {ε α : Type} {d : Delivery ε α} {d' : Unit → Delivery ε α} {as : List α} :
    (d.append d').toList = .ok as ↔ ∃ xs ys, d.toList = .ok xs ∧ (d' ()).toList = .ok ys ∧ as = xs ++ ys := by
  unfold Delivery.toList
  rw [Delivery.failure_append, Delivery.items_append]
  cases d.failure with
  | some e => exact ⟨fun h => (by cases h), fun ⟨_, _, h, _⟩ => (by cases h)⟩
  | none =>
    cases (d' ()).failure with
    | some e => exact ⟨fun h => (by cases h), fun ⟨_, _, _, h, _⟩ => (by cases h)⟩
    | none =>
      exact ⟨fun h => ⟨_, _, rfl, rfl, (Except.ok.inj h).symm⟩,
        fun ⟨_, _, hx, hy, h⟩ => by cases hx; cases hy; rw [h]; rfl⟩

theorem length_row {b : Buffer} {step : Nat} {scale : Number} {y : Int} {samples : List Sample}
    (h : (row b step scale y).toList = .ok samples) : samples.length = cells b.width step := by
  unfold row at h
  cases hr : rowAt b scale y with
  | error e => rw [hr] at h; cases h
  | ok p =>
    rw [hr] at h
    dsimp only at h
    rw [Delivery.toList_traverse] at h
    rw [(mapM_eq_ok.1 h).2, List.length_map, List.length_range]

/-- A scan from the next row on is without the samples of one row. -/
theorem toList_rowsFrom_add {b : Buffer} {step : Nat} (hs : 0 < step) {scale : Number} {y : Int} {samples : List Sample}
    (h : (rowsFrom b step hs scale y).toList = .ok samples) :
    (rowsFrom b step hs scale (y + step)).toList = .ok (samples.drop (cells b.width step)) := by
  rw [rowsFrom] at h
  split at h
  · obtain ⟨xs, ys, hx, hy, rfl⟩ := toList_append_eq_ok.1 h
    rw [hy, ← length_row hx, List.drop_left]
  · rename_i hlt
    cases h
    rw [rowsFrom, if_neg (by omega)]
    exact congrArg Except.ok List.drop_nil.symm

theorem toList_rowsFrom_mul {b : Buffer} {step : Nat} (hs : 0 < step) {scale : Number} {samples : List Sample}
    (h : (rowsFrom b step hs scale 0).toList = .ok samples) : ∀ k : Nat,
    (rowsFrom b step hs scale (k * step)).toList = .ok (samples.drop (k * cells b.width step))
  | 0 => by simpa using h
  | k + 1 => by
    have hk := toList_rowsFrom_add hs (toList_rowsFrom_mul hs h k)
    rw [List.drop_drop] at hk
    have hy : ((k + 1 : Nat) : Int) * step = k * step + step := by push_cast; ring
    rw [hy, hk, Nat.add_mul, Nat.one_mul]

/-- A buffer without columns gives nothing, if its rows have places. -/
theorem rowsFrom_of_no_columns {b : Buffer} {step : Nat} (hs : 0 < step) (hw : b.width = 0) {scale : Number} (y : Int)
    (hrow : ∀ k : Nat, y + k * step < b.height → ∃ r, rowAt b scale (y + k * step) = .ok r) :
    rowsFrom b step hs scale y = .finished := by
  rw [rowsFrom]
  split
  · rename_i hlt
    obtain ⟨⟨destY, r⟩, hr⟩ := hrow 0 (by simpa using hlt)
    rw [Nat.cast_zero, Int.zero_mul, Int.add_zero] at hr
    rw [row, hr, hw, cells_zero hs]
    refine rowsFrom_of_no_columns hs hw (y + step) fun k hk => ?_
    have hshift : y + step + k * step = y + ((k + 1 : Nat) : Int) * step := by push_cast; ring
    rw [hshift] at hk ⊢
    exact hrow (k + 1) hk
  · rfl
termination_by (b.height - y).toNat

/-! ## Samples of cells -/

/-- The product of a coordinate with the scale is a number, and not too large for one. -/
def HasProduct (scale : Number) (c : Int) : Prop := ∃ v, scale.scale c = .ok v ∧ v.isFinite = true

theorem HasProduct.placed {scale : Number} {c : Int} (h : HasProduct scale c) : ∃ d, placed scale c = .ok d := by
  obtain ⟨v, hv, hf⟩ := h
  have hfloor : ∃ d, v.floor = .ok d := by
    match v, hf with
    | .int n, _ => exact ⟨n, rfl⟩
    | .real (.finite s m), _ => exact ⟨_, rfl⟩
  obtain ⟨d, hd⟩ := hfloor
  exact ⟨d, placed_eq_ok.2 (bind_eq_ok.2 ⟨v, hv, hd⟩)⟩

end Scan

namespace Buffer

/-- The coordinates that a scan from a row on comes by: those of its rows, and where there are rows those of its
columns. -/
def Visits (b : Buffer) (step first c : Int) : Prop :=
  ∃ gy : Nat, first ≤ gy ∧ gy * step < b.height ∧ (c = gy * step ∨ ∃ gx : Nat, gx * step < b.width ∧ c = gx * step)

/-- The sample of a cell: where its pixel is, the channels of that pixel, and where its coordinates lie, scaled and cut
to whole numbers. -/
structure IsSampleOf (b : Buffer) (step : Int) (scale : Number) (cell : Nat × Nat) (s : Sample) : Prop where
  sourceX_eq : s.sourceX = cell.1 * step
  sourceY_eq : s.sourceY = cell.2 * step
  channels : ∃ p, b.pixel (cell.1 * step) (cell.2 * step) = .ok p ∧
    s.r = p.r.toNat ∧ s.g = p.g.toNat ∧ s.b = p.b.toNat ∧ s.a = p.a.toNat
  destX_eq : (scale.scale (cell.1 * step) >>= Number.floor) = .ok s.destX
  destY_eq : (scale.scale (cell.2 * step) >>= Number.floor) = .ok s.destY

theorem samplePoint_of_cell {b : Buffer} {step : Nat} {scale : Number} (hw : b.width ≤ 2 ^ 63) (hh : b.height ≤ 2 ^ 63)
    {gx gy : Nat} (hx : gx * step < b.width) (hy : gy * step < b.height)
    (hpx : Scan.HasProduct scale (gx * step : Nat)) (hpy : Scan.HasProduct scale (gy * step : Nat)) :
    ∃ s, Scan.samplePoint b scale (gx * step, ((gy * step : Nat) : Int)) = .ok s ∧ b.IsSampleOf step scale (gx, gy) s := by
  obtain ⟨destX, hdx⟩ := hpx.placed
  obtain ⟨destY, hdy⟩ := hpy.placed
  refine ⟨_, (Scan.samplePoint_eq_ok hy).2 ⟨destX, destY, checkIndex_of_lt hy hh, hdx, hdy, rfl⟩, ?_⟩
  refine ⟨by push_cast; rfl, by push_cast; rfl, ⟨b.pixelAt (gx * step) (gy * step), ?_, rfl, rfl, rfl, rfl⟩, ?_, ?_⟩
  · exact_mod_cast pixel_natCast hx hy hw hh
  · exact_mod_cast Scan.placed_eq_ok.1 hdx
  · exact_mod_cast Scan.placed_eq_ok.1 hdy

/-- The cells that are visited from a row on, each once. -/
def cellsFrom (b : Buffer) (step first : Nat) : List (Nat × Nat) :=
  Scan.gridCells (Scan.cells b.width step) first (Scan.cells b.height step - first)

theorem mem_cellsFrom {b : Buffer} {step first gx gy : Nat} (hs : 0 < step) :
    (gx, gy) ∈ b.cellsFrom step first ↔ first ≤ gy ∧ gy * step < b.height ∧ gx * step < b.width := by
  have hx := @Scan.lt_cells_iff b.width step gx hs
  have hy := @Scan.lt_cells_iff b.height step gy hs
  rw [cellsFrom, Scan.mem_gridCells, ← hx, ← hy]
  omega

theorem cellsFrom_of_isEmpty {b : Buffer} {step first : Nat} (hs : 0 < step) (he : b.isEmpty = true) :
    b.cellsFrom step first = [] := by
  rw [isEmpty_eq_true] at he
  refine List.eq_nil_iff_forall_not_mem.2 ?_
  rintro ⟨gx, gy⟩ hmem
  obtain ⟨-, hy, hx⟩ := (mem_cellsFrom hs).1 hmem
  omega

theorem toList_scan_cells {b : Buffer} {step first : Nat} {scale : Number} (hs : 0 < step) (hw : b.width ≤ 2 ^ 63)
    (hh : b.height ≤ 2 ^ 63) (hp : ∀ c, b.Visits step first c → Scan.HasProduct scale c) :
    ∃ samples, (b.scan step scale first).toList = .ok samples ∧
      List.Forall₂ (b.IsSampleOf step scale) (b.cellsFrom step first) samples := by
  rcases Nat.eq_zero_or_pos b.width with hw0 | hw0
  · have hrow : ∀ k : Nat, ((first : Int) * step + k * step) < b.height →
        ∃ r, Scan.rowAt b scale (first * step + k * step) = .ok r := by
      intro k hk
      have hy : (first : Int) * step + k * step = ((first + k) * step : Nat) := by push_cast; ring
      rw [hy] at hk ⊢
      have hlt : (first + k) * step < b.height := by exact_mod_cast hk
      obtain ⟨d, hd⟩ := (hp _ ⟨first + k, by omega, by exact_mod_cast hk, .inl rfl⟩).placed
      refine ⟨(d, (first + k) * step), ?_⟩
      unfold Scan.rowAt
      have hd' : Scan.placed scale (((first + k) * step : Nat) : Int) = .ok d := by exact_mod_cast hd
      rw [hd', checkIndex_of_lt hlt hh, rowIndex_natCast hlt]
      rfl
    refine ⟨[], ?_, cellsFrom_of_isEmpty hs (isEmpty_eq_true.2 (.inl hw0)) ▸ .nil⟩
    unfold scan
    rw [dif_neg (by omega)]
    simp only [Int.toNat_natCast]
    rw [Scan.rowsFrom_of_no_columns hs hw0 _ hrow]
    rfl
  · rw [Scan.scan_eq b hs hw0, Delivery.toList_traverse, Scan.gridPoints_eq_map, List.mapM_map]
    refine mapM_forall₂ ?_
    rintro ⟨gx, gy⟩ hmem
    obtain ⟨hf, hy, hx⟩ := (mem_cellsFrom hs).1 hmem
    have hvy : (gy : Int) * step < b.height := by exact_mod_cast hy
    have hvx : (gx : Int) * step < b.width := by exact_mod_cast hx
    have hpx := hp _ ⟨gy, by omega, hvy, .inr ⟨gx, hvx, rfl⟩⟩
    have hpy := hp _ ⟨gy, by omega, hvy, .inl rfl⟩
    exact samplePoint_of_cell hw hh hx hy (by exact_mod_cast hpx) (by exact_mod_cast hpy)

/-- What a scan from a row on gives: the samples of the cells from that row on, each once and row after row.  It is what
is left of the whole scan behind the rows before, and nothing if the buffer is empty. -/
structure ScansFrom (b : Buffer) (step first : Int) (scale : Number) : Prop where
  inOrder : ∃ cells samples, cells.Pairwise Scan.RowMajor ∧
    (∀ gx gy : Nat, (gx, gy) ∈ cells ↔ first ≤ gy ∧ gy * step < b.height ∧ gx * step < b.width) ∧
    (b.scan step scale first).toList = .ok samples ∧ List.Forall₂ (b.IsSampleOf step scale) cells samples
  resumes : ∀ whole, (b.scan step scale 0).toList = .ok whole →
    (b.scan step scale first).toList = .ok (whole.drop (first.toNat * ⌈(b.width : ℚ) / step⌉₊))
  ofEmpty : b.isEmpty = true → (b.scan step scale first).toList = .ok []

/-- **A scan visits just the cells from its first row on**, if the coordinates on its way have products with the scale.
No array has more than `2 ^ 63` rows or columns: its indices are words. -/
theorem scan_from_row (b : Buffer) (step first : Int) (scale : Number) (hs : 1 ≤ step) (hf : 0 ≤ first)
    (hw : b.width ≤ 2 ^ 63) (hh : b.height ≤ 2 ^ 63) (hp : ∀ c, b.Visits step first c → Scan.HasProduct scale c) :
    b.ScansFrom step first scale := by
  obtain ⟨step, rfl⟩ := Int.eq_ofNat_of_zero_le (by omega : 0 ≤ step)
  obtain ⟨first, rfl⟩ := Int.eq_ofNat_of_zero_le hf
  have hs' : 0 < step := by omega
  obtain ⟨samples, hsamples, hcells⟩ := toList_scan_cells hs' hw hh hp
  refine ⟨⟨b.cellsFrom step first, samples, Scan.pairwise_gridCells _ _ _, fun gx gy => ?_, hsamples, hcells⟩,
    fun whole hwhole => ?_, fun he => ?_⟩
  · rw [mem_cellsFrom hs']
    exact_mod_cast Iff.rfl
  · rw [Int.toNat_natCast, Int.cast_natCast, ← Scan.cells_eq_ceil hs']
    unfold scan at hwhole ⊢
    rw [dif_neg (by omega)] at hwhole ⊢
    simp only [Int.toNat_natCast, Int.zero_mul] at hwhole ⊢
    exact Scan.toList_rowsFrom_mul hs' hwhole first
  · rw [cellsFrom_of_isEmpty hs' he] at hcells
    cases hcells
    exact hsamples

theorem threeByTwo_lower_row :
    (1 : Int) ≤ 1 ∧ (0 : Int) ≤ 1 ∧ threeByTwo.width ≤ 2 ^ 63 ∧ threeByTwo.height ≤ 2 ^ 63 ∧
      (∀ c, threeByTwo.Visits 1 1 c → Scan.HasProduct (.real 2.5) c) ∧ threeByTwo.ScansFrom 1 1 (.real 2.5) := by
  have hp : ∀ c, threeByTwo.Visits 1 1 c → Scan.HasProduct (.real 2.5) c := by
    intro c hc
    have hrange : c = 0 ∨ c = 1 ∨ c = 2 := by
      obtain ⟨gy, hfirst, hy, hc | ⟨gx, hx, hc⟩⟩ := hc
      · have : (threeByTwo.height : Int) = 2 := rfl
        omega
      · have : (threeByTwo.width : Int) = 3 := rfl
        omega
    rcases hrange with rfl | rfl | rfl
    all_goals exact ⟨_, rfl, by decide +kernel⟩
  exact ⟨by decide, by decide, by decide, by decide, hp,
    scan_from_row _ _ _ _ (by decide) (by decide) (by decide) (by decide) hp⟩

end Buffer
end RasterSketch
