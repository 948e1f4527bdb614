import RasterSketch.Generate
import RasterSketch.Proofs.Grid
import RasterSketch.Proofs.Scan.Points
/-!
# What is drawn

The program of a buffer draws its grid point by point: each point contributes the statements of its cell if its pixel
is accepted, and nothing otherwise (`Buffer.groupAt`), and the groups stand in row-major order between the rest of the
frame (`toProgramNamed_draws_grid`).
-/
namespace RasterSketch

namespace Style

/-- **The samples of a walk are drawn on the way**: the first failure of either kind ends both. -/
theorem drawAll_traverse {β : Type} (style : Style) (config : StyleConfig) (cellSize : Int)
    (f : β → Except Error Sample) : ∀ points : List β,
    style.drawAll config cellSize (.traverse f points) =
      List.flatten <$> points.mapM fun p => f p >>= style.draw config cellSize
  | [] => rfl
  | p :: points => by
    rw [List.mapM_cons, Delivery.traverse]
    cases f p with
    | error e => rfl
    | ok s =>
      have hs : (Except.ok s >>= style.draw config cellSize) = style.draw config cellSize s := rfl
      dsimp only
      rw [hs, drawAll, drawAll_traverse style config cellSize f points]
      cases style.draw config cellSize s with
      | error e => rfl
      | ok group => cases points.mapM fun p => f p >>= style.draw config cellSize <;> rfl

end Style

namespace Buffer

/-- What the point in column `gx` and row `gy` of a grid contributes to a program: the statements of a cell that has the
four bytes of the pixel there and lies where its coordinates do, if the last of the bytes is above the threshold. -/
def groupAt (b : Buffer) (style : Style) (config : StyleConfig) (grid : Grid) (gx gy : Nat) :
    Except Error (List Statement) := do
  let x := gx * grid.step.toNat
  let y := gy * grid.step.toNat
  let channel (k : Nat) : Nat := (b.bytes.getD (4 * (y * b.width + x) + k) 0).toNat
  if config.alphaThreshold < channel 3 then
    let destX ← grid.place x
    let destY ← grid.place y
    let sample : Sample := ⟨x, y, channel 0, channel 1, channel 2, channel 3, destX, destY⟩
    style.emit (← Cell.ofSample sample grid.cellSize config.includeAlpha)
  else return []

/-- The group of a point is what its sample draws. -/
theorem groupAt_eq_ok {b : Buffer} {style : Style} {config : StyleConfig} {grid : Grid} {gx gy : Nat}
    (hy : gy * grid.step.toNat < b.height) {group : List Statement}
    (h : (Scan.samplePoint b (.real grid.scale) (gx * grid.step.toNat, ((gy * grid.step.toNat : Nat) : Int)) >>=
      style.draw config grid.cellSize) = .ok group) :
    b.groupAt style config grid gx gy = .ok group := by
  obtain ⟨s, hs, hd⟩ := bind_eq_ok.1 h
  obtain ⟨destX, destY, -, hx, hy', rfl⟩ := (Scan.samplePoint_eq_ok hy).1 hs
  have hplaceX := Scan.placed_real_eq_ok.1 hx
  have hplaceY := Scan.placed_real_eq_ok.1 hy'
  rw [← hd]
  unfold groupAt Style.draw StyleConfig.accepts
  simp only [hplaceX, hplaceY, decide_eq_true_eq]
  -- the last of the four bytes is the alpha of the pixel
  show (if config.alphaThreshold < (b.pixelAt (gx * grid.step.toNat) (gy * grid.step.toNat)).a.toNat then _ else _) = _
  split <;> rfl

/-- The samples of a buffer on a grid are those of the points of the grid. -/
theorem samplesOn_eq {b : Buffer} {grid : Grid} (hs : 1 ≤ grid.step) (hw : 0 < b.width) :
    b.samplesOn grid = .traverse (Scan.samplePoint b (.real grid.scale))
      (Scan.gridPoints (Scan.cells b.width grid.step.toNat) grid.step.toNat 0
        (Scan.cells b.height grid.step.toNat)) := by
  have h := Scan.scan_eq b (by omega : 0 < grid.step.toNat) hw (.real grid.scale) 0
  rw [Int.toNat_of_nonneg (by omega)] at h
  exact h

/-- The parts of a program: a grid, a frame for it, and a group of statements for each point of the grid. -/
theorem of_toProgram {b : Buffer} {style : Style} {config : Option StyleConfig} {bound : Int} {p : Program}
    (h : b.toProgram style config bound = .ok p) :
    ∃ grid frame groups,
      Grid.compute b.width b.height (configOr style config).baseStep bound = .ok grid ∧
      (StyleRef.style style).frame grid = .ok frame ∧
      ((Scan.gridPoints (Scan.cells b.width grid.step.toNat) grid.step.toNat 0
          (Scan.cells b.height grid.step.toNat)).mapM fun point =>
        Scan.samplePoint b (.real grid.scale) point >>= style.draw (configOr style config) grid.cellSize) =
          .ok groups ∧
      p = { frame with statements := groups.flatten } := by
  unfold toProgram at h
  obtain ⟨grid, hg, h⟩ := bind_eq_ok.1 h
  unfold Style.build at h
  obtain ⟨frame, hf, h⟩ := bind_eq_ok.1 h
  obtain ⟨statements, hs, h⟩ := bind_eq_ok.1 h
  cases h
  have hw : 0 < b.width := by exact_mod_cast (Grid.of_compute hg).1
  rw [samplesOn_eq (Grid.step_bounds hg).1 hw, Style.drawAll_traverse] at hs
  obtain ⟨groups, hgroups, rfl⟩ := map_eq_ok.1 hs
  exact ⟨grid, frame, groups, hg, hf, hgroups, rfl⟩

theorem cells_eq_ceil_step {grid : Grid} (hs : 1 ≤ grid.step) (size : Nat) :
    Scan.cells size grid.step.toNat = ⌈(size : ℚ) / grid.step⌉₊ := by
  rw [Scan.cells_eq_ceil (by omega : 0 < grid.step.toNat), ← Int.cast_natCast grid.step.toNat,
    Int.toNat_of_nonneg (by omega)]

/-- A program draws the grid of a buffer: its statements are the groups of the points of the grid, row after row, and
all else is the frame of its style.  The group of a point is that of the pixel at its multiples of the stride, which
lies in the buffer. -/
def DrawnBy (b : Buffer) (style : Style) (config : StyleConfig) (grid : Grid) (p : Program) : Prop :=
  ∃ (frame : Program) (group : Nat → Nat → List Statement),
    (StyleRef.style style).frame grid = .ok frame ∧
    p = { frame with
      statements := (List.range ⌈(b.height : ℚ) / grid.step⌉₊).flatMap fun gy =>
        (List.range ⌈(b.width : ℚ) / grid.step⌉₊).flatMap fun gx => group gx gy } ∧
    ∀ gx < ⌈(b.width : ℚ) / grid.step⌉₊, ∀ gy < ⌈(b.height : ℚ) / grid.step⌉₊,
      gx * grid.step < b.width ∧ gy * grid.step < b.height ∧
        b.groupAt style config grid gx gy = .ok (group gx gy)

/-- **A program draws the grid of its buffer point by point**, no point lost, repeated or out of order. -/
theorem toProgramNamed_draws_grid (b : Buffer) (name : Value) (config : Option StyleConfig) (bound : Int) (p : Program)
    (h : b.toProgramNamed name config bound = .ok p) :
    ∃ style grid, Style.ofValue name = .ok style ∧
      Grid.compute b.width b.height (configOr style config).baseStep bound = .ok grid ∧
      b.DrawnBy style (configOr style config) grid p := by
  unfold toProgramNamed at h
  obtain ⟨style, hstyle, h⟩ := bind_eq_ok.1 h
  obtain ⟨grid, frame, groups, hg, hf, hgroups, rfl⟩ := of_toProgram h
  obtain ⟨hstep, -⟩ := Grid.step_bounds hg
  have hs : 0 < grid.step.toNat := by omega
  obtain ⟨hall, rfl⟩ := mapM_eq_ok.1 hgroups
  refine ⟨style, grid, hstyle, hg, frame, fun gx gy => valueOf (Scan.samplePoint b (.real grid.scale)
    (gx * grid.step.toNat, ((gy * grid.step.toNat : Nat) : Int)) >>= style.draw (configOr style config) grid.cellSize),
    hf, ?_, ?_⟩
  · rw [← List.flatMap_def, Scan.flatMap_gridPoints, ← List.range_eq_range', ← cells_eq_ceil_step hstep,
      ← cells_eq_ceil_step hstep]
  · intro gx hx gy hy
    rw [← cells_eq_ceil_step hstep] at hx hy
    have hx' := (Scan.lt_cells_iff hs).1 hx
    have hy' := (Scan.lt_cells_iff hs).1 hy
    have hcast : ((grid.step.toNat : Nat) : Int) = grid.step := Int.toNat_of_nonneg (by omega)
    refine ⟨?_, ?_, groupAt_eq_ok hy' (hall _ (Scan.mem_gridPoints hx hy))⟩
    · rw [← hcast]; exact_mod_cast hx'
    · rw [← hcast]; exact_mod_cast hy'

/-- Three columns and two rows, of which a stride of two meets the first and the last pixel of the upper row. -/
def threeByTwo : Buffer where
  width := 3
  height := 2
  bytes := #[10, 20, 30, 255, 0, 0, 0, 255, 40, 50, 60, 129, 0, 0, 0, 255, 0, 0, 0, 255, 70, 80, 90, 255]
  size_eq := by decide

theorem threeByTwo_draws_grid :
    ∃ p, threeByTwo.toProgramNamed (.bare "psychedelic") (some ⟨2, 128, false⟩) 3 = .ok p ∧
      ∃ style grid, Style.ofValue (.bare "psychedelic") = .ok style ∧ Grid.compute 3 2 2 3 = .ok grid ∧
        threeByTwo.DrawnBy style ⟨2, 128, false⟩ grid p := by
  obtain ⟨p, hp⟩ := exists_ok (x := threeByTwo.toProgramNamed (.bare "psychedelic") (some ⟨2, 128, false⟩) 3)
    (by decide +kernel)
  exact ⟨p, hp, toProgramNamed_draws_grid _ _ _ _ p hp⟩

end Buffer

end RasterSketch
