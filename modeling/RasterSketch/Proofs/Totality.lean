import RasterSketch.Proofs.Canvas
import RasterSketch.Proofs.Scan.Restart
import RasterSketch.Proofs.Style.Cells
import RasterSketch.Proofs.Tiling
/-!
# Sketches there always are

An image of fewer than `2 ^ 53` rows and columns has a sketch in each style, for any stride of that size, for any bound
up to `2 ^ 1020` and whatever alpha is asked for (`Buffer.exists_program`).  Its grid can be fitted, its samples lie on a
sheet that has room in doubles, their cells are drawn with statements that can be written, and so is the frame.  Among
the counts that fit 32 bits that is so without a limit of its own (`Buffer.generateNamed_total`).
-/
namespace RasterSketch

open Magnitude

/-! ## The canvas -/

namespace Grid

/-- A grid whose canvas and cells have room on a sheet. -/
structure Fits (k : Nat) (g : Grid) : Prop where
  cell_pos : 1 ≤ g.cellSize
  cellSize : OnSheet k g.cellSize
  scaledWidth : OnSheet k g.scaledWidth
  scaledHeight : OnSheet k g.scaledHeight

/-- The most that a bound may be, as a power of two, so that a canvas of twice its length has room. -/
def boundLimit : Nat := 1020

section

variable {w h base bound c : Int} {g : Grid} {s : Magnitude} {k : Nat} (hf : g.RoundedFrom w h base bound s)
  (hw : IsSize w) (hh : IsSize h) (h1 : 1 ≤ bound) (ht : OnSheet k bound) (hk : k ≤ boundLimit)

include hf hw hh h1 ht hk

/-- **Every coordinate of an axis has a place on the sheet.** -/
theorem RoundedFrom.exists_place (hc : 0 ≤ c) (hc' : c ≤ max w h) : ∃ d, g.place c = .ok d ∧ OnSheet (k + 1) d := by
  unfold boundLimit at hk
  have hlonger := hw.max hh
  have hle := side_le h1 ht hlonger hf.scale hc'
  obtain ⟨m, hm, hr⟩ := place_on_sheet (by omega) hc (lt_of_le_of_lt hc' hlonger.2) hle
  refine ⟨⌊m.value⌋, ?_, Double.onSheet_floor (hr.value_le (isValue_two_pow (by omega)) hle)⟩
  rw [place, hf.scale_eq, hm]
  exact Double.floor_finite m

theorem RoundedFrom.fits (hb : IsSize base) (hk' : 53 ≤ k) : g.Fits (k + 1) := by
  unfold boundLimit at hk
  have hlonger := hw.max hh
  have hlimit : IsValue ((2 : ℚ) ^ (k + 1)) := isValue_two_pow (by omega)
  obtain ⟨mw, hmw, hwidth⟩ := hf.scaledWidth
  obtain ⟨mh, hmh, hheight⟩ := hf.scaledHeight
  obtain ⟨x, hx, hstep⟩ := hf.step
  obtain ⟨z, mc, hz, hmc, hcell⟩ := hf.cellSize
  rw [hstep] at hz
  refine ⟨hf.cellSize_pos (le_scale hlonger h1 hf.scale), ?_, ?_, ?_⟩
  · rw [hcell]
    exact Double.onSheet_ceil (hmc.value_le hlimit (cell_le h1 ht hk' (by omega) hlonger hb hf.scale hx hz))
  · rw [hwidth]
    exact Double.onSheet_floor (hmw.value_le hlimit (side_le h1 ht hlonger hf.scale (le_max_left w h)))
  · rw [hheight]
    exact Double.onSheet_floor (hmh.value_le hlimit (side_le h1 ht hlonger hf.scale (le_max_right w h)))

end

end Grid

/-! ## Frames -/

namespace Style

theorem canvas_writable {style : Style} {clock : Clock} (h : style.canvas = .moving clock) :
    (clock.name : Text).isPlain = true ∧ clock.tick.isFinite = true := by
  cases style with
  | psychedelic => cases h; exact ⟨by decide, by decide +kernel⟩
  | animation => cases h; exact ⟨by decide, by decide +kernel⟩
  | _ => cases h

variable {k : Nat} (hk : k ≤ sheetLimit) {g : Grid} (hg : g.Fits k)

include hk hg

theorem exists_textPrologue (style : Style) :
    ∃ text, (StyleRef.style style).textPrologue g = .ok text ∧ Statement.areWritable text = true := by
  unfold StyleRef.textPrologue
  split
  · obtain ⟨x, size, hx, hsize, honSheet⟩ := hg.cellSize.exists_most hk
    refine ⟨_, bind_eq_ok.2 ⟨x, hx, bind_eq_ok.2 ⟨size, hsize, rfl⟩⟩, ?_⟩
    have hfill : (Statement.callInts "fill" [0]).isWritable = true :=
      Statement.writable_callInts (by decide) (by decide)
    have htext : (Statement.callInts "textSize" [size]).isWritable = true := by
      refine Statement.writable_ints (by decide) fun n hn => ?_
      rw [List.mem_singleton.1 hn]
      exact Expr.writable_onSheet honSheet (lt_of_le_of_lt hk (by decide))
    have halign : (Statement.call "textAlign" [.variable "CENTER", .variable "CENTER"]).isWritable = true := by decide
    simp only [Statement.areWritable, hfill, htext, halign, Bool.and_self]
  · exact ⟨[], rfl, rfl⟩

omit hk hg in
theorem writable_background {n : Int} (h : n = 0 ∨ n = 255) : (Statement.callInts "background" [n]).isWritable = true := by
  rcases h with rfl | rfl <;> exact Statement.writable_callInts (by decide) (by decide)

omit hk hg in
theorem writable_colorMode : (Statement.call "colorMode" [.variable "HSB", 360, 100, 100, 100]).isWritable = true := by
  have hsystem : (Expr.variable "HSB").every Expr.isWritable = true := by decide
  refine Statement.writable_call (by decide) ?_
  simp [Expr.everyOf, hsystem]

/-- **Each style has a frame for a grid that has room**, and it can be written with whatever is drawn in it. -/
theorem exists_frame (style : Style) :
    ∃ frame, (StyleRef.style style).frame g = .ok frame ∧ ∀ statements, Statement.areWritable statements = true →
      Program.isWritable { frame with statements } = true := by
  obtain ⟨text, htext, hprologue⟩ := style.exists_textPrologue hk hg
  have hcreate : (Statement.callInts "createCanvas" [g.scaledWidth, g.scaledHeight]).isWritable = true := by
    have hlimit : k < Decimal.digitLimit := lt_of_le_of_lt hk (by decide)
    refine Statement.writable_ints (by decide) ?_
    simp only [List.forall_mem_cons, Expr.writable_onSheet hg.scaledWidth hlimit,
      Expr.writable_onSheet hg.scaledHeight hlimit]
    simp
  have hlerp : lerpHelper.isWritable = true := by decide
  have hnoLoop : (Statement.call "noLoop" []).isWritable = true := by decide
  have hnoStroke : (Statement.call "noStroke" []).isWritable = true := by decide
  cases hcanvas : style.canvas with
  | still =>
    refine ⟨_, bind_eq_ok.2 ⟨style, rfl, lift_bind_eq_ok htext (by rw [hcanvas]; rfl)⟩, fun statements hstatements => ?_⟩
    simp only [Program.isWritable, List.all_cons, List.all_nil, Statement.areWritable, hcreate, hnoLoop, hnoStroke,
      writable_background (.inr rfl : (255 : Int) = 0 ∨ (255 : Int) = 255), hprologue, hlerp, hstatements, Bool.and_self]
  | moving clock =>
    obtain ⟨hname, htick⟩ := canvas_writable hcanvas
    refine ⟨_, bind_eq_ok.2 ⟨style, rfl, lift_bind_eq_ok htext (by rw [hcanvas]; rfl)⟩, fun statements hstatements => ?_⟩
    have hdeclare : (Statement.declare clock.name 0).isWritable = true := by
      rw [Statement.isWritable, hname, Expr.writable_ofNat (by decide)]
      rfl
    have hincrement : (Statement.increment clock.name (.real clock.tick)).isWritable = true := by
      rw [Statement.isWritable, hname, Expr.writable_real, htick]
      rfl
    have hcolours : ∀ hues : Bool, Statement.areWritable
        (if hues then [Statement.call "colorMode" [.variable "HSB", 360, 100, 100, 100]] else []) = true := by
      intro hues
      cases hues with
      | false => rfl
      | true => simp [Statement.areWritable, writable_colorMode]
    have hshade : ∀ hues : Bool, (Statement.callInts "background" [if hues then 0 else 255]).isWritable = true := by
      intro hues
      cases hues with
      | false => exact writable_background (.inr rfl)
      | true => exact writable_background (.inl rfl)
    simp only [Program.isWritable, List.all_cons, List.all_nil, Statement.areWritable, hcreate, hnoStroke, hdeclare,
      hincrement, hcolours, hshade, hprologue, hlerp, hstatements, Bool.and_self]

theorem exists_draw (style : Style) (config : StyleConfig) {s : Sample} (hs : s.Fits k) :
    Statement.Drawn (style.draw config g.cellSize s) := by
  unfold draw
  split
  · obtain ⟨c, hc, hfits⟩ := Cell.exists_fits hk hs hg.cell_pos hg.cellSize config.includeAlpha
    obtain ⟨group, hgroup, hwritable⟩ := style.emit_fits hk hfits
    exact ⟨group, lift_bind_eq_ok hc hgroup, hwritable⟩
  · exact ⟨[], rfl, rfl⟩

end Style

/-! ## Buffers -/

namespace Buffer

section

variable {b : Buffer} {base bound : Int} {g : Grid} {m : Magnitude} {k : Nat}
  (hf : Grid.RoundedFrom b.width b.height base bound g m) (hw : Grid.IsSize b.width) (hh : Grid.IsSize b.height)
  (h1 : 1 ≤ bound) (ht : OnSheet k bound) (hk : k ≤ Grid.boundLimit)

include hf hw hh h1 ht hk

/-- **Every point of the grid has a sample that lies on the sheet.** -/
theorem exists_samplePoint {x y : Nat} (hx : x < b.width) (hy : y < b.height) :
    ∃ s, Scan.samplePoint b (.real g.scale) (x, (y : Int)) = .ok s ∧ s.Fits (k + 1) := by
  obtain ⟨destX, hdx, hsheetX⟩ := hf.exists_place hw hh h1 ht hk (c := x) (by omega)
    (le_max_of_le_left (by omega))
  obtain ⟨destY, hdy, hsheetY⟩ := hf.exists_place hw hh h1 ht hk (c := y) (by omega)
    (le_max_of_le_right (by omega))
  have hcheck : checkIndex y = .ok () := checkIndex_of_lt hy (by have := hh.2; omega)
  have hsample := (Scan.samplePoint_eq_ok hy).2
    ⟨destX, destY, hcheck, Scan.placed_real_eq_ok.2 hdx, Scan.placed_real_eq_ok.2 hdy, rfl⟩
  exact ⟨_, hsample, Scan.samplePoint_isOfBytes hy hsample, hsheetX, hsheetY⟩

theorem exists_drawAll (style : Style) (config : StyleConfig) (hg : g.Fits (k + 1)) :
    Statement.Drawn (style.drawAll config g.cellSize (b.samplesOn g)) := by
  have hs : 0 < g.step.toNat := by
    have := hf.step_pos
    omega
  have hpoints : ∀ p ∈ Scan.gridPoints (Scan.cells b.width g.step.toNat) g.step.toNat 0
      (Scan.cells b.height g.step.toNat),
        Statement.Drawn (Scan.samplePoint b (.real g.scale) p >>= style.draw config g.cellSize) := by
    intro p hp
    rw [Scan.gridPoints_eq_map] at hp
    obtain ⟨⟨gx, gy⟩, hcell, rfl⟩ := List.mem_map.1 hp
    obtain ⟨hx, -, hy⟩ := Scan.mem_gridCells.1 hcell
    rw [Nat.zero_add] at hy
    obtain ⟨s, hsample, hfits⟩ := exists_samplePoint hf hw hh h1 ht hk ((Scan.lt_cells_iff hs).1 hx)
      ((Scan.lt_cells_iff hs).1 hy)
    obtain ⟨group, hgroup, hwritable⟩ := style.exists_draw (Nat.succ_le_succ hk) hg config hfits
    exact ⟨group, bind_eq_ok.2 ⟨s, hsample, hgroup⟩, hwritable⟩
  obtain ⟨groups, hgroups, hwritable⟩ := mapM_all hpoints
  refine ⟨groups.flatten, ?_, Statement.areWritable_flatten hwritable⟩
  rw [samplesOn_eq hf.step_pos (by have := hw.1; omega), Style.drawAll_traverse, hgroups]
  rfl

end

/-- **A buffer has a program in each style, and it can be written**, as long as its canvas has room in doubles. -/
theorem exists_program (b : Buffer) (style : Style) (config : Option StyleConfig) {bound : Int} {k : Nat}
    (hw : Grid.IsSize b.width) (hh : Grid.IsSize b.height) (hb : Grid.IsSize (configOr style config).baseStep)
    (h1 : 1 ≤ bound) (ht : OnSheet k bound) (hk : 53 ≤ k) (hk' : k ≤ Grid.boundLimit) :
    ∃ p, b.toProgram style config bound = .ok p ∧ p.isWritable = true := by
  obtain ⟨g, m, hg, hf⟩ := Grid.exists_rounded hw hh hb h1 ht hk (hk'.trans (by decide))
  have hfits := hf.fits hw hh h1 ht hk' hb hk
  obtain ⟨frame, hframe, hwritable⟩ := style.exists_frame (Nat.succ_le_succ hk') hfits
  obtain ⟨statements, hdraw, hstatements⟩ :=
    exists_drawAll hf hw hh h1 ht hk' style (configOr style config) hfits
  refine ⟨{ frame with statements }, ?_, hwritable statements hstatements⟩
  exact bind_eq_ok.2 ⟨g, hg, bind_eq_ok.2 ⟨frame, hframe, bind_eq_ok.2 ⟨statements, hdraw, rfl⟩⟩⟩

theorem exists_toProgram (b : Buffer) (style : Style) (config : Option StyleConfig) (bound : Int)
    (hw : Grid.IsCount b.width) (hh : Grid.IsCount b.height) (hb : Grid.IsCount (configOr style config).baseStep)
    (ht : Grid.IsCount bound) : ∃ p, b.toProgram style config bound = .ok p ∧ p.isWritable = true :=
  b.exists_program style config hw.isSize hh.isSize hb.isSize ht.1 ht.isSize.onSheet le_rfl (by decide)

section

variable {b : Buffer} {name : Value} {style : Style} {config : Option StyleConfig} {bound : Int}

theorem generateNamed_of_program {p : Program} (hstyle : Style.ofValue name = .ok style)
    (hp : b.toProgram style config bound = .ok p) (hwritable : p.isWritable = true) :
    ∃ text, b.generateNamed name config bound = .ok text ∧ text.IsPlainLines := by
  obtain ⟨text, hrender, hplain⟩ := Program.render_plain hwritable
  refine ⟨text, bind_eq_ok.2 ⟨style, hstyle, bind_eq_ok.2 ⟨p, hp, ?_⟩⟩, hplain⟩
  rw [hrender]
  rfl

theorem checkSize_ok (hw : 1 ≤ (b.width : Int)) (hh : 1 ≤ (b.height : Int)) :
    Grid.checkSize b.width b.height = .ok () := if_neg (by omega)

/-- A bound that is not positive is refused, whatever the image. -/
theorem generateNamed_of_bound_nonpos (hstyle : Style.ofValue name = .ok style) (hw : 1 ≤ (b.width : Int))
    (hh : 1 ≤ (b.height : Int)) (ht : bound ≤ 0) :
    b.generateNamed name config bound = .error (.buffer (.canvasBound bound)) := by
  have hgrid : b.gridFor (configOr style config) bound = .error (.buffer (.canvasBound bound)) := by
    unfold gridFor Grid.compute
    rw [checkSize_ok hw hh]
    exact if_pos ht
  unfold generateNamed generate toProgram
  rw [hstyle]
  show ((b.gridFor (configOr style config) bound >>= _) >>= _) = _
  rw [hgrid]
  rfl

end

/-- **A buffer has a sketch in each style**, in lines of printable ASCII. -/
theorem generateNamed_total (b : Buffer) (style : Style) (config : Option StyleConfig) (bound : Int)
    (hw : Grid.IsCount b.width) (hh : Grid.IsCount b.height) (hb : Grid.IsCount (configOr style config).baseStep)
    (ht : Grid.IsCount bound) :
    ∃ text, b.generateNamed (.bare style.name) config bound = .ok text ∧ text.IsPlainLines := by
  obtain ⟨p, hp, hwritable⟩ := b.exists_toProgram style config bound hw hh hb ht
  have hstyle : Style.ofValue (.bare style.name) = .ok style := by
    have hname := Style.ofName?_name style
    unfold Style.ofValue Style.ofValue?
    dsimp only
    rw [hname]
  exact generateNamed_of_program hstyle hp hwritable

theorem threeByTwo_has_sketch :
    Grid.IsCount threeByTwo.width ∧ Grid.IsCount threeByTwo.height ∧
      Grid.IsCount (configOr .ascii (some ⟨2147483647, -1, true⟩)).baseStep ∧ Grid.IsCount targetMax ∧
      ∃ text, threeByTwo.generateNamed (.bare (Style.name .ascii)) (some ⟨2147483647, -1, true⟩) targetMax = .ok text ∧
        text.IsPlainLines :=
  ⟨by decide, by decide, by decide, by decide,
    generateNamed_total threeByTwo .ascii (some ⟨2147483647, -1, true⟩) targetMax (by decide) (by decide) (by decide)
      (by decide)⟩

end Buffer
end RasterSketch
