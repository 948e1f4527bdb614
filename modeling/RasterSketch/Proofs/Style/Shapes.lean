import RasterSketch.Proofs.Style.Cells
/-!
# Shapes in their cells

Each still style draws a cell by calls that set the paint and then one shape (`Style.Draws`), and no point of the shape
lies outside the closed square of the cell (`Cell.still_shapes_stay_inside`).  Squares, circles and triangles are as
large as the cell, and their corners and middles are exact.  A line or a dot has the size to which the cell grows, which
is rounded but never larger than the cell; the end of the line is rounded once more, and cannot pass the edge of the
cell, which is a whole number.
-/
namespace RasterSketch

open Double (Exactly)

/-! ## Shapes -/

/-- A shape on the canvas.  Of a text only the anchor is known. -/
inductive Shape where
  | rectangle (corner : ℚ × ℚ) (width height : ℚ)
  | triangle (a b c : ℚ × ℚ)
  | segment (a b : ℚ × ℚ)
  | disc (center : ℚ × ℚ) (diameter : ℚ)
  | glyph (anchor : ℚ × ℚ)

namespace Shape

/-- The points that span a shape: its corners, its ends, half a diameter to each side on both axes, or its anchor. -/
def points : Shape → List (ℚ × ℚ)
  | rectangle (x, y) width height => [(x, y), (x + width, y), (x, y + height), (x + width, y + height)]
  | triangle a b c => [a, b, c]
  | segment a b => [a, b]
  | disc (x, y) diameter => [(x - diameter / 2, y), (x + diameter / 2, y), (x, y - diameter / 2), (x, y + diameter / 2)]
  | glyph anchor => [anchor]

/-- The shape that a call draws, by its name and its numbers. -/
def ofCall? (name : Text) : List ℚ → Option Shape
  | [x, y, diameter] => if name = "circle" then some (disc (x, y) diameter) else none
  | [x, y, z, w] =>
    if name = "rect" then some (rectangle (x, y) z w)
    else if name = "line" then some (segment (x, y) (z, w))
    else none
  | [ax, ay, bx, b, cx, c] => if name = "triangle" then some (triangle (ax, ay) (bx, b) (cx, c)) else none
  | _ => none

/-- The shape of a text, by the numbers that follow it. -/
def ofText? (name : Text) : List ℚ → Option Shape
  | [x, y] => if name = "text" then some (glyph (x, y)) else none
  | _ => none

end Shape

def Expr.number? : Expr → Option ℚ
  | .number n => n.exact?
  | _ => none

theorem Expr.number?_int (n : Int) : (int n).number? = some (n : ℚ) := rfl

theorem Double.Exactly.number?_eq {q : ℚ} {x : Double} (h : Exactly q x) : (Expr.real x).number? = some q := by
  obtain ⟨m, rfl, rfl⟩ := h
  rfl

namespace Statement

/-- The shape that a statement draws, if it is a call with numbers that draws one. -/
def shape? : Statement → Option Shape
  | call name (.text _ :: args) => do Shape.ofText? name (← args.mapM Expr.number?)
  | call name args => do Shape.ofCall? name (← args.mapM Expr.number?)
  | _ => none

/-- Whether a statement only sets what shapes are drawn with. -/
def setsPaint : Statement → Bool
  | call name _ => name = "fill" || name = "stroke" || name = "strokeWeight"
  | _ => false

end Statement

/-- A style draws a cell by setting the paint and then drawing one shape. -/
def Style.Draws (style : Style) (c : Cell) (shape : Shape) : Prop :=
  ∃ paint call, style.emit c = .ok (paint ++ [call]) ∧ (∀ s ∈ paint, s.setsPaint = true) ∧ call.shape? = some shape

/-- A point in the closed square of the cell of a sample. -/
def Sample.Holds (s : Sample) (size : Int) (p : ℚ × ℚ) : Prop :=
  ((s.destX : ℚ) ≤ p.1 ∧ p.1 ≤ s.destX + size) ∧ ((s.destY : ℚ) ≤ p.2 ∧ p.2 ≤ s.destY + size)

/-! ## Squares -/

namespace Sample

variable {s : Sample} {size : Int} {d : ℚ}

theorem half_mem (h : 0 ≤ size) : (0 : ℚ) ≤ size / 2 ∧ (size : ℚ) / 2 ≤ size := by
  have hsize : (0 : ℚ) ≤ size := by exact_mod_cast h
  exact ⟨by linarith, by linarith⟩

theorem holds_rectangle (h : 0 ≤ size) :
    ∀ p ∈ (Shape.rectangle (s.destX, s.destY) size size).points, s.Holds size p := by
  have hsize : (0 : ℚ) ≤ size := by exact_mod_cast h
  simp [Shape.points, Holds, hsize]

theorem holds_triangle (h : 0 ≤ size) :
    ∀ p ∈ (Shape.triangle (s.destX + size / 2, s.destY) (s.destX, s.destY + size)
      (s.destX + size, s.destY + size)).points, s.Holds size p := by
  have hsize : (0 : ℚ) ≤ size := by exact_mod_cast h
  simp [Shape.points, Holds, hsize, half_mem h]

theorem holds_segment (h0 : 0 ≤ d) (h : d ≤ size) :
    ∀ p ∈ (Shape.segment (s.destX, s.destY) (s.destX, s.destY + d)).points, s.Holds size p := by
  have hsize : (0 : ℚ) ≤ size := h0.trans h
  simp [Shape.points, Holds, hsize, h0, h]

theorem holds_disc (h0 : 0 ≤ d) (h : d ≤ size) :
    ∀ p ∈ (Shape.disc (s.destX + size / 2, s.destY + size / 2) d).points, s.Holds size p := by
  intro p hp
  simp only [Shape.points, List.mem_cons, List.not_mem_nil, or_false] at hp
  rcases hp with rfl | rfl | rfl | rfl <;> refine ⟨⟨?_, ?_⟩, ?_, ?_⟩ <;> dsimp only <;> linarith

theorem holds_glyph (h : 0 ≤ size) :
    ∀ p ∈ (Shape.glyph (s.destX + size / 2, s.destY + size / 2)).points, s.Holds size p := by
  simp [Shape.points, Holds, half_mem h]

end Sample

/-! ## Styles -/

theorem Cell.square_shape (c : Cell) : c.square.shape? = some (.rectangle (c.x, c.y) c.cellSize c.cellSize) := rfl

theorem Cell.circleAt_shape {cx cy : Double} {a b d : ℚ} {diameter : Expr} (hx : Exactly a cx) (hy : Exactly b cy)
    (hd : diameter.number? = some d) : (circleAt cx cy diameter).shape? = some (.disc (a, b) d) := by
  show (do Shape.ofCall? "circle" (← [Expr.real cx, .real cy, diameter].mapM Expr.number?)) = _
  simp only [List.mapM_cons, List.mapM_nil, hx.number?_eq, hy.number?_eq, hd]
  rfl

theorem Cell.fill_setsPaint (c : Cell) : ∀ s ∈ [c.fill], s.setsPaint = true := fun s hs => by
  rw [List.mem_singleton.1 hs]
  rfl

theorem Style.pixels_draws (c : Cell) : pixels.Draws c (.rectangle (c.x, c.y) c.cellSize c.cellSize) :=
  ⟨[c.fill], c.square, rfl, c.fill_setsPaint, c.square_shape⟩

namespace Cell.Bounded

variable {c : Cell} (h : c.Bounded)

include h

theorem circles_draws : Style.circles.Draws c (.disc (c.x + c.cellSize / 2, c.y + c.cellSize / 2) c.cellSize) := by
  obtain ⟨cx, cy, hcenter, hx, hy⟩ := h.exact_center
  exact ⟨[c.fill], _, lift_bind_eq_ok hcenter rfl, c.fill_setsPaint, circleAt_shape hx hy rfl⟩

theorem triangles_draws : Style.triangles.Draws c
    (.triangle (c.x + c.cellSize / 2, c.y) (c.x, c.y + c.cellSize) (c.x + c.cellSize, c.y + c.cellSize)) := by
  obtain ⟨hx0, hx⟩ := h.x
  obtain ⟨hs0, hs⟩ := h.cellSize
  obtain ⟨half, hhalf, hexact⟩ := Double.exists_half hs0 (by omega)
  obtain ⟨apex, hapex, hapexExact⟩ := Double.exists_middle hx0 hs0 (by omega) hexact
  refine ⟨[c.fill], _, lift_bind_eq_ok hhalf (lift_bind_eq_ok hapex rfl), c.fill_setsPaint, ?_⟩
  show (do Shape.ofCall? "triangle" (← [Expr.real apex, .int c.y, .int c.x, .int (c.y + c.cellSize),
    .int (c.x + c.cellSize), .int (c.y + c.cellSize)].mapM Expr.number?)) = _
  simp only [List.mapM_cons, List.mapM_nil, hapexExact.number?_eq, Expr.number?_int, Int.cast_add]
  rfl

theorem ascii_draws : Style.ascii.Draws c (.glyph (c.x + c.cellSize / 2, c.y + c.cellSize / 2)) := by
  obtain ⟨cx, cy, hcenter, hx, hy⟩ := h.exact_center
  obtain ⟨i, glyph, hi, hglyph⟩ := exists_glyph h.brightness
  refine ⟨[], _, lift_bind_eq_ok hcenter (lift_bind_eq_ok hi (bind_eq_ok.2 ⟨glyph, mapError_eq_ok.2 hglyph, rfl⟩)),
    fun s hs => (by cases hs), ?_⟩
  show (do Shape.ofText? "text" (← [Expr.real cx, .real cy].mapM Expr.number?)) = _
  simp only [List.mapM_cons, List.mapM_nil, hx.number?_eq, hy.number?_eq]
  rfl

theorem statue_draws : Style.statue.Draws c (.rectangle (c.x, c.y) c.cellSize c.cellSize) := by
  obtain ⟨marble, hmarble, -⟩ := exists_marble h.brightness
  refine ⟨[.callInts "fill" [marble - 20, marble - 10, marble + 15]], c.square, lift_bind_eq_ok hmarble rfl,
    fun s hs => ?_, c.square_shape⟩
  rw [List.mem_singleton.1 hs]
  rfl

variable {d : ℚ} (hd : Exactly d c.variableSize)

include hd

theorem dots_draws : Style.dots.Draws c (.disc (c.x + c.cellSize / 2, c.y + c.cellSize / 2) d) := by
  obtain ⟨cx, cy, hcenter, hx, hy⟩ := h.exact_center
  exact ⟨[c.fill], _, lift_bind_eq_ok hcenter rfl, c.fill_setsPaint, circleAt_shape hx hy hd.number?_eq⟩

/-- A line ends within its cell, although its end is rounded. -/
theorem lines_draws (h0 : 0 ≤ d) (hle : d ≤ c.cellSize) : ∃ length : ℚ, 0 ≤ length ∧ length ≤ c.cellSize ∧
    Style.lines.Draws c (.segment (c.x, c.y) (c.x, c.y + length)) := by
  obtain ⟨hy0, hy⟩ := h.y
  obtain ⟨hs0, hs⟩ := h.cellSize
  obtain ⟨width, weight, hwidth, hweight, -⟩ := OnSheet.exists_most (k := 31) h.cellSize (by decide)
  obtain ⟨bottom, b, hbottom, hexact, hlow, hhigh⟩ := hd.exists_shift hy0 hs0 (by omega) h0 hle
  refine ⟨b - c.y, by linarith, by linarith, [.callInts "stroke" c.colour, .callInts "strokeWeight" [weight]], _,
    lift_bind_eq_ok hwidth (lift_bind_eq_ok hweight (lift_bind_eq_ok hbottom rfl)), ?_, ?_⟩
  · intro s hs
    rcases List.mem_pair.1 hs with rfl | rfl <;> rfl
  · show (do Shape.ofCall? "line" (← [Expr.int c.x, .int c.y, .int c.x, .real bottom].mapM Expr.number?)) = _
    simp only [List.mapM_cons, List.mapM_nil, hexact.number?_eq, Expr.number?_int, add_sub_cancel]
    rfl

end Cell.Bounded

/-- **The shapes of a bounded cell stay in its square.** -/
theorem Cell.Bounded.exists_shape {c : Cell} (h : c.Bounded) {d : ℚ} (hd : Exactly d c.variableSize) (h0 : 0 ≤ d)
    (hle : d ≤ c.cellSize) {style : Style} (hstill : style.canvas = .still) :
    ∃ shape, style.Draws c shape ∧ (∀ p ∈ shape.points, c.sample.Holds c.cellSize p) ∧
      (style = .ascii → shape = .glyph (c.x + c.cellSize / 2, c.y + c.cellSize / 2)) := by
  have hsize : 0 ≤ c.cellSize := h.cellSize.1
  have hsize' : (0 : ℚ) ≤ c.cellSize := by exact_mod_cast hsize
  cases style with
  | pixels => exact ⟨_, Style.pixels_draws c, Sample.holds_rectangle hsize, nofun⟩
  | circles => exact ⟨_, h.circles_draws, Sample.holds_disc hsize' le_rfl, nofun⟩
  | triangles => exact ⟨_, h.triangles_draws, Sample.holds_triangle hsize, nofun⟩
  | lines =>
    obtain ⟨length, hlength, hlength', hdraws⟩ := h.lines_draws hd h0 hle
    exact ⟨_, hdraws, Sample.holds_segment hlength hlength', nofun⟩
  | dots => exact ⟨_, h.dots_draws hd, Sample.holds_disc h0 hle, nofun⟩
  | ascii => exact ⟨_, h.ascii_draws, Sample.holds_glyph hsize, fun _ => rfl⟩
  | statue => exact ⟨_, h.statue_draws, Sample.holds_rectangle hsize, nofun⟩
  | psychedelic => cases hstill
  | animation => cases hstill

namespace Cell

/-- The cell of a sample is drawn inside its square.  The size of its lines and dots lies between one and its own size, no
sample with more light has a smaller one, each still style draws one shape into the square, and a glyph stands in the
very middle. -/
structure DrawnInside (s : Sample) (size : Int) (c : Cell) : Prop where
  size_isFinite : c.variableSize.isFinite = true
  size_mem : 1 ≤ c.variableSize.value ∧ c.variableSize.value ≤ size
  size_mono : ∀ (t : Sample) (alpha : Bool) (d : Cell), t.Bounded → s.light ≤ t.light → ofSample t size alpha = .ok d →
    c.variableSize.value ≤ d.variableSize.value
  shapes : ∀ style : Style, style.canvas = .still →
    ∃ shape, style.Draws c shape ∧ (∀ p ∈ shape.points, s.Holds size p) ∧
      (style = .ascii → shape = .glyph (s.destX + size / 2, s.destY + size / 2))

/-- **Still shapes stay in the square of their cell**, for every sample of bytes on a canvas of at most `2 ^ 31` pixels a
side and every size of its cells. -/
theorem still_shapes_stay_inside (s : Sample) (hs : s.Bounded) (size : Int) (h1 : 1 ≤ size) (hsize : size ≤ 2 ^ 31)
    (includeAlpha : Bool) : ∃ c, ofSample s size includeAlpha = .ok c ∧ c.DrawnInside s size := by
  obtain ⟨g, hg⟩ := exists_growth hs.channels h1 (by omega) includeAlpha
  obtain ⟨c, hc, hbounded⟩ := exists_ofSample hs h1 ⟨by omega, hsize⟩ includeAlpha
  obtain rfl := Except.ok.inj (hc.symm.trans hg)
  have htotal : g.total.value ≤ size := g.total_le (Sample.IsOfBytes.light_le hs.channels) h1 (by omega)
  refine ⟨_, hc, rfl, ⟨g.one_le_total, htotal⟩, fun t alpha d ht hlight hd => ?_, fun style hstill => ?_⟩
  · obtain ⟨g', hg'⟩ := exists_growth ht.channels h1 (by omega) alpha
    obtain rfl := Except.ok.inj (hd.symm.trans hg')
    exact g.total_mono g' hlight h1
  · exact hbounded.exists_shape ⟨g.total, rfl, rfl⟩ g.total.value_nonneg htotal hstill

/-- A bright sample in the far corner of the largest canvas. -/
def farSample : Sample := ⟨0, 0, 255, 254, 253, 255, 2 ^ 31, 2 ^ 31⟩

theorem farSample_stays_inside : farSample.Bounded ∧ (1 : Int) ≤ 2 ^ 31 - 1 ∧ (2 : Int) ^ 31 - 1 ≤ 2 ^ 31 ∧
    ∃ c, ofSample farSample (2 ^ 31 - 1) true = .ok c ∧ c.DrawnInside farSample (2 ^ 31 - 1) := by
  have hs : farSample.Bounded := ⟨by decide, ⟨by decide, by decide⟩, ⟨by decide, by decide⟩⟩
  exact ⟨hs, by decide, by decide, still_shapes_stay_inside farSample hs (2 ^ 31 - 1) (by decide) (by decide) true⟩

end Cell

end RasterSketch
