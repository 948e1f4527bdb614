import RasterSketch.Proofs.Number.UpTo
import RasterSketch.Proofs.Sketch.Plain
import RasterSketch.Proofs.Style.Glyphs
import RasterSketch.Style.Emit
/-!
# What cells are drawn with

A cell of a sample whose channels are bytes, on a sheet whose sides are not larger than `2 ^ 1021`, has quantities that
all have room in doubles (`Cell.Fits`), and so each style draws it, with statements that can be written
(`Style.emit_fits`): no quantity is too large, no number is an infinity, and there is a glyph for each brightness.  On a
canvas of at most `2 ^ 31` pixels a side the quantities are between bounds of their own (`Cell.Bounded`).
-/
namespace RasterSketch

open Double (Between Exactly UpTo)

/-! ## Nodes that can be written -/

namespace Expr

@[simp] theorem writable_add (e f : Expr) :
    (e + f).every isWritable = (e.every isWritable && f.every isWritable) := rfl

@[simp] theorem writable_sub (e f : Expr) :
    (e - f).every isWritable = (e.every isWritable && f.every isWritable) := rfl

@[simp] theorem writable_mul (e f : Expr) :
    (e * f).every isWritable = (e.every isWritable && f.every isWritable) := rfl

@[simp] theorem writable_div (e f : Expr) :
    (e / f).every isWritable = (e.every isWritable && f.every isWritable) := rfl

@[simp] theorem writable_mod (e f : Expr) :
    (e % f).every isWritable = (e.every isWritable && f.every isWritable) := rfl

@[simp] theorem writable_sin (e : Expr) : e.sin.every isWritable = e.every isWritable :=
  Bool.and_true (e.every isWritable)

@[simp] theorem writable_cos (e : Expr) : e.cos.every isWritable = e.every isWritable :=
  Bool.and_true (e.every isWritable)

@[simp] theorem writable_real (x : Double) : (real x).every isWritable = x.isFinite := rfl

theorem writable_onSheet {n : Int} {k : Nat} (h : OnSheet k n) (hk : k < Decimal.digitLimit) :
    (int n).every isWritable = true := by
  have hn : n.natAbs ≤ 2 ^ k := by
    have := h.2
    zify
    rwa [abs_of_nonneg h.1]
  show (!Decimal.exceedsLimit n) = true
  rw [Decimal.exceedsLimit_eq_false hn hk]
  rfl

theorem writable_int {n : Int} (h : n.natAbs < 2 ^ 53) : (int n).every isWritable = true := by
  show (!Decimal.exceedsLimit n) = true
  rw [Decimal.exceedsLimit_eq_false h.le (by decide)]
  rfl

@[simp] theorem writable_ofNat {n : Nat} (h : n < 2 ^ 53) : (no_index (OfNat.ofNat n) : Expr).every isWritable = true :=
  writable_int (n := n) h

end Expr

@[simp] theorem Expr.writable_literal {m e : Nat} (h : m < 2 ^ 53) :
    (OfScientific.ofScientific m true e : Expr).every Expr.isWritable = true :=
  (Double.between_literal h (Nat.zero_mul _ ▸ Nat.zero_le m) (Nat.le_mul_of_pos_right m (tenTo_pos e))).isFinite

namespace Statement

theorem writable_call {name : Text} (hname : name.isPlain = true) {args : List Expr}
    (h : Expr.everyOf Expr.isWritable args = true) : (call name args).isWritable = true := by
  rw [isWritable, hname, h]
  rfl

/-- A statement about integers that can be written. -/
theorem writable_ints {name : String} (hname : (name : Text).isPlain = true) : ∀ {args : List Int},
    (∀ n ∈ args, (Expr.int n).every Expr.isWritable = true) → (callInts name args).isWritable = true
  | [], _ => writable_call hname rfl
  | n :: args, h => by
    have hrest := writable_ints hname fun k hk => h k (List.mem_cons_of_mem n hk)
    rw [callInts, isWritable, hname, Bool.true_and] at hrest ⊢
    rw [List.map_cons, Expr.everyOf, h n List.mem_cons_self, hrest]
    rfl

theorem writable_callInts {name : String} (hname : (name : Text).isPlain = true) {args : List Int}
    (h : ∀ n ∈ args, n.natAbs < 2 ^ 53) : (callInts name args).isWritable = true :=
  writable_ints hname fun n hn => Expr.writable_int (h n hn)

end Statement

/-- What a style draws is there, and can be written. -/
def Statement.Drawn (drawing : Except Error (List Statement)) : Prop :=
  ∃ ss, drawing = .ok ss ∧ Statement.areWritable ss = true

theorem lift_bind_eq_ok {α β : Type} {x : Except ArithmeticError α} {f : α → Except Error β} {a : α} {b : β}
    (hx : x = .ok a) (hf : f a = .ok b) : ((x : Except Error α) >>= f) = .ok b := by
  rw [hx]
  exact hf

/-! ## Cells -/

/-- The most that the sides of a sheet may be, as a power of two: quantities of cells are four times as large at most. -/
def sheetLimit : Nat := 1021

/-- A sample of bytes that lies on a sheet. -/
structure Sample.Fits (k : Nat) (s : Sample) : Prop where
  channels : ∀ n ∈ [s.r, s.g, s.b, s.a], 0 ≤ n ∧ n ≤ 255
  destX : OnSheet k s.destX
  destY : OnSheet k s.destY

theorem OnSheet.exists_most {k : Nat} {n : Int} (h : OnSheet k n) (hk : k ≤ sheetLimit) :
    ∃ x m, (0.8 : Double).scale n = .ok x ∧ x.ceil = .ok m ∧ OnSheet k m := by
  unfold sheetLimit at hk
  have hshare : Between 0 1 (0.8 : Double) := Double.between_literal (by decide) (by decide) (by decide)
  have hone : UpTo 0 (0.8 : Double) := hshare.upTo (by decide)
  obtain ⟨x, hx, hupTo⟩ := hone.scale h (by omega)
  obtain ⟨m, hm, honSheet⟩ := hupTo.ceil
  exact ⟨x, m, hx, hm, honSheet⟩

namespace Cell

structure Fits (k : Nat) (c : Cell) : Prop where
  sample : c.sample.Fits k
  brightness : Between 0 255 c.brightness
  cellSize : OnSheet k c.cellSize
  variableSize : UpTo (k + 1) c.variableSize

theorem shareOf_between {x : Double} (h : Between 0 255 x) : Between 0 1 (shareOf x) := by
  have hmost : Between 255 255 (255.0 : Double) := Double.between_literal (by decide) (by decide) (by decide)
  exact h.div hmost (by decide) (by decide) (by decide) (by decide)

theorem exists_brightness {s : Sample} (hs : s.IsOfBytes) :
    ∃ x, Double.quotient s.light 3 = .ok x ∧ Between 0 255 x := by
  obtain ⟨m, hm, hr⟩ := exists_third hs.light_nonneg hs.light_le
  exact ⟨_, hm, m, rfl, by exact_mod_cast m.value_nonneg, by exact_mod_cast brightness_le hr hs.light_le⟩

/-- **The cell of a sample on a sheet has room there.** -/
theorem exists_fits {k : Nat} (hk : k ≤ sheetLimit) {s : Sample} (hs : s.Fits k) {size : Int} (h1 : 1 ≤ size)
    (hsize : OnSheet k size) (includeAlpha : Bool) : ∃ c, ofSample s size includeAlpha = .ok c ∧ c.Fits k := by
  unfold sheetLimit at hk
  obtain ⟨brightness, hq, hbright⟩ := exists_brightness hs.channels
  have hless : OnSheet k (size - 1) := ⟨by omega, by linarith [hsize.2]⟩
  have hshare : UpTo 0 (shareOf brightness) := (shareOf_between hbright).upTo (by decide)
  obtain ⟨grown, hgrown, hupTo⟩ := hshare.scale hless (by omega)
  have hone : Between 1 1 (1.0 : Double) := Double.between_literal (by decide) (by decide) (by decide)
  have hvariable : UpTo (k + 1) (grown + 1.0) := hupTo.add (hone.upTo Nat.one_le_two_pow) (by omega)
  exact ⟨_, ofSample_eq_ok.2 ⟨brightness, grown, hq, hgrown, rfl⟩, hs, hbright, hsize, hvariable⟩

/-- **There is a glyph for each brightness.** -/
theorem exists_glyph {brightness : Double} (h : Between 0 255 brightness) :
    ∃ i glyph, rampIndex (.real brightness) asciiRamp.length = .ok i ∧ glyphAt asciiRamp i = .ok glyph := by
  obtain ⟨m, rfl, -, hmost⟩ := h
  have hlength : 1 ≤ asciiRamp.length ∧ asciiRamp.length < 2 ^ 53 := by decide
  have hle : m.value ≤ 255 := by exact_mod_cast hmost
  obtain ⟨place, hplace⟩ := exists_rampPlace hlength.1 hlength.2 (n := .real (.finite false m)) rfl m.value_nonneg hle
  obtain ⟨glyph, -, hglyph⟩ := glyphAt_eq hlength.2 place.index_nonneg (place.index_le hlength.1 hlength.2 hle)
  exact ⟨_, glyph, hplace, hglyph⟩

/-- **There is a shade of marble for each brightness.** -/
theorem exists_marble {brightness : Double} (h : Between 0 255 brightness) :
    ∃ marble : Int, (brightness * 0.8 + 40.0).floor = .ok marble ∧ 40 ≤ marble ∧ marble ≤ 295 := by
  have hshare : Between 0 1 (0.8 : Double) := Double.between_literal (by decide) (by decide) (by decide)
  have hleast : Between 40 40 (40.0 : Double) := Double.between_literal (by decide) (by decide) (by decide)
  exact ((h.mul hshare (by decide)).add hleast (by decide)).floor

/-! ## Quantities -/

namespace Fits

variable {k : Nat} {c : Cell} (h : c.Fits k) (hk : k ≤ sheetLimit)

include h

theorem x : OnSheet k c.x := h.sample.destX

theorem y : OnSheet k c.y := h.sample.destY

theorem colour : ∀ n ∈ c.colour, (Expr.int n).every Expr.isWritable = true := by
  intro n hn
  have := h.sample.channels n (mem_channels hn)
  exact Expr.writable_int (by omega)

theorem fill : c.fill.isWritable = true := Statement.writable_ints (by decide) h.colour

include hk

theorem center : ∃ cx cy, c.center = .ok (cx, cy) ∧ cx.isFinite = true ∧ cy.isFinite = true := by
  unfold sheetLimit at hk
  obtain ⟨d, hd, hupTo⟩ := Double.half_upTo h.cellSize (by omega)
  obtain ⟨cx, hcx, hx⟩ := hupTo.shift h.x (by omega)
  obtain ⟨cy, hcy, hy⟩ := hupTo.shift h.y (by omega)
  refine ⟨cx, cy, ?_, hx.isFinite, hy.isFinite⟩
  unfold Cell.center
  exact bind_eq_ok.2 ⟨d, hd, bind_eq_ok.2 ⟨cx, hcx, bind_eq_ok.2 ⟨cy, hcy, rfl⟩⟩⟩

/-- The places and lengths of a cell, and its far corner. -/
theorem writable : ∀ n ∈ [c.x, c.y, c.cellSize, c.x + c.cellSize, c.y + c.cellSize],
    (Expr.int n).every Expr.isWritable = true := by
  have hlimit : k + 1 < Decimal.digitLimit := lt_of_le_of_lt (Nat.succ_le_succ hk) (by decide)
  intro n hn
  simp only [List.mem_cons, List.not_mem_nil, or_false] at hn
  have honSheet : OnSheet (k + 1) n := by
    rcases hn with rfl | rfl | rfl | rfl | rfl
    · exact h.x.mono (Nat.le_succ k)
    · exact h.y.mono (Nat.le_succ k)
    · exact h.cellSize.mono (Nat.le_succ k)
    · exact h.x.add h.cellSize
    · exact h.y.add h.cellSize
  exact Expr.writable_onSheet honSheet hlimit

theorem square : c.square.isWritable = true := by
  have hwritable := h.writable hk
  refine Statement.writable_ints (by decide) fun n hn => hwritable n ?_
  simp only [List.mem_cons, List.not_mem_nil, or_false] at hn ⊢
  tauto

omit h hk in
theorem circleAt {cx cy : Double} {diameter : Expr} (hx : cx.isFinite = true) (hy : cy.isFinite = true)
    (hd : diameter.every Expr.isWritable = true) : (Cell.circleAt cx cy diameter).isWritable = true := by
  refine Statement.writable_call (by decide) ?_
  simp only [Expr.everyOf, Expr.writable_real, hx, hy, hd, Bool.and_self]

/-! ## Styles -/

theorem pixels : Statement.Drawn (.ok c.pixels) := by
  refine ⟨_, rfl, ?_⟩
  rw [Cell.pixels, Statement.areWritable, h.fill, Statement.areWritable, h.square hk]
  rfl

theorem circles : Statement.Drawn c.circles := by
  obtain ⟨cx, cy, hcenter, hx, hy⟩ := h.center hk
  have hwritable := h.writable hk
  simp only [List.forall_mem_cons] at hwritable
  refine ⟨_, lift_bind_eq_ok hcenter rfl, ?_⟩
  simp only [Statement.areWritable, h.fill, circleAt hx hy hwritable.2.2.1, Bool.and_self]

theorem triangles : Statement.Drawn c.triangles := by
  have hwritable := h.writable hk
  simp only [List.forall_mem_cons] at hwritable
  unfold sheetLimit at hk
  obtain ⟨d, hd, hupTo⟩ := Double.half_upTo h.cellSize (by omega)
  obtain ⟨apex, hapex, hapex'⟩ := hupTo.shift h.x (by omega)
  refine ⟨_, lift_bind_eq_ok hd (lift_bind_eq_ok hapex rfl), ?_⟩
  have htriangle : (Statement.call "triangle" [.real apex, .int c.y, .int c.x, .int (c.y + c.cellSize),
      .int (c.x + c.cellSize), .int (c.y + c.cellSize)]).isWritable = true := by
    refine Statement.writable_call (by decide) ?_
    simp only [Expr.everyOf, Expr.writable_real, hapex'.isFinite, hwritable, Bool.and_self]
  simp only [Statement.areWritable, h.fill, htriangle, Bool.and_self]

theorem lines : Statement.Drawn c.lines := by
  have hwritable := h.writable hk
  simp only [List.forall_mem_cons] at hwritable
  obtain ⟨width, weight, hwidth, hweight, honSheet⟩ := h.cellSize.exists_most hk
  unfold sheetLimit at hk
  obtain ⟨bottom, hbottom, hbottom'⟩ := h.variableSize.shift (h.y.mono (Nat.le_succ k)) (by omega)
  refine ⟨_, lift_bind_eq_ok hwidth (lift_bind_eq_ok hweight (lift_bind_eq_ok hbottom rfl)), ?_⟩
  have hstroke : (Statement.callInts "stroke" c.colour).isWritable = true :=
    Statement.writable_ints (by decide) h.colour
  have hweights : (Statement.callInts "strokeWeight" [weight]).isWritable = true := by
    refine Statement.writable_ints (by decide) fun n hn => ?_
    rw [List.mem_singleton.1 hn]
    exact Expr.writable_onSheet honSheet (lt_of_le_of_lt hk (by decide))
  have hline : (Statement.call "line" [.int c.x, .int c.y, .int c.x, .real bottom]).isWritable = true := by
    refine Statement.writable_call (by decide) ?_
    simp only [Expr.everyOf, Expr.writable_real, hbottom'.isFinite, hwritable, Bool.and_self]
  simp only [Statement.areWritable, hstroke, hweights, hline, Bool.and_self]

theorem dots : Statement.Drawn c.dots := by
  obtain ⟨cx, cy, hcenter, hx, hy⟩ := h.center hk
  refine ⟨_, lift_bind_eq_ok hcenter rfl, ?_⟩
  have hdiameter : (Expr.real c.variableSize).every Expr.isWritable = true := h.variableSize.isFinite
  simp only [Statement.areWritable, h.fill, circleAt hx hy hdiameter, Bool.and_self]

theorem ascii : Statement.Drawn c.ascii := by
  obtain ⟨cx, cy, hcenter, hx, hy⟩ := h.center hk
  obtain ⟨i, glyph, hi, hglyph⟩ := exists_glyph h.brightness
  refine ⟨_, lift_bind_eq_ok hcenter (lift_bind_eq_ok hi (bind_eq_ok.2 ⟨glyph, mapError_eq_ok.2 hglyph, rfl⟩)), ?_⟩
  have htext : (Statement.call "text" [.text (String.singleton glyph), .real cx, .real cy]).isWritable = true := by
    refine Statement.writable_call (by decide) ?_
    simp only [Expr.everyOf, Expr.writable_real, hx, hy, Bool.and_self, Bool.and_true]
    rfl
  simp only [Statement.areWritable, htext, Bool.and_self]

theorem psychedelic : Statement.Drawn c.psychedelic := by
  have hwritable := h.writable hk
  simp only [List.forall_mem_cons] at hwritable
  have hhalf : Between 0 1 (0.5 : Double) := Double.between_literal (by decide) (by decide) (by decide)
  have hmore : Between 1 2 (1.5 : Double) := Double.between_literal (by decide) (by decide) (by decide)
  have hturn : Between 360 360 (360.0 : Double) := Double.between_literal (by decide) (by decide) (by decide)
  have hseed : (shareOf c.brightness * 360.0 + 360.0).isFinite = true :=
    (((shareOf_between h.brightness).mul hturn (by decide)).add hturn (by decide)).isFinite
  obtain ⟨cx, cy, hcenter, hcx, hcy⟩ := h.center hk
  unfold sheetLimit at hk
  obtain ⟨least, hleast, hleast'⟩ := (hhalf.upTo (by decide) : UpTo 0 _).scale h.cellSize (by omega)
  obtain ⟨most, hmost, hmost'⟩ := (hmore.upTo (by decide) : UpTo 1 _).scale h.cellSize (by omega)
  refine ⟨_, lift_bind_eq_ok hcenter (lift_bind_eq_ok hleast (lift_bind_eq_ok hmost rfl)), ?_⟩
  have ht : (Expr.variable "t").every Expr.isWritable = true := by decide
  simp +decide [Statement.areWritable, Statement.isWritable, Expr.everyOf, Expr.every_apply, Expr.isWritable, ht,
    hwritable, hcx, hcy, hseed, hleast'.isFinite, hmost'.isFinite]

theorem statue : Statement.Drawn c.statue := by
  obtain ⟨marble, hmarble, hlow, hhigh⟩ := exists_marble h.brightness
  refine ⟨_, lift_bind_eq_ok hmarble rfl, ?_⟩
  have hfill : (Statement.callInts "fill" [marble - 20, marble - 10, marble + 15]).isWritable = true := by
    refine Statement.writable_callInts (by decide) fun n hn => ?_
    simp only [List.mem_cons, List.not_mem_nil, or_false] at hn
    omega
  simp only [Statement.areWritable, hfill, h.square hk, Bool.and_self]

theorem animation : Statement.Drawn c.animation := by
  have hwritable := h.writable hk
  have hchannel : ∀ n ∈ [c.sample.r, c.sample.g, c.sample.b, c.sample.a], (Expr.int n).every Expr.isWritable = true := by
    intro n hn
    have := h.sample.channels n hn
    exact Expr.writable_int (by omega)
  simp only [List.forall_mem_cons] at hchannel hwritable
  obtain ⟨cx, cy, hcenter, hcx, hcy⟩ := h.center hk
  refine ⟨_, lift_bind_eq_ok hcenter rfl, ?_⟩
  have hframe : (Expr.variable "frame").every Expr.isWritable = true := by decide
  simp +decide [Statement.areWritable, Statement.isWritable, Expr.everyOf, hframe, hchannel, hcx, hcy, hwritable]

end Fits

end Cell

/-- **Each style draws a cell that has room**, with statements that can be written. -/
theorem Style.emit_fits (style : Style) {k : Nat} (hk : k ≤ sheetLimit) {c : Cell} (h : c.Fits k) :
    Statement.Drawn (style.emit c) := by
  cases style with
  | pixels => exact h.pixels hk
  | circles => exact h.circles hk
  | triangles => exact h.triangles hk
  | lines => exact h.lines hk
  | dots => exact h.dots hk
  | ascii => exact h.ascii hk
  | psychedelic => exact h.psychedelic hk
  | statue => exact h.statue hk
  | animation => exact h.animation hk

/-! ## On a canvas -/

def OnCanvas (n : Int) : Prop := 0 ≤ n ∧ n ≤ 2 ^ 31

/-- A sample of bytes that lies on the canvas. -/
structure Sample.Bounded (s : Sample) : Prop where
  channels : ∀ n ∈ [s.r, s.g, s.b, s.a], 0 ≤ n ∧ n ≤ 255
  destX : OnCanvas s.destX
  destY : OnCanvas s.destY

namespace Cell

structure Bounded (c : Cell) : Prop where
  sample : c.sample.Bounded
  brightness : Between 0 255 c.brightness
  cellSize : OnCanvas c.cellSize
  variableSize : Between 1 (2 ^ 31) c.variableSize

theorem Bounded.x {c : Cell} (h : c.Bounded) : OnCanvas c.x := h.sample.destX

theorem Bounded.y {c : Cell} (h : c.Bounded) : OnCanvas c.y := h.sample.destY

theorem Bounded.exact_center {c : Cell} (h : c.Bounded) : ∃ cx cy, c.center = .ok (cx, cy) ∧
    Exactly (c.x + c.cellSize / 2) cx ∧ Exactly (c.y + c.cellSize / 2) cy := by
  obtain ⟨hx0, hx⟩ := h.x
  obtain ⟨hy0, hy⟩ := h.y
  obtain ⟨hs0, hs⟩ := h.cellSize
  obtain ⟨half, hhalf, hexact⟩ := Double.exists_half hs0 (by omega)
  obtain ⟨cx, hcx, hcxExact⟩ := Double.exists_middle hx0 hs0 (by omega) hexact
  obtain ⟨cy, hcy, hcyExact⟩ := Double.exists_middle hy0 hs0 (by omega) hexact
  refine ⟨cx, cy, ?_, hcxExact, hcyExact⟩
  unfold Cell.center
  exact bind_eq_ok.2 ⟨half, hhalf, bind_eq_ok.2 ⟨cx, hcx, bind_eq_ok.2 ⟨cy, hcy, rfl⟩⟩⟩

/-- **The cell of a bounded sample is bounded.** -/
theorem exists_ofSample {s : Sample} (hs : s.Bounded) {size : Int} (h1 : 1 ≤ size) (hsize : OnCanvas size)
    (includeAlpha : Bool) : ∃ c, ofSample s size includeAlpha = .ok c ∧ c.Bounded := by
  have hmost : size ≤ 2 ^ 31 := hsize.2
  have hlight : s.light ≤ 765 := Sample.IsOfBytes.light_le hs.channels
  obtain ⟨g, hg⟩ := exists_growth hs.channels h1 (by omega) includeAlpha
  have htotal : g.total.value ≤ (2 ^ 31 : Nat) :=
    (g.total_le hlight h1 (by omega)).trans (by exact_mod_cast hmost)
  refine ⟨_, hg, hs, ⟨g.brightness, rfl, ?_, ?_⟩, hsize, ⟨g.total, rfl, by exact_mod_cast g.one_le_total, htotal⟩⟩
  · exact_mod_cast g.brightness.value_nonneg
  · exact_mod_cast brightness_le g.brightness_rounds hlight

end Cell

end RasterSketch
