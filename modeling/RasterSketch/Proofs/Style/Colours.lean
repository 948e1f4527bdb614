import RasterSketch.Proofs.Drawing
import RasterSketch.Proofs.Number.Between
import RasterSketch.Proofs.Style.Brightness
/-!
# Colours

What a program of a still style sets a colour to is a byte (`Buffer.still_colours`), with one exception: marble is
tinted by fifteen beyond its shade, which for samples of light 754 and more is beyond a byte, by four at most.

A shade of marble is rounded from the light of its sample, step by step, and each step keeps the order (`Marble`), so
that the shades of a few lights bound all others (`marbleOf_mem`).
-/
namespace RasterSketch

open Magnitude
open Double (Between Exactly)

/-! ## Calls that set a colour -/

/-- The literal of a byte. -/
def Expr.IsByte (e : Expr) : Prop := ∃ n : Int, e = .int n ∧ 0 ≤ n ∧ n ≤ 255

instance : DecidablePred Expr.IsByte
  | .number (.int n) =>
    decidable_of_iff (0 ≤ n ∧ n ≤ 255) ⟨fun h => ⟨n, rfl, h⟩, fun ⟨_, hn, h⟩ => by cases hn; exact h⟩
  | .number (.real _) | .variable _ | .text _ | .apply .. | .binary .. | .foreign _ =>
    .isFalse fun ⟨_, h, _⟩ => by cases h

theorem Expr.isByte_ints {l : List Int} (h : ∀ n ∈ l, 0 ≤ n ∧ n ≤ 255) : ∀ e ∈ l.map Expr.int, e.IsByte := by
  intro e he
  obtain ⟨n, hn, rfl⟩ := List.mem_map.1 he
  exact ⟨n, rfl, h n hn⟩

def colourNames : List Text := ["fill", "stroke", "background"]

namespace Statement

mutual

/-- The arguments of each call that sets a colour, also of those in the body of a function. -/
def colourArgs : Statement → List (List Expr)
  | .call name args => if name ∈ colourNames then [args] else []
  | .function _ _ body => colourArgsOf body
  | .declare .. | .increment .. | .result .. | .foreign .. => []

def colourArgsOf : List Statement → List (List Expr)
  | [] => []
  | s :: ss => s.colourArgs ++ colourArgsOf ss

end

end Statement

open Statement (colourArgsOf)

/-- All that a program sets a colour to but for its statements. -/
def Program.frameColours (p : Program) : List (List Expr) :=
  colourArgsOf p.globals ++ colourArgsOf p.setup ++ colourArgsOf p.prologue ++ colourArgsOf p.epilogue ++ colourArgsOf p.helpers

/-! ## Frames -/

namespace StyleRef

variable {r : StyleRef} {grid : Grid}

theorem textPrologue_colours {text : List Statement} (h : r.textPrologue grid = .ok text) :
    ∀ args ∈ colourArgsOf text, ∀ e ∈ args, e.IsByte := by
  unfold textPrologue at h
  split at h
  · obtain ⟨width, -, h⟩ := bind_eq_ok.1 h
    obtain ⟨size, -, h⟩ := bind_eq_ok.1 h
    obtain rfl := Except.ok.inj h
    intro args hargs
    rw [List.mem_singleton.1 hargs]
    exact Expr.isByte_ints (l := [0]) (by decide)
  · obtain rfl := Except.ok.inj h
    exact fun args hargs => (by cases hargs)

/-- **A frame sets colours to bytes**, that of a moving style as well. -/
theorem frame_colours {p : Program} (h : r.frame grid = .ok p) : ∀ args ∈ p.frameColours, ∀ e ∈ args, e.IsByte := by
  obtain ⟨style, hstyle, h⟩ := bind_eq_ok.1 h
  obtain ⟨text, htext, h⟩ := bind_eq_ok.1 h
  have hbytes := textPrologue_colours (mapError_eq_ok.1 htext)
  -- besides the text there is one call, of the background
  obtain ⟨shade, hshade, hcolours⟩ : ∃ shade : Int, (0 ≤ shade ∧ shade ≤ 255) ∧
      p.frameColours = [Expr.int shade] :: (colourArgsOf text ++ [] ++ []) := by
    split at h
    · obtain rfl := Except.ok.inj h
      exact ⟨255, by decide, rfl⟩
    · obtain rfl := Except.ok.inj h
      cases hhues : r.isExactly .psychedelic with
      | false => exact ⟨255, by decide, rfl⟩
      | true => exact ⟨0, by decide, rfl⟩
  intro args hargs
  rw [hcolours, List.append_nil, List.append_nil] at hargs
  rcases List.mem_cons.1 hargs with rfl | hargs
  · exact Expr.isByte_ints (l := [shade]) (by simpa using hshade)
  · exact hbytes args hargs

end StyleRef

/-! ## Marble -/

/-- How a sample of some light is tinted as marble, rounded at every step. -/
structure Marble (light : Int) where
  brightness : Magnitude
  tint : Magnitude
  total : Magnitude
  brightness_rounds : Rounds (light / 3) brightness
  tint_rounds : Rounds (brightness.value * (0.8 : Double).value) tint
  total_rounds : Rounds (tint.value + 40) total

/-- The shade of marble for a light. -/
def marbleOf (light : Int) : Except ArithmeticError Int := do
  ((← Double.quotient light 3) * 0.8 + 40.0).floor

namespace Marble

variable {light light' : Int}

def shade (m : Marble light) : Int := ⌊m.total.value⌋

/-- **More light has no darker shade.** -/
theorem shade_mono (m : Marble light) (m' : Marble light') (h : light ≤ light') : m.shade ≤ m'.shade := by
  have hbrightness := brightness_mono m.brightness_rounds m'.brightness_rounds h
  have hshare : (0 : ℚ) ≤ (0.8 : Double).value := by decide +kernel
  have htint := m.tint_rounds.mono m'.tint_rounds (mul_le_mul_of_nonneg_right hbrightness hshare)
  exact Int.floor_le_floor (m.total_rounds.mono m'.total_rounds (by linarith))

end Marble

/-- **There is a shade of marble for each light** that a sample of bytes has. -/
theorem exists_marble {light : Int} (h0 : 0 ≤ light) (h : light ≤ 765) :
    ∃ m : Marble light, marbleOf light = .ok m.shade := by
  obtain ⟨share, hshare, -, hshareLe⟩ : Between 0 1 (0.8 : Double) :=
    Double.between_literal (by decide) (by decide) (by decide)
  obtain ⟨least, hleast, hleastValue⟩ : Exactly ((40 : Nat) : ℚ) (40.0 : Double) := Double.exactly_whole (by decide)
  have hvalue : (0.8 : Double).value = share.value := by rw [hshare]; rfl
  push_cast at hshareLe hleastValue
  obtain ⟨brightness, hbrightness, hbrightnessRounds⟩ := exists_third h0 h
  have hbright : brightness.value ≤ 255 := brightness_le hbrightnessRounds h
  have htintLe : brightness.value * share.value ≤ brightness.value :=
    mul_le_of_le_one_right brightness.value_nonneg hshareLe
  obtain ⟨tint, htint, htintRounds⟩ := Double.mul_rounds brightness.isValue htintLe
  have htotalLe : tint.value + least.value ≤ (295 : Nat) := by
    have := htintRounds.value_le brightness.isValue htintLe
    push_cast
    linarith
  obtain ⟨total, htotal, htotalRounds⟩ := Double.add_rounds (isValue_natCast (by decide)) htotalLe
  rw [← hvalue] at htintRounds
  rw [hleastValue] at htotalRounds
  refine ⟨⟨brightness, tint, total, hbrightnessRounds, htintRounds, htotalRounds⟩, ?_⟩
  refine bind_eq_ok.2 ⟨_, hbrightness, ?_⟩
  rw [hshare, htint, hleast, htotal]
  exact Double.floor_finite total

theorem marbleOf_mono {light light' : Int} {shade shade' : Int} (h0 : 0 ≤ light) (h : light ≤ light')
    (h' : light' ≤ 765) (hm : marbleOf light = .ok shade) (hm' : marbleOf light' = .ok shade') : shade ≤ shade' := by
  obtain ⟨m, hshade⟩ := exists_marble h0 (h.trans h')
  obtain ⟨m', hshade'⟩ := exists_marble (h0.trans h) h'
  obtain rfl := Except.ok.inj (hm.symm.trans hshade)
  obtain rfl := Except.ok.inj (hm'.symm.trans hshade')
  exact m.shade_mono m' h

/-- **The shades of marble**: from the light of 754 on they are so bright that their tint is beyond a byte. -/
theorem marbleOf_mem {light shade : Int} (h0 : 0 ≤ light) (h : light ≤ 765) (hm : marbleOf light = .ok shade) :
    40 ≤ shade ∧ shade ≤ 244 ∧ (shade ≤ 240 ↔ light < 754) := by
  have hleast : marbleOf 0 = .ok 40 := by decide +kernel
  have hbelow : marbleOf 753 = .ok 240 := by decide +kernel
  have habove : marbleOf 754 = .ok 241 := by decide +kernel
  have hmost : marbleOf 765 = .ok 244 := by decide +kernel
  refine ⟨marbleOf_mono le_rfl h0 h hleast hm, marbleOf_mono h0 h le_rfl hm hmost, ?_⟩
  rcases Int.lt_or_le light 754 with hlt | hge
  · exact iff_of_true (marbleOf_mono h0 (by omega : light ≤ 753) (by decide) hm hbelow) hlt
  · have := marbleOf_mono (by decide) hge h habove hm
    exact iff_of_false (by omega) (by omega)

/-! ## Cells -/

namespace Style

/-- What a style may set a colour to for a sample: bytes, but for the tint of bright marble. -/
def Tints (style : Style) (s : Sample) (args : List Expr) : Prop :=
  if style = .statue ∧ 754 ≤ s.light then
    ∃ r g b : Int, args = [.int r, .int g, .int b] ∧ (0 ≤ r ∧ r ≤ 255) ∧ (0 ≤ g ∧ g ≤ 255) ∧ 256 ≤ b ∧ b ≤ 259
  else ∀ e ∈ args, e.IsByte

variable {style : Style} {c : Cell} {group : List Statement}

/-- A still style draws a cell in its own colour, if in any, unless it makes it marble. -/
theorem emit_colours (hstill : style.canvas = .still) (hstatue : style ≠ .statue) (h : style.emit c = .ok group) :
    ∀ args ∈ colourArgsOf group, args = c.colour.map Expr.int := by
  cases style with
  | pixels =>
    obtain rfl := Except.ok.inj h
    exact fun args hargs => List.mem_singleton.1 hargs
  | circles | dots =>
    obtain ⟨center, -, h⟩ := bind_eq_ok.1 h
    obtain rfl := Except.ok.inj h
    exact fun args hargs => List.mem_singleton.1 hargs
  | triangles =>
    obtain ⟨half, -, h⟩ := bind_eq_ok.1 h
    obtain ⟨apex, -, h⟩ := bind_eq_ok.1 h
    obtain rfl := Except.ok.inj h
    exact fun args hargs => List.mem_singleton.1 hargs
  | lines =>
    obtain ⟨width, -, h⟩ := bind_eq_ok.1 h
    obtain ⟨weight, -, h⟩ := bind_eq_ok.1 h
    obtain ⟨bottom, -, h⟩ := bind_eq_ok.1 h
    obtain rfl := Except.ok.inj h
    exact fun args hargs => List.mem_singleton.1 hargs
  | ascii =>
    obtain ⟨center, -, h⟩ := bind_eq_ok.1 h
    obtain ⟨i, -, h⟩ := bind_eq_ok.1 h
    obtain ⟨glyph, -, h⟩ := bind_eq_ok.1 h
    obtain rfl := Except.ok.inj h
    exact fun args hargs => (by cases hargs)
  | statue => exact absurd rfl hstatue
  | psychedelic => cases hstill
  | animation => cases hstill

theorem statue_colours {s : Sample} {size : Int} {includeAlpha : Bool}
    (hc : Cell.ofSample s size includeAlpha = .ok c) (h : c.statue = .ok group) :
    ∃ shade, marbleOf s.light = .ok shade ∧
      colourArgsOf group = [[.int (shade - 20), .int (shade - 10), .int (shade + 15)]] := by
  obtain ⟨brightness, grown, hbrightness, -, rfl⟩ := Cell.ofSample_eq_ok.1 hc
  obtain ⟨shade, hshade, h⟩ := bind_eq_ok.1 h
  obtain rfl := Except.ok.inj h
  exact ⟨shade, bind_eq_ok.2 ⟨brightness, hbrightness, mapError_eq_ok.1 hshade⟩, rfl⟩

/-- **A still style sets colours to bytes for a sample of bytes**, but for the tint of bright marble. -/
theorem draw_tints {config : StyleConfig} {size : Int} {s : Sample} (hstill : style.canvas = .still)
    (hs : s.IsOfBytes) (h : style.draw config size s = .ok group) : ∀ args ∈ colourArgsOf group, style.Tints s args := by
  unfold draw at h
  split at h
  · obtain ⟨c, hc, h⟩ := bind_eq_ok.1 h
    have hc := mapError_eq_ok.1 hc
    intro args hargs
    -- marble is the one colour that is not the sample's own
    by_cases hstatue : style = .statue
    · subst hstatue
      obtain ⟨shade, hshade, hcolours⟩ := statue_colours hc h
      obtain ⟨hlow, hhigh, hbright⟩ := marbleOf_mem hs.light_nonneg hs.light_le hshade
      rw [hcolours] at hargs
      obtain rfl := List.mem_singleton.1 hargs
      unfold Tints
      split
      · rename_i hcond
        exact ⟨_, _, _, rfl, by omega, by omega, by omega, by omega⟩
      · rename_i hcond
        have hdark : shade ≤ 240 := hbright.2 (by simpa using hcond)
        refine Expr.isByte_ints (l := [shade - 20, shade - 10, shade + 15]) fun n hn => ?_
        simp only [List.mem_cons, List.not_mem_nil, or_false] at hn
        omega
    · obtain ⟨brightness, grown, -, -, rfl⟩ := Cell.ofSample_eq_ok.1 hc
      rw [emit_colours hstill hstatue h args hargs]
      unfold Tints
      rw [if_neg fun hcond => hstatue hcond.1]
      exact Expr.isByte_ints fun n hn => hs n (Cell.mem_channels hn)
  · obtain rfl := Except.ok.inj h
    exact fun args hargs => (by cases hargs)

end Style

/-! ## Programs -/

namespace Buffer

/-- The samples of a buffer are of bytes. -/
theorem samples_areOfBytes {b : Buffer} {scale : Number} {step : Nat} (hs : 0 < step) {samples : List Sample}
    (h : (Scan.gridPoints (Scan.cells b.width step) step 0 (Scan.cells b.height step)).mapM
      (Scan.samplePoint b scale) = .ok samples) : ∀ s ∈ samples, s.IsOfBytes := by
  obtain ⟨hall, rfl⟩ := mapM_eq_ok.1 h
  intro s hs'
  obtain ⟨p, hp, rfl⟩ := List.mem_map.1 hs'
  obtain ⟨gx, gy, -, hy, rfl⟩ := Scan.exists_of_mem_gridPoints hp
  exact Scan.samplePoint_isOfBytes ((Scan.lt_cells_iff hs).1 hy) (hall _ hp)

/-- A program of a buffer sets colours as its style may: to bytes outside of its statements, and in them, sample by sample,
to what the style may set them to. -/
def ColouredIn (b : Buffer) (style : Style) (config : StyleConfig) (bound : Int) (p : Program) : Prop :=
  (∀ args ∈ p.frameColours, ∀ e ∈ args, e.IsByte) ∧
    ∃ grid samples groups, b.gridFor config bound = .ok grid ∧ (b.samplesOn grid).toList = .ok samples ∧
      p.statements = groups.flatten ∧
      List.Forall₂ (fun s group => style.draw config grid.cellSize s = .ok group ∧
        ∀ args ∈ colourArgsOf group, style.Tints s args) samples groups

/-- **What a program of a still style sets a colour to is a byte**, but for the tint of bright marble. -/
theorem still_colours (b : Buffer) (name : Value) (style : Style) (config : Option StyleConfig) (bound : Int)
    (p : Program) (hstyle : Style.ofValue name = .ok style) (hstill : style.canvas = .still)
    (h : b.toProgramNamed name config bound = .ok p) : b.ColouredIn style (configOr style config) bound p := by
  obtain ⟨named, hnamed, h⟩ := bind_eq_ok.1 h
  obtain rfl := Except.ok.inj (hstyle.symm.trans hnamed)
  obtain ⟨grid, frame, groups, hg, hf, hgroups, rfl⟩ := of_toProgram h
  have hstep := (Grid.step_bounds hg).1
  have hw : 0 < b.width := by exact_mod_cast (Grid.of_compute hg).1
  obtain ⟨samples, hsamples, hdraw⟩ := mapM_bind_eq_ok hgroups
  have hbytes := samples_areOfBytes (by omega : 0 < grid.step.toNat) hsamples
  refine ⟨StyleRef.frame_colours (p := frame) hf, grid, samples, groups, hg, ?_, rfl, ?_⟩
  · rw [samplesOn_eq hstep hw, Delivery.toList_traverse]
    exact hsamples
  · have hall := (List.forall₂_and_left samples groups).2 ⟨hbytes, mapM_eq_ok_iff_forall₂.1 hdraw⟩
    exact hall.imp fun s group hsg => ⟨hsg.2, style.draw_tints hstill hsg.1 hsg.2⟩

theorem threeByTwo_coloured : Style.ofValue (.bare "statue") = .ok .statue ∧ Style.statue.canvas = .still ∧
    ∃ p, threeByTwo.toProgramNamed (.bare "statue") (some ⟨1, 128, true⟩) targetMax = .ok p ∧
      threeByTwo.ColouredIn .statue ⟨1, 128, true⟩ targetMax p := by
  obtain ⟨p, hp⟩ := exists_ok (x := threeByTwo.toProgramNamed (.bare "statue") (some ⟨1, 128, true⟩) targetMax)
    (by decide +kernel)
  exact ⟨rfl, rfl, p, hp, still_colours _ _ .statue _ _ p rfl rfl hp⟩

/-- A single white pixel. -/
def whitePixel : Buffer where
  width := 1
  height := 1
  bytes := #[255, 255, 255, 255]
  size_eq := by decide

/-- The tint of a white pixel as marble is no byte. -/
theorem whitePixel_marble : ∃ p, whitePixel.toProgramNamed (.bare "statue") none targetMax = .ok p ∧
    Style.ofValue (.bare "statue") = .ok .statue ∧ Style.statue.canvas = .still ∧
    ∃ args ∈ colourArgsOf p.statements, ∃ e ∈ args, ¬ e.IsByte := by
  obtain ⟨p, hp, htint⟩ := exists_ok_of_any (x := whitePixel.toProgramNamed (.bare "statue") none targetMax)
    (p := fun p => decide (∃ args ∈ colourArgsOf p.statements, ∃ e ∈ args, ¬ e.IsByte)) (by decide +kernel)
  exact ⟨p, hp, rfl, rfl, of_decide_eq_true htint⟩

end Buffer

end RasterSketch
