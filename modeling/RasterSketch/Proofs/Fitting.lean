import RasterSketch.Proofs.Fields
/-!
# Fitting an image

What the grid of an image of fewer than `2 ^ 31` rows and columns is made of is bounded (`Grid.Fitted`): a canvas exceeds
its bound by less than a pixel, and so does a cell the larger of the bound and the stride.
-/
namespace RasterSketch

open Magnitude

/-- **What a quotient is rounded to, taken as often as it was divided by, exceeds the dividend by less than one.** -/
theorem Magnitude.Rounds.mul_value_lt {p q : ℚ} {m : Magnitude} (h : Rounds (p / q) m) (hp : p ≤ 2 ^ 31) (hq : 0 < q)
    (hge : (2 : ℚ) ^ (-31 : ℤ) ≤ p / q) : q * m.value < p + 1 := by
  have herr := h.abs_sub_le (le_trans (two_zpow_mono (by decide)) hge)
  have hpart : p * 2 ^ (-53 : ℤ) < 1 := by
    calc p * 2 ^ (-53 : ℤ) ≤ 2 ^ 31 * 2 ^ (-53 : ℤ) := mul_le_mul_of_nonneg_right hp (two_zpow_pos _).le
      _ < 1 := by norm_num
  calc q * m.value ≤ q * (p / q + p / q * 2 ^ (-53 : ℤ)) :=
        mul_le_mul_of_nonneg_left (by linarith [abs_le.1 herr]) hq.le
    _ = p + p * 2 ^ (-53 : ℤ) := by field_simp
    _ < p + 1 := by linarith

namespace Grid

/-- The numbers that a signed word of 32 bits counts from one on. -/
def IsCount (n : Int) : Prop := 1 ≤ n ∧ n < 2 ^ 31

instance (n : Int) : Decidable (IsCount n) := inferInstanceAs (Decidable (_ ∧ _))

/-- What the fields of a grid are rounded from, and how large that can be. -/
structure Fitted (w h base bound : Int) (g : Grid) (s : Magnitude) : Prop where
  scale_eq : g.scale = .finite false s
  le_scale : (2 : ℚ) ^ (-31 : ℤ) ≤ s.value
  width_lt : w * s.value < bound + 1
  height_lt : h * s.value < bound + 1
  step_pos : 1 ≤ g.step
  scaledWidth_eq : (g.scale.scale w >>= Double.floor) = .ok g.scaledWidth
  scaledHeight_eq : (g.scale.scale h >>= Double.floor) = .ok g.scaledHeight
  cellSize_eq : ∃ z m, Rounds g.step z ∧ z.value * s.value < (max bound base : Int) + 1 ∧
    Rounds (z.value * s.value) m ∧ g.cellSize = ⌈m.value⌉

variable {w h base bound n : Int} {s : Magnitude}

theorem IsCount.isSize (hn : IsCount n) : IsSize n := ⟨hn.1, hn.2.trans (by decide)⟩

theorem IsCount.cast (hn : IsCount n) : (1 : ℚ) ≤ n ∧ (n : ℚ) + 1 ≤ 2 ^ 31 := by
  obtain ⟨h1, h2⟩ := hn
  exact ⟨by exact_mod_cast h1, by exact_mod_cast h2⟩

theorem isValue_limit : IsValue ((2 : ℚ) ^ 31) := isValue_two_zpow (f := 31) (by decide) (by decide)

theorem IsCount.max (hw : IsCount w) (hh : IsCount h) : IsCount (Max.max w h) := by
  obtain ⟨hw1, hw2⟩ := hw
  obtain ⟨hh1, hh2⟩ := hh
  exact ⟨by omega, by omega⟩

theorem IsCount.le_div (hn : IsCount n) {q : ℚ} (hq : 0 < q) (hle : q ≤ 2 ^ 31) : (2 : ℚ) ^ (-31 : ℤ) ≤ n / q := by
  rw [le_div_iff₀ hq]
  calc (2 : ℚ) ^ (-31 : ℤ) * q ≤ 2 ^ (-31 : ℤ) * 2 ^ 31 := mul_le_mul_of_nonneg_left hle (two_zpow_pos _).le
    _ = 1 := by norm_num
    _ ≤ n := hn.cast.1

/-- A cell before it is rounded up exceeds the larger of the bound and the stride by less than a pixel. -/
theorem cell_lt {x z : Magnitude} (hw : IsCount w) (hs : w * s.value < bound + 1) (hx : s.value * x.value < base + 1)
    (hz : z.value ≤ 1 ∨ z.value ≤ x.value) : z.value * s.value < (max bound base : Int) + 1 := by
  rw [Int.cast_max]
  have hsw : s.value ≤ w * s.value := le_mul_of_one_le_left s.value_nonneg hw.cast.1
  rcases hz with h1 | hzx
  · have := mul_le_mul_of_nonneg_right h1 s.value_nonneg
    linarith [le_max_left (bound : ℚ) base]
  · have := mul_le_mul_of_nonneg_right hzx s.value_nonneg
    linarith [le_max_right (bound : ℚ) base, mul_comm s.value x.value]

theorem max_add_one_le (hb : IsCount base) (ht : IsCount bound) : ((max bound base : Int) : ℚ) + 1 ≤ 2 ^ 31 := by
  have hmax : max bound base + 1 ≤ 2 ^ 31 := by
    have := hb.2
    have := ht.2
    omega
  exact_mod_cast hmax

/-- **Every image is fitted**, for a stride and a bound that are counts too. -/
theorem exists_fitted (hw : IsCount w) (hh : IsCount h) (hb : IsCount base) (ht : IsCount bound) :
    ∃ g s, compute w h base bound = .ok g ∧ Fitted w h base bound g s := by
  obtain ⟨g, s, hg, hf⟩ := exists_roundedFrom hw.isSize hh.isSize hb.isSize ht.isSize
  have hlonger := hw.max hh
  have hpos := hlonger.isSize.pos
  have hshare : (2 : ℚ) ^ (-31 : ℤ) ≤ bound / (max w h : Int) := ht.le_div hpos (by linarith [hlonger.cast.2])
  have hge := hf.scale.le_value (isValue_two_zpow (by decide) (by decide)) hshare
  have hs0 : 0 < s.value := (two_zpow_pos _).trans_le hge
  have hside : ∀ n : Int, n ≤ max w h → n * s.value < bound + 1 := fun n hn =>
    (mul_le_mul_of_nonneg_right (by exact_mod_cast hn) s.value_nonneg).trans_lt
      (hf.scale.mul_value_lt (by linarith [ht.cast.2]) hpos hshare)
  have hwidth := hside w (le_max_left w h)
  obtain ⟨x, hx, hstep⟩ := hf.step
  obtain ⟨z, m, hz, hm, hcell⟩ := hf.cellSize
  have hs1 : s.value ≤ 2 ^ 31 := by
    have : s.value ≤ w * s.value := le_mul_of_one_le_left s.value_nonneg hw.cast.1
    linarith [ht.cast.2]
  have hx' := hx.mul_value_lt (by linarith [hb.cast.2]) hs0 (hb.le_div hs0 hs1)
  rw [hstep] at hz
  obtain ⟨-, -, -, -, hfit⟩ := of_compute hg
  obtain ⟨_, _, _, _, -, -, -, -, -, -, -, -, hscaledWidth, hscaledHeight, -⟩ := of_fit hfit
  exact ⟨g, s, hg, hf.scale_eq, hge, hwidth, hside h (le_max_right w h), hf.step_pos, hscaledWidth, hscaledHeight,
    z, m, by rw [hstep]; exact hz, cell_lt hw hwidth hx' (step_value_le hz), hm, hcell⟩

theorem Fitted.cell_product {g : Grid} (hf : Fitted w h base bound g s) (hb : IsCount base) (ht : IsCount bound) :
    ∃ z m, Rounds g.step z ∧ (2 : ℚ) ^ (-31 : ℤ) ≤ z.value * s.value ∧ z.value * s.value ≤ 2 ^ 31 ∧
      Rounds (z.value * s.value) m ∧ g.cellSize = ⌈m.value⌉ := by
  obtain ⟨z, m, hz, hlt, hm, hcell⟩ := hf.cellSize_eq
  exact ⟨z, m, hz, le_cell hf.step_pos hz hf.le_scale, hlt.le.trans (max_add_one_le hb ht), hm, hcell⟩

end Grid
end RasterSketch
