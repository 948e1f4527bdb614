import RasterSketch.Grid
import RasterSketch.Proofs.Delivery
import RasterSketch.Proofs.Number.Nearest
/-!
# Grids

What is known of every grid that is computed.
-/
namespace RasterSketch

theorem Double.signed_le (s : Bool) (m : Magnitude) : signed s m ≤ m.num := by
  unfold signed
  split <;> omega

/-- No double is as large as `2 ^ 1024`. -/
theorem Double.floor_lt {x : Double} {n : Int} (h : x.floor = .ok n) : n < 2 ^ 1024 := by
  cases x with
  | infinity s => cases h
  | nan => cases h
  | finite s m =>
    have hn : n = signed s m / m.den := by cases h; rfl
    have hle : n ≤ ⌊m.value⌋ := by
      rw [hn, ← Magnitude.num_div_den, ← Int.cast_natCast m.num, Rat.floor_intCast_div_natCast]
      exact Int.ediv_le_ediv (by exact_mod_cast m.den_pos) (signed_le s m)
    have hlt : ⌊m.value⌋ < 2 ^ 1024 := by
      rw [Int.floor_lt, Int.cast_pow, Int.cast_ofNat]
      exact_mod_cast m.value_lt
    exact lt_of_le_of_lt hle hlt

namespace Grid

/-- Where a coordinate comes to lie: the product with the scale, rounded to a double, is cut to a whole number. -/
def place (g : Grid) (c : Int) : Except ArithmeticError Int := g.scale.scale c >>= Double.floor

/-- **How a grid is fitted**: the rounded results that its fields are made of. -/
theorem of_fit {w h base bound : Int} {g : Grid} (hg : fit w h base bound = .ok g) :
    ∃ across down share stride, Double.quotient bound w = .ok across ∧ Double.quotient bound h = .ok down ∧
      g.width = w ∧ g.height = h ∧ g.scale = Double.min across down ∧
      (Double.ofInt base >>= fun x => x.divide g.scale) = .ok share ∧ share.floor = .ok stride ∧
      g.step = max 1 stride ∧
      (g.scale.scale w >>= Double.floor) = .ok g.scaledWidth ∧
      (g.scale.scale h >>= Double.floor) = .ok g.scaledHeight ∧
      (g.scale.scale g.step >>= Double.ceil) = .ok g.cellSize := by
  unfold fit at hg
  obtain ⟨across, ha, hg⟩ := bind_eq_ok.1 hg
  obtain ⟨down, hd, hg⟩ := bind_eq_ok.1 hg
  obtain ⟨x, hx, hg⟩ := bind_eq_ok.1 hg
  obtain ⟨share, hs, hg⟩ := bind_eq_ok.1 hg
  obtain ⟨stride, hf, hg⟩ := bind_eq_ok.1 hg
  obtain ⟨sw, hsw, hg⟩ := bind_eq_ok.1 hg
  obtain ⟨fw, hfw, hg⟩ := bind_eq_ok.1 hg
  obtain ⟨sh, hsh, hg⟩ := bind_eq_ok.1 hg
  obtain ⟨fh, hfh, hg⟩ := bind_eq_ok.1 hg
  obtain ⟨sc, hsc, hg⟩ := bind_eq_ok.1 hg
  obtain ⟨c, hc, hg⟩ := bind_eq_ok.1 hg
  cases hg
  exact ⟨across, down, share, stride, ha, hd, rfl, rfl, rfl, bind_eq_ok.2 ⟨x, hx, hs⟩, hf, rfl,
    bind_eq_ok.2 ⟨sw, hsw, hfw⟩, bind_eq_ok.2 ⟨sh, hsh, hfh⟩, bind_eq_ok.2 ⟨sc, hsc, hc⟩⟩

/-- A grid that is computed is fitted, for an image that has pixels and a bound and a stride that are positive. -/
theorem of_compute {w h base bound : Int} {g : Grid} (hg : compute w h base bound = .ok g) :
    0 < w ∧ 0 < h ∧ 0 < bound ∧ 1 ≤ base ∧ fit w h base bound = .ok g := by
  unfold compute checkSize at hg
  by_cases hwh : w ≤ 0 ∨ h ≤ 0
  · rw [if_pos hwh] at hg; cases hg
  rw [if_neg hwh] at hg
  by_cases hb : bound ≤ 0
  · rw [if_pos hb] at hg; cases hg
  rw [if_neg hb] at hg
  by_cases hs : base < 1
  · rw [if_pos hs] at hg; cases hg
  rw [if_neg hs] at hg
  exact ⟨by omega, by omega, by omega, by omega, mapError_eq_ok.1 hg⟩

/-- **The stride of a grid is a positive number, and one that a double can be.** -/
theorem step_bounds {w h base bound : Int} {g : Grid} (hg : compute w h base bound = .ok g) :
    1 ≤ g.step ∧ g.step < 2 ^ 1024 := by
  obtain ⟨-, -, -, -, hfit⟩ := of_compute hg
  obtain ⟨_, _, _, stride, -, -, -, -, -, -, hf, hstep, -⟩ := of_fit hfit
  rw [hstep]
  exact ⟨le_max_left _ _, max_lt (one_lt_pow₀ (by decide) (by decide)) (Double.floor_lt hf)⟩

end Grid
end RasterSketch
