import RasterSketch.Proofs.Grid
import RasterSketch.Proofs.Number.Nearly
import RasterSketch.Proofs.Number.Order
import RasterSketch.Proofs.Number.UpTo
/-!
# The fields of a grid

There is a grid for every image of fewer than `2 ^ 53` rows and columns, as long as its canvas has room in doubles, and
each of its fields is the whole part of a rounded result (`Grid.exists_rounded`).  The scale is the bound over the
longer side, rounded once: that the lesser of two rounded quotients is taken makes no difference.  What the fields amount
to is then a matter of how often each has been rounded.
-/
namespace RasterSketch

open Magnitude

namespace Grid

/-- The whole numbers from one on that are all doubles, so that none is changed when it becomes one. -/
def IsSize (n : Int) : Prop := 1 ≤ n ∧ n < 2 ^ 53

instance (n : Int) : Decidable (IsSize n) := inferInstanceAs (Decidable (_ ∧ _))

/-- What the fields of a grid are rounded from. -/
structure RoundedFrom (w h base bound : Int) (g : Grid) (s : Magnitude) : Prop where
  scale_eq : g.scale = .finite false s
  scale : Rounds (bound / (max w h : Int)) s
  scaledWidth : ∃ m, Rounds (w * s.value) m ∧ g.scaledWidth = ⌊m.value⌋
  scaledHeight : ∃ m, Rounds (h * s.value) m ∧ g.scaledHeight = ⌊m.value⌋
  step : ∃ m, Rounds (base / s.value) m ∧ g.step = max 1 ⌊m.value⌋
  cellSize : ∃ z m, Rounds g.step z ∧ Rounds (z.value * s.value) m ∧ g.cellSize = ⌈m.value⌉

variable {w h base bound n c : Int} {s : Magnitude} {k : Nat}

theorem value_of_scale {g : Grid} (h : g.scale = .finite false s) : g.scale.value = s.value := by
  rw [h]
  rfl

namespace IsSize

theorem cast (hn : IsSize n) : (1 : ℚ) ≤ n ∧ (n : ℚ) ≤ 2 ^ (53 : ℤ) :=
  ⟨by exact_mod_cast hn.1, by exact_mod_cast hn.2.le⟩

theorem pos (hn : IsSize n) : (0 : ℚ) < n := by linarith [hn.cast.1]

theorem isValue (hn : IsSize n) : IsValue (n : ℚ) := isValue_intCast (by linarith [hn.1]) hn.2

theorem max (hw : IsSize w) (hh : IsSize h) : IsSize (Max.max w h) := by
  obtain ⟨hw1, hw2⟩ := hw
  obtain ⟨hh1, hh2⟩ := hh
  exact ⟨by omega, by omega⟩

theorem le_div (hn : IsSize n) (h1 : 1 ≤ bound) : (2 : ℚ) ^ (-53 : ℤ) ≤ bound / n := by
  rw [le_div_iff₀ hn.pos]
  calc (2 : ℚ) ^ (-53 : ℤ) * n ≤ 2 ^ (-53 : ℤ) * 2 ^ (53 : ℤ) :=
        mul_le_mul_of_nonneg_left hn.cast.2 (two_zpow_pos _).le
    _ = 1 := by norm_num
    _ ≤ bound := by exact_mod_cast h1

theorem onSheet (hn : IsSize n) : OnSheet 53 n := ⟨by linarith [hn.1], hn.2.le⟩

end IsSize

/-! ## The scale -/

section

variable (ht : OnSheet k bound) (hw : IsSize w) (hh : IsSize h)

include ht

theorem share_rounds (hk : k ≤ 1023) (hn : IsSize n) :
    ∃ m, Double.quotient bound n = .ok (.finite false m) ∧ Rounds (bound / n) m := by
  have h0 : (0 : ℚ) ≤ bound := by exact_mod_cast ht.1
  exact Double.quotient_rounds ht.1 (by linarith [hn.1]) (isValue_two_pow hk)
    ((div_le_self h0 hn.cast.1).trans ht.cast_le)

include hw hh

theorem min_div : (bound / w ⊓ bound / h : ℚ) = bound / (max w h : Int) := by
  have h0 : (0 : ℚ) ≤ bound := by exact_mod_cast ht.1
  rcases le_total w h with hle | hle
  · rw [max_eq_right hle, min_eq_right]
    exact div_le_div_of_nonneg_left h0 hw.pos (by exact_mod_cast hle)
  · rw [max_eq_left hle, min_eq_left]
    exact div_le_div_of_nonneg_left h0 hh.pos (by exact_mod_cast hle)

theorem scale_rounds (hk : k ≤ 1023) :
    ∃ across down s, Double.quotient bound w = .ok across ∧ Double.quotient bound h = .ok down ∧
      Double.min across down = .finite false s ∧ Rounds (bound / (max w h : Int)) s := by
  obtain ⟨across, hacross, hra⟩ := share_rounds ht hk hw
  obtain ⟨down, hdown, hrd⟩ := share_rounds ht hk hh
  obtain ⟨s, hs, hr⟩ := Double.min_rounds hra hrd
  rw [min_div ht hw hh] at hr
  exact ⟨_, _, s, hacross, hdown, hs, hr⟩

end

theorem le_scale (hn : IsSize n) (h1 : 1 ≤ bound) (hr : Rounds (bound / n) s) : (2 : ℚ) ^ (-53 : ℤ) ≤ s.value :=
  hr.le_value (isValue_two_zpow (by decide) (by decide)) (hn.le_div h1)

theorem scale_bounds (hb : IsSize bound) (hn : IsSize n) (hr : Rounds (bound / n) s) :
    (2 : ℚ) ^ (-53 : ℤ) ≤ s.value ∧ s.value ≤ 2 ^ (53 : ℤ) :=
  ⟨le_scale hn hb.1 hr,
    (hr.value_le hb.isValue (div_le_self hb.pos.le hn.cast.1)).trans hb.cast.2⟩

theorem scale_nearly (hb : IsSize bound) (hn : IsSize n) (hr : Rounds (bound / n) s) : Nearly 1 (bound / n) s.value :=
  hr.nearly ((two_zpow_mono (by decide)).trans (hn.le_div hb.1))

/-! ## What is made of it -/

/-- A coordinate on the canvas, before it is cut to a whole number. -/
theorem place_on_sheet (hk : k ≤ 1023) (hc : 0 ≤ c) (hc' : c < 2 ^ 53) (hle : c * s.value ≤ 2 ^ k) :
    ∃ m, (Double.finite false s).scale c = .ok (.finite false m) ∧ Rounds (c * s.value) m := by
  obtain ⟨z, hz, hv⟩ := Double.ofInt_exact hc hc'
  rw [← hv] at hle ⊢
  exact Double.scale_rounds hz (isValue_two_pow hk) hle

theorem scaled_rounds (hs : s.value ≤ 2 ^ (53 : ℤ)) (hc : 0 ≤ c) (hc' : c < 2 ^ 53) :
    ∃ m, (Double.finite false s).scale c = .ok (.finite false m) ∧ Rounds (c * s.value) m := by
  refine place_on_sheet (k := 106) (by decide) hc hc' ?_
  calc (c : ℚ) * s.value ≤ 2 ^ (53 : ℤ) * 2 ^ (53 : ℤ) :=
        mul_le_mul (by exact_mod_cast hc'.le) hs s.value_nonneg (two_zpow_pos _).le
    _ = 2 ^ 106 := by rw [← two_zpow_add]; rfl

theorem isZero_eq_false (hs : 0 < s.value) : (Double.finite false s).isZero = false := by
  have hm : s.mantissa ≠ 0 := fun h0 => by
    rw [value, h0, Nat.cast_zero, zero_mul] at hs
    exact absurd hs (lt_irrefl 0)
  simpa [Double.isZero] using hm

/-- The stride, before it is cut to a whole number. -/
theorem stride_rounds (hb : IsSize base) (hs : (2 : ℚ) ^ (-53 : ℤ) ≤ s.value) :
    ∃ m, (Double.ofInt base >>= fun d => d.divide (.finite false s)) = .ok (.finite false m) ∧
      Rounds (base / s.value) m ∧ m.value ≤ 2 ^ (106 : ℤ) := by
  have hs0 : 0 < s.value := (two_zpow_pos _).trans_le hs
  have hlimit : IsValue ((2 : ℚ) ^ (106 : ℤ)) := isValue_two_zpow (by decide) (by decide)
  have hle : (base : ℚ) / s.value ≤ 2 ^ (106 : ℤ) := by
    rw [div_le_iff₀ hs0]
    calc (base : ℚ) ≤ 2 ^ (53 : ℤ) := hb.cast.2
      _ = 2 ^ (106 : ℤ) * 2 ^ (-53 : ℤ) := by rw [← two_zpow_add]; rfl
      _ ≤ 2 ^ (106 : ℤ) * s.value := mul_le_mul_of_nonneg_left hs (two_zpow_pos _).le
  obtain ⟨k, hk, hv⟩ := Double.ofInt_exact (by linarith [hb.1]) hb.2
  rw [← hv] at hle ⊢
  obtain ⟨m, hm, hr⟩ := Double.div_rounds hs0 hlimit hle
  refine ⟨m, bind_eq_ok.2 ⟨_, hk, ?_⟩, hr, hr.value_le hlimit hle⟩
  rw [Double.divide, isZero_eq_false hs0, hm]
  rfl

theorem step_rounds {x : Magnitude} (hx : x.value ≤ 2 ^ (106 : ℤ)) :
    ∃ z, Double.ofInt (max 1 ⌊x.value⌋) = .ok (.finite false z) ∧ Rounds (max 1 ⌊x.value⌋ : Int) z ∧
      z.value ≤ 2 ^ (106 : ℤ) := by
  have hlimit : IsValue ((2 : ℚ) ^ (106 : ℤ)) := isValue_two_zpow (by decide) (by decide)
  have hle : ((max 1 ⌊x.value⌋ : Int) : ℚ) ≤ 2 ^ (106 : ℤ) := by
    rw [Int.cast_max, Int.cast_one]
    exact max_le (one_le_zpow₀ (by norm_num) (by decide)) ((Int.floor_le _).trans hx)
  obtain ⟨z, hz, hr⟩ := Double.ofInt_rounds (by omega : 0 ≤ max 1 ⌊x.value⌋) hlimit hle
  exact ⟨z, hz, hr, hr.value_le hlimit hle⟩

/-- The double of a stride is one, or not more than what is cut to the stride. -/
theorem step_value_le {x z : Magnitude} (hz : Rounds (max 1 ⌊x.value⌋ : Int) z) : z.value ≤ 1 ∨ z.value ≤ x.value := by
  rcases max_choice 1 ⌊x.value⌋ with h | h <;> rw [h] at hz
  · exact .inl (by exact_mod_cast hz.value_le (isValue_intCast (n := 1) (by decide) (by decide)) le_rfl)
  · exact .inr (hz.value_le x.isValue (Int.floor_le _))

/-- A cell is not smaller than the scale, before it is cut to a whole number. -/
theorem le_cell {q : ℚ} {z : Magnitude} (hc : 1 ≤ c) (hz : Rounds c z) (hs : q ≤ s.value) : q ≤ z.value * s.value := by
  have hc' : ((1 : Int) : ℚ) ≤ c := by exact_mod_cast hc
  have hone : 1 ≤ z.value := by exact_mod_cast hz.le_value (isValue_intCast (by decide) (by decide)) hc'
  exact hs.trans (le_mul_of_one_le_left s.value_nonneg hone)

/-! ## Room for the canvas -/

/-- No side of the canvas is larger than twice the bound. -/
theorem side_le (h1 : 1 ≤ bound) (ht : OnSheet k bound) (hlonger : IsSize c) (hr : Rounds (bound / c) s) (hn : n ≤ c) :
    n * s.value ≤ 2 ^ (k + 1) := by
  have hs := hr.value_le_double ((two_zpow_mono (by decide)).trans (hlonger.le_div h1))
  calc (n : ℚ) * s.value ≤ c * s.value := mul_le_mul_of_nonneg_right (by exact_mod_cast hn) s.value_nonneg
    _ ≤ c * (2 * (bound / c)) := mul_le_mul_of_nonneg_left hs hlonger.pos.le
    _ = 2 * bound := by
      have := hlonger.pos.ne'
      field_simp
    _ ≤ 2 ^ (k + 1) := by
      rw [pow_succ, mul_comm]
      exact mul_le_mul_of_nonneg_right ht.cast_le (by norm_num)

theorem cell_le {x z : Magnitude} (h1 : 1 ≤ bound) (ht : OnSheet k bound) (hk : 53 ≤ k) (hk' : k ≤ 1022)
    (hlonger : IsSize c) (hb : IsSize base) (hr : Rounds (bound / c) s) (hx : Rounds (base / s.value) x)
    (hz : Rounds (max 1 ⌊x.value⌋ : Int) z) : z.value * s.value ≤ 2 ^ (k + 1) := by
  have hs : s.value ≤ 2 ^ k :=
    hr.value_le (isValue_two_pow (by omega)) ((div_le_self (by exact_mod_cast ht.1) hlonger.cast.1).trans ht.cast_le)
  have hs0 : 0 < s.value := (two_zpow_pos _).trans_le (le_scale hlonger h1 hr)
  rcases step_value_le hz with hone | hzx
  · calc z.value * s.value ≤ 1 * s.value := mul_le_mul_of_nonneg_right hone s.value_nonneg
      _ = s.value := one_mul s.value
      _ ≤ 2 ^ k := hs
      _ ≤ 2 ^ (k + 1) := two_pow_mono (Nat.le_succ k)
  · have hshare : (2 : ℚ) ^ (-k : ℤ) ≤ base / s.value := by
      rw [le_div_iff₀ hs0]
      calc (2 : ℚ) ^ (-k : ℤ) * s.value ≤ 2 ^ (-k : ℤ) * 2 ^ k := mul_le_mul_of_nonneg_left hs (two_zpow_pos _).le
        _ = 1 := by rw [zpow_neg, zpow_natCast, inv_mul_cancel₀ (by positivity)]
        _ ≤ base := hb.cast.1
    have hnormal : (2 : ℚ) ^ (-1022 : ℤ) ≤ base / s.value := (two_zpow_mono (by omega)).trans hshare
    calc z.value * s.value ≤ x.value * s.value := mul_le_mul_of_nonneg_right hzx s.value_nonneg
      _ ≤ 2 * (base / s.value) * s.value := mul_le_mul_of_nonneg_right (hx.value_le_double hnormal) s.value_nonneg
      _ = 2 * base := by field_simp
      _ ≤ 2 * 2 ^ 53 := mul_le_mul_of_nonneg_left hb.onSheet.cast_le (by norm_num)
      _ = 2 ^ (53 + 1) := (pow_succ' _ _).symm
      _ ≤ 2 ^ (k + 1) := two_pow_mono (Nat.succ_le_succ hk)

/-- **Every image has a grid**, whose fields are rounded results cut to whole numbers. -/
theorem exists_rounded (hw : IsSize w) (hh : IsSize h) (hb : IsSize base) (h1 : 1 ≤ bound) (ht : OnSheet k bound)
    (hk : 53 ≤ k) (hk' : k ≤ 1022) : ∃ g s, compute w h base bound = .ok g ∧ g.RoundedFrom w h base bound s := by
  obtain ⟨across, down, s, hacross, hdown, hs, hr⟩ := scale_rounds ht hw hh (by omega)
  obtain ⟨x, hx, hxr, hxle⟩ := stride_rounds hb (le_scale (hw.max hh) h1 hr)
  obtain ⟨d, hd, hdx⟩ := bind_eq_ok.1 hx
  obtain ⟨z, hz, hzr, hzle⟩ := step_rounds hxle
  obtain ⟨mw, hmw, hwr⟩ := place_on_sheet (by omega) (by linarith [hw.1]) hw.2
    (side_le h1 ht (hw.max hh) hr (le_max_left w h))
  obtain ⟨mh, hmh, hhr⟩ := place_on_sheet (by omega) (by linarith [hh.1]) hh.2
    (side_le h1 ht (hw.max hh) hr (le_max_right w h))
  obtain ⟨mc, hmc, hcr⟩ := Double.scale_rounds hz (isValue_two_pow (by omega))
    (cell_le h1 ht hk hk' (hw.max hh) hb hr hxr hzr)
  have hfit : fit w h base bound = .ok
      ⟨w, h, .finite false s, ⌊mw.value⌋, ⌊mh.value⌋, max 1 ⌊x.value⌋, ⌈mc.value⌉⟩ := by
    unfold fit
    refine bind_eq_ok.2 ⟨_, hacross, bind_eq_ok.2 ⟨_, hdown, bind_eq_ok.2 ⟨d, hd, ?_⟩⟩⟩
    rw [hs]
    exact bind_eq_ok.2 ⟨_, hdx, bind_eq_ok.2 ⟨_, Double.floor_finite x, bind_eq_ok.2 ⟨_, hmw,
      bind_eq_ok.2 ⟨_, Double.floor_finite mw, bind_eq_ok.2 ⟨_, hmh, bind_eq_ok.2 ⟨_, Double.floor_finite mh,
        bind_eq_ok.2 ⟨_, hmc, bind_eq_ok.2 ⟨_, Double.ceil_finite mc, rfl⟩⟩⟩⟩⟩⟩⟩⟩
  have hsize : ¬ (w ≤ 0 ∨ h ≤ 0) := by
    have := hw.1
    have := hh.1
    omega
  refine ⟨⟨w, h, .finite false s, ⌊mw.value⌋, ⌊mh.value⌋, max 1 ⌊x.value⌋, ⌈mc.value⌉⟩, s, ?_, rfl, hr,
    ⟨mw, hwr, rfl⟩, ⟨mh, hhr, rfl⟩, ⟨x, hxr, rfl⟩, ⟨z, mc, hzr, hcr, rfl⟩⟩
  unfold compute checkSize
  rw [if_neg hsize, if_neg (by linarith), if_neg (by linarith [hb.1]), hfit]
  rfl

theorem exists_roundedFrom (hw : IsSize w) (hh : IsSize h) (hb : IsSize base) (ht : IsSize bound) :
    ∃ g s, compute w h base bound = .ok g ∧ g.RoundedFrom w h base bound s :=
  exists_rounded hw hh hb ht.1 ht.onSheet le_rfl (by decide)

/-! ## How often each field is rounded -/

section

variable {g : Grid} {m z : Magnitude} (hf : g.RoundedFrom w h base bound s) (hw : IsSize w) (hh : IsSize h)
  (ht : IsSize bound)

include hf

theorem RoundedFrom.step_pos : 1 ≤ g.step := by
  obtain ⟨m, -, hstep⟩ := hf.step
  rw [hstep]
  exact le_max_left _ _

include hw hh ht

theorem RoundedFrom.scale_bounds : (2 : ℚ) ^ (-53 : ℤ) ≤ s.value ∧ s.value ≤ 2 ^ (53 : ℤ) :=
  Grid.scale_bounds ht (hw.max hh) hf.scale

theorem RoundedFrom.scale_nearly : Nearly 1 (bound / (max w h : Int)) s.value :=
  Grid.scale_nearly ht (hw.max hh) hf.scale

theorem RoundedFrom.side_nearly (hn : IsSize n) (hr : Rounds (n * s.value) m) :
    Nearly 2 (n * bound / (max w h : Int)) m.value := by
  have hexact := (Nearly.refl hn.pos).mul (hf.scale_nearly hw hh ht)
  have hlow : (2 : ℚ) ^ (-53 : ℤ) ≤ n * s.value :=
    (hf.scale_bounds hw hh ht).1.trans (le_mul_of_one_le_left s.value_nonneg hn.cast.1)
  rw [mul_div_assoc]
  exact hexact.trans (hr.nearly ((two_zpow_mono (by decide)).trans hlow))

theorem RoundedFrom.stride_nearly (hb : IsSize base) (hr : Rounds (base / s.value) m) :
    Nearly 2 (base * (max w h : Int) / bound) m.value := by
  obtain ⟨hlow, hhigh⟩ := hf.scale_bounds hw hh ht
  have hexact := (Nearly.refl hb.pos).div (hf.scale_nearly hw hh ht)
  rw [div_div_eq_mul_div] at hexact
  have hge : (2 : ℚ) ^ (-53 : ℤ) ≤ base / s.value := by
    rw [le_div_iff₀ ((two_zpow_pos _).trans_le hlow)]
    calc (2 : ℚ) ^ (-53 : ℤ) * s.value ≤ 2 ^ (-53 : ℤ) * 2 ^ (53 : ℤ) :=
          mul_le_mul_of_nonneg_left hhigh (two_zpow_pos _).le
      _ = 1 := by norm_num
      _ ≤ base := hb.cast.1
  exact hexact.trans (hr.nearly ((two_zpow_mono (by decide)).trans hge))

theorem RoundedFrom.cell_nearly (hz : Rounds g.step z) (hr : Rounds (z.value * s.value) m) :
    Nearly 3 (g.step * bound / (max w h : Int)) m.value := by
  have hlow := le_cell hf.step_pos hz (hf.scale_bounds hw hh ht).1
  have hone : (2 : ℚ) ^ (-1022 : ℤ) ≤ 1 := zpow_le_one_of_nonpos₀ one_le_two (by decide)
  have hz' : Nearly 1 g.step z.value := hz.nearly (hone.trans (by exact_mod_cast hf.step_pos))
  rw [mul_div_assoc]
  exact (hz'.mul (hf.scale_nearly hw hh ht)).trans (hr.nearly ((two_zpow_mono (by decide)).trans hlow))

end

end Grid
end RasterSketch
