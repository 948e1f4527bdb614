import RasterSketch.Proofs.Number.Order
/-!
# Halves

An operation whose exact result is a double gives that result (`Double.Exactly`).  Halves of whole numbers below
`2 ^ 53` are doubles, and so the middle of a cell, and the sizes between which it pulsates, are kept as they are.
-/
namespace RasterSketch

open Magnitude

namespace Double

/-- A double without a sign that is exactly a rational. -/
def Exactly (q : ℚ) (x : Double) : Prop := ∃ m, x = .finite false m ∧ m.value = q

variable {a b q : ℚ} {x y : Double}

theorem Exactly.isFinite (h : Exactly q x) : x.isFinite = true := by
  obtain ⟨m, rfl, -⟩ := h
  rfl

theorem Exactly.value_eq (h : Exactly q x) : x.value = q := by
  obtain ⟨m, rfl, rfl⟩ := h
  rfl

theorem exactly_literal {m e : Nat} (hv : IsValue ((m : ℚ) / tenTo e)) :
    Exactly (m / tenTo e) (OfScientific.ofScientific m true e) := by
  obtain ⟨k, hk, hr⟩ := ofRatio_rounds (tenTo_pos e) hv le_rfl
  exact ⟨k, hk, hr.value_eq hv⟩

theorem Exactly.mul (hx : Exactly a x) (hy : Exactly b y) (hv : IsValue (a * b)) : Exactly (a * b) (x * y) := by
  obtain ⟨m, rfl, rfl⟩ := hx
  obtain ⟨n, rfl, rfl⟩ := hy
  obtain ⟨k, hk, hr⟩ := mul_rounds hv le_rfl
  exact ⟨k, hk, hr.value_eq hv⟩

theorem Exactly.add (hx : Exactly a x) (hy : Exactly b y) (hv : IsValue (a + b)) : Exactly (a + b) (x + y) := by
  obtain ⟨m, rfl, rfl⟩ := hx
  obtain ⟨n, rfl, rfl⟩ := hy
  obtain ⟨k, hk, hr⟩ := add_rounds hv le_rfl
  exact ⟨k, hk, hr.value_eq hv⟩

variable {c : Int}

theorem Exactly.scale (hx : Exactly q x) (h0 : 0 ≤ c) (hc : c < 2 ^ 53) (hv : IsValue (c * q)) :
    ∃ y, x.scale c = .ok y ∧ Exactly (c * q) y := by
  obtain ⟨k, hk, hvalue⟩ := ofInt_exact h0 hc
  have hwhole : Exactly (c : ℚ) (.finite false k) := ⟨k, rfl, hvalue⟩
  exact ⟨_, by rw [Double.scale, hk]; rfl, hwhole.mul hx hv⟩

theorem Exactly.shift (hx : Exactly q x) (h0 : 0 ≤ c) (hc : c < 2 ^ 53) (hv : IsValue (c + q)) :
    ∃ y, x.shift c = .ok y ∧ Exactly (c + q) y := by
  obtain ⟨k, hk, hvalue⟩ := ofInt_exact h0 hc
  have hwhole : Exactly (c : ℚ) (.finite false k) := ⟨k, rfl, hvalue⟩
  exact ⟨_, by rw [Double.shift, hk]; rfl, hwhole.add hx hv⟩

/-- What is moved on by a whole number lies between whole numbers as before, although it is rounded. -/
theorem Exactly.exists_shift {n : Int} (hx : Exactly q x) (h0 : 0 ≤ c) (hn : 0 ≤ n) (h : c + n < 2 ^ 53) (hq0 : 0 ≤ q)
    (hq : q ≤ n) : ∃ y b, x.shift c = .ok y ∧ Exactly b y ∧ c ≤ b ∧ b ≤ c + n := by
  obtain ⟨m, rfl, rfl⟩ := hx
  obtain ⟨k, hk, hvalue⟩ := ofInt_exact h0 (by omega)
  have hle : k.value + m.value ≤ ((c + n : Int) : ℚ) := by
    rw [hvalue]
    push_cast
    linarith
  have hbound : IsValue ((c + n : Int) : ℚ) := isValue_intCast (by omega) h
  obtain ⟨sum, hsum, hr⟩ := add_rounds hbound hle
  have hlow : (c : ℚ) ≤ sum.value := hr.le_value (isValue_intCast h0 (by omega)) (by rw [hvalue]; linarith)
  have hhigh := hr.value_le hbound hle
  push_cast at hhigh
  exact ⟨_, sum.value, by rw [Double.shift, hk]; exact congrArg Except.ok hsum, ⟨sum, rfl, rfl⟩, hlow, hhigh⟩

/-! ## Parts of a cell -/

theorem exists_half (h0 : 0 ≤ c) (hc : c < 2 ^ 53) : ∃ x, quotient c 2 = .ok x ∧ Exactly (c / 2) x := by
  obtain ⟨k, hk, hr⟩ := quotient_rounds h0 (by decide : (0 : Int) < 2) (isValue_half h0 hc) le_rfl
  exact ⟨_, hk, k, rfl, hr.value_eq (isValue_half h0 hc)⟩

/-- The middle between a coordinate and the coordinate so much further on. -/
theorem exists_middle {n : Int} (h0 : 0 ≤ c) (hn : 0 ≤ n) (h : 2 * c + n < 2 ^ 53) (hx : Exactly (n / 2) x) :
    ∃ y, x.shift c = .ok y ∧ Exactly (c + n / 2) y := by
  refine hx.shift h0 (by omega) ?_
  have hv := isValue_half (n := 2 * c + n) (by omega) h
  rwa [Int.cast_add, Int.cast_mul, Int.cast_ofNat, add_div, mul_div_cancel_left₀ _ two_ne_zero] at hv

/-- A whole number of halves of a whole number. -/
theorem exists_scale_halves {k : Int} (hk : 0 ≤ k) (hx : Exactly (k / 2) x) (h0 : 0 ≤ c) (hc : c < 2 ^ 53)
    (h : c * k < 2 ^ 53) : ∃ y, x.scale c = .ok y ∧ Exactly (c * k / 2) y := by
  have hv := isValue_half (n := c * k) (mul_nonneg h0 hk) h
  rw [Int.cast_mul, mul_div_assoc] at hv
  rw [mul_div_assoc]
  exact hx.scale h0 hc hv

/-- A literal with a zero behind the point is a whole number. -/
theorem exactly_whole {n : Nat} (h : n < 2 ^ 53) : Exactly (n : ℚ) (OfScientific.ofScientific (10 * n) true 1) := by
  have hq : ((10 * n : Nat) : ℚ) / tenTo 1 = n := by
    rw [show tenTo 1 = 10 from rfl, Nat.cast_mul]
    exact mul_div_cancel_left₀ _ (by norm_num)
  have hliteral := exactly_literal (m := 10 * n) (e := 1) (hq ▸ isValue_natCast h)
  rwa [hq] at hliteral

/-- A literal of so many fives behind the point is so many halves. -/
theorem exactly_fives {m : Nat} (h : m < 2 ^ 53) :
    Exactly (((m : Int) : ℚ) / 2) (OfScientific.ofScientific (5 * m) true 1) := by
  have hq : ((5 * m : Nat) : ℚ) / tenTo 1 = ((m : Int) : ℚ) / 2 := by
    rw [show tenTo 1 = 5 * 2 from rfl, Nat.cast_mul, Nat.cast_mul, mul_div_mul_left _ _ (by norm_num)]
    rfl
  have hliteral := exactly_literal (m := 5 * m) (e := 1) (hq ▸ isValue_half (by omega) (by omega))
  rwa [hq] at hliteral

end Double

end RasterSketch
