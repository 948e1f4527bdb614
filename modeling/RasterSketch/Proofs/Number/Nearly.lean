import RasterSketch.Proofs.Number.Rounded
/-!
# Several roundings

How far a chain of rounded operations is from the exact result.  `Nearly n q y` says that `q` and `y` differ by `n`
roundings at most, each a part in `2 ^ 53`; products and quotients of such numbers differ by the roundings of both, and
one more where they are rounded again.  Three roundings are less than a part in `2 ^ 51` (`Nearly.abs_sub_le`).
-/
namespace RasterSketch

open Magnitude

/-- What a rounding leaves of a number at the least. -/
def kept : ℚ := 1 - 2 ^ (-53 : ℤ)

theorem kept_pos : 0 < kept := by norm_num [kept]

theorem kept_le_one : kept ≤ 1 := by norm_num [kept]

theorem isValue_kept : IsValue kept := by
  have h := isValue_mul_zpow (k := 2 ^ 53 - 1) (f := -53) (by decide) (by decide) (by decide)
  have hkept : ((2 ^ 53 - 1 : Nat) : ℚ) * 2 ^ (-53 : ℤ) = kept := by norm_num [kept]
  rwa [hkept] at h

theorem kept_pow_pos (n : Nat) : 0 < kept ^ n := pow_pos kept_pos n

/-- Positive numbers of which each is the other but for `n` roundings. -/
structure Nearly (n : Nat) (q y : ℚ) : Prop where
  pos : 0 < q
  le : q * kept ^ n ≤ y
  ge : y * kept ^ n ≤ q

theorem Magnitude.Rounds.nearly {q : ℚ} {m : Magnitude} (h : Rounds q m) (hq : (2 : ℚ) ^ (-1022 : ℤ) ≤ q) :
    Nearly 1 q m.value := by
  have hpos : 0 < q := (two_zpow_pos _).trans_le hq
  have herr := abs_le.1 (h.abs_sub_le hq)
  have hsquare : (1 + 2 ^ (-53 : ℤ)) * kept ≤ 1 := by norm_num [kept]
  refine ⟨hpos, ?_, ?_⟩
  · rw [pow_one, kept]
    linarith
  · rw [pow_one]
    calc m.value * kept ≤ q * (1 + 2 ^ (-53 : ℤ)) * kept :=
          mul_le_mul_of_nonneg_right (by linarith) kept_pos.le
      _ = q * ((1 + 2 ^ (-53 : ℤ)) * kept) := by ring
      _ ≤ q * 1 := mul_le_mul_of_nonneg_left hsquare hpos.le
      _ = q := mul_one q

namespace Nearly

variable {a b n : Nat} {p q r x y : ℚ}

theorem right_pos (h : Nearly n q y) : 0 < y := (mul_pos h.pos (kept_pow_pos n)).trans_le h.le

theorem refl (hq : 0 < q) : Nearly 0 q q := ⟨hq, by simp, by simp⟩

theorem mono (h : Nearly a q y) (hab : a ≤ b) : Nearly b q y := by
  have hpow : kept ^ b ≤ kept ^ a := pow_le_pow_of_le_one kept_pos.le kept_le_one hab
  exact ⟨h.pos, (mul_le_mul_of_nonneg_left hpow h.pos.le).trans h.le,
    (mul_le_mul_of_nonneg_left hpow h.right_pos.le).trans h.ge⟩

theorem trans (h : Nearly a p q) (h' : Nearly b q r) : Nearly (a + b) p r := by
  refine ⟨h.pos, ?_, ?_⟩
  · calc p * kept ^ (a + b) = p * kept ^ a * kept ^ b := by rw [pow_add, mul_assoc]
      _ ≤ q * kept ^ b := mul_le_mul_of_nonneg_right h.le (kept_pow_pos b).le
      _ ≤ r := h'.le
  · calc r * kept ^ (a + b) = r * kept ^ b * kept ^ a := by rw [add_comm, pow_add, mul_assoc]
      _ ≤ q * kept ^ a := mul_le_mul_of_nonneg_right h'.ge (kept_pow_pos a).le
      _ ≤ p := h.ge

theorem mul (h : Nearly a p x) (h' : Nearly b q y) : Nearly (a + b) (p * q) (x * y) := by
  refine ⟨mul_pos h.pos h'.pos, ?_, ?_⟩
  · calc p * q * kept ^ (a + b) = p * kept ^ a * (q * kept ^ b) := by rw [pow_add]; ring
      _ ≤ x * y := mul_le_mul h.le h'.le (mul_pos h'.pos (kept_pow_pos b)).le h.right_pos.le
  · calc x * y * kept ^ (a + b) = x * kept ^ a * (y * kept ^ b) := by rw [pow_add]; ring
      _ ≤ p * q := mul_le_mul h.ge h'.ge (mul_pos h'.right_pos (kept_pow_pos b)).le h.pos.le

theorem inv (h : Nearly n q y) : Nearly n q⁻¹ y⁻¹ := by
  have hq := h.pos
  have hy := h.right_pos
  refine ⟨inv_pos.2 hq, ?_, ?_⟩
  · rw [inv_mul_eq_div, div_le_iff₀ hq, inv_mul_eq_div, le_div_iff₀ hy, mul_comm]
    exact h.ge
  · rw [inv_mul_eq_div, div_le_iff₀ hy, inv_mul_eq_div, le_div_iff₀ hq, mul_comm]
    exact h.le

theorem div (h : Nearly a p x) (h' : Nearly b q y) : Nearly (a + b) (p / q) (x / y) := by
  rw [div_eq_mul_inv, div_eq_mul_inv]
  exact h.mul h'.inv

/-- **Three roundings are less than a part in `2 ^ 51`.** -/
theorem abs_sub_le (h : Nearly n q y) (hn : n ≤ 3) : |y - q| ≤ q * 2 ^ (-51 : ℤ) := by
  have hthree := h.mono hn
  have hlow : 1 - 2 ^ (-51 : ℤ) ≤ kept ^ 3 := by norm_num [kept]
  have hhigh : 1 ≤ (1 + 2 ^ (-51 : ℤ)) * kept ^ 3 := by norm_num [kept]
  rw [abs_le]
  constructor
  · have := mul_le_mul_of_nonneg_left hlow h.pos.le
    linarith [hthree.le]
  · have hle : y * kept ^ 3 ≤ q * (1 + 2 ^ (-51 : ℤ)) * kept ^ 3 := by
      calc y * kept ^ 3 ≤ q := hthree.ge
        _ = q * 1 := (mul_one q).symm
        _ ≤ q * ((1 + 2 ^ (-51 : ℤ)) * kept ^ 3) := mul_le_mul_of_nonneg_left hhigh h.pos.le
        _ = q * (1 + 2 ^ (-51 : ℤ)) * kept ^ 3 := (mul_assoc _ _ _).symm
    linarith [le_of_mul_le_mul_right hle (kept_pow_pos 3)]

end Nearly

end RasterSketch
