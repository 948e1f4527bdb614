import RasterSketch.Proofs.Number.Order
/-!
# Numbers apart by one

Of two numbers that are apart by one or more, the whole parts stay apart by one when both are rounded before they are
cut (`Magnitude.Rounds.floor_add_one_le`).  The first may be rounded up to a whole number by half a unit, and the second
down by as much; but one is an even number of units, so that a tie goes the same way in both.
-/
namespace RasterSketch

/-- A quotient that is larger by an even number has a nearest natural that is larger by that number. -/
theorem roundDiv_add_even (num s : Nat) {den : Nat} (hd : 0 < den) :
    roundDiv (num + 2 * s * den) den = roundDiv num den + 2 * s := by
  have hdiv : (num + 2 * s * den) / den = num / den + 2 * s := Nat.add_mul_div_right _ _ hd
  have hmod : (num + 2 * s * den) % den = num % den := Nat.add_mul_mod_self_right _ _ _
  unfold roundDiv
  rw [hdiv, hmod]
  split
  · rfl
  · split <;> omega

namespace Magnitude

theorem inUnits_add_one (num : Nat) {den : Nat} (hd : 0 < den) {e : ℤ} (he : e < 0) :
    (inUnits (num + den) den e : ℚ) * 2 ^ e = inUnits num den e * 2 ^ e + 1 := by
  obtain ⟨j, rfl⟩ : ∃ j : ℕ, e = -((j + 1 : ℕ) : ℤ) := ⟨(-e).toNat - 1, by omega⟩
  have hone : ((2 * twoTo j : ℕ) : ℚ) * 2 ^ (-((j + 1 : ℕ) : ℤ)) = 1 := by
    rw [show 2 * twoTo j = 2 ^ (j + 1) from (Nat.pow_succ').symm, Nat.cast_pow, Nat.cast_ofNat, ← zpow_natCast,
      ← two_zpow_add, add_neg_cancel, zpow_zero]
  have hunits : inUnits (num + den) den (-((j + 1 : ℕ) : ℤ)) = inUnits num den (-((j + 1 : ℕ) : ℤ)) + 2 * twoTo j := by
    unfold inUnits
    simp only [neg_neg, Int.toNat_neg_natCast, Int.toNat_natCast]
    have hpow : twoTo (j + 1) = 2 * twoTo j := Nat.pow_succ'
    rw [← roundDiv_add_even _ _ (Nat.mul_pos hd (twoTo_pos 0))]
    congr 1
    rw [hpow, show twoTo 0 = 1 from rfl]
    ring
  rw [hunits, Nat.cast_add, add_mul, hone]

/-- **What a quotient is rounded to in its own unit it is rounded to in a coarser one too**, if it is a number of those:
then it is nearer than half of the coarser unit. -/
theorem le_inUnits_of_round {num den k : Nat} (hn : 0 < num) (hd : 0 < den) {m : Magnitude}
    (h : round num den = some m) {e : ℤ} (he : unit num den ≤ e) (hk : (k : ℚ) * 2 ^ e ≤ m.value) :
    k ≤ inUnits num den e := by
  rcases he.eq_or_lt with rfl | hlt
  · rw [value_of_round hn hd h, mul_le_mul_iff_left₀ (two_zpow_pos _)] at hk
    exact_mod_cast hk
  · have herr := (abs_le.1 (abs_value_sub_le hn hd h)).2
    have herr' := (abs_le.1 (abs_inUnits_sub_le num hd e)).1
    have hhalf : (2 : ℚ) ^ unit num den * 2 ≤ 2 ^ e := by
      rw [← zpow_add_one₀ two_ne_zero]
      exact two_zpow_mono (by omega)
    have hp := two_zpow_pos e
    have hclose : (k : ℚ) * 2 ^ e < (inUnits num den e + 1) * 2 ^ e := by linarith
    have := lt_of_mul_lt_mul_right hclose hp.le
    exact Nat.lt_succ_iff.1 (by exact_mod_cast this)

theorem unit_neg {num den : Nat} (hn : 0 < num) (hd : 0 < den) (h : (num : ℚ) / den < 2 ^ (52 : ℤ)) :
    unit num den < 0 := by
  have := two_zpow_lt_iff.1 ((binaryOrder_bounds hn hd).1.trans_lt h)
  unfold unit
  omega

theorem unit_mono {a b c d : Nat} (ha : 0 < a) (hb : 0 < b) (hc : 0 < c) (hd : 0 < d) (h : (a : ℚ) / b ≤ c / d) :
    unit a b ≤ unit c d := by
  have := binaryOrder_mono ha hb hc hd h
  unfold unit
  omega

/-- A whole number that a quotient reaches when it is rounded is one less than what the quotient and one reach. -/
theorem add_one_le_value_of_round {num den k : Nat} (hn : 0 < num) (hd : 0 < den) {m n : Magnitude}
    (hm : round num den = some m) (hr : round (num + den) den = some n)
    (hlimit : ((num + den : Nat) : ℚ) / den < 2 ^ (52 : ℤ)) (hk : (k : ℚ) ≤ m.value) : (k : ℚ) + 1 ≤ n.value := by
  have hneg := unit_neg (by omega) hd hlimit
  -- the quotient in the unit of the sum, which is its own or a coarser one
  have hcoarse : unit num den ≤ unit (num + den) den :=
    unit_mono hn hd (by omega) hd
      (div_le_div_of_nonneg_right (by exact_mod_cast Nat.le_add_right num den) (by positivity))
  obtain ⟨j, hj⟩ : ∃ j : ℕ, unit (num + den) den = -(j : ℤ) := ⟨(-unit (num + den) den).toNat, by omega⟩
  have hwhole : ((k * 2 ^ j : ℕ) : ℚ) * 2 ^ unit (num + den) den = k := by
    rw [hj, Nat.cast_mul, Nat.cast_pow, Nat.cast_ofNat, mul_assoc, ← zpow_natCast, ← two_zpow_add, add_neg_cancel,
      zpow_zero, mul_one]
  have hunits := le_inUnits_of_round hn hd hm hcoarse (hwhole.le.trans hk)
  calc (k : ℚ) + 1 = (k * 2 ^ j : ℕ) * 2 ^ unit (num + den) den + 1 := by rw [hwhole]
    _ ≤ inUnits num den (unit (num + den) den) * 2 ^ unit (num + den) den + 1 := by
        have := mul_le_mul_of_nonneg_right (Nat.cast_le (α := ℚ).2 hunits) (two_zpow_pos (unit (num + den) den)).le
        linarith
    _ = n.value := by rw [value_of_round (by omega) hd hr, inUnits_add_one num hd hneg]

variable {q r : ℚ} {m n : Magnitude}

/-- **The whole parts of numbers that are apart by one stay apart by one**, although both are rounded first. -/
theorem Rounds.floor_add_one_le (hm : Rounds q m) (hn : Rounds r n) (hqr : q + 1 ≤ r) (hq : q < 2 ^ 51) :
    ⌊m.value⌋ + 1 ≤ ⌊n.value⌋ := by
  obtain ⟨k, hk⟩ := Int.eq_ofNat_of_zero_le (Int.floor_nonneg.2 m.value_nonneg)
  have hkm : (k : ℚ) ≤ m.value := by
    have := Int.floor_le m.value
    rw [hk] at this
    exact_mod_cast this
  rw [hk, Int.le_floor]
  push_cast
  rcases Nat.eq_zero_or_pos k with rfl | hk0
  · have hone : ((1 : Int) : ℚ) ≤ r := by
      push_cast
      linarith [hm.nonneg]
    simpa using hn.le_value (isValue_intCast (by decide) (by decide)) hone
  obtain ⟨num, den, hd, rfl, hround⟩ := hm
  have hn0 : 0 < num := by
    rcases Nat.eq_zero_or_pos num with rfl | hn0
    · rw [round, if_pos rfl, Option.some.injEq] at hround
      rw [← hround, value_zero] at hkm
      exact absurd hkm (not_le.2 (by exact_mod_cast hk0))
    · exact hn0
  have hsum : ((num + den : Nat) : ℚ) / den = num / den + 1 := by
    rw [Nat.cast_add, add_div, div_self (by exact_mod_cast hd.ne')]
  have hlimit : ((num + den : Nat) : ℚ) / den < 2 ^ (52 : ℤ) := by
    rw [hsum]
    norm_num at hq ⊢
    linarith
  obtain ⟨n', hround', hn'⟩ := exists_round hd (isValue_two_zpow (f := 52) (by decide) (by decide)) hlimit.le
  exact (add_one_le_value_of_round hn0 hd hround hround' hlimit hkm).trans (hn'.mono hn (by rw [hsum]; exact hqr))

end Magnitude

end RasterSketch
