import RasterSketch.Proofs.Number.Rounded
/-!
# Rounding and order

Rounding keeps the order of what is rounded (`Magnitude.Rounds.mono`), so that the lesser of two rounded quotients is
what the lesser quotient is rounded to (`Double.min_rounds`).  And as the whole numbers below `2 ^ 53` are magnitudes,
the whole part of a rounded number is less than one away from the number itself.
-/
namespace RasterSketch

theorem roundDiv_even_of_half {num den k : Nat} (hd : 0 < den) (h : (num : ℚ) / den = k + 1 / 2) :
    roundDiv num den % 2 = 0 := by
  have hq : (0 : ℚ) < den := by exact_mod_cast hd
  have htwice : 2 * num = 2 * (k * den) + den := by
    rw [div_eq_iff hq.ne'] at h
    have : (2 * num : ℚ) = 2 * (k * den) + den := by rw [h]; ring
    exact_mod_cast this
  have hdiv : num / den = k := Nat.div_eq_of_lt_le (by omega) (by rw [Nat.succ_mul]; omega)
  have hmod := Nat.div_add_mod num den
  rw [hdiv, Nat.mul_comm] at hmod
  exact roundDiv_even_of_tie (by omega)

/-- **The larger quotient has the larger nearest natural**: two that are apart by one come from one tie. -/
theorem roundDiv_mono {a b c d : Nat} (hb : 0 < b) (hd : 0 < d) (h : (a : ℚ) / b ≤ c / d) :
    roundDiv a b ≤ roundDiv c d := by
  by_contra hlt
  have hge : (roundDiv c d : ℚ) + 1 ≤ roundDiv a b := by exact_mod_cast not_le.1 hlt
  have ha := abs_le.1 (abs_roundDiv_sub_le a hb)
  have hc := abs_le.1 (abs_roundDiv_sub_le c hd)
  have htie : (c : ℚ) / d = roundDiv c d + 1 / 2 := by linarith
  have heven := roundDiv_even_of_half hd htie
  have heven' := roundDiv_even_of_half hb (by linarith : (a : ℚ) / b = roundDiv c d + 1 / 2)
  have hnext : (roundDiv a b : ℚ) = roundDiv c d + 1 := by linarith
  have : roundDiv a b = roundDiv c d + 1 := by exact_mod_cast hnext
  omega

namespace Magnitude

theorem inUnits_mono {a b c d : Nat} (hb : 0 < b) (hd : 0 < d) (h : (a : ℚ) / b ≤ c / d) (e : ℤ) :
    inUnits a b e ≤ inUnits c d e := by
  refine roundDiv_mono (unitDen_pos hb e) (unitDen_pos hd e) ?_
  rw [inUnits_quotient, inUnits_quotient]
  exact div_le_div_of_nonneg_right h (two_zpow_pos e).le

theorem binaryOrder_mono {a b c d : Nat} (ha : 0 < a) (hb : 0 < b) (hc : 0 < c) (hd : 0 < d)
    (h : (a : ℚ) / b ≤ c / d) : binaryOrder a b ≤ binaryOrder c d := by
  have hlt : (2 : ℚ) ^ binaryOrder a b < 2 ^ (binaryOrder c d + 1) :=
    ((binaryOrder_bounds ha hb).1.trans h).trans_lt (binaryOrder_bounds hc hd).2
  rw [two_zpow_lt_iff] at hlt
  omega

theorem value_mono_of_round {a b c d : Nat} (hb : 0 < b) (hd : 0 < d) {m n : Magnitude} (hm : round a b = some m)
    (hn : round c d = some n) (h : (a : ℚ) / b ≤ c / d) : m.value ≤ n.value := by
  rcases Nat.eq_zero_or_pos a with rfl | ha
  · have hz : m = zero := by
      rw [round, if_pos rfl, Option.some.injEq] at hm
      exact hm.symm
    rw [hz, value_zero]
    exact n.value_nonneg
  have hc : 0 < c := by
    have hpos : (0 : ℚ) < c / d := (div_pos (by exact_mod_cast ha) (by exact_mod_cast hb)).trans_le h
    rcases Nat.eq_zero_or_pos c with rfl | hc
    · simp at hpos
    · exact hc
  have horder := binaryOrder_mono ha hb hc hd h
  by_cases hunit : unit a b = unit c d
  · rw [value_of_round ha hb hm, value_of_round hc hd hn, ← hunit]
    exact mul_le_mul_of_nonneg_right (by exact_mod_cast inUnits_mono hb hd h _) (two_zpow_pos _).le
  · -- of different units: between the two quotients is the power of two that the second begins with
    have hlt : binaryOrder a b + 1 ≤ binaryOrder c d ∧ -1074 ≤ binaryOrder c d := by
      unfold unit at hunit
      omega
    have hbetween : (a : ℚ) / b ≤ 2 ^ binaryOrder c d :=
      (binaryOrder_bounds ha hb).2.le.trans (two_zpow_mono hlt.1)
    have hm' := value_le_of_round hb hm (k := 1) (by decide) hlt.2 (by simpa using hbetween)
    have hn' := le_value_of_round hd hn (k := 1) (by decide) hlt.2 (by simpa using (binaryOrder_bounds hc hd).1)
    exact hm'.trans hn'

/-- A magnitude has but one form. -/
theorem value_injective {m n : Magnitude} (h : m.value = n.value) : m = n := by
  have key : ∀ {m n : Magnitude}, m.exponent ≤ n.exponent → m.value = n.value → m = n := by
    rintro ⟨k, e, hk, he, he', hfull⟩ ⟨l, f, hl, hf, hf', hfull'⟩ hef heq
    change e ≤ f at hef
    obtain ⟨d, rfl⟩ := Int.le.dest hef
    have hvalue : (k : ℚ) * 2 ^ e = (l * 2 ^ d : ℕ) * 2 ^ e := by
      have : (k : ℚ) * 2 ^ e = l * 2 ^ (e + d) := heq
      rw [this, two_zpow_add, zpow_natCast]
      push_cast
      ring
    have hkl : k = l * 2 ^ d := by exact_mod_cast mul_right_cancel₀ (two_zpow_pos e).ne' hvalue
    rcases Nat.eq_zero_or_pos d with rfl | hd
    · simp at hkl
      subst hkl
      simp
    · -- a larger exponent is not the least, and its mantissa full, so that twice of it is too large
      have : l * 2 ≤ l * 2 ^ d := Nat.mul_le_mul_left l (Nat.le_self_pow hd.ne' 2)
      omega
  rcases le_total m.exponent n.exponent with hle | hle
  · exact key hle h
  · exact (key hle h.symm).symm

variable {p q : ℚ} {m n : Magnitude}

/-- **Rounding keeps the order.** -/
theorem Rounds.mono (hm : Rounds p m) (hn : Rounds q n) (h : p ≤ q) : m.value ≤ n.value := by
  obtain ⟨a, b, hb, rfl, hm⟩ := hm
  obtain ⟨c, d, hd, rfl, hn⟩ := hn
  exact value_mono_of_round hb hd hm hn h

theorem Rounds.unique (hm : Rounds q m) (hn : Rounds q n) : m = n :=
  value_injective (le_antisymm (hm.mono hn le_rfl) (hn.mono hm le_rfl))

theorem Rounds.nonneg (h : Rounds q m) : 0 ≤ q := by
  obtain ⟨num, den, -, rfl, -⟩ := h
  exact div_nonneg (Nat.cast_nonneg num) (Nat.cast_nonneg den)

/-! ## Whole parts -/

theorem isValue_intCast {n : Int} (h0 : 0 ≤ n) (h : n < 2 ^ 53) : IsValue (n : ℚ) := by
  obtain ⟨n, rfl⟩ := Int.eq_ofNat_of_zero_le h0
  exact isValue_natCast (by omega)

theorem isValue_half {n : Int} (h0 : 0 ≤ n) (h : n < 2 ^ 53) : IsValue (n / 2 : ℚ) := by
  obtain ⟨n, rfl⟩ := Int.eq_ofNat_of_zero_le h0
  have hv := isValue_mul_zpow (k := n) (f := -1) (by omega) (by decide) (by decide)
  rwa [zpow_neg_one, ← div_eq_mul_inv, ← Int.cast_natCast n] at hv

theorem Rounds.lt_floor_add_one (hr : Rounds q m) (hq : q ≤ 2 ^ 52) : q < ⌊m.value⌋ + 1 := by
  have hm : m.value ≤ 2 ^ 52 := hr.value_le (isValue_two_zpow (f := 52) (by decide) (by decide)) hq
  have hfloor : ⌊m.value⌋ ≤ 2 ^ 52 := by exact_mod_cast (Int.floor_le _).trans hm
  have hfloor0 : 0 ≤ ⌊m.value⌋ := Int.floor_nonneg.2 m.value_nonneg
  by_contra hle
  have hv : IsValue ((⌊m.value⌋ + 1 : Int) : ℚ) := isValue_intCast (by omega) (by omega)
  have := hr.le_value hv (by push_cast; exact not_lt.1 hle)
  exact absurd (Int.lt_floor_add_one m.value) (not_lt.2 (by exact_mod_cast this))

theorem Rounds.floor_lt_add_one (hr : Rounds q m) (hq : q ≤ 2 ^ 52) : (⌊m.value⌋ : ℚ) < q + 1 := by
  by_contra hge
  have hq0 := hr.nonneg
  have hle : q ≤ (⌊m.value⌋ - 1 : Int) := by
    push_cast
    linarith
  have hfloor0 : 0 ≤ ⌊m.value⌋ - 1 := by exact_mod_cast hq0.trans hle
  have hm : m.value ≤ 2 ^ 52 := hr.value_le (isValue_two_zpow (f := 52) (by decide) (by decide)) hq
  have hfloor : ⌊m.value⌋ ≤ 2 ^ 52 := by exact_mod_cast (Int.floor_le _).trans hm
  have := hr.value_le (isValue_intCast hfloor0 (by omega)) hle
  push_cast at this
  linarith [Int.floor_le m.value]

end Magnitude

open Magnitude

/-- **The lesser of two rounded numbers is what the lesser number is rounded to.** -/
theorem Double.min_rounds {p q : ℚ} {m n : Magnitude} (hm : Rounds p m) (hn : Rounds q n) :
    ∃ k, Double.min (finite false m) (finite false n) = finite false k ∧ Rounds (p ⊓ q) k := by
  unfold Double.min
  by_cases hlt : (finite false n).lt (finite false m) = true
  · have hqp : q ≤ p := by
      by_contra hpq
      exact absurd ((lt_iff n m).1 hlt) (not_lt.2 (hm.mono hn (not_le.1 hpq).le))
    rw [if_pos hlt, min_eq_right hqp]
    exact ⟨n, rfl, hn⟩
  · rw [if_neg hlt]
    have hle : m.value ≤ n.value := le_of_not_gt fun h => hlt ((lt_iff n m).2 h)
    rcases le_total p q with hpq | hqp
    · rw [min_eq_left hpq]
      exact ⟨m, rfl, hm⟩
    · rw [min_eq_right hqp, value_injective (le_antisymm hle (hn.mono hm hqp))]
      exact ⟨n, rfl, hn⟩

end RasterSketch
