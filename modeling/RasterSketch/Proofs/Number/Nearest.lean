import Mathlib.Algebra.Order.Field.Power
import Mathlib.Data.Rat.Floor
import Mathlib.Tactic.FieldSimp
import Mathlib.Tactic.Linarith
import Mathlib.Tactic.NormNum
import Mathlib.Tactic.Positivity
import Mathlib.Tactic.Ring
import RasterSketch.Number.Basic
/-!
# Nearest magnitudes

A magnitude as the exact rational that it is (`Magnitude.value`), and rounding held to it.  Between a quotient and
the magnitude it is rounded to lies no `k * 2 ^ f` that a magnitude could be (`le_value_of_round`,
`value_le_of_round`), and the two differ by half a unit in the last place at most (`abs_value_sub_le`).  Whole
numbers below `2 ^ 53` are such `k * 2 ^ f`, so that the ceiling of a quotient of two of them survives the rounding
in between (`ceilQuotient_eq`).
-/
namespace RasterSketch

/-! ## Rounding to a natural -/

theorem le_roundDiv {k num den : Nat} (hd : 0 < den) (h : k * den ≤ num) : k ≤ roundDiv num den := by
  have hk : k ≤ num / den := (Nat.le_div_iff_mul_le hd).2 h
  unfold roundDiv
  split
  · exact hk
  · split <;> omega

theorem roundDiv_le {k num den : Nat} (hd : 0 < den) (h : num ≤ k * den) : roundDiv num den ≤ k := by
  have hs := roundDiv_mul_le num den
  have h2 : roundDiv num den * den ≤ k * den + den / 2 := by omega
  by_contra hlt
  have h3 : (k + 1) * den ≤ roundDiv num den * den := Nat.mul_le_mul_right den (by omega)
  rw [Nat.add_mul] at h3
  omega

theorem abs_roundDiv_sub_le (num : Nat) {den : Nat} (hd : 0 < den) :
    |(roundDiv num den : ℚ) - num / den| ≤ 1 / 2 := by
  have h1 : (2 * (roundDiv num den * den) : ℚ) ≤ 2 * num + den := by exact_mod_cast roundDiv_mul_le num den
  have h2 : (2 * num : ℚ) ≤ 2 * (roundDiv num den * den) + den := by exact_mod_cast le_roundDiv_mul num hd
  have hq : (0 : ℚ) < den := by exact_mod_cast hd
  have h3 : (roundDiv num den : ℚ) - 1 / 2 ≤ num / den := by rw [le_div_iff₀ hq]; linarith
  have h4 : (num : ℚ) / den ≤ roundDiv num den + 1 / 2 := by rw [div_le_iff₀ hq]; linarith
  rw [abs_le]
  exact ⟨by linarith, by linarith⟩

/-! ## Values -/

/-- The power of two that `twoTo` gives for an exponent of either sign. -/
theorem two_zpow (e : ℤ) : (2 : ℚ) ^ e = twoTo e.toNat / twoTo (-e).toNat := by
  have hp : ∀ n : ℕ, ((twoTo n : ℕ) : ℚ) = 2 ^ n := fun n => by
    rw [show twoTo n = 2 ^ n from rfl, Nat.cast_pow, Nat.cast_ofNat]
  rw [hp, hp, ← zpow_natCast, ← zpow_natCast, ← zpow_sub₀ (by norm_num)]
  congr 1
  omega

theorem two_zpow_pos (e : ℤ) : (0 : ℚ) < 2 ^ e := zpow_pos (by norm_num) e

theorem two_zpow_mono {e f : ℤ} (h : e ≤ f) : (2 : ℚ) ^ e ≤ 2 ^ f := zpow_le_zpow_right₀ (by norm_num) h

theorem two_zpow_add (e f : ℤ) : (2 : ℚ) ^ (e + f) = 2 ^ e * 2 ^ f := zpow_add₀ (by norm_num) e f

theorem two_zpow_lt_iff {e f : ℤ} : (2 : ℚ) ^ e < 2 ^ f ↔ e < f := zpow_lt_zpow_iff_right₀ (by norm_num)

namespace Magnitude

/-- The exact value of a magnitude. -/
def value (m : Magnitude) : ℚ := m.mantissa * 2 ^ m.exponent

theorem num_div_den (m : Magnitude) : (m.num : ℚ) / m.den = m.value := by
  unfold num den value
  rw [two_zpow, Nat.cast_mul, mul_div_assoc]

theorem value_nonneg (m : Magnitude) : 0 ≤ m.value := mul_nonneg (Nat.cast_nonneg _) (two_zpow_pos _).le

theorem value_lt (m : Magnitude) : m.value < 2 ^ (1024 : ℤ) := by
  obtain ⟨k, e, hk, _, he, _⟩ := m
  unfold value
  calc (k : ℚ) * 2 ^ e < (2 ^ 53 : ℕ) * 2 ^ e := mul_lt_mul_of_pos_right (by exact_mod_cast hk) (two_zpow_pos e)
    _ = 2 ^ (53 + e) := by rw [two_zpow_add]; norm_num
    _ ≤ 2 ^ (1024 : ℤ) := two_zpow_mono (by omega)

/-! ## The unit of a quotient -/

theorem two_zpow_le_div_iff {num den : Nat} (hd : 0 < den) (e : ℤ) :
    (2 : ℚ) ^ e ≤ num / den ↔ den * twoTo e.toNat ≤ num * twoTo (-e).toNat := by
  have hq : (0 : ℚ) < den := by exact_mod_cast hd
  have ht : (0 : ℚ) < twoTo (-e).toNat := by exact_mod_cast twoTo_pos _
  rw [two_zpow, div_le_div_iff₀ ht hq, mul_comm]
  exact_mod_cast Iff.rfl

/-- **A quotient lies between the power of two of its order and the next.** -/
theorem binaryOrder_bounds {num den : Nat} (hn : 0 < num) (hd : 0 < den) :
    (2 : ℚ) ^ binaryOrder num den ≤ num / den ∧ (num : ℚ) / den < 2 ^ (binaryOrder num den + 1) := by
  have hq : (0 : ℚ) < den := by exact_mod_cast hd
  have hpow : ∀ n : ℕ, ((2 ^ n : ℕ) : ℚ) = 2 ^ (n : ℤ) := fun n => by push_cast; rw [zpow_natCast]
  have n1 : (2 : ℚ) ^ (num.log2 : ℤ) ≤ num := by rw [← hpow]; exact_mod_cast Nat.log2_self_le (by omega)
  have n2 : (num : ℚ) < 2 ^ ((num.log2 : ℤ) + 1) := by
    have := hpow (num.log2 + 1)
    push_cast at this
    rw [← this]; exact_mod_cast Nat.lt_log2_self
  have d1 : (2 : ℚ) ^ (den.log2 : ℤ) ≤ den := by rw [← hpow]; exact_mod_cast Nat.log2_self_le (by omega)
  have d2 : (den : ℚ) < 2 ^ ((den.log2 : ℤ) + 1) := by
    have := hpow (den.log2 + 1)
    push_cast at this
    rw [← this]; exact_mod_cast Nat.lt_log2_self
  -- the difference of the two orders is the order of the quotient or one more
  have hlow : (2 : ℚ) ^ ((num.log2 : ℤ) - den.log2 - 1) ≤ num / den := by
    rw [le_div_iff₀ hq]
    calc (2 : ℚ) ^ ((num.log2 : ℤ) - den.log2 - 1) * den
        ≤ 2 ^ ((num.log2 : ℤ) - den.log2 - 1) * 2 ^ ((den.log2 : ℤ) + 1) :=
          mul_le_mul_of_nonneg_left d2.le (two_zpow_pos _).le
      _ = 2 ^ (num.log2 : ℤ) := by rw [← two_zpow_add]; congr 1; ring
      _ ≤ num := n1
  have hhigh : (num : ℚ) / den < 2 ^ ((num.log2 : ℤ) - den.log2 + 1) := by
    rw [div_lt_iff₀ hq]
    calc (num : ℚ) < 2 ^ ((num.log2 : ℤ) + 1) := n2
      _ = 2 ^ ((num.log2 : ℤ) - den.log2 + 1) * 2 ^ (den.log2 : ℤ) := by rw [← two_zpow_add]; congr 1; ring
      _ ≤ 2 ^ ((num.log2 : ℤ) - den.log2 + 1) * den := mul_le_mul_of_nonneg_left d1 (two_zpow_pos _).le
  unfold binaryOrder
  simp only
  split
  · rename_i h
    exact ⟨(two_zpow_le_div_iff hd _).2 h, hhigh⟩
  · rename_i h
    rw [sub_add_cancel]
    exact ⟨hlow, lt_of_not_ge fun hle => h ((two_zpow_le_div_iff hd _).1 hle)⟩

/-- The exponent of the last place of the magnitude that a quotient is rounded to. -/
def unit (num den : Nat) : ℤ := max (-1074) (binaryOrder num den - 52)

theorem inUnits_quotient (num den : Nat) (e : ℤ) :
    ((num * twoTo (-e).toNat : ℕ) : ℚ) / (den * twoTo e.toNat : ℕ) = num / den / 2 ^ e := by
  rw [two_zpow, Nat.cast_mul, Nat.cast_mul, div_div_eq_mul_div, mul_div_assoc, div_mul_eq_mul_div, div_div,
    mul_comm (den : ℚ), mul_div_assoc]

theorem unitDen_pos {den : Nat} (hd : 0 < den) (e : ℤ) : 0 < den * twoTo e.toNat :=
  Nat.mul_pos hd (twoTo_pos _)

theorem le_inUnits {k num den : Nat} (hd : 0 < den) {e : ℤ} (h : (k : ℚ) * 2 ^ e ≤ num / den) :
    k ≤ inUnits num den e := by
  have hp : (0 : ℚ) < (den * twoTo e.toNat : ℕ) := by exact_mod_cast unitDen_pos hd e
  apply le_roundDiv (unitDen_pos hd e)
  rw [← le_div_iff₀ (two_zpow_pos e), ← inUnits_quotient, le_div_iff₀ hp] at h
  exact_mod_cast h

theorem inUnits_le {k num den : Nat} (hd : 0 < den) {e : ℤ} (h : (num : ℚ) / den ≤ k * 2 ^ e) :
    inUnits num den e ≤ k := by
  have hp : (0 : ℚ) < (den * twoTo e.toNat : ℕ) := by exact_mod_cast unitDen_pos hd e
  apply roundDiv_le (unitDen_pos hd e)
  rw [← div_le_iff₀ (two_zpow_pos e), ← inUnits_quotient, div_le_iff₀ hp] at h
  exact_mod_cast h

theorem abs_inUnits_sub_le (num : Nat) {den : Nat} (hd : 0 < den) (e : ℤ) :
    |(inUnits num den e : ℚ) * 2 ^ e - num / den| ≤ 2 ^ e / 2 := by
  have h := abs_roundDiv_sub_le (num * twoTo (-e).toNat) (unitDen_pos hd e)
  rw [inUnits_quotient] at h
  have hp := two_zpow_pos e
  calc |(inUnits num den e : ℚ) * 2 ^ e - num / den|
      = |(inUnits num den e : ℚ) - num / den / 2 ^ e| * 2 ^ e := by
        rw [← abs_of_pos hp, ← abs_mul, abs_of_pos hp, sub_mul, div_mul_cancel₀ _ hp.ne']
    _ ≤ 1 / 2 * 2 ^ e := mul_le_mul_of_nonneg_right h hp.le
    _ = 2 ^ e / 2 := by ring

/-- At the unit of a quotient its mantissa has 53 bits, or the unit is the least. -/
theorem inUnits_unit {num den : Nat} (hn : 0 < num) (hd : 0 < den) :
    inUnits num den (unit num den) ≤ 2 ^ 53 ∧
      (2 ^ 52 ≤ inUnits num den (unit num den) ∨ unit num den = -1074) := by
  obtain ⟨hlow, hhigh⟩ := binaryOrder_bounds hn hd
  constructor
  · apply inUnits_le hd
    calc (num : ℚ) / den ≤ 2 ^ (binaryOrder num den + 1) := hhigh.le
      _ ≤ 2 ^ (53 + unit num den) := two_zpow_mono (by unfold unit; omega)
      _ = ((2 ^ 53 : ℕ) : ℚ) * 2 ^ unit num den := by rw [two_zpow_add]; norm_num
  · rcases le_or_gt (binaryOrder num den - 52) (-1074) with h | h
    · exact .inr (max_eq_left h)
    · refine .inl (le_inUnits hd ?_)
      calc ((2 ^ 52 : ℕ) : ℚ) * 2 ^ unit num den = 2 ^ (52 + unit num den) := by rw [two_zpow_add]; norm_num
        _ = 2 ^ binaryOrder num den := by congr 1; unfold unit; omega
        _ ≤ num / den := hlow

/-! ## Rounding a quotient -/

theorem ofParts?_value {k : Nat} {e : ℤ} {m : Magnitude} (h : ofParts? k e = some m) : m.value = k * 2 ^ e := by
  unfold ofParts? at h
  split at h
  · cases h; rfl
  · cases h

theorem value_zero : zero.value = 0 := by
  unfold zero value
  simp

/-- **The value of a rounded quotient**, carried to the next power of two or not. -/
theorem value_of_round {num den : Nat} (hn : 0 < num) (hd : 0 < den) {m : Magnitude}
    (h : round num den = some m) : m.value = inUnits num den (unit num den) * 2 ^ unit num den := by
  unfold round at h
  rw [if_neg hn.ne'] at h
  change (if inUnits num den (unit num den) < _ then _ else ofParts? _ (unit num den + 1)) = _ at h
  split at h
  · exact ofParts?_value h
  · rename_i hlt
    have h53 : inUnits num den (unit num den) = 2 ^ 53 := by
      have := (inUnits_unit hn hd).1
      omega
    rw [ofParts?_value h, h53, two_zpow_add]
    norm_num
    ring

/-- What is in units of a power of two, and fits a mantissa, stays below a rounded quotient that it was below. -/
theorem le_value_of_round {num den : Nat} (hd : 0 < den) {m : Magnitude} (h : round num den = some m)
    {k : Nat} {f : ℤ} (hk : k ≤ 2 ^ 53) (hf : -1074 ≤ f) (hle : (k : ℚ) * 2 ^ f ≤ num / den) :
    (k : ℚ) * 2 ^ f ≤ m.value := by
  rcases Nat.eq_zero_or_pos num with rfl | hn
  · rw [Nat.cast_zero, zero_div] at hle
    exact hle.trans m.value_nonneg
  rw [value_of_round hn hd h]
  rcases le_or_gt (unit num den) f with hu | hu
  · obtain ⟨d, hd'⟩ := Int.le.dest hu
    have hkd : (k : ℚ) * 2 ^ f = (k * 2 ^ d : ℕ) * 2 ^ unit num den := by
      rw [← hd', two_zpow_add, zpow_natCast]; push_cast; ring
    rw [hkd] at hle ⊢
    exact mul_le_mul_of_nonneg_right (by exact_mod_cast le_inUnits hd hle) (two_zpow_pos _).le
  · -- a finer unit than that of the quotient, so that the mantissa of the quotient is a full one
    have h52 := (inUnits_unit hn hd).2.resolve_right (by omega)
    calc (k : ℚ) * 2 ^ f ≤ (2 ^ 53 : ℕ) * 2 ^ f :=
          mul_le_mul_of_nonneg_right (by exact_mod_cast hk) (two_zpow_pos _).le
      _ = 2 ^ (53 + f) := by rw [two_zpow_add]; norm_num
      _ ≤ 2 ^ (52 + unit num den) := two_zpow_mono (by omega)
      _ = (2 ^ 52 : ℕ) * 2 ^ unit num den := by rw [two_zpow_add]; norm_num
      _ ≤ inUnits num den (unit num den) * 2 ^ unit num den :=
          mul_le_mul_of_nonneg_right (by exact_mod_cast h52) (two_zpow_pos _).le

/-- In units of a quotient or coarser, a bound of the quotient is one of its mantissa; a finer bound is none. -/
theorem inUnits_mul_le {num den : Nat} (hn : 0 < num) (hd : 0 < den) {k : Nat} {f : ℤ} (hk : k < 2 ^ 53)
    (hf : -1074 ≤ f) (hle : (num : ℚ) / den ≤ k * 2 ^ f) :
    inUnits num den (unit num den) * (2 : ℚ) ^ unit num den ≤ k * 2 ^ f ∧ unit num den ≤ f := by
  have hu : unit num den ≤ f := by
    by_contra hlt
    have hord : unit num den = binaryOrder num den - 52 := by unfold unit at hlt ⊢; omega
    have hp := two_zpow_pos f
    have : (2 : ℚ) ^ (52 + unit num den) < 2 ^ (53 + f) := by
      calc (2 : ℚ) ^ (52 + unit num den) = 2 ^ binaryOrder num den := by rw [hord]; congr 1; ring
        _ ≤ num / den := (binaryOrder_bounds hn hd).1
        _ ≤ k * 2 ^ f := hle
        _ < (2 ^ 53 : ℕ) * 2 ^ f := mul_lt_mul_of_pos_right (by exact_mod_cast hk) hp
        _ = 2 ^ (53 + f) := by rw [two_zpow_add]; norm_num
    rw [two_zpow_lt_iff] at this
    omega
  obtain ⟨d, hd'⟩ := Int.le.dest hu
  have hkd : (k : ℚ) * 2 ^ f = (k * 2 ^ d : ℕ) * 2 ^ unit num den := by
    rw [← hd', two_zpow_add, zpow_natCast]; push_cast; ring
  rw [hkd] at hle ⊢
  exact ⟨mul_le_mul_of_nonneg_right (by exact_mod_cast inUnits_le hd hle) (two_zpow_pos _).le, hu⟩

/-- What is in units of a power of two, and fits a mantissa, stays above a rounded quotient that it was above. -/
theorem value_le_of_round {num den : Nat} (hd : 0 < den) {m : Magnitude} (h : round num den = some m)
    {k : Nat} {f : ℤ} (hk : k < 2 ^ 53) (hf : -1074 ≤ f) (hle : (num : ℚ) / den ≤ k * 2 ^ f) :
    m.value ≤ k * 2 ^ f := by
  rcases Nat.eq_zero_or_pos num with rfl | hn
  · have hz : m = zero := by
      rw [round, if_pos rfl, Option.some.injEq] at h
      exact h.symm
    rw [hz, value_zero]
    exact mul_nonneg (Nat.cast_nonneg _) (two_zpow_pos _).le
  · rw [value_of_round hn hd h]
    exact (inUnits_mul_le hn hd hk hf hle).1

/-- A rounded quotient is off by half a unit at most. -/
theorem abs_value_sub_le {num den : Nat} (hn : 0 < num) (hd : 0 < den) {m : Magnitude}
    (h : round num den = some m) : |m.value - num / den| ≤ 2 ^ unit num den / 2 := by
  rw [value_of_round hn hd h]
  exact abs_inUnits_sub_le num hd _

/-- **Below a finite magnitude nothing is rounded to infinity.** -/
theorem round_eq_some {num den : Nat} (hd : 0 < den) {k : Nat} {f : ℤ} (hk : k < 2 ^ 53) (hf : -1074 ≤ f)
    (hf' : f ≤ 971) (hle : (num : ℚ) / den ≤ k * 2 ^ f) : ∃ m, round num den = some m := by
  rcases Nat.eq_zero_or_pos num with rfl | hn
  · exact ⟨zero, rfl⟩
  obtain ⟨hm, hu⟩ := inUnits_mul_le hn hd hk hf hle
  obtain ⟨h53, h52⟩ := inUnits_unit hn hd
  have hu' : -1074 ≤ unit num den := le_max_left _ _
  unfold round
  rw [if_neg hn.ne']
  change ∃ m, (if inUnits num den (unit num den) < _ then ofParts? _ (unit num den)
    else ofParts? _ (unit num den + 1)) = some m
  split
  · rename_i hlt
    have hc : Canonical (inUnits num den (unit num den)) (unit num den) := ⟨hlt, hu', by omega, by omega⟩
    exact ⟨_, dif_pos hc⟩
  · -- the carry leaves room for one more unit, for the bound is no power of two above
    rename_i hlt
    have hlt' : unit num den < f := by
      refine lt_of_le_of_ne hu fun heq => ?_
      rw [heq, mul_le_mul_iff_left₀ (two_zpow_pos f)] at hm
      have : inUnits num den f ≤ k := by exact_mod_cast hm
      rw [heq] at hlt
      omega
    exact ⟨_, dif_pos ⟨by decide, by omega, by omega, .inl (Nat.le_refl _)⟩⟩

end Magnitude

/-! ## The ceiling of a quotient -/

namespace Double

theorem ceil_finite (m : Magnitude) : (finite false m).ceil = .ok ⌈m.value⌉ := by
  rw [← Magnitude.num_div_den, ← Int.cast_natCast m.num, Rat.ceil_intCast_div_natCast]
  rfl

theorem quotient_natCast {a b : Nat} (hb : 0 < b) {m : Magnitude} (h : Magnitude.round a b = some m) :
    quotient a b = .ok (.finite false m) := by
  unfold quotient
  have ha : decide ((a : ℤ) < 0) = false := decide_eq_false (Int.not_lt.2 (Int.natCast_nonneg a))
  have hb' : decide ((b : ℤ) < 0) = false := decide_eq_false (Int.not_lt.2 (Int.natCast_nonneg b))
  rw [if_neg (by omega), Int.natAbs_natCast, Int.natAbs_natCast, h, ha, hb']
  rfl

end Double

/-- Half a unit of a quotient of naturals below `2 ^ 53` and `2 ^ 1024` is less than the divisor can tell apart. -/
theorem half_unit_lt {a b : Nat} (ha : 0 < a) (ha' : a < 2 ^ 53) (hb : 0 < b) (hb' : b < 2 ^ 1024) :
    (2 : ℚ) ^ Magnitude.unit a b / 2 < 1 / b := by
  have hbq : (0 : ℚ) < b := by exact_mod_cast hb
  rw [lt_div_iff₀ hbq]
  rcases max_choice (-1074) (Magnitude.binaryOrder a b - 52) with hu | hu
  · have hb2 : (b : ℚ) < 2 ^ (1024 : ℤ) := by exact_mod_cast hb'
    unfold Magnitude.unit
    rw [hu]
    calc (2 : ℚ) ^ (-1074 : ℤ) / 2 * b < 2 ^ (-1074 : ℤ) / 2 * 2 ^ (1024 : ℤ) :=
          mul_lt_mul_of_pos_left hb2 (by positivity)
      _ = 2 ^ (-1074 + 1024 : ℤ) / 2 := by rw [two_zpow_add, div_mul_eq_mul_div]
      _ ≤ 1 := by norm_num
  · unfold Magnitude.unit
    rw [hu]
    have ha2 : (a : ℚ) < 2 ^ (53 : ℤ) := by exact_mod_cast ha'
    calc (2 : ℚ) ^ (Magnitude.binaryOrder a b - 52) / 2 * b
        = 2 ^ Magnitude.binaryOrder a b * 2 ^ (-53 : ℤ) * b := by
          rw [show Magnitude.binaryOrder a b - 52 = Magnitude.binaryOrder a b + -53 + 1 by ring, two_zpow_add,
            two_zpow_add, zpow_one]
          ring
      _ ≤ a / b * 2 ^ (-53 : ℤ) * b := by
          gcongr
          exact (Magnitude.binaryOrder_bounds ha hb).1
      _ = a * 2 ^ (-53 : ℤ) := by field_simp
      _ < 2 ^ (53 : ℤ) * 2 ^ (-53 : ℤ) := mul_lt_mul_of_pos_right ha2 (two_zpow_pos _)
      _ = 1 := by norm_num

/-- A rounded quotient of naturals below `2 ^ 53` and `2 ^ 1024` exceeds each natural that the quotient exceeds. -/
theorem lt_value_of_round {a b n : Nat} (ha : a < 2 ^ 53) (hb : 0 < b) (hb' : b < 2 ^ 1024) {m : Magnitude}
    (h : Magnitude.round a b = some m) (hlt : (n : ℚ) < a / b) : (n : ℚ) < m.value := by
  have hbq : (0 : ℚ) < b := by exact_mod_cast hb
  have hnb : n * b < a := by exact_mod_cast (lt_div_iff₀ hbq).1 hlt
  have hstep : (n : ℚ) + 1 / b ≤ a / b := by
    rw [← mul_div_cancel_right₀ (n : ℚ) hbq.ne', ← add_div, div_le_div_iff_of_pos_right hbq]
    exact_mod_cast hnb
  have herr := (abs_le.1 (Magnitude.abs_value_sub_le (by omega) hb h)).1
  have := half_unit_lt (by omega) ha hb hb'
  linarith

/-- **The ceiling of a quotient is the exact one**, although the quotient is rounded before. -/
theorem ceilQuotient_eq {a b : Nat} (ha : a < 2 ^ 53) (hb : 0 < b) (hb' : b < 2 ^ 1024) :
    ceilQuotient a b = .ok ⌈(a : ℚ) / b⌉ := by
  have hbq : (0 : ℚ) < b := by exact_mod_cast hb
  have hle : (a : ℚ) / b ≤ (⌈(a : ℚ) / b⌉₊ : ℕ) * 2 ^ (0 : ℤ) := by simpa using Nat.le_ceil ((a : ℚ) / b)
  have hk : ⌈(a : ℚ) / b⌉₊ < 2 ^ 53 := by
    refine lt_of_le_of_lt (Nat.ceil_le.2 ?_) ha
    exact div_le_self (Nat.cast_nonneg a) (by exact_mod_cast hb)
  obtain ⟨m, hm⟩ := Magnitude.round_eq_some hb hk (by decide) (by decide) hle
  have hceil : ⌈m.value⌉ = ⌈(a : ℚ) / b⌉ := by
    have hpos : (0 : ℚ) ≤ a / b := div_nonneg (Nat.cast_nonneg a) (Nat.cast_nonneg b)
    rw [← Int.natCast_ceil_eq_ceil hpos, Int.ceil_eq_iff]
    constructor
    · rcases Nat.eq_zero_or_pos ⌈(a : ℚ) / b⌉₊ with h0 | h0
      · rw [h0]
        exact lt_of_lt_of_le (by norm_num) m.value_nonneg
      · have := lt_value_of_round (n := ⌈(a : ℚ) / b⌉₊ - 1) ha hb hb' hm
          (Nat.lt_ceil.1 (Nat.sub_one_lt h0.ne'))
        rw [Nat.cast_sub h0] at this
        exact_mod_cast this
    · simpa using Magnitude.value_le_of_round hb hm hk (by decide) hle
  unfold ceilQuotient
  rw [Double.quotient_natCast hb hm]
  change (Double.finite false m).ceil = _
  rw [Double.ceil_finite, hceil]

end RasterSketch
