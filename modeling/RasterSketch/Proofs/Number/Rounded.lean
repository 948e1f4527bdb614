import RasterSketch.Proofs.Number.Nearest
/-!
# What a result is rounded to

`Magnitude.Rounds q m` says that the rational `q` is rounded to `m`, whatever quotient `q` was given as.  Nothing that a
magnitude could be lies between the two (`Rounds.le_value`, `Rounds.value_le`), and where `q` is not too small they
differ by a part in `2 ^ 53` at most (`Rounds.abs_sub_le`).  The operations on doubles without a sign are held to it one
by one.
-/
namespace RasterSketch

namespace Magnitude

/-- A rational that some magnitude is. -/
def IsValue (q : ℚ) : Prop := ∃ m : Magnitude, m.value = q

def Rounds (q : ℚ) (m : Magnitude) : Prop :=
  ∃ num den : Nat, 0 < den ∧ (num : ℚ) / den = q ∧ round num den = some m

theorem isValue (m : Magnitude) : IsValue m.value := ⟨m, rfl⟩

variable {q b : ℚ} {m : Magnitude}

theorem Rounds.le_value (h : Rounds q m) (hb : IsValue b) (hle : b ≤ q) : b ≤ m.value := by
  obtain ⟨num, den, hd, rfl, hr⟩ := h
  obtain ⟨v, rfl⟩ := hb
  exact le_value_of_round hd hr v.canonical.1.le v.canonical.2.1 hle

theorem Rounds.value_le (h : Rounds q m) (hb : IsValue b) (hle : q ≤ b) : m.value ≤ b := by
  obtain ⟨num, den, hd, rfl, hr⟩ := h
  obtain ⟨v, rfl⟩ := hb
  exact value_le_of_round hd hr v.canonical.1 v.canonical.2.1 hle

theorem Rounds.value_eq (h : Rounds q m) (hq : IsValue q) : m.value = q :=
  le_antisymm (h.value_le hq le_rfl) (h.le_value hq le_rfl)

/-- Below a magnitude there is always one to round to. -/
theorem exists_round {num den : Nat} (hd : 0 < den) (hb : IsValue b) (hle : (num : ℚ) / den ≤ b) :
    ∃ m, round num den = some m ∧ Rounds ((num : ℚ) / den) m := by
  obtain ⟨v, rfl⟩ := hb
  obtain ⟨m, hm⟩ := round_eq_some hd v.canonical.1 v.canonical.2.1 v.canonical.2.2.1 hle
  exact ⟨m, hm, num, den, hd, rfl, hm⟩

/-- **Half a unit is a part in `2 ^ 53` at most**, from the least normal magnitude on. -/
theorem Rounds.abs_sub_le (h : Rounds q m) (hq : (2 : ℚ) ^ (-1022 : ℤ) ≤ q) :
    |m.value - q| ≤ q * 2 ^ (-53 : ℤ) := by
  obtain ⟨num, den, hd, rfl, hr⟩ := h
  have hn : 0 < num := by
    rcases Nat.eq_zero_or_pos num with rfl | hn
    · rw [Nat.cast_zero, zero_div] at hq
      exact absurd hq (not_le.2 (two_zpow_pos _))
    · exact hn
  obtain ⟨hlow, hhigh⟩ := binaryOrder_bounds hn hd
  have horder : -1022 < binaryOrder num den + 1 := two_zpow_lt_iff.1 (lt_of_le_of_lt hq hhigh)
  have hunit : unit num den = binaryOrder num den + -53 + 1 := by unfold unit; omega
  calc |m.value - num / den| ≤ 2 ^ unit num den / 2 := abs_value_sub_le hn hd hr
    _ = 2 ^ binaryOrder num den * 2 ^ (-53 : ℤ) := by
      rw [hunit, two_zpow_add, two_zpow_add, zpow_one]
      ring
    _ ≤ num / den * 2 ^ (-53 : ℤ) := mul_le_mul_of_nonneg_right hlow (two_zpow_pos _).le

theorem Rounds.value_le_double (h : Rounds q m) (hq : (2 : ℚ) ^ (-1022 : ℤ) ≤ q) : m.value ≤ 2 * q := by
  have herr := (abs_le.1 (h.abs_sub_le hq)).2
  have hq0 : 0 ≤ q := (two_zpow_pos _).le.trans hq
  have hpart : q * 2 ^ (-53 : ℤ) ≤ q := mul_le_of_le_one_right hq0 (by norm_num)
  linarith

theorem isValue_mul_zpow {k : Nat} {f : ℤ} (hk : k < 2 ^ 53) (hf : -1074 ≤ f) (hf' : f ≤ 971) :
    IsValue (k * 2 ^ f) := by
  have hd : 0 < twoTo (-f).toNat := twoTo_pos _
  have hq : ((k * twoTo f.toNat : Nat) : ℚ) / (twoTo (-f).toNat : Nat) = k * 2 ^ f := by
    rw [two_zpow, Nat.cast_mul, mul_div_assoc]
  obtain ⟨m, hm⟩ := round_eq_some hd hk hf hf' hq.le
  exact ⟨m, le_antisymm (value_le_of_round hd hm hk hf hq.le) (le_value_of_round hd hm hk.le hf hq.ge)⟩

theorem isValue_natCast {n : Nat} (hn : n < 2 ^ 53) : IsValue n := by
  have h := isValue_mul_zpow (f := 0) hn (by decide) (by decide)
  rwa [zpow_zero, mul_one] at h

theorem isValue_one : IsValue 1 := by
  have h := isValue_natCast (n := 1) (by decide)
  rwa [Nat.cast_one] at h

theorem Rounds.le_one (h : Rounds q m) (hq : q ≤ 1) : m.value ≤ 1 := h.value_le isValue_one hq

theorem isValue_two_zpow {f : ℤ} (hf : -1074 ≤ f) (hf' : f ≤ 1023) : IsValue (2 ^ f) := by
  rcases le_total f 971 with hle | hle
  · have h := isValue_mul_zpow (k := 1) (by decide) hf hle
    rwa [Nat.cast_one, one_mul] at h
  · -- the mantissa takes what the exponent has no room for
    have h := isValue_mul_zpow (k := 2 ^ (f - 971).toNat) (f := 971) ?_ (by decide) (by decide)
    · rwa [Nat.cast_pow, Nat.cast_ofNat, ← zpow_natCast, Int.toNat_of_nonneg (by omega), ← two_zpow_add,
        sub_add_cancel] at h
    · exact Nat.pow_lt_pow_right (by decide) (by omega)

end Magnitude

open Magnitude

namespace Double

/-- The exact value of a finite double. -/
def value : Double → ℚ
  | .finite s m => if s then -m.value else m.value
  | _ => 0

/-! ## Operations -/

variable {m n : Magnitude} {b : ℚ}

theorem ofRatio_rounds {num den : Nat} (hd : 0 < den) (hb : IsValue b) (hle : (num : ℚ) / den ≤ b) :
    ∃ k, ofRatio false num den = .finite false k ∧ Rounds ((num : ℚ) / den) k := by
  obtain ⟨k, hk, hr⟩ := exists_round hd hb hle
  exact ⟨k, by rw [ofRatio, hk], hr⟩

theorem ofInt_rounds {c : Int} (hc : 0 ≤ c) (hb : IsValue b) (hle : (c : ℚ) ≤ b) :
    ∃ k, ofInt c = .ok (.finite false k) ∧ Rounds c k := by
  obtain ⟨c, rfl⟩ := Int.eq_ofNat_of_zero_le hc
  have hle' : (c : ℚ) / (1 : Nat) ≤ b := by simpa using hle
  obtain ⟨k, hk, hr⟩ := exists_round Nat.one_pos hb hle'
  refine ⟨k, ?_, by simpa using hr⟩
  rw [ofInt, Int.natAbs_natCast, hk, decide_eq_false (Int.not_lt.2 hc)]

/-- A whole number below `2 ^ 53` is kept as it is. -/
theorem ofInt_exact {c : Int} (hc : 0 ≤ c) (hc' : c < 2 ^ 53) :
    ∃ k, ofInt c = .ok (.finite false k) ∧ k.value = c := by
  have hv : IsValue (c : ℚ) := by
    have h := isValue_natCast (n := c.toNat) (by omega)
    rwa [← Int.cast_natCast, Int.toNat_of_nonneg hc] at h
  obtain ⟨k, hk, hr⟩ := ofInt_rounds hc hv le_rfl
  exact ⟨k, hk, hr.value_eq hv⟩

theorem quotient_rounds {a c : Int} (ha : 0 ≤ a) (hc : 0 < c) (hb : IsValue b) (hle : (a : ℚ) / c ≤ b) :
    ∃ k, quotient a c = .ok (.finite false k) ∧ Rounds ((a : ℚ) / c) k := by
  obtain ⟨a, rfl⟩ := Int.eq_ofNat_of_zero_le ha
  obtain ⟨c, rfl⟩ := Int.eq_ofNat_of_zero_le hc.le
  have hc' : 0 < c := by exact_mod_cast hc
  have hle' : (a : ℚ) / c ≤ b := by simpa using hle
  obtain ⟨k, hk, hr⟩ := exists_round hc' hb hle'
  exact ⟨k, quotient_natCast hc' hk, by simpa using hr⟩

theorem mul_rounds (hb : IsValue b) (hle : m.value * n.value ≤ b) :
    ∃ k, (finite false m * finite false n : Double) = finite false k ∧ Rounds (m.value * n.value) k := by
  have hq : ((m.num * n.num : Nat) : ℚ) / (m.den * n.den : Nat) = m.value * n.value := by
    rw [Nat.cast_mul, Nat.cast_mul, mul_div_mul_comm, num_div_den, num_div_den]
  rw [← hq] at hle ⊢
  exact ofRatio_rounds (Nat.mul_pos m.den_pos n.den_pos) hb hle

theorem add_rounds (hb : IsValue b) (hle : m.value + n.value ≤ b) :
    ∃ k, (finite false m + finite false n : Double) = finite false k ∧ Rounds (m.value + n.value) k := by
  have hm : (m.den : ℚ) ≠ 0 := by exact_mod_cast m.den_pos.ne'
  have hn : (n.den : ℚ) ≠ 0 := by exact_mod_cast n.den_pos.ne'
  have hq : ((m.num * n.den + n.num * m.den : Nat) : ℚ) / (m.den * n.den : Nat) = m.value + n.value := by
    rw [← num_div_den, ← num_div_den, div_add_div _ _ hm hn]
    push_cast
    rw [mul_comm (n.num : ℚ)]
  have hsum : (finite false m + finite false n : Double) =
      ofRatio false (m.num * n.den + n.num * m.den) (m.den * n.den) := by
    show ofRatio (if (m.num : Int) * n.den + n.num * m.den = 0 then false && false
      else decide ((m.num : Int) * n.den + n.num * m.den < 0))
      ((m.num : Int) * n.den + n.num * m.den).natAbs (m.den * n.den) = _
    have hsign : (if (m.num : Int) * n.den + n.num * m.den = 0 then false && false
        else decide ((m.num : Int) * n.den + n.num * m.den < 0)) = false := by
      split
      · rfl
      · exact decide_eq_false (Int.not_lt.2 (by positivity))
    rw [hsign]
    rfl
  rw [hsum, ← hq]
  rw [← hq] at hle
  exact ofRatio_rounds (Nat.mul_pos m.den_pos n.den_pos) hb hle

theorem num_pos (h : 0 < n.value) : 0 < n.num := by
  rw [← num_div_den] at h
  rcases Nat.eq_zero_or_pos n.num with h0 | h0
  · rw [h0, Nat.cast_zero, zero_div] at h
    exact absurd h (lt_irrefl 0)
  · exact h0

theorem div_rounds (hn : 0 < n.value) (hb : IsValue b) (hle : m.value / n.value ≤ b) :
    ∃ k, (finite false m).div (finite false n) = finite false k ∧ Rounds (m.value / n.value) k := by
  have hq : ((m.num * n.den : Nat) : ℚ) / (m.den * n.num : Nat) = m.value / n.value := by
    rw [Nat.cast_mul, Nat.cast_mul, ← num_div_den, ← num_div_den, div_div_div_eq]
  rw [← hq] at hle ⊢
  exact ofRatio_rounds (Nat.mul_pos m.den_pos (num_pos hn)) hb hle

/-- The product with a whole number is that with the double it is rounded to. -/
theorem scale_rounds {c : Int} {k : Magnitude} (hc : ofInt c = .ok (.finite false k)) (hb : IsValue b)
    (hle : k.value * m.value ≤ b) :
    ∃ p, (finite false m).scale c = .ok (.finite false p) ∧ Rounds (k.value * m.value) p := by
  obtain ⟨p, hp, hr⟩ := mul_rounds hb hle
  refine ⟨p, ?_, hr⟩
  rw [scale, hc]
  exact congrArg Except.ok hp

theorem floor_finite (m : Magnitude) : (finite false m).floor = .ok ⌊m.value⌋ := by
  rw [← num_div_den, ← Int.cast_natCast m.num, Rat.floor_intCast_div_natCast]
  rfl

theorem lt_iff (m n : Magnitude) : (finite false m).lt (finite false n) = true ↔ m.value < n.value := by
  have hm : (0 : ℚ) < m.den := by exact_mod_cast m.den_pos
  have hn : (0 : ℚ) < n.den := by exact_mod_cast n.den_pos
  rw [← num_div_den, ← num_div_den, div_lt_div_iff₀ hm hn]
  show decide ((m.num : Int) * n.den < n.num * m.den) = true ↔ _
  rw [decide_eq_true_eq]
  exact_mod_cast Iff.rfl

end Double

end RasterSketch
