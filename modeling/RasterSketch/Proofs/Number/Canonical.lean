import RasterSketch.Proofs.Number.Numeral
/-!
# Canonical numerals

A canonical numeral has no zero before other digits, a point only before a fraction of at most three places that does not
end in a zero, and a minus only if the number is not zero.  Each multiple of a thousandth has one such numeral
(`Decimal.isCanonical_iff`), and no two have the same value (`Decimal.IsCanonical.eq_of_exactValue`).
-/
namespace RasterSketch

namespace Decimal

/-! ## Digits of a numeral -/

variable {c : Char} {cs whole fraction : List Char}

theorem digitOf_lt (h : c.isDigit = true) : digitOf c < 10 := by
  obtain ⟨hlow, hhigh⟩ := isDigit_bounds h
  unfold digitOf
  omega

theorem digitChar_digitOf (h : c.isDigit = true) : Nat.digitChar (digitOf c) = c := by
  obtain ⟨hlow, hhigh⟩ := isDigit_bounds h
  rw [← Char.ofNat_toNat c]
  unfold digitOf
  generalize c.toNat = n at hlow hhigh
  interval_cases n <;> rfl

theorem naturalOf_concat (cs : List Char) (c : Char) : naturalOf (cs ++ [c]) = 10 * naturalOf cs + digitOf c := by
  rw [naturalOf_append, naturalOf_singleton, List.length_singleton, pow_one, mul_comm]

theorem naturalOf_concat_div (cs : List Char) (hc : c.isDigit = true) : naturalOf (cs ++ [c]) / 10 = naturalOf cs := by
  have := digitOf_lt hc
  rw [naturalOf_concat]
  omega

theorem naturalOf_concat_mod (cs : List Char) (hc : c.isDigit = true) : naturalOf (cs ++ [c]) % 10 = digitOf c := by
  have := digitOf_lt hc
  rw [naturalOf_concat]
  omega

/-- The last digits of a number are the digits that it is written with at the end. -/
theorem lastDigits_naturalOf (cs : List Char) {ds : List Char} (h : ds.all Char.isDigit = true) :
    lastDigits ds.length (naturalOf (cs ++ ds)) = ds := by
  induction ds using List.reverseRecOn with
  | nil => rfl
  | append_singleton ds c ih =>
    rw [List.all_append, Bool.and_eq_true, List.all_cons, Bool.and_eq_true] at h
    obtain ⟨hds, hc, -⟩ := h
    rw [← List.append_assoc, List.length_append, List.length_singleton, lastDigits, naturalOf_concat_div _ hc,
      naturalOf_concat_mod _ hc, ih hds, digitChar_digitOf hc]

theorem naturalOf_lt (h : cs.all Char.isDigit = true) : naturalOf cs < 10 ^ cs.length := by
  have hlast : lastDigits cs.length (naturalOf cs) = cs := lastDigits_naturalOf [] h
  have hmod := naturalOf_lastDigits cs.length (naturalOf cs)
  rw [hlast] at hmod
  rw [hmod]
  exact Nat.mod_lt _ (by positivity)

theorem naturalOf_ne_zero (h : (c :: cs).all Char.isDigit = true) (hc : c ≠ '0') : naturalOf (c :: cs) ≠ 0 := by
  rw [List.all_cons, Bool.and_eq_true] at h
  have hdigit : digitOf c ≠ 0 := fun h0 => hc (by rw [← digitChar_digitOf h.1, h0]; rfl)
  rw [← List.singleton_append, naturalOf_append, naturalOf_singleton]
  have : 0 < digitOf c * 10 ^ cs.length := by positivity
  omega

theorem isWhole_iff : isWhole cs = true ↔ cs.all Char.isDigit = true ∧ cs ≠ [] ∧ (cs.head? ≠ some '0' ∨ cs = ['0']) := by
  simp [isWhole, and_assoc]

/-- **The digits of a number are the one way to write it without a zero in front.** -/
theorem digits_naturalOf (h : isWhole cs = true) : digits (naturalOf cs) = cs := by
  induction cs using List.reverseRecOn with
  | nil => cases h
  | append_singleton cs c ih =>
    obtain ⟨hall, -, hzero⟩ := isWhole_iff.1 h
    rw [List.all_append, Bool.and_eq_true, List.all_cons, Bool.and_eq_true] at hall
    obtain ⟨hcs, hc, -⟩ := hall
    rw [digits]
    rcases cs with - | ⟨d, ds⟩
    · rw [List.nil_append, naturalOf_singleton, if_pos (digitOf_lt hc), digitChar_digitOf hc]
    · have hd : d ≠ '0' := by
        rcases hzero with hzero | hzero
        · simpa using hzero
        · simp at hzero
      have hpos := naturalOf_ne_zero hcs hd
      have hwhole : isWhole (d :: ds) = true := isWhole_iff.2 ⟨hcs, by simp, .inl (by simpa using hd)⟩
      have hten : ¬ naturalOf (d :: ds ++ [c]) < 10 := by
        rw [naturalOf_concat]
        omega
      rw [if_neg hten, naturalOf_concat_div _ hc, naturalOf_concat_mod _ hc, ih hwhole, digitChar_digitOf hc]

/-! ## Zeros at the end -/

theorem trimZeros_zeros : ∀ k : Nat, trimZeros (List.replicate k '0') = []
  | 0 => rfl
  | k + 1 => by
    rw [List.replicate_succ, trimZeros, trimZeros_zeros k]
    rfl

theorem trimZeros_append_zeros (k : Nat) : ∀ {cs : List Char}, cs.getLast? ≠ some '0' →
    trimZeros (cs ++ List.replicate k '0') = cs
  | [], _ => trimZeros_zeros k
  | [c], h => by
    have hc : c ≠ '0' := by simpa using h
    rw [List.singleton_append, trimZeros, trimZeros_zeros]
    exact if_neg hc
  | c :: d :: cs, h => by
    have hlast : (d :: cs).getLast? ≠ some '0' := by simpa using h
    rw [List.cons_append, trimZeros, trimZeros_append_zeros k hlast]

theorem getLast?_trimZeros : ∀ cs : List Char, (trimZeros cs).getLast? ≠ some '0'
  | [] => by simp [trimZeros]
  | c :: cs => by
    have ih := getLast?_trimZeros cs
    rw [trimZeros]
    split
    · split
      · simp
      · rename_i hc
        simpa using hc
    · rename_i ds hds
      cases htrim : trimZeros cs with
      | nil => exact absurd htrim hds
      | cons e es =>
        rw [htrim] at ih
        simpa using ih

theorem length_trimZeros_le : ∀ cs : List Char, (trimZeros cs).length ≤ cs.length
  | [] => le_rfl
  | c :: cs => by
    have ih := length_trimZeros_le cs
    rw [trimZeros]
    split
    · split <;> simp
    · simpa using ih

/-! ## The canonical numeral -/

/-- What may stand behind a point: three digits at most, of which the last is not zero.  If there are none there is no
point either. -/
structure IsFraction (cs : List Char) : Prop where
  digits : cs.all Char.isDigit = true
  length_le : cs.length ≤ 3
  getLast?_ne : cs.getLast? ≠ some '0'

/-- A numeral that has nothing in it that it can do without. -/
def IsCanonical (cs : List Char) : Prop :=
  cs ≠ ['-', '0'] ∧ ∃ negative whole fraction, isWhole whole = true ∧ IsFraction fraction ∧
    cs = withSign negative (withFraction whole fraction)

/-- The numeral of so many thousandths. -/
def signedThousandths (k : ℤ) : List Char := withSign (decide (k < 0)) (thousandths k.natAbs)

theorem thousandths_zero : thousandths 0 = ['0'] := by
  rw [thousandths, Nat.zero_div, digits]
  rfl

theorem thousandths_mul (n : Nat) : thousandths (1000 * n) = digits n := by
  have hdiv : 1000 * n / 1000 = n := by omega
  have hzeros : lastDigits 3 (1000 * n) = List.replicate 3 '0' := by
    have h1 : 1000 * n % 10 = 0 := by omega
    have h2 : 1000 * n / 10 % 10 = 0 := by omega
    have h3 : 1000 * n / 10 / 10 % 10 = 0 := by omega
    simp only [lastDigits, h1, h2, h3]
    rfl
  rw [thousandths, hdiv, hzeros, trimZeros_zeros, withFraction_nil]

theorem point_not_mem_digits (negative : Bool) (n : Nat) : '.' ∉ withSign negative (digits n) := by
  have hdigits : '.' ∉ digits n := fun h => absurd (List.all_eq_true.1 (digits_all n) _ h) (by decide)
  cases negative with
  | false => exact hdigits
  | true => simpa [withSign] using hdigits

theorem exactValue_signedThousandths (k : ℤ) : exactValue (signedThousandths k) = k / 1000 := by
  rw [signedThousandths, exactValue_withSign _ (isNumeral_thousandths _), magnitudeOf_thousandths, Nat.cast_natAbs]
  by_cases hk : k < 0
  · rw [decide_eq_true hk, if_pos rfl, abs_of_neg hk, Int.cast_neg, neg_div, neg_neg]
  · rw [decide_eq_false hk, if_neg Bool.false_ne_true, abs_of_nonneg (not_lt.1 hk)]

/-- Digits before a point and behind it are those of a number of thousandths. -/
theorem exists_thousandths (hw : isWhole whole = true) (hf : IsFraction fraction) :
    ∃ n, withFraction whole fraction = thousandths n := by
  obtain ⟨hdigits, hlength, hlast⟩ := hf
  obtain ⟨zeros, hzeros⟩ : ∃ zeros, fraction.length + zeros = 3 := ⟨3 - fraction.length, by omega⟩
  have hplaces : (fraction ++ List.replicate zeros '0').length = 3 := by simpa using hzeros
  have hall : (fraction ++ List.replicate zeros '0').all Char.isDigit = true := by
    rw [List.all_append, hdigits, Bool.true_and, List.all_replicate]
    simp
  have hlt := naturalOf_lt hall
  refine ⟨naturalOf (whole ++ (fraction ++ List.replicate zeros '0')), ?_⟩
  have hrest := lastDigits_naturalOf whole hall
  rw [hplaces] at hlt hrest
  have hdiv : naturalOf (whole ++ (fraction ++ List.replicate zeros '0')) / 1000 = naturalOf whole := by
    rw [naturalOf_append, hplaces]
    omega
  rw [thousandths, hrest, hdiv, digits_naturalOf hw, trimZeros_append_zeros zeros hlast]

theorem isFraction_trimZeros (n : Nat) : IsFraction (trimZeros (lastDigits 3 n)) :=
  ⟨trimZeros_all (lastDigits_all 3 n), (length_trimZeros_le _).trans (length_lastDigits 3 n).le, getLast?_trimZeros _⟩

/-- **A canonical numeral is that of a number of thousandths.** -/
theorem isCanonical_iff : IsCanonical cs ↔ ∃ k, cs = signedThousandths k := by
  constructor
  · rintro ⟨hne, negative, whole, fraction, hw, hf, rfl⟩
    obtain ⟨n, hn⟩ := exists_thousandths hw hf
    rw [hn] at hne ⊢
    cases negative with
    | false =>
      have hnonneg : ¬ (n : ℤ) < 0 := by omega
      exact ⟨n, by rw [signedThousandths, decide_eq_false hnonneg, Int.natAbs_natCast]⟩
    | true =>
      have hn0 : n ≠ 0 := by
        rintro rfl
        exact hne (by rw [thousandths_zero]; rfl)
      have hneg : (-(n : ℤ)) < 0 := by omega
      exact ⟨-n, by rw [signedThousandths, decide_eq_true hneg, Int.natAbs_neg, Int.natAbs_natCast]⟩
  · rintro ⟨k, rfl⟩
    refine ⟨fun hzero => ?_, _, _, _, digits_isWhole _, isFraction_trimZeros _, rfl⟩
    -- a minus before nothing but a zero: the number is negative, and it is zero
    have hvalue := exactValue_signedThousandths k
    rw [hzero] at hvalue
    have hk : (k : ℚ) = 0 := by
      have hminus : exactValue ['-', '0'] = 0 := by simp [exactValue, magnitudeOf, wholeOf, fractionOf, naturalOf, digitOf]
      rw [hminus] at hvalue
      linarith
    rw [Int.cast_eq_zero.1 hk, signedThousandths, Int.natAbs_zero, thousandths_zero] at hzero
    exact absurd hzero (by decide)

/-- **Canonical numerals of one value are the same.** -/
theorem IsCanonical.eq_of_exactValue {ds : List Char} (hc : IsCanonical cs) (hd : IsCanonical ds)
    (h : exactValue cs = exactValue ds) : cs = ds := by
  obtain ⟨k, rfl⟩ := isCanonical_iff.1 hc
  obtain ⟨j, rfl⟩ := isCanonical_iff.1 hd
  rw [exactValue_signedThousandths, exactValue_signedThousandths] at h
  have hkj : (k : ℚ) = j := by linarith
  rw [Int.cast_inj.1 hkj]

end Decimal
end RasterSketch
