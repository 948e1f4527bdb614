import RasterSketch.Proofs.Delivery
import RasterSketch.Proofs.Number.Canonical
import RasterSketch.Proofs.Number.Order
import RasterSketch.Sketch.Numeral
/-!
# What numbers are written as

A double is written as the canonical numeral of the nearest multiple of a thousandth, and an integer as its own
(`Value.numeral_writes`).  So two numbers are written alike just if they come to one multiple, however they are held.
-/
namespace RasterSketch

/-- The nearest whole number, and of two that are as near the even one. -/
structure IsNearest (q : ℚ) (k : ℤ) : Prop where
  le : ∀ j : ℤ, |q - k| ≤ |q - j|
  even_of_tie : ∀ j : ℤ, j ≠ k → |q - j| = |q - k| → Even k

namespace IsNearest

variable {q : ℚ} {k j : ℤ}

theorem abs_sub_le_add (q : ℚ) (k j : ℤ) : ((|k - j| : ℤ) : ℚ) ≤ |q - k| + |q - j| := by
  rw [Int.cast_abs, Int.cast_sub, abs_sub_comm q]
  exact abs_sub_le _ _ _

theorem one_le_add (q : ℚ) (h : j ≠ k) : 1 ≤ |q - j| + |q - k| := by
  have hone : (1 : ℚ) ≤ (|j - k| : ℤ) := by exact_mod_cast Int.one_le_abs (sub_ne_zero.2 h)
  exact hone.trans (abs_sub_le_add q j k)

/-- A whole number that is half a unit away at most is the nearest, if it is even where it is just that far. -/
theorem of_le_half (h : |q - k| ≤ 1 / 2) (heven : |q - k| = 1 / 2 → Even k) : IsNearest q k := by
  refine ⟨fun j => ?_, fun j hj htie => heven ?_⟩
  · rcases eq_or_ne j k with rfl | hj
    · exact le_rfl
    · linarith [one_le_add q hj]
  · linarith [one_le_add q hj]

theorem le_half (h : IsNearest q k) : |q - k| ≤ 1 / 2 := (h.le (round q)).trans (abs_sub_round q)

/-- **There is but one nearest whole number**: two would be neighbours, and both even. -/
theorem unique (hk : IsNearest q k) (hj : IsNearest q j) : k = j := by
  by_contra hne
  have htie : |q - j| = |q - k| := le_antisymm (hj.le k) (hk.le j)
  have hk' := hk.even_of_tie j (Ne.symm hne) htie
  have hj' := hj.even_of_tie k hne htie.symm
  have hnear : |k - j| ≤ 1 := by
    have hclose : ((|k - j| : ℤ) : ℚ) ≤ 1 := by linarith [abs_sub_le_add q k j, hk.le_half, hj.le_half]
    exact_mod_cast hclose
  obtain ⟨a, rfl⟩ := hk'
  obtain ⟨b, rfl⟩ := hj'
  rw [abs_le] at hnear
  omega

theorem neg (h : IsNearest q k) : IsNearest (-q) (-k) := by
  have hneg : ∀ j : ℤ, |-q - j| = |q - (-j : ℤ)| := fun j => by
    rw [← abs_neg]
    congr 1
    push_cast
    ring
  refine ⟨fun j => ?_, fun j hj htie => ?_⟩
  · rw [hneg, hneg, neg_neg]
    exact h.le (-j)
  · rw [hneg, hneg, neg_neg] at htie
    exact (h.even_of_tie (-j) (fun h0 => hj (by omega)) htie).neg

theorem intCast (k : ℤ) : IsNearest k k := of_le_half (by simp) (by simp)

/-- What a quotient of naturals is rounded to is the nearest whole number. -/
theorem of_roundDiv (num : Nat) {den : Nat} (hd : 0 < den) : IsNearest (num / den) (roundDiv num den) := by
  have hhalf := abs_roundDiv_sub_le num hd
  rw [abs_sub_comm] at hhalf
  refine of_le_half (by exact_mod_cast hhalf) fun htie => ?_
  rw [Int.cast_natCast] at htie
  have heven : roundDiv num den % 2 = 0 := by
    rcases (abs_eq (by norm_num)).1 htie with h | h
    · exact roundDiv_even_of_half hd (sub_eq_iff_eq_add'.1 h)
    · -- rounded up: the quotient is half a unit behind the number before
      have hnonneg : (0 : ℚ) ≤ num / den := by positivity
      have hpos : 0 < roundDiv num den := by
        have : (0 : ℚ) < roundDiv num den := by linarith
        exact_mod_cast this
      obtain ⟨k, hk⟩ : ∃ k, roundDiv num den = k + 1 := ⟨roundDiv num den - 1, by omega⟩
      refine roundDiv_even_of_half (k := k) hd ?_
      rw [hk] at h
      push_cast at h
      linarith
  exact_mod_cast Nat.even_iff.2 heven

end IsNearest

/-! ## Literals -/

/-- A text that is the canonical numeral of a number. -/
structure IsNumeralOf (q : ℚ) (text : String) : Prop where
  canonical : Decimal.IsCanonical text.toList
  value : Decimal.exactValue text.toList = q

open Decimal

theorem IsNumeralOf.unique {q : ℚ} {text text' : String} (h : IsNumeralOf q text) (h' : IsNumeralOf q text') :
    text = text' :=
  String.toList_inj.1 (h.canonical.eq_of_exactValue h'.canonical (h.value.trans h'.value.symm))

theorem isNumeralOf_signedThousandths (k : ℤ) : IsNumeralOf (k / 1000) (String.ofList (signedThousandths k)) := by
  refine ⟨?_, ?_⟩ <;> rw [String.toList_ofList]
  · exact isCanonical_iff.2 ⟨k, rfl⟩
  · exact exactValue_signedThousandths k

theorem Magnitude.isNearest_inPlaces (m : Magnitude) : IsNearest (1000 * m.value) (m.inPlaces 3) := by
  have hnearest := IsNearest.of_roundDiv (m.num * tenTo 3) m.den_pos
  have hvalue : ((m.num * tenTo 3 : Nat) : ℚ) / m.den = 1000 * m.value := by
    rw [← m.num_div_den, show tenTo 3 = 1000 from rfl]
    push_cast
    ring
  rwa [hvalue] at hnearest

namespace Number

/-- **A double is written as the nearest number of thousandths**, and what comes to zero has no minus. -/
theorem literal_finite {x : Double} (hx : x.isFinite = true) : ∃ k : ℤ, IsNearest (1000 * x.value) k ∧
    (Number.real x).literal = .ok (String.ofList (signedThousandths k)) := by
  cases x with
  | infinity s => cases hx
  | nan => cases hx
  | finite s m =>
    rw [literal_real]
    have hnearest := m.isNearest_inPlaces
    generalize m.inPlaces 3 = n at hnearest ⊢
    cases s with
    | false =>
      have hnonneg : ¬ (n : ℤ) < 0 := by omega
      refine ⟨n, hnearest, ?_⟩
      rw [signedThousandths, decide_eq_false hnonneg, Int.natAbs_natCast]
      rfl
    | true =>
      have hsign : (true && n != 0) = decide (-(n : ℤ) < 0) := by
        rw [Bool.true_and, Bool.eq_iff_iff, bne_iff_ne, decide_eq_true_eq]
        omega
      refine ⟨-n, ?_, ?_⟩
      · have hvalue : (Double.finite true m).value = -m.value := rfl
        rw [hvalue, mul_neg]
        exact hnearest.neg
      · rw [signedThousandths, Int.natAbs_neg, Int.natAbs_natCast, hsign]

/-- **An integer is written as so many thousand thousandths.** -/
theorem literal_integer {n : Int} (h : exceedsLimit n = false) :
    (Number.int n).literal = .ok (String.ofList (signedThousandths (1000 * n))) := by
  have hsign : (1000 * n < 0) = (n < 0) := by
    rw [eq_iff_iff]
    omega
  have habs : (1000 * n).natAbs = 1000 * n.natAbs := Int.natAbs_mul 1000 n
  rw [literal_int h, signedThousandths, habs, thousandths_mul]
  simp only [hsign]

/-- No whole double is so large that it could not be written as an integer. -/
theorem exceedsLimit_of_value {n : Int} {x : Double} (h : x.value = n) : exceedsLimit n = false := by
  have hle : |x.value| ≤ 2 ^ (1024 : ℤ) := by
    cases x with
    | finite s m =>
      have habs : |(Double.finite s m).value| = m.value := by
        cases s with
        | false => exact abs_of_nonneg m.value_nonneg
        | true => exact (abs_neg m.value).trans (abs_of_nonneg m.value_nonneg)
      rw [habs]
      exact m.value_lt.le
    | infinity s => simp [Double.value]
    | nan => simp [Double.value]
  rw [h] at hle
  refine exceedsLimit_eq_false (k := 1024) (Nat.cast_le (α := ℚ) |>.1 ?_) (by decide)
  rw [Nat.cast_natAbs, Int.cast_abs, Nat.cast_pow, Nat.cast_ofNat, ← zpow_natCast]
  exact hle

end Number

/-- How numbers are written: a finite double as the canonical numeral of the nearest multiple of a thousandth, an integer
as its own, without a point; and what is no number of a sketch not at all. -/
structure WritesNumerals (numeral : Value → Except Error String) : Prop where
  real : ∀ x : Double, x.isFinite = true → ∃ (k : ℤ) (text : String), IsNearest (1000 * x.value) k ∧
    numeral (.expr (.real x)) = .ok text ∧ IsNumeralOf (k / 1000) text
  real_eq_iff : ∀ x y : Double, x.isFinite = true → y.isFinite = true →
    (numeral (.expr (.real x)) = numeral (.expr (.real y)) ↔
      ∃ k : ℤ, IsNearest (1000 * x.value) k ∧ IsNearest (1000 * y.value) k)
  int : ∀ n : Int, exceedsLimit n = false → ∃ text, numeral (.expr (.int n)) = .ok text ∧ IsNumeralOf n text ∧
    '.' ∉ text.toList
  int_eq_real : ∀ (n : Int) (x : Double), x.isFinite = true → x.value = n →
    numeral (.expr (.int n)) = numeral (.expr (.real x))
  nonFinite : ∀ x : Double, x.isFinite = false → numeral (.expr (.real x)) = .error (.render (.nonFinite x))
  truth : ∀ b : Bool, numeral (.truth b) = .error (.render .boolean)

namespace Value

theorem numeral_of_literal {n : Number} {text : String} (h : n.literal = .ok text) :
    numeral (.expr (.number n)) = .ok text :=
  mapError_eq_ok.2 h

theorem thousand_thousandths (n : ℤ) : ((1000 * n : ℤ) : ℚ) / 1000 = n := by
  push_cast
  ring

theorem numeral_real {x : Double} (hx : x.isFinite = true) : ∃ (k : ℤ) (text : String), IsNearest (1000 * x.value) k ∧
    numeral (.expr (.real x)) = .ok text ∧ IsNumeralOf (k / 1000) text := by
  obtain ⟨k, hk, hliteral⟩ := Number.literal_finite hx
  exact ⟨k, _, hk, numeral_of_literal hliteral, isNumeralOf_signedThousandths k⟩

theorem numeral_int {n : Int} (hn : exceedsLimit n = false) :
    ∃ text, numeral (.expr (.int n)) = .ok text ∧ IsNumeralOf n text ∧ '.' ∉ text.toList := by
  have hliteral := Number.literal_int hn
  refine ⟨_, numeral_of_literal hliteral, ?_, ?_⟩
  · rw [← thousand_thousandths n, Except.ok.inj (hliteral.symm.trans (Number.literal_integer hn))]
    exact isNumeralOf_signedThousandths (1000 * n)
  · rw [String.toList_ofList]
    exact point_not_mem_digits _ _

/-- **Doubles are written alike just if they are nearest to one multiple.** -/
theorem numeral_real_eq_iff {x y : Double} (hx : x.isFinite = true) (hy : y.isFinite = true) :
    numeral (.expr (.real x)) = numeral (.expr (.real y)) ↔
      ∃ k : ℤ, IsNearest (1000 * x.value) k ∧ IsNearest (1000 * y.value) k := by
  obtain ⟨k, text, hk, htext, hnumeral⟩ := numeral_real hx
  obtain ⟨j, text', hj, htext', hnumeral'⟩ := numeral_real hy
  constructor
  · intro heq
    obtain rfl : text = text' := Except.ok.inj (htext.symm.trans (heq.trans htext'))
    have hvalue : (k / 1000 : ℚ) = j / 1000 := hnumeral.value.symm.trans hnumeral'.value
    have hkj : (k : ℚ) = j := by linarith
    obtain rfl : k = j := Int.cast_inj.1 hkj
    exact ⟨k, hk, hj⟩
  · rintro ⟨i, hx', hy'⟩
    obtain rfl := hk.unique hx'
    obtain rfl := hj.unique hy'
    rw [htext, htext', hnumeral.unique hnumeral']

theorem numeral_int_eq_real {n : Int} {x : Double} (hx : x.isFinite = true) (hvalue : x.value = n) :
    numeral (.expr (.int n)) = numeral (.expr (.real x)) := by
  obtain ⟨text, htext, hnumeral, -⟩ := numeral_int (Number.exceedsLimit_of_value hvalue)
  obtain ⟨k, text', hk, htext', hnumeral'⟩ := numeral_real hx
  have hwhole : IsNearest (1000 * x.value) (1000 * n : ℤ) := by
    rw [hvalue]
    exact_mod_cast IsNearest.intCast (1000 * n)
  obtain rfl : k = 1000 * n := hk.unique hwhole
  rw [thousand_thousandths] at hnumeral'
  rw [htext, htext', hnumeral.unique hnumeral']

/-- **Each number is written as the canonical numeral of the multiple of a thousandth that it comes to.** -/
theorem numeral_writes : WritesNumerals Value.numeral where
  real _ hx := numeral_real hx
  real_eq_iff _ _ hx hy := numeral_real_eq_iff hx hy
  int _ hn := numeral_int hn
  int_eq_real _ _ hx hvalue := numeral_int_eq_real hx hvalue
  nonFinite x hx := by
    cases x with
    | finite s m => cases hx
    | infinity s => rfl
    | nan => rfl
  truth _ := rfl

example : (numeral (.expr (.real 0.0625))).toOption = some "0.062" := by decide +kernel

end Value

end RasterSketch
