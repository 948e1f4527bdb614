import Mathlib.Tactic
import RasterSketch.Sketch.Render
/-!
# The value of a numeral

A numeral is digits with at most one point among them.  `Decimal.magnitudeOf` and `Decimal.exactValue` give its exact
value, which knows nothing of how it was written; `Number.literal_eq_ok` says that a number of a sketch is written as a
numeral of the language, perhaps behind a minus, and `Number.written_int` and `Number.written_real` say what value the
numeral has.
-/

namespace RasterSketch

namespace Decimal

/-! ## Values -/

def digitOf (c : Char) : Nat := c.toNat - 48

def naturalOf (cs : List Char) : Nat := cs.foldl (fun n c => 10 * n + digitOf c) 0

/-- What stands before the point, or everything. -/
def wholeOf (cs : List Char) : List Char := cs.takeWhile (· != '.')

/-- What stands behind the point, if there is one. -/
def fractionOf (cs : List Char) : List Char := (cs.dropWhile (· != '.')).drop 1

/-- The exact value of a numeral without a sign. -/
def magnitudeOf (cs : List Char) : ℚ := naturalOf (wholeOf cs ++ fractionOf cs) / 10 ^ (fractionOf cs).length

/-- The exact value of a numeral, perhaps behind a minus. -/
def exactValue : List Char → ℚ
  | '-' :: cs => -magnitudeOf cs
  | cs => magnitudeOf cs

/-- Digits that are the whole part of a numeral: some, and no zero before others. -/
def isWhole (cs : List Char) : Bool := cs.all Char.isDigit && !cs.isEmpty && (cs.head? != some '0' || cs == ['0'])

/-- The numerals of the language: digits before the point, and behind it if it is there. -/
def isNumeral (cs : List Char) : Bool :=
  isWhole (wholeOf cs) && (fractionOf cs).all Char.isDigit && (!cs.contains '.' || !(fractionOf cs).isEmpty)

/-! ## Digits -/

theorem isDigit_bounds {c : Char} (h : c.isDigit = true) : 48 ≤ c.toNat ∧ c.toNat ≤ 57 := by
  unfold Char.isDigit at h
  rw [Bool.and_eq_true, decide_eq_true_eq, decide_eq_true_eq] at h
  exact ⟨UInt32.le_iff_toNat_le.1 h.1, UInt32.le_iff_toNat_le.1 h.2⟩

theorem digitChar_isDigit {k : Nat} (h : k < 10) : (Nat.digitChar k).isDigit = true := by
  interval_cases k <;> rfl

theorem digitOf_digitChar {k : Nat} (h : k < 10) : digitOf (Nat.digitChar k) = k := by
  interval_cases k <;> rfl

theorem digitChar_ne_zero {k : Nat} (h : k < 10) (hk : k ≠ 0) : Nat.digitChar k ≠ '0' := by
  interval_cases k <;> first | exact absurd rfl hk | decide

theorem isDigit_ne_point {c : Char} (h : c.isDigit = true) : (c != '.') = true := by
  rw [bne_iff_ne]
  rintro rfl
  exact absurd h (by decide)

theorem foldl_digits (cs : List Char) : ∀ n : Nat,
    cs.foldl (fun n c => 10 * n + digitOf c) n = n * 10 ^ cs.length + naturalOf cs := by
  induction cs with
  | nil => intro n; simp [naturalOf]
  | cons c cs ih =>
    intro n
    rw [naturalOf, List.foldl_cons, List.foldl_cons, ih, ih (10 * 0 + digitOf c), List.length_cons, pow_succ]
    ring

theorem naturalOf_append (xs ys : List Char) :
    naturalOf (xs ++ ys) = naturalOf xs * 10 ^ ys.length + naturalOf ys := by
  rw [naturalOf, List.foldl_append, foldl_digits ys]
  rfl

theorem naturalOf_singleton (c : Char) : naturalOf [c] = digitOf c := by
  simp [naturalOf]

theorem naturalOf_digits (n : Nat) : naturalOf (digits n) = n := by
  induction n using Nat.strong_induction_on with
  | _ n ih =>
    rw [digits]
    split
    · rename_i h
      rw [naturalOf_singleton, digitOf_digitChar h]
    · rename_i h
      rw [naturalOf_append, ih (n / 10) (by omega), naturalOf_singleton, digitOf_digitChar (Nat.mod_lt _ (by decide))]
      simp only [List.length_singleton, pow_one]
      omega

theorem digits_all (n : Nat) : (digits n).all Char.isDigit = true := by
  induction n using Nat.strong_induction_on with
  | _ n ih =>
    rw [digits]
    split
    · rename_i h
      simp [digitChar_isDigit h]
    · rename_i h
      rw [List.all_append, ih (n / 10) (by omega), Bool.true_and]
      simp [digitChar_isDigit (Nat.mod_lt n (by decide : 0 < 10))]

theorem digits_ne_nil (n : Nat) : digits n ≠ [] := by
  rw [digits]
  split <;> simp

theorem digits_head? {n : Nat} (h : n ≠ 0) : (digits n).head? ≠ some '0' := by
  induction n using Nat.strong_induction_on with
  | _ n ih =>
    rw [digits]
    split
    · rename_i hn
      rw [List.head?_cons]
      intro h0
      exact digitChar_ne_zero hn h (Option.some.inj h0)
    · rename_i hn
      rw [List.head?_append_of_ne_nil _ (digits_ne_nil _)]
      exact ih (n / 10) (by omega) (by omega)

/-- An integer is written without a zero in front. -/
theorem digits_isWhole (n : Nat) : isWhole (digits n) = true := by
  have hne : (digits n).isEmpty = false := by simpa using digits_ne_nil n
  rw [isWhole, digits_all, hne]
  by_cases h : n = 0
  · subst h
    rw [digits]
    rfl
  · have hd : ((digits n).head? != some '0') = true := bne_iff_ne.2 (digits_head? h)
    rw [hd]
    rfl

theorem length_lastDigits : ∀ places n, (lastDigits places n).length = places
  | 0, _ => rfl
  | p + 1, n => by rw [lastDigits, List.length_append, length_lastDigits p]; rfl

theorem lastDigits_all : ∀ places n, (lastDigits places n).all Char.isDigit = true
  | 0, _ => rfl
  | p + 1, n => by
    rw [lastDigits, List.all_append, lastDigits_all p, Bool.true_and]
    simp [digitChar_isDigit (Nat.mod_lt n (by decide : 0 < 10))]

theorem naturalOf_lastDigits : ∀ places n, naturalOf (lastDigits places n) = n % 10 ^ places
  | 0, n => by simp [lastDigits, naturalOf, Nat.mod_one]
  | p + 1, n => by
    rw [lastDigits, naturalOf_append, naturalOf_lastDigits p, naturalOf_singleton,
      digitOf_digitChar (Nat.mod_lt _ (by decide)), List.length_singleton, pow_one, pow_succ', Nat.mod_mul]
    omega

/-! ## Zeros at the end -/

theorem trimZeros_all : ∀ {cs : List Char}, cs.all Char.isDigit = true → (trimZeros cs).all Char.isDigit = true
  | [], _ => rfl
  | c :: cs, h => by
    rw [List.all_cons, Bool.and_eq_true] at h
    have ih := trimZeros_all h.2
    rw [trimZeros]
    split
    · split
      · rfl
      · simp [h.1]
    · rename_i hd
      rw [List.all_cons, h.1, ih]
      rfl

/-- The zeros at the end of a fraction do not count. -/
theorem trimZeros_value : ∀ cs : List Char,
    (naturalOf (trimZeros cs) : ℚ) / 10 ^ (trimZeros cs).length = naturalOf cs / 10 ^ cs.length
  | [] => rfl
  | c :: cs => by
    have ih := trimZeros_value cs
    have hc : (naturalOf (c :: cs) : ℚ) / 10 ^ (c :: cs).length
        = (digitOf c + naturalOf cs / 10 ^ cs.length) / 10 := by
      rw [show c :: cs = [c] ++ cs from rfl, naturalOf_append, naturalOf_singleton, List.length_append,
        List.length_singleton]
      push_cast
      rw [pow_add, pow_one]
      field_simp
    rw [hc, ← ih, trimZeros]
    split
    · rename_i ht
      rw [ht]
      split
      · rename_i h0
        subst h0
        simp [naturalOf, digitOf]
      · simp [naturalOf]
    · rw [show ∀ ds : List Char, c :: ds = [c] ++ ds from fun _ => rfl, naturalOf_append, naturalOf_singleton,
        List.length_append, List.length_singleton]
      push_cast
      rw [pow_add, pow_one]
      field_simp

/-! ## Numerals -/

section

variable {whole fraction : List Char}

theorem wholeOf_withFraction (hw : whole.all Char.isDigit = true) : wholeOf (withFraction whole fraction) = whole := by
  have hp : ∀ c ∈ whole, (c != '.') = true := fun c hc => isDigit_ne_point (List.all_eq_true.1 hw c hc)
  unfold wholeOf withFraction
  split
  · rw [← List.append_nil whole, List.takeWhile_append_of_pos (by simpa using hp)]
    simp
  · rw [List.takeWhile_append_of_pos hp]
    simp

theorem fractionOf_withFraction (hw : whole.all Char.isDigit = true) :
    fractionOf (withFraction whole fraction) = fraction := by
  have hp : ∀ c ∈ whole, (c != '.') = true := fun c hc => isDigit_ne_point (List.all_eq_true.1 hw c hc)
  unfold fractionOf withFraction
  split
  · rename_i hf
    rw [← List.append_nil whole, List.dropWhile_append_of_pos (by simpa using hp), List.isEmpty_iff.1 hf]
    rfl
  · rw [List.dropWhile_append_of_pos hp]
    simp

theorem isNumeral_withFraction (hw : isWhole whole = true) (hf : fraction.all Char.isDigit = true) :
    isNumeral (withFraction whole fraction) = true := by
  have hd : whole.all Char.isDigit = true := by
    simp only [isWhole, Bool.and_eq_true] at hw
    exact hw.1.1
  rw [isNumeral, wholeOf_withFraction hd, fractionOf_withFraction hd, hw, hf]
  by_cases h : fraction = []
  · have hp : whole.contains '.' = false := by
      rw [Bool.eq_false_iff]
      intro hc
      rw [List.contains_iff_mem] at hc
      exact absurd (List.all_eq_true.1 hd _ hc) (by decide)
    rw [h]
    simpa [withFraction] using hp
  · simp [h]

theorem magnitudeOf_withFraction (hw : whole.all Char.isDigit = true) :
    magnitudeOf (withFraction whole fraction) = naturalOf whole + naturalOf fraction / 10 ^ fraction.length := by
  rw [magnitudeOf, wholeOf_withFraction hw, fractionOf_withFraction hw, naturalOf_append]
  push_cast
  field_simp

end

theorem withFraction_nil (whole : List Char) : withFraction whole [] = whole := rfl

theorem isNumeral_digits (n : Nat) : isNumeral (digits n) = true := by
  rw [← withFraction_nil (digits n)]
  exact isNumeral_withFraction (digits_isWhole n) rfl

theorem magnitudeOf_digits (n : Nat) : magnitudeOf (digits n) = n := by
  rw [← withFraction_nil (digits n), magnitudeOf_withFraction (digits_all n), naturalOf_digits]
  simp [naturalOf]

/-- A number of thousandths, the zeros at the end dropped. -/
def thousandths (n : Nat) : List Char := withFraction (digits (n / 1000)) (trimZeros (lastDigits 3 n))

theorem isNumeral_thousandths (n : Nat) : isNumeral (thousandths n) = true :=
  isNumeral_withFraction (digits_isWhole _) (trimZeros_all (lastDigits_all 3 n))

theorem magnitudeOf_thousandths (n : Nat) : magnitudeOf (thousandths n) = n / 1000 := by
  have hn : (n : ℚ) = 1000 * (n / 1000 : Nat) + (n % 1000 : Nat) := by exact_mod_cast (Nat.div_add_mod n 1000).symm
  rw [thousandths, magnitudeOf_withFraction (digits_all _), trimZeros_value, naturalOf_digits, naturalOf_lastDigits,
    length_lastDigits, hn]
  norm_num
  ring

/-! ## Signs -/

/-- A numeral is a digit, and after it digits and the point. -/
theorem isNumeral_cons {cs : List Char} (h : isNumeral cs = true) :
    ∃ c rest, cs = c :: rest ∧ c.isDigit = true ∧ ∀ d ∈ rest, (d.isDigit || d == '.') = true := by
  simp only [isNumeral, isWhole, Bool.and_eq_true, Bool.not_eq_true', List.isEmpty_eq_false_iff] at h
  obtain ⟨⟨⟨⟨hw, hne⟩, -⟩, hf⟩, -⟩ := h
  obtain ⟨c, whole, hc⟩ := List.exists_cons_of_ne_nil hne
  have hcs : cs = c :: (whole ++ cs.dropWhile (· != '.')) := by
    rw [← List.cons_append, ← hc, wholeOf, List.takeWhile_append_dropWhile]
  rw [hc, List.all_cons, Bool.and_eq_true] at hw
  refine ⟨c, _, hcs, hw.1, fun d hd => ?_⟩
  rcases List.mem_append.1 hd with hd | hd
  · rw [List.all_eq_true.1 hw.2 d hd, Bool.true_or]
  · have hp := List.head?_dropWhile_not (· != '.') cs
    rw [fractionOf] at hf
    cases hr : cs.dropWhile (· != '.') with
    | nil => rw [hr] at hd; cases hd
    | cons e rest =>
      rw [hr] at hd hp hf
      rcases List.mem_cons.1 hd with rfl | hd
      · have he : d = '.' := by simpa using hp
        rw [he]
        rfl
      · rw [List.all_eq_true.1 hf d hd, Bool.true_or]

theorem exactValue_numeral {cs : List Char} (h : isNumeral cs = true) : exactValue cs = magnitudeOf cs := by
  unfold exactValue
  split
  · obtain ⟨c, rest, hc, hd, -⟩ := isNumeral_cons h
    rw [← (List.cons.inj hc).1] at hd
    exact absurd hd (by decide)
  · rfl

/-- A numeral, behind a minus if it is to be negative. -/
def withSign (negative : Bool) (cs : List Char) : List Char := if negative then '-' :: cs else cs

theorem exactValue_withSign (negative : Bool) {cs : List Char} (h : isNumeral cs = true) :
    exactValue (withSign negative cs) = if negative then -magnitudeOf cs else magnitudeOf cs := by
  cases negative with
  | false => exact exactValue_numeral h
  | true => rfl

/-! ## The limit -/

theorem exceedsLimit_eq_false {n : Int} {k : Nat} (h : n.natAbs ≤ 2 ^ k) (hk : k < digitLimit) :
    exceedsLimit n = false := by
  have hten : ∀ e, tenTo e = 10 ^ e := fun _ => rfl
  unfold exceedsLimit
  rw [decide_eq_false_iff_not, not_le, hten]
  calc n.natAbs ≤ 2 ^ k := h
    _ ≤ 10 ^ k := Nat.pow_le_pow_left (by decide) k
    _ < 10 ^ digitLimit := Nat.pow_lt_pow_right (by decide) hk

end Decimal

open Decimal

theorem Double.thousandthsText_eq (negative : Bool) (m : Magnitude) :
    Double.thousandthsText negative m
      = String.ofList (withSign (negative && m.inPlaces 3 != 0) (thousandths (m.inPlaces 3))) := by
  simp only [Double.thousandthsText, thousandths, withSign]
  split <;> rfl

namespace Number

/-- The exact value of what a number is written as. -/
def written (n : Number) : ℚ :=
  match n.literal with
  | .ok text => exactValue text.toList
  | .error _ => 0

theorem written_eq {n : Number} {text : String} (h : n.literal = .ok text) : n.written = exactValue text.toList := by
  rw [written, h]

theorem literal_int {n : Int} (h : exceedsLimit n = false) :
    (Number.int n).literal = .ok (String.ofList (withSign (decide (n < 0)) (digits n.natAbs))) := by
  rw [literal, h, intText, withSign]
  by_cases hn : n < 0 <;> simp [hn]

theorem literal_real (s : Bool) (m : Magnitude) : (Number.real (.finite s m)).literal
      = .ok (String.ofList (withSign (s && m.inPlaces 3 != 0) (thousandths (m.inPlaces 3)))) := by
  rw [literal, Double.thousandthsText_eq]

/-- **A number is written as a numeral of the language, perhaps behind a minus.** -/
theorem literal_eq_ok {n : Number} {text : String} (h : n.literal = .ok text) :
    ∃ negative cs, isNumeral cs = true ∧ text = String.ofList (withSign negative cs) := by
  cases n with
  | int n =>
    by_cases hn : exceedsLimit n = true
    · rw [literal, if_pos hn] at h
      cases h
    · rw [literal_int (by simpa using hn)] at h
      exact ⟨_, _, isNumeral_digits _, (Except.ok.inj h).symm⟩
  | real x =>
    cases x with
    | finite s m =>
      rw [literal_real] at h
      exact ⟨_, _, isNumeral_thousandths _, (Except.ok.inj h).symm⟩
    | infinity s => cases h
    | nan => cases h

/-- **An integer is written exactly.** -/
theorem written_int {n : Int} (h : exceedsLimit n = false) : (Number.int n).written = n := by
  rw [written_eq (literal_int h), String.toList_ofList, exactValue_withSign _ (isNumeral_digits _), magnitudeOf_digits]
  by_cases hn : n < 0
  · rw [decide_eq_true hn, if_pos rfl, Nat.cast_natAbs, abs_of_neg hn]
    push_cast
    ring
  · rw [decide_eq_false hn, if_neg Bool.false_ne_true, Nat.cast_natAbs, abs_of_nonneg (not_lt.1 hn)]

/-- **A double is written as the nearest number of thousandths.** -/
theorem written_real (s : Bool) (m : Magnitude) :
    (Number.real (.finite s m)).written = (if s then -1 else 1) * (m.inPlaces 3 / 1000) := by
  rw [written_eq (literal_real s m), String.toList_ofList, exactValue_withSign _ (isNumeral_thousandths _),
    magnitudeOf_thousandths]
  by_cases h0 : m.inPlaces 3 = 0
  · simp [h0]
  · cases s <;> simp [h0]

end Number

end RasterSketch
