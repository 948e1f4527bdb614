import RasterSketch.Proofs.Number.Rounded
/-!
# Whole parts

A number is a rational, if it is one at all (`Number.Is`), and cut to a whole number it becomes the whole part of that,
toward zero (`Number.truncate_eq_ok`).  So what is cut between two whole numbers is all that lies less than one beyond
them (`wholePart_le_iff`, `le_wholePart_iff`).
-/
namespace RasterSketch

/-! ## Rationals -/

/-- The whole part, toward zero. -/
def wholePart (q : ℚ) : ℤ := if 0 ≤ q then ⌊q⌋ else ⌈q⌉

variable {q : ℚ} {n k : ℤ}

theorem wholePart_neg (q : ℚ) : wholePart (-q) = -wholePart q := by
  unfold wholePart
  rcases lt_trichotomy q 0 with hq | rfl | hq
  · rw [if_pos (by linarith), if_neg (by linarith), Int.floor_neg]
  · simp
  · rw [if_neg (by linarith), if_pos hq.le, Int.ceil_neg]

theorem wholePart_intCast (k : ℤ) : wholePart k = k := by
  unfold wholePart
  split
  · exact Int.floor_intCast k
  · exact Int.ceil_intCast k

theorem wholePart_le_iff (hn : 0 ≤ n) : wholePart q ≤ n ↔ q < n + 1 := by
  have hn' : (0 : ℚ) ≤ n := by exact_mod_cast hn
  unfold wholePart
  split
  · rw [← Int.lt_add_one_iff, Int.floor_lt]
    push_cast
    rfl
  · rw [Int.ceil_le]
    exact ⟨fun _ => by linarith, fun _ => by linarith⟩

theorem le_wholePart_iff (hn : 0 ≤ n) : -n ≤ wholePart q ↔ -(n + 1 : ℚ) < q := by
  rw [neg_le, ← wholePart_neg, wholePart_le_iff hn, neg_lt]

/-! ## Doubles -/

namespace Double

theorem signed_tdiv (s : Bool) (m : Magnitude) :
    (signed s m).tdiv m.den = wholePart (finite s m).value := by
  have hpositive : (m.num : ℤ).tdiv m.den = wholePart m.value := by
    rw [← Magnitude.num_div_den, wholePart, if_pos (by positivity), Rat.floor_natCast_div_natCast,
      Int.tdiv_eq_ediv_of_nonneg (Int.natCast_nonneg _)]
  cases s with
  | false => exact hpositive
  | true =>
    show (-(m.num : ℤ)).tdiv m.den = wholePart (-m.value)
    rw [Int.neg_tdiv, hpositive, wholePart_neg]

theorem truncate_finite (s : Bool) (m : Magnitude) :
    (finite s m).truncate = .ok (wholePart (finite s m).value) := by
  rw [← signed_tdiv]
  rfl

end Double

/-! ## Numbers -/

/-- The rational that a number is.  Infinities are none, and what is no number is none. -/
def Number.exact? : Number → Option ℚ
  | .int n => some n
  | .real x => if x.isFinite then some x.value else none

namespace Number

def Is (n : Number) (q : ℚ) : Prop := n.exact? = some q

/-- **A number is cut to its whole part**, and one that is no rational is refused. -/
theorem truncate_eq_ok {n : Number} {k : ℤ} : n.truncate = .ok k ↔ ∃ q, n.Is q ∧ wholePart q = k := by
  cases n with
  | int value =>
    have hvalue : truncate (.int value) = .ok (wholePart value) := congrArg Except.ok (wholePart_intCast value).symm
    rw [hvalue]
    exact ⟨fun h => ⟨_, rfl, Except.ok.inj h⟩, fun ⟨_, hq, hk⟩ => by cases hq; rw [hk]⟩
  | real x =>
    cases x with
    | finite s m =>
      rw [truncate, Double.truncate_finite]
      exact ⟨fun h => ⟨_, rfl, Except.ok.inj h⟩, fun ⟨_, hq, hk⟩ => by cases hq; rw [hk]⟩
    | infinity s => exact ⟨fun h => (by cases h), fun ⟨_, hq, _⟩ => (by cases hq)⟩
    | nan => exact ⟨fun h => (by cases h), fun ⟨_, hq, _⟩ => (by cases hq)⟩

end Number

end RasterSketch
