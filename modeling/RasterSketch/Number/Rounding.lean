/-!
# Rounding a quotient

One rule of rounding serves the whole library: to the nearest, and from half way to the even
neighbour.  `roundDiv` is that rule on the quotient of two naturals; doubles and decimal texts are
both made with it.  `roundDiv_mul_le` and `le_roundDiv_mul` say that the result is off by half a
unit at most, `roundDiv_even_of_tie` where a tie goes.
-/

namespace RasterSketch

/-- The natural nearest to `num / den`; half way between two, the even one. -/
def roundDiv (num den : Nat) : Nat :=
  if 2 * (num % den) < den then num / den
  else if den < 2 * (num % den) then num / den + 1
  else num / den + num / den % 2

/-- The result exceeds the quotient by half a unit at most. -/
theorem roundDiv_mul_le (num den : Nat) : 2 * (roundDiv num den * den) ≤ 2 * num + den := by
  have h : den * (num / den) + num % den = num := Nat.div_add_mod num den
  have hc : num / den * den = den * (num / den) := Nat.mul_comm _ _
  unfold roundDiv
  split
  · rw [hc]; omega
  split
  · rw [Nat.add_mul, hc]; omega
  · rcases Nat.mod_two_eq_zero_or_one (num / den) with hp | hp <;> rw [hp]
    · rw [Nat.add_zero, hc]; omega
    · rw [Nat.add_mul, hc]; omega

/-- The result falls short of the quotient by half a unit at most. -/
theorem le_roundDiv_mul (num : Nat) {den : Nat} (hd : 0 < den) :
    2 * num ≤ 2 * (roundDiv num den * den) + den := by
  have h : den * (num / den) + num % den = num := Nat.div_add_mod num den
  have hc : num / den * den = den * (num / den) := Nat.mul_comm _ _
  unfold roundDiv
  split
  · rw [hc]; omega
  split
  · have := Nat.mod_lt num hd
    rw [Nat.add_mul, hc]; omega
  · rcases Nat.mod_two_eq_zero_or_one (num / den) with hp | hp <;> rw [hp]
    · rw [Nat.add_zero, hc]; omega
    · rw [Nat.add_mul, hc]; omega

/-- From half way the even neighbour is taken. -/
theorem roundDiv_even_of_tie {num den : Nat} (h : 2 * (num % den) = den) :
    roundDiv num den % 2 = 0 := by
  unfold roundDiv
  rw [if_neg (by omega), if_neg (by omega)]
  omega

end RasterSketch
