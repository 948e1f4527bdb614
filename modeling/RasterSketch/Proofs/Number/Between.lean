import RasterSketch.Proofs.Number.Rounded
/-!
# Doubles between bounds

A double that lies between two whole numbers (`Double.Between`) is finite and has no sign.  Sums, products and quotients
of such doubles lie between the sums, products and quotients of the bounds, for whole numbers below `2 ^ 53` are
doubles themselves and rounding crosses none of them.  So a chain of operations is bounded without a look at its
rounding errors.
-/
namespace RasterSketch

open Magnitude

namespace Double

def Between (lo hi : Nat) (x : Double) : Prop :=
  ∃ m, x = .finite false m ∧ (lo : ℚ) ≤ m.value ∧ m.value ≤ hi

variable {a b c d lo hi : Nat} {x y : Double}

theorem Between.isFinite (h : Between a b x) : x.isFinite = true := by
  obtain ⟨m, rfl, -⟩ := h
  rfl

/-- What is between two whole numbers is rounded to a double between them. -/
theorem between_of_rounds {q : ℚ} {m : Magnitude} (h : Rounds q m) (hhi : hi < 2 ^ 53) (h1 : (lo : ℚ) ≤ q)
    (h2 : q ≤ hi) : Between lo hi (.finite false m) := by
  have hlo : lo < 2 ^ 53 := lt_of_le_of_lt (by exact_mod_cast h1.trans h2) hhi
  exact ⟨m, rfl, h.le_value (isValue_natCast hlo) h1, h.value_le (isValue_natCast hhi) h2⟩

theorem between_ofRatio {num den : Nat} (hd : 0 < den) (hhi : hi < 2 ^ 53) (h1 : lo * den ≤ num)
    (h2 : num ≤ hi * den) : Between lo hi (ofRatio false num den) := by
  have hq : (0 : ℚ) < den := by exact_mod_cast hd
  have hle : (num : ℚ) / den ≤ hi := by
    rw [div_le_iff₀ hq]
    exact_mod_cast h2
  have hge : (lo : ℚ) ≤ num / den := by
    rw [le_div_iff₀ hq]
    exact_mod_cast h1
  obtain ⟨k, hk, hr⟩ := ofRatio_rounds hd (isValue_natCast hhi) hle
  rw [hk]
  exact between_of_rounds hr hhi hge hle

/-- A decimal literal between two whole numbers. -/
theorem between_literal {m e : Nat} (hhi : hi < 2 ^ 53) (h1 : lo * tenTo e ≤ m) (h2 : m ≤ hi * tenTo e) :
    Between lo hi (OfScientific.ofScientific m true e) :=
  between_ofRatio (tenTo_pos e) hhi h1 h2

theorem ofInt_between {n : Int} (hd : d < 2 ^ 53) (h1 : (c : Int) ≤ n) (h2 : n ≤ d) :
    ∃ x, ofInt n = .ok x ∧ Between c d x := by
  obtain ⟨k, hk, hv⟩ := ofInt_exact (c := n) (by omega) (by omega)
  refine ⟨_, hk, k, rfl, ?_, ?_⟩
  · rw [hv]; exact_mod_cast h1
  · rw [hv]; exact_mod_cast h2

theorem Between.mul (hx : Between a b x) (hy : Between c d y) (h : b * d < 2 ^ 53) :
    Between (a * c) (b * d) (x * y) := by
  obtain ⟨m, rfl, ha, hb⟩ := hx
  obtain ⟨n, rfl, hc, hd⟩ := hy
  have hle : m.value * n.value ≤ (b * d : Nat) := by
    rw [Nat.cast_mul]
    exact mul_le_mul hb hd n.value_nonneg (Nat.cast_nonneg b)
  have hge : ((a * c : Nat) : ℚ) ≤ m.value * n.value := by
    rw [Nat.cast_mul]
    exact mul_le_mul ha hc (Nat.cast_nonneg c) m.value_nonneg
  obtain ⟨k, hk, hr⟩ := mul_rounds (isValue_natCast h) hle
  rw [hk]
  exact between_of_rounds hr h hge hle

theorem Between.add (hx : Between a b x) (hy : Between c d y) (h : b + d < 2 ^ 53) :
    Between (a + c) (b + d) (x + y) := by
  obtain ⟨m, rfl, ha, hb⟩ := hx
  obtain ⟨n, rfl, hc, hd⟩ := hy
  have hle : m.value + n.value ≤ (b + d : Nat) := by
    rw [Nat.cast_add]
    exact add_le_add hb hd
  have hge : ((a + c : Nat) : ℚ) ≤ m.value + n.value := by
    rw [Nat.cast_add]
    exact add_le_add ha hc
  obtain ⟨k, hk, hr⟩ := add_rounds (isValue_natCast h) hle
  rw [hk]
  exact between_of_rounds hr h hge hle

theorem Between.div (hx : Between a b x) (hy : Between c d y) (hc : 0 < c) (hhi : hi < 2 ^ 53) (h1 : lo * d ≤ a)
    (h2 : b ≤ hi * c) : Between lo hi (x.div y) := by
  obtain ⟨m, rfl, ha, hb⟩ := hx
  obtain ⟨n, rfl, hcn, hd⟩ := hy
  have hn : 0 < n.value := lt_of_lt_of_le (by exact_mod_cast hc) hcn
  have hle : m.value / n.value ≤ hi := by
    rw [div_le_iff₀ hn]
    calc m.value ≤ b := hb
      _ ≤ hi * c := by exact_mod_cast h2
      _ ≤ hi * n.value := mul_le_mul_of_nonneg_left hcn (Nat.cast_nonneg hi)
  have hge : (lo : ℚ) ≤ m.value / n.value := by
    rw [le_div_iff₀ hn]
    calc (lo : ℚ) * n.value ≤ lo * d := mul_le_mul_of_nonneg_left hd (Nat.cast_nonneg lo)
      _ ≤ a := by exact_mod_cast h1
      _ ≤ m.value := ha
  obtain ⟨k, hk, hr⟩ := div_rounds hn (isValue_natCast hhi) hle
  rw [hk]
  exact between_of_rounds hr hhi hge hle

theorem Between.scale (hx : Between a b x) {n : Int} (h1 : (c : Int) ≤ n) (h2 : n ≤ d) (hd : d < 2 ^ 53)
    (h : d * b < 2 ^ 53) : ∃ y, x.scale n = .ok y ∧ Between (c * a) (d * b) y := by
  obtain ⟨z, hz, hbetween⟩ := ofInt_between hd h1 h2
  exact ⟨z * x, by rw [Double.scale, hz]; rfl, hbetween.mul hx h⟩

theorem Between.floor (hx : Between a b x) : ∃ n : Int, x.floor = .ok n ∧ (a : Int) ≤ n ∧ n ≤ b := by
  obtain ⟨m, rfl, ha, hb⟩ := hx
  refine ⟨⌊m.value⌋, floor_finite m, Int.le_floor.2 (by exact_mod_cast ha), ?_⟩
  exact_mod_cast (Int.floor_le m.value).trans hb

end Double

end RasterSketch
