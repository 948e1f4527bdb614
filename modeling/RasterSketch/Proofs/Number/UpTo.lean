import RasterSketch.Proofs.Number.Between
/-!
# Doubles up to a power of two

A double without a sign that does not exceed a power of two (`Double.UpTo`) is finite, and so is what is made of it as
long as the powers stay within those that a double can be.  Unlike bounds below `2 ^ 53` (`Double.Between`), powers of
two reach as far as doubles do.
-/
namespace RasterSketch

open Magnitude

/-- A place or a length on a sheet whose sides are a power of two. -/
def OnSheet (k : Nat) (n : Int) : Prop := 0 ≤ n ∧ n ≤ 2 ^ k

theorem two_pow_mono {j k : Nat} (h : j ≤ k) : (2 : ℚ) ^ j ≤ 2 ^ k := pow_le_pow_right₀ (by norm_num) h

theorem Magnitude.isValue_two_pow {k : Nat} (hk : k ≤ 1023) : IsValue ((2 : ℚ) ^ k) := by
  have h := isValue_two_zpow (f := k) (by omega) (by omega)
  rwa [zpow_natCast] at h

namespace OnSheet

variable {j k : Nat} {m n : Int}

theorem cast_le (h : OnSheet k n) : (n : ℚ) ≤ 2 ^ k := by exact_mod_cast h.2

theorem mono (h : OnSheet j n) (hk : j ≤ k) : OnSheet k n := ⟨h.1, h.2.trans (pow_le_pow_right₀ (by decide) hk)⟩

theorem add (hm : OnSheet k m) (hn : OnSheet k n) : OnSheet (k + 1) (m + n) := by
  refine ⟨add_nonneg hm.1 hn.1, (add_le_add hm.2 hn.2).trans_eq ?_⟩
  rw [pow_succ, mul_two]

end OnSheet

namespace Double

def UpTo (k : Nat) (x : Double) : Prop := ∃ m, x = .finite false m ∧ m.value ≤ 2 ^ k

variable {a b j k : Nat} {n : Int} {x y : Double}

theorem UpTo.isFinite (h : UpTo k x) : x.isFinite = true := by
  obtain ⟨m, rfl, -⟩ := h
  rfl

theorem Between.upTo (h : Between a b x) (hb : b ≤ 2 ^ k) : UpTo k x := by
  obtain ⟨m, rfl, -, hm⟩ := h
  exact ⟨m, rfl, hm.trans (by exact_mod_cast hb)⟩

theorem ofInt_upTo (hn : OnSheet k n) (hk : k ≤ 1023) : ∃ x, ofInt n = .ok x ∧ UpTo k x := by
  obtain ⟨m, hm, hr⟩ := ofInt_rounds hn.1 (isValue_two_pow hk) hn.cast_le
  exact ⟨_, hm, m, rfl, hr.value_le (isValue_two_pow hk) hn.cast_le⟩

theorem half_upTo (hn : OnSheet k n) (hk : k ≤ 1023) : ∃ x, quotient n 2 = .ok x ∧ UpTo k x := by
  have hle : (n : ℚ) / (2 : Int) ≤ 2 ^ k := by
    have h0 : (0 : ℚ) ≤ n := by exact_mod_cast hn.1
    exact (div_le_self h0 (by norm_num)).trans hn.cast_le
  obtain ⟨m, hm, hr⟩ := quotient_rounds hn.1 (by decide) (isValue_two_pow hk) hle
  exact ⟨_, hm, m, rfl, hr.value_le (isValue_two_pow hk) hle⟩

theorem UpTo.mul (hx : UpTo j x) (hy : UpTo k y) (h : j + k ≤ 1023) : UpTo (j + k) (x * y) := by
  obtain ⟨m, rfl, hm⟩ := hx
  obtain ⟨n, rfl, hn⟩ := hy
  have hle : m.value * n.value ≤ 2 ^ (j + k) := by
    rw [pow_add]
    exact mul_le_mul hm hn n.value_nonneg (by positivity)
  obtain ⟨p, hp, hr⟩ := mul_rounds (isValue_two_pow h) hle
  exact ⟨p, hp, hr.value_le (isValue_two_pow h) hle⟩

theorem UpTo.add (hx : UpTo k x) (hy : UpTo k y) (h : k + 1 ≤ 1023) : UpTo (k + 1) (x + y) := by
  obtain ⟨m, rfl, hm⟩ := hx
  obtain ⟨n, rfl, hn⟩ := hy
  have hle : m.value + n.value ≤ 2 ^ (k + 1) := by
    rw [pow_succ, mul_two]
    exact add_le_add hm hn
  obtain ⟨p, hp, hr⟩ := add_rounds (isValue_two_pow h) hle
  exact ⟨p, hp, hr.value_le (isValue_two_pow h) hle⟩

theorem UpTo.scale (hx : UpTo j x) (hn : OnSheet k n) (h : k + j ≤ 1023) :
    ∃ y, x.scale n = .ok y ∧ UpTo (k + j) y := by
  obtain ⟨z, hz, hz'⟩ := ofInt_upTo hn (by omega)
  exact ⟨z * x, by rw [Double.scale, hz]; rfl, hz'.mul hx h⟩

theorem UpTo.shift (hx : UpTo k x) (hn : OnSheet k n) (h : k + 1 ≤ 1023) :
    ∃ y, x.shift n = .ok y ∧ UpTo (k + 1) y := by
  obtain ⟨z, hz, hz'⟩ := ofInt_upTo hn (by omega)
  exact ⟨z + x, by rw [Double.shift, hz]; rfl, hz'.add hx h⟩

theorem onSheet_floor {m : Magnitude} (h : m.value ≤ 2 ^ k) : OnSheet k ⌊m.value⌋ := by
  refine ⟨Int.floor_nonneg.2 m.value_nonneg, ?_⟩
  exact_mod_cast (Int.floor_le m.value).trans h

theorem onSheet_ceil {m : Magnitude} (h : m.value ≤ 2 ^ k) : OnSheet k ⌈m.value⌉ :=
  ⟨Int.ceil_nonneg m.value_nonneg, Int.ceil_le.2 (by exact_mod_cast h)⟩

theorem UpTo.ceil (hx : UpTo k x) : ∃ n : Int, x.ceil = .ok n ∧ OnSheet k n := by
  obtain ⟨m, rfl, hm⟩ := hx
  exact ⟨_, ceil_finite m, onSheet_ceil hm⟩

end Double

end RasterSketch
