import RasterSketch.Proofs.Number.Halves
import RasterSketch.Proofs.Scan.Points
import RasterSketch.Style.Cell
/-!
# Brightness

The light of a sample of bytes is the sum of its three colours.  Its brightness is a third of that, and the size that it
is drawn with grows with its share of the brightest (`Growth`), rounded at every step.  As each step keeps the order of
what it is given, and as whole numbers below `2 ^ 53` are kept as they are, the size lies between one and that of the
cell (`Growth.one_le_total`, `Growth.total_le`), and a brighter sample is never drawn smaller (`Growth.total_mono`).
-/
namespace RasterSketch

open Magnitude
open Double (Exactly)

/-! ## Light -/

namespace Sample

/-- A sample whose channels are bytes. -/
def IsOfBytes (s : Sample) : Prop := ∀ n ∈ [s.r, s.g, s.b, s.a], 0 ≤ n ∧ n ≤ 255

/-- The light of a sample, that of its three colours together. -/
def light (s : Sample) : Int := s.r + s.g + s.b

variable {s : Sample}

theorem IsOfBytes.light_mem (hs : s.IsOfBytes) : 0 ≤ s.light ∧ s.light ≤ 765 := by
  have hr := hs s.r (by simp)
  have hg := hs s.g (by simp)
  have hb := hs s.b (by simp)
  unfold light
  omega

theorem IsOfBytes.light_nonneg (hs : s.IsOfBytes) : 0 ≤ s.light := hs.light_mem.1

theorem IsOfBytes.light_le (hs : s.IsOfBytes) : s.light ≤ 765 := hs.light_mem.2

end Sample

/-- The sample of a point of a buffer is one of bytes. -/
theorem Scan.samplePoint_isOfBytes {b : Buffer} {scale : Number} {x y : Nat} (hy : y < b.height) {s : Sample}
    (h : samplePoint b scale (x, y) = .ok s) : s.IsOfBytes := by
  have hbyte : ∀ v : UInt8, (0 : Int) ≤ v.toNat ∧ (v.toNat : Int) ≤ 255 := fun v => by
    have := v.toNat_lt
    omega
  obtain ⟨destX, destY, -, -, -, rfl⟩ := (samplePoint_eq_ok hy).1 h
  intro n hn
  simp only [List.mem_cons, List.not_mem_nil, or_false] at hn
  rcases hn with rfl | rfl | rfl | rfl <;> exact hbyte _

theorem exists_third {light : Int} (h0 : 0 ≤ light) (h : light ≤ 765) :
    ∃ m, Double.quotient light 3 = .ok (.finite false m) ∧ Rounds ((light : ℚ) / 3) m := by
  have hle : (light : ℚ) / (3 : Int) ≤ (255 : Nat) := by
    rw [div_le_iff₀ (by norm_num)]
    exact_mod_cast h
  exact Double.quotient_rounds h0 (by decide) (isValue_natCast (by decide)) hle

section

variable {light light' : Int} {m n : Magnitude}

theorem brightness_le (hr : Rounds ((light : ℚ) / 3) m) (h : light ≤ 765) : m.value ≤ 255 := by
  have hle : (light : ℚ) / 3 ≤ (255 : Nat) := by
    rw [div_le_iff₀ (by norm_num)]
    exact_mod_cast h
  exact_mod_cast hr.value_le (isValue_natCast (by decide)) hle

theorem brightness_mono (hm : Rounds ((light : ℚ) / 3) m) (hn : Rounds ((light' : ℚ) / 3) n) (h : light ≤ light') :
    m.value ≤ n.value :=
  hm.mono hn (div_le_div_of_nonneg_right (by exact_mod_cast h) (by norm_num))

end

namespace Cell

theorem mem_channels {c : Cell} {n : Int} (h : n ∈ c.colour) : n ∈ [c.sample.r, c.sample.g, c.sample.b, c.sample.a] := by
  unfold colour at h
  dsimp only at h
  split at h
  · exact h
  · simp only [List.mem_cons, List.not_mem_nil, or_false] at h ⊢
    tauto

/-- What the cell of a sample is made of. -/
theorem ofSample_eq_ok {s : Sample} {size : Int} {includeAlpha : Bool} {c : Cell} :
    ofSample s size includeAlpha = .ok c ↔ ∃ brightness grown, Double.quotient s.light 3 = .ok brightness ∧
      (shareOf brightness).scale (size - 1) = .ok grown ∧ c = ⟨s, brightness, size, grown + 1.0, includeAlpha⟩ := by
  constructor
  · intro h
    obtain ⟨brightness, hb, h⟩ := bind_eq_ok.1 h
    obtain ⟨grown, hg, h⟩ := bind_eq_ok.1 h
    exact ⟨brightness, grown, hb, hg, (Except.ok.inj h).symm⟩
  · rintro ⟨brightness, grown, hb, hg, rfl⟩
    exact bind_eq_ok.2 ⟨brightness, hb, bind_eq_ok.2 ⟨grown, hg, rfl⟩⟩

/-- The brightness of a cell is a third of the light of its sample, whatever its size. -/
theorem brightness_rounds {s : Sample} (hs : s.IsOfBytes) {size : Int} {includeAlpha : Bool} {c : Cell}
    (h : ofSample s size includeAlpha = .ok c) :
    ∃ m, c.brightness = .finite false m ∧ Rounds ((s.light : ℚ) / 3) m := by
  obtain ⟨brightness, grown, hb, -, rfl⟩ := ofSample_eq_ok.1 h
  obtain ⟨m, hm, hr⟩ := exists_third hs.light_nonneg hs.light_le
  exact ⟨m, Except.ok.inj (hb.symm.trans hm), hr⟩

end Cell

/-! ## Growth -/

/-- How a sample of some light grows in a cell of some size: its brightness, the share of the brightest that this is,
what it grows by, and the size that it comes to, rounded at every step. -/
structure Growth (light size : Int) where
  brightness : Magnitude
  share : Magnitude
  grown : Magnitude
  total : Magnitude
  brightness_rounds : Rounds (light / 3) brightness
  share_rounds : Rounds (brightness.value / 255) share
  grown_rounds : Rounds ((size - 1) * share.value) grown
  total_rounds : Rounds (grown.value + 1) total

namespace Growth

variable {light light' size : Int} (g : Growth light size) (g' : Growth light' size)

theorem share_le_one (h : light ≤ 765) : g.share.value ≤ 1 :=
  g.share_rounds.le_one ((div_le_one (by norm_num)).2 (brightness_le g.brightness_rounds h))

theorem one_le_total : 1 ≤ g.total.value :=
  g.total_rounds.le_value isValue_one (le_add_of_nonneg_left g.grown.value_nonneg)

theorem total_le (h : light ≤ 765) (h1 : 1 ≤ size) (hsize : size < 2 ^ 53) : g.total.value ≤ size := by
  have hless : (0 : ℚ) ≤ ((size - 1 : Int) : ℚ) := by exact_mod_cast (by omega : 0 ≤ size - 1)
  have hgrown : g.grown.value ≤ ((size - 1 : Int) : ℚ) := by
    refine g.grown_rounds.value_le (isValue_intCast (by omega) (by omega)) ?_
    rw [← Int.cast_one, ← Int.cast_sub]
    exact mul_le_of_le_one_right hless (g.share_le_one h)
  refine g.total_rounds.value_le (isValue_intCast (by omega) hsize) ?_
  push_cast at hgrown
  linarith

/-- **A sample with more light is never drawn smaller**, however it is rounded on the way. -/
theorem total_mono (h : light ≤ light') (h1 : 1 ≤ size) : g.total.value ≤ g'.total.value := by
  have hbrightness := brightness_mono g.brightness_rounds g'.brightness_rounds h
  have hshare := g.share_rounds.mono g'.share_rounds (div_le_div_of_nonneg_right hbrightness (by norm_num))
  have hless : (0 : ℚ) ≤ size - 1 := by
    have hcast : (1 : ℚ) ≤ size := by exact_mod_cast h1
    linarith
  have hgrown := g.grown_rounds.mono g'.grown_rounds (mul_le_mul_of_nonneg_left hshare hless)
  exact g.total_rounds.mono g'.total_rounds (by linarith)

end Growth

/-- **The cell of a sample of bytes has the size to which it grows.** -/
theorem Cell.exists_growth {s : Sample} (hs : s.IsOfBytes) {size : Int} (h1 : 1 ≤ size) (hsize : size < 2 ^ 53)
    (includeAlpha : Bool) : ∃ g : Growth s.light size, ofSample s size includeAlpha =
      .ok ⟨s, .finite false g.brightness, size, .finite false g.total, includeAlpha⟩ := by
  obtain ⟨most, hmost, hmostValue⟩ : Exactly ((255 : Nat) : ℚ) (255.0 : Double) := Double.exactly_whole (by decide)
  obtain ⟨one, hone, honeValue⟩ : Exactly ((1 : Nat) : ℚ) (1.0 : Double) := Double.exactly_whole (by decide)
  obtain ⟨less, hless, hlessValue⟩ := Double.ofInt_exact (c := size - 1) (by omega) (by omega)
  push_cast at hmostValue honeValue hlessValue
  -- each step is bounded by a whole number that is a double, so that none is too large
  obtain ⟨brightness, hbrightness, hbrightnessRounds⟩ := exists_third hs.light_nonneg hs.light_le
  have hshareLe : brightness.value / most.value ≤ 1 := by
    rw [hmostValue, div_le_one (by norm_num)]
    exact brightness_le hbrightnessRounds hs.light_le
  obtain ⟨share, hshare, hshareRounds⟩ := Double.div_rounds (by rw [hmostValue]; norm_num) isValue_one hshareLe
  have hgrownLe : less.value * share.value ≤ less.value :=
    mul_le_of_le_one_right less.value_nonneg (hshareRounds.le_one hshareLe)
  obtain ⟨grown, hgrown, hgrownRounds⟩ := Double.scale_rounds hless less.isValue hgrownLe
  have htotalLe : grown.value + one.value ≤ size := by
    have := hgrownRounds.value_le less.isValue hgrownLe
    linarith
  obtain ⟨total, htotal, htotalRounds⟩ := Double.add_rounds (isValue_intCast (by omega) hsize) htotalLe
  rw [hmostValue] at hshareRounds
  rw [hlessValue] at hgrownRounds
  rw [honeValue] at htotalRounds
  refine ⟨⟨brightness, share, grown, total, hbrightnessRounds, hshareRounds, hgrownRounds, htotalRounds⟩, ?_⟩
  refine ofSample_eq_ok.2 ⟨_, .finite false grown, hbrightness, ?_, by rw [hone, htotal]⟩
  rw [shareOf, hmost, hshare, hgrown]

end RasterSketch
