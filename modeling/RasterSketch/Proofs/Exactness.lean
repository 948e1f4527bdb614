import RasterSketch.Proofs.Fields
/-!
# How exact a grid is

But for the rounding on the way, the fields of a grid are the whole parts of quotients of whole numbers.  What is cut to
a field is within a part in `2 ^ 51` of the quotient (`Grid.compute_nearly_exact`), so that a field can only be another
where a whole number is as near as that, which for a dividend below `2 ^ 51` is where the quotient is whole itself.
There each of the fields is another one for some image (`Grid.square_grids_inexact`).
-/
namespace RasterSketch

/-- A number and what is within a part in `2 ^ 51` of it. -/
def Close (q y : ℚ) : Prop := |y - q| ≤ q * 2 ^ (-51 : ℤ)

/-- A quotient of whole numbers, rounded and cut down to a whole number. -/
structure CutDown (a b n : Int) : Prop where
  rounded : ∃ y : ℚ, Close (a / b) y ∧ n = ⌊y⌋
  abs_sub_le : (a / b : ℚ) < 2 ^ 51 → |n - ⌊(a / b : ℚ)⌋| ≤ 1
  eq_of_far : (∀ k : Int, ¬ Close (a / b) k) → n = ⌊(a / b : ℚ)⌋
  eq_or_of_lt : a < 2 ^ 51 → n = ⌊(a / b : ℚ)⌋ ∨ b ∣ a ∧ n = ⌊(a / b : ℚ)⌋ - 1

/-- A quotient of whole numbers, rounded and cut up to a whole number. -/
structure CutUp (a b n : Int) : Prop where
  rounded : ∃ y : ℚ, Close (a / b) y ∧ n = ⌈y⌉
  abs_sub_le : (a / b : ℚ) < 2 ^ 51 → |n - ⌈(a / b : ℚ)⌉| ≤ 1
  eq_of_far : (∀ k : Int, ¬ Close (a / b) k) → n = ⌈(a / b : ℚ)⌉
  eq_or_of_lt : a < 2 ^ 51 → n = ⌈(a / b : ℚ)⌉ ∨ b ∣ a ∧ n = ⌈(a / b : ℚ)⌉ + 1

/-! ## Close numbers -/

namespace Close

variable {q y : ℚ} {a b k : Int}

/-- What is on the way to a close number is close too. -/
theorem of_between (h : Close q y) (hk : q ≤ k ∧ k ≤ y ∨ y ≤ k ∧ k ≤ q) : Close q k := by
  have hle := abs_le.1 h
  rcases hk with ⟨hqk, hky⟩ | ⟨hyk, hkq⟩
  · exact abs_le.2 ⟨by linarith, by linarith⟩
  · exact abs_le.2 ⟨by linarith, by linarith⟩

/-- Numbers with different floors have the larger one between them. -/
theorem floor_eq (h : Close q y) (hfar : ∀ k : Int, ¬ Close q k) : ⌊y⌋ = ⌊q⌋ := by
  rcases lt_trichotomy ⌊y⌋ ⌊q⌋ with hlt | heq | hlt
  · exact absurd (h.of_between (.inr ⟨(Int.floor_lt.1 hlt).le, Int.floor_le q⟩)) (hfar _)
  · exact heq
  · exact absurd (h.of_between (.inl ⟨(Int.floor_lt.1 hlt).le, Int.floor_le y⟩)) (hfar _)

/-- Numbers with different ceilings have the smaller one between them. -/
theorem ceil_eq (h : Close q y) (hfar : ∀ k : Int, ¬ Close q k) : ⌈y⌉ = ⌈q⌉ := by
  rcases lt_trichotomy ⌈y⌉ ⌈q⌉ with hlt | heq | hlt
  · exact absurd (h.of_between (.inr ⟨Int.le_ceil y, (Int.lt_ceil.1 hlt).le⟩)) (hfar _)
  · exact heq
  · exact absurd (h.of_between (.inl ⟨Int.le_ceil q, (Int.lt_ceil.1 hlt).le⟩)) (hfar _)

/-- **No whole number is close to a quotient of a small dividend**, unless it is the quotient. -/
theorem dvd_of_lt (h : Close (a / b) k) (hb : 0 < b) (ha : a < 2 ^ 51) : b ∣ a := by
  have hb' : (0 : ℚ) < b := by exact_mod_cast hb
  have hpart : (a : ℚ) * 2 ^ (-51 : ℤ) < 1 := by
    calc (a : ℚ) * 2 ^ (-51 : ℤ) < 2 ^ 51 * 2 ^ (-51 : ℤ) :=
          mul_lt_mul_of_pos_right (by exact_mod_cast ha) (two_zpow_pos _)
      _ = 1 := by norm_num
  have hclose := abs_le.1 (show |(k : ℚ) - a / b| ≤ a / b * 2 ^ (-51 : ℤ) from h)
  have hbq : (b : ℚ) * (a / b) = a := mul_div_cancel₀ _ hb'.ne'
  have hlow := mul_le_mul_of_nonneg_left hclose.1 hb'.le
  have hhigh := mul_le_mul_of_nonneg_left hclose.2 hb'.le
  rw [mul_neg, ← mul_assoc, hbq, mul_sub, hbq] at hlow
  rw [← mul_assoc, hbq, mul_sub, hbq] at hhigh
  have hlt : b * k - a < 1 := by exact_mod_cast lt_of_le_of_lt hhigh hpart
  have hgt : -1 < b * k - a := by
    have : (-1 : ℚ) < b * k - a := by linarith
    exact_mod_cast this
  exact ⟨k, by omega⟩

/-- A number close to a small one is less than one from it. -/
theorem sub_lt_one (h : Close q y) (hq : q < 2 ^ 51) : q - 1 < y ∧ y < q + 1 := by
  have hpart : q * 2 ^ (-51 : ℤ) < 1 := by
    calc q * 2 ^ (-51 : ℤ) < 2 ^ 51 * 2 ^ (-51 : ℤ) := mul_lt_mul_of_pos_right hq (two_zpow_pos _)
      _ = 1 := by norm_num
  have hclose := abs_le.1 h
  exact ⟨by linarith, by linarith⟩

theorem abs_floor_sub_le (h : Close q y) (hq : q < 2 ^ 51) : |⌊y⌋ - ⌊q⌋| ≤ 1 := by
  obtain ⟨hlow, hhigh⟩ := h.sub_lt_one hq
  have hle : ⌊q⌋ - 1 ≤ ⌊y⌋ := Int.le_floor.2 (by push_cast; linarith [Int.floor_le q])
  have hlt : ⌊y⌋ < ⌊q⌋ + 2 := Int.floor_lt.2 (by push_cast; linarith [Int.lt_floor_add_one q])
  exact abs_le.2 ⟨by omega, by omega⟩

theorem abs_ceil_sub_le (h : Close q y) (hq : q < 2 ^ 51) : |⌈y⌉ - ⌈q⌉| ≤ 1 := by
  obtain ⟨hlow, hhigh⟩ := h.sub_lt_one hq
  have hle : ⌈y⌉ ≤ ⌈q⌉ + 1 := Int.ceil_le.2 (by push_cast; linarith [Int.le_ceil q])
  have hlt : ⌈q⌉ - 2 < ⌈y⌉ := Int.lt_ceil.2 (by push_cast; linarith [Int.ceil_lt_add_one q])
  exact abs_le.2 ⟨by omega, by omega⟩

/-- The quotient of a small dividend that has a whole number close to it. -/
theorem exists_whole (h : Close (a / b) y) (hb : 0 < b) (ha : 0 < a) (ha' : a < 2 ^ 51) (hdvd : b ∣ a) :
    ∃ c : Int, (a / b : ℚ) = c ∧ c - 1 < y ∧ y < c + 1 := by
  obtain ⟨c, rfl⟩ := hdvd
  have hb' : (b : ℚ) ≠ 0 := by exact_mod_cast hb.ne'
  have hc : 0 < c := (mul_pos_iff_of_pos_left hb).1 ha
  have hle : c ≤ b * c := le_mul_of_one_le_left hc.le hb
  have hq : ((b * c : Int) / b : ℚ) = c := by
    push_cast
    exact mul_div_cancel_left₀ _ hb'
  rw [hq] at h
  exact ⟨c, hq, h.sub_lt_one (by exact_mod_cast hle.trans_lt ha')⟩

theorem cutDown (h : Close (a / b) y) (hb : 0 < b) (ha : 0 < a) : CutDown a b ⌊y⌋ := by
  refine ⟨⟨y, h, rfl⟩, h.abs_floor_sub_le, h.floor_eq, fun ha' => ?_⟩
  by_cases hdvd : b ∣ a
  · obtain ⟨c, hq, hlow, hhigh⟩ := h.exists_whole hb ha ha' hdvd
    rw [hq, Int.floor_intCast]
    have hle : c - 1 ≤ ⌊y⌋ := Int.le_floor.2 (by push_cast; exact hlow.le)
    have hlt : ⌊y⌋ < c + 1 := Int.floor_lt.2 (by push_cast; exact hhigh)
    rcases eq_or_ne ⌊y⌋ c with heq | hne
    · exact .inl heq
    · exact .inr ⟨hdvd, by omega⟩
  · exact .inl (h.floor_eq fun k hk => hdvd (hk.dvd_of_lt hb ha'))

theorem cutUp (h : Close (a / b) y) (hb : 0 < b) (ha : 0 < a) : CutUp a b ⌈y⌉ := by
  refine ⟨⟨y, h, rfl⟩, h.abs_ceil_sub_le, h.ceil_eq, fun ha' => ?_⟩
  by_cases hdvd : b ∣ a
  · obtain ⟨c, hq, hlow, hhigh⟩ := h.exists_whole hb ha ha' hdvd
    rw [hq, Int.ceil_intCast]
    have hle : ⌈y⌉ ≤ c + 1 := Int.ceil_le.2 (by push_cast; exact hhigh.le)
    have hlt : c - 1 < ⌈y⌉ := Int.lt_ceil.2 (by push_cast; exact hlow)
    rcases eq_or_ne ⌈y⌉ c with heq | hne
    · exact .inl heq
    · exact .inr ⟨hdvd, by omega⟩
  · exact .inl (h.ceil_eq fun k hk => hdvd (hk.dvd_of_lt hb ha'))

end Close

/-! ## The fields -/

namespace Grid

/-- The grid that is computed without rounding. -/
structure Exact (w h base bound : Int) (g : Grid) : Prop where
  scaledWidth_eq : g.scaledWidth = ⌊((w * bound : Int) / (max w h : Int) : ℚ)⌋
  scaledHeight_eq : g.scaledHeight = ⌊((h * bound : Int) / (max w h : Int) : ℚ)⌋
  step_eq : g.step = max 1 ⌊((base * max w h : Int) / bound : ℚ)⌋
  cellSize_eq : g.cellSize = ⌈((g.step * bound : Int) / (max w h : Int) : ℚ)⌉

/-- A grid whose fields are cut from the exact quotients but for their rounding. -/
structure NearlyExact (w h base bound : Int) (g : Grid) : Prop where
  scaledWidth : CutDown (w * bound) (max w h) g.scaledWidth
  scaledHeight : CutDown (h * bound) (max w h) g.scaledHeight
  step : ∃ stride, CutDown (base * max w h) bound stride ∧ g.step = max 1 stride
  cellSize : CutUp (g.step * bound) (max w h) g.cellSize

variable {w h base bound : Int} {g : Grid}

/-- A grid is exact if no whole number is close to what its fields are cut from. -/
theorem NearlyExact.exact (hg : g.NearlyExact w h base bound)
    (hw : ∀ k : Int, ¬ Close ((w * bound : Int) / (max w h : Int)) k)
    (hh : ∀ k : Int, ¬ Close ((h * bound : Int) / (max w h : Int)) k)
    (hs : ∀ k : Int, ¬ Close ((base * max w h : Int) / bound) k)
    (hc : ∀ k : Int, ¬ Close ((g.step * bound : Int) / (max w h : Int)) k) : g.Exact w h base bound := by
  obtain ⟨stride, hstride, hstep⟩ := hg.step
  refine ⟨hg.scaledWidth.eq_of_far hw, hg.scaledHeight.eq_of_far hh, ?_, hg.cellSize.eq_of_far hc⟩
  rw [hstep, hstride.eq_of_far hs]

/-- **The fields of a grid are cut from the exact quotients, rounded by no more than a part in `2 ^ 51`.** -/
theorem compute_nearly_exact (w h base bound : Int) (hw : IsSize w) (hh : IsSize h) (hb : IsSize base)
    (ht : IsSize bound) : ∃ g, compute w h base bound = .ok g ∧ g.NearlyExact w h base bound := by
  obtain ⟨g, s, hg, hf⟩ := exists_roundedFrom hw hh hb ht
  have hlonger : 0 < max w h := by exact_mod_cast (hw.max hh).pos
  have hbound : 0 < bound := by exact_mod_cast ht.pos
  have hside : ∀ (n : Int) (m : Magnitude), IsSize n → Magnitude.Rounds (n * s.value) m →
      CutDown (n * bound) (max w h) ⌊m.value⌋ := by
    intro n m hn hr
    have hclose : Close ((n * bound : Int) / (max w h : Int)) m.value := by
      rw [Int.cast_mul]
      exact (hf.side_nearly hw hh ht hn hr).abs_sub_le (by decide)
    exact hclose.cutDown hlonger (mul_pos (by linarith [hn.1]) hbound)
  obtain ⟨mw, hrw, hwidth⟩ := hf.scaledWidth
  obtain ⟨mh, hrh, hheight⟩ := hf.scaledHeight
  obtain ⟨ms, hrs, hstep⟩ := hf.step
  obtain ⟨z, mc, hz, hrc, hcell⟩ := hf.cellSize
  have hstride : Close ((base * max w h : Int) / bound) ms.value := by
    rw [Int.cast_mul]
    exact (hf.stride_nearly hw hh ht hb hrs).abs_sub_le (by decide)
  have hcell' : Close ((g.step * bound : Int) / (max w h : Int)) mc.value := by
    rw [Int.cast_mul]
    exact (hf.cell_nearly hw hh ht hz hrc).abs_sub_le (by decide)
  refine ⟨g, hg, ?_, ?_, ⟨_, ?_, hstep⟩, ?_⟩
  · rw [hwidth]
    exact hside w mw hw hrw
  · rw [hheight]
    exact hside h mh hh hrh
  · exact hstride.cutDown hbound (mul_pos (by linarith [hb.1]) hlonger)
  · rw [hcell]
    exact hcell'.cutUp hlonger (mul_pos (by linarith [hf.step_pos]) hbound)

/-- A square within the bound that is taken unless another is asked for. -/
theorem square_nearly_exact : IsSize 97 ∧ IsSize 8 ∧ IsSize targetMax ∧
    ∃ g, compute 97 97 8 targetMax = .ok g ∧ g.NearlyExact 97 97 8 targetMax :=
  ⟨by decide, by decide, by decide,
    compute_nearly_exact 97 97 8 targetMax (by decide) (by decide) (by decide) (by decide)⟩

/-- **Each field can be another than the exact one**: a canvas is a pixel short, a stride one too small, a cell a pixel
too large. -/
theorem square_grids_inexact :
    (∃ g, compute 97 97 8 400 = .ok g ∧ g.scaledWidth = 399 ∧ g.scaledHeight = 399 ∧ ¬ g.Exact 97 97 8 400) ∧
    (∃ g, compute 4650 4650 8 400 = .ok g ∧ g.step = 92 ∧ ¬ g.Exact 4650 4650 8 400) ∧
    ∃ g, compute 91 91 3 1 = .ok g ∧ g.step = 273 ∧ g.cellSize = 4 ∧ ¬ g.Exact 91 91 3 1 := by
  refine ⟨?_, ?_, ?_⟩
  · obtain ⟨g, hg, hp⟩ := exists_ok_of_any (x := compute 97 97 8 400)
      (p := fun g => g.scaledWidth == 399 && g.scaledHeight == 399) (by decide +kernel)
    simp only [Bool.and_eq_true, beq_iff_eq] at hp
    refine ⟨g, hg, hp.1, hp.2, fun hexact => ?_⟩
    have := hexact.scaledWidth_eq
    rw [hp.1] at this
    norm_num at this
  · obtain ⟨g, hg, hp⟩ := exists_ok_of_any (x := compute 4650 4650 8 400)
      (p := fun g => g.step == 92) (by decide +kernel)
    rw [beq_iff_eq] at hp
    refine ⟨g, hg, hp, fun hexact => ?_⟩
    have := hexact.step_eq
    rw [hp] at this
    norm_num at this
  · obtain ⟨g, hg, hp⟩ := exists_ok_of_any (x := compute 91 91 3 1)
      (p := fun g => g.step == 273 && g.cellSize == 4) (by decide +kernel)
    simp only [Bool.and_eq_true, beq_iff_eq] at hp
    refine ⟨g, hg, hp.1, hp.2, fun hexact => ?_⟩
    have := hexact.cellSize_eq
    rw [hp.1, hp.2] at this
    norm_num at this

end Grid
end RasterSketch
