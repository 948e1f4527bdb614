import RasterSketch.Proofs.Scan.Bands
/-!
# Where a scan may begin

A scan from a row of the grid on stays inside the image and comes by no pixel twice.  A scan that begins before the
first row does not: its rows count from the bottom until they reach the top, and then all of the image follows.  It is
not refused as a step below one is (`Buffer.scan_within`).
-/
namespace RasterSketch

/-- One sample is of a row further up than another, or of the same row and further to the left. -/
def Sample.Before (s s' : Sample) : Prop := s.sourceY < s'.sourceY ∨ s.sourceY = s'.sourceY ∧ s.sourceX < s'.sourceX

theorem Sample.Before.ne {s s' : Sample} (h : s.Before s') : (s.sourceX, s.sourceY) ≠ (s'.sourceX, s'.sourceY) := by
  intro heq
  obtain ⟨hx, hy⟩ := Prod.mk.inj heq
  unfold Sample.Before at h
  omega

namespace Scan

/-- The points of a scan, row after row and each row from the left. -/
def PointBefore (p q : Nat × Int) : Prop := p.2 < q.2 ∨ p.2 = q.2 ∧ p.1 < q.1

variable {b : Buffer} {step : Nat} {scale : Number}

theorem mem_rowPoints {columns x : Nat} {y y' : Int} :
    (x, y') ∈ rowPoints columns step y ↔ y' = y ∧ ∃ i < columns, x = i * step := by
  unfold rowPoints
  simp only [List.mem_map, List.mem_range, Prod.mk.injEq]
  constructor
  · rintro ⟨i, hi, rfl, rfl⟩
    exact ⟨rfl, i, hi, rfl⟩
  · rintro ⟨rfl, i, hi, rfl⟩
    exact ⟨i, hi, rfl, rfl⟩

theorem pairwise_upTo (hs : 0 < step) (start limit : Int) : (upTo step start limit).Pairwise (· < ·) := by
  rw [upTo, List.pairwise_map]
  refine List.pairwise_lt_range.imp fun {j k} h => ?_
  have hmul : (j : Int) * step < k * step := Int.mul_lt_mul_of_pos_right (by exact_mod_cast h) (by exact_mod_cast hs)
  omega

theorem pairwise_points (hs : 0 < step) (columns : Nat) (start limit : Int) :
    ((upTo step start limit).flatMap (rowPoints columns step)).Pairwise PointBefore := by
  rw [List.pairwise_flatMap]
  refine ⟨fun y _ => ?_, (pairwise_upTo hs start limit).imp fun {y y'} hy => ?_⟩
  · rw [rowPoints, List.pairwise_map]
    exact List.pairwise_lt_range.imp fun h => .inr ⟨rfl, Nat.mul_lt_mul_of_pos_right h hs⟩
  · rintro ⟨x, z⟩ hp ⟨x', z'⟩ hq
    obtain ⟨rfl, -⟩ := mem_rowPoints.1 hp
    obtain ⟨rfl, -⟩ := mem_rowPoints.1 hq
    exact .inl hy

/-- What is found on the way of a scan: the samples of points in its columns and from its first row on. -/
theorem exists_of_mem_rowsFrom (hs : 0 < step) {y : Int} {s : Sample} (h : s ∈ (rowsFrom b step hs scale y).items) :
    ∃ i k : Nat, i * step < b.width ∧ y + k * step < b.height ∧
      samplePoint b scale (i * step, y + k * step) = .ok s := by
  rcases Nat.eq_zero_or_pos b.width with hw | hw
  · rw [Buffer.items_rowsFrom_of_no_columns hs hw] at h
    cases h
  · rw [rowsFrom_eq b hs hw] at h
    obtain ⟨⟨x, z⟩, hp, hsample⟩ := Delivery.exists_of_mem_items h
    obtain ⟨r, hr, hx⟩ := List.mem_flatMap.1 hp
    obtain ⟨rfl, i, hi, rfl⟩ := mem_rowPoints.1 hx
    unfold upTo at hr
    obtain ⟨k, hk, rfl⟩ := List.mem_map.1 hr
    rw [List.mem_range, lt_cells_iff hs] at hk
    refine ⟨i, k, (lt_cells_iff hs).1 hi, ?_, hsample⟩
    have hcast : ((k * step : Nat) : Int) = k * step := Int.natCast_mul k step
    omega

theorem pairwise_rowsFrom (hs : 0 < step) (y : Int) : (rowsFrom b step hs scale y).items.Pairwise Sample.Before := by
  rcases Nat.eq_zero_or_pos b.width with hw | hw
  · rw [Buffer.items_rowsFrom_of_no_columns hs hw]
    exact List.Pairwise.nil
  · rw [rowsFrom_eq b hs hw]
    refine Delivery.pairwise_items (pairwise_points hs _ y b.height) ?_
    rintro ⟨x, z⟩ ⟨x', z'⟩ s s' hbefore h h'
    obtain ⟨_, _, _, -, -, -, -, rfl⟩ := samplePoint_eq_ok_of_row.1 h
    obtain ⟨_, _, _, -, -, -, -, rfl⟩ := samplePoint_eq_ok_of_row.1 h'
    exact hbefore.imp_right (And.imp_right Int.ofNat_lt.2)

/-- The first sample is of the first point. -/
theorem first_of_rowsFrom (hs : 0 < step) {y : Int} {s : Sample}
    (h : (rowsFrom b step hs scale y).items.head? = some s) : s.sourceX = 0 ∧ s.sourceY = y := by
  rcases Nat.eq_zero_or_pos b.width with hw | hw
  · rw [Buffer.items_rowsFrom_of_no_columns hs hw] at h
    cases h
  · rw [rowsFrom_eq b hs hw, List.head?_eq_getElem?] at h
    obtain ⟨p, hp, hsample⟩ := Delivery.getElem?_items h
    have hcells : 0 < cells b.width step := (lt_cells_iff hs).2 (by rwa [Nat.zero_mul])
    by_cases hy : y < b.height
    · rw [upTo_of_lt hs hy, List.flatMap_cons, rowPoints, ← List.head?_eq_getElem?, List.head?_append, List.head?_map,
        List.head?_range, if_neg hcells.ne'] at hp
      cases hp
      obtain ⟨_, _, _, -, -, -, -, rfl⟩ := samplePoint_eq_ok_of_row.1 hsample
      exact ⟨by rw [Nat.zero_mul, Nat.cast_zero], rfl⟩
    · rw [upTo_of_le hs (by omega)] at hp
      cases hp

/-! ## Arguments that are not refused -/

/-- Anything but the refusal of an argument. -/
def Unrefused {α : Type} (x : Except Error α) : Prop := ∀ e, x ≠ .error (.argument e)

theorem Unrefused.bind {α γ : Type} {x : Except Error α} {f : α → Except Error γ} (hx : Unrefused x)
    (hf : ∀ a, Unrefused (f a)) : Unrefused (x >>= f) := by
  cases x with
  | error e => exact fun e' h => hx e' (by cases h; rfl)
  | ok a => exact hf a

theorem unrefused_pure {α : Type} (a : α) : Unrefused (pure a) := fun _ h => by cases h

theorem unrefused_mapError {α ε : Type} {x : Except ε α} {f : ε → Error} (hf : ∀ e e', f e ≠ .argument e') :
    Unrefused (x.mapError f) := by
  cases x with
  | error e => exact fun e' h => hf e e' (Except.error.inj h)
  | ok a => exact fun _ h => by cases h

theorem unrefused_placed (scale : Number) (c : Int) : Unrefused (placed scale c) :=
  Unrefused.bind (unrefused_mapError fun _ _ h => by cases h) fun _ => unrefused_mapError fun _ _ h => by cases h

theorem unrefused_checkIndex (i : Int) : Unrefused (checkIndex i) := by
  intro e h
  unfold checkIndex at h
  split at h
  · cases h
  · split at h <;> cases h

theorem unrefused_rowAt (y : Int) : Unrefused (rowAt b scale y) :=
  (unrefused_placed scale y).bind fun _ => (unrefused_checkIndex y).bind fun _ =>
    (unrefused_mapError fun _ _ h => by cases h).bind fun _ => unrefused_pure _

theorem unrefused_sampleAt (y destY : Int) (row x : Nat) : Unrefused (sampleAt b scale y destY row x) :=
  (unrefused_placed scale x).bind fun _ => unrefused_pure _

/-- **A scan that has begun refuses no argument**, wherever it fails. -/
theorem failure_rowsFrom_ne (hs : 0 < step) (y : Int) (e : ArgumentError) :
    (rowsFrom b step hs scale y).failure ≠ some (.argument e) := by
  have hrow : (row b step scale y).failure ≠ some (.argument e) := by
    unfold row
    cases hr : rowAt b scale y with
    | error e' => exact fun h => unrefused_rowAt y e (by rw [hr, Option.some.inj h])
    | ok p =>
      intro h
      obtain ⟨i, -, hi⟩ := Delivery.exists_of_failure h
      exact unrefused_sampleAt _ _ _ _ _ hi
  rw [rowsFrom]
  split
  · rw [Delivery.failure_append]
    cases hf : (row b step scale y).failure with
    | some e' => exact fun h => hrow (hf.trans h)
    | none => exact failure_rowsFrom_ne hs (y + step) e
  · exact fun h => by cases h
termination_by (b.height - y).toNat

end Scan

namespace Buffer

/-- A sample has the channels of the pixel at its coordinates, of which a negative one counts from the end. -/
def Tells (b : Buffer) (s : Sample) : Prop :=
  ∃ p, b.pixel s.sourceX s.sourceY = .ok p ∧
    s.r = p.r.toNat ∧ s.g = p.g.toNat ∧ s.b = p.b.toNat ∧ s.a = p.a.toNat

/-- Samples of pixels of the image, and of none of them twice. -/
structure StaysInside (b : Buffer) (samples : List Sample) : Prop where
  columns : ∀ s ∈ samples, 0 ≤ s.sourceX ∧ s.sourceX < b.width
  rows : ∀ s ∈ samples, 0 ≤ s.sourceY ∧ s.sourceY < b.height
  channels : ∀ s ∈ samples, b.Tells s
  once : samples.Pairwise fun s s' => (s.sourceX, s.sourceY) ≠ (s'.sourceX, s'.sourceY)

/-- How far a scan keeps to the image, from whichever row it begins.  Only a step is refused.  The samples begin with
the first row, go on row after row, and none is beyond the bottom or a side; but rows before the first one are numbered
from the bottom.  So a scan that has a sample stays inside just when it does not begin before the first row. -/
structure ScanWithin (b : Buffer) (step startRow : Int) (scale : Number) : Prop where
  refused : step < 1 → b.scan step scale startRow = .failed (.argument (.step step))
  unrefused : 1 ≤ step → ∀ e, (b.scan step scale startRow).failure ≠ some (.argument e)
  first : ∀ s, (b.scan step scale startRow).items.head? = some s → s.sourceX = 0 ∧ s.sourceY = startRow * step
  columns : ∀ s ∈ (b.scan step scale startRow).items, 0 ≤ s.sourceX ∧ s.sourceX < b.width
  rows : ∀ s ∈ (b.scan step scale startRow).items, -(b.height : Int) ≤ s.sourceY ∧ s.sourceY < b.height
  channels : ∀ s ∈ (b.scan step scale startRow).items, b.Tells s
  inOrder : (b.scan step scale startRow).items.Pairwise Sample.Before
  inside_iff : b.StaysInside (b.scan step scale startRow).items ↔
    0 ≤ startRow ∨ (b.scan step scale startRow).items = []

variable {b : Buffer} {step startRow : Int} {scale : Number}

/-- A sample of a scan is of a pixel of its buffer, in a row that may be numbered from the bottom. -/
theorem sample_of_mem_scan (hw : b.width ≤ 2 ^ 63) {s : Sample} (h : s ∈ (b.scan step scale startRow).items) :
    (0 ≤ s.sourceX ∧ s.sourceX < b.width) ∧ (-(b.height : Int) ≤ s.sourceY ∧ s.sourceY < b.height) ∧
      startRow * step ≤ s.sourceY ∧ b.Tells s := by
  unfold scan at h
  split at h
  · cases h
  · rename_i hs
    obtain ⟨i, k, hx, hy, hsample⟩ := Scan.exists_of_mem_rowsFrom _ h
    obtain ⟨_, _, row, hc, hrow, -, -, rfl⟩ := Scan.samplePoint_eq_ok_of_row.1 hsample
    obtain ⟨hlow, hhigh⟩ := bounds_of_axisIndex (mapError_eq_ok.1 hrow)
    have hk : (0 : Int) ≤ k * step.toNat := by positivity
    exact ⟨⟨Int.natCast_nonneg _, Int.ofNat_lt.2 hx⟩, ⟨hlow, hhigh⟩, Int.le_add_of_nonneg_right hk,
      b.pixelAt (i * step.toNat) row, pixel_of_rowIndex hx hw hc hrow, rfl, rfl, rfl, rfl⟩

theorem staysInside_nil (b : Buffer) : b.StaysInside [] := by
  refine ⟨?_, ?_, ?_, List.Pairwise.nil⟩
  all_goals exact fun s hs => by cases hs

theorem first_of_scan {s : Sample} (h : (b.scan step scale startRow).items.head? = some s) :
    s.sourceX = 0 ∧ s.sourceY = startRow * step := by
  unfold scan at h
  split at h
  · cases h
  · exact Scan.first_of_rowsFrom _ h

theorem pairwise_scan (b : Buffer) (step startRow : Int) (scale : Number) :
    (b.scan step scale startRow).items.Pairwise Sample.Before := by
  unfold scan
  split
  · exact List.Pairwise.nil
  · exact Scan.pairwise_rowsFrom _ _

/-- The first sample tells whether a scan stays inside: those behind it are further down. -/
theorem staysInside_iff (hw : b.width ≤ 2 ^ 63) (hs : 1 ≤ step) :
    b.StaysInside (b.scan step scale startRow).items ↔ 0 ≤ startRow ∨ (b.scan step scale startRow).items = [] := by
  constructor
  · intro hinside
    cases hitems : (b.scan step scale startRow).items with
    | nil => exact .inr rfl
    | cons s rest =>
      have hfirst := first_of_scan (s := s) (by rw [hitems]; rfl)
      have hrow := (hinside.rows s (by rw [hitems]; exact List.mem_cons_self)).1
      rw [hfirst.2] at hrow
      exact .inl (nonneg_of_mul_nonneg_left hrow (by omega))
  · rintro (hstart | hnil)
    · have hfrom : 0 ≤ startRow * step := Int.mul_nonneg hstart (by omega)
      refine ⟨fun s hmem => (sample_of_mem_scan hw hmem).1, fun s hmem => ?_,
        fun s hmem => (sample_of_mem_scan hw hmem).2.2.2, (pairwise_scan b step startRow scale).imp Sample.Before.ne⟩
      obtain ⟨-, ⟨-, hbelow⟩, habove, -⟩ := sample_of_mem_scan hw hmem
      exact ⟨hfrom.trans habove, hbelow⟩
    · rw [hnil]
      exact staysInside_nil b

/-- **A scan stays inside the image just when it does not begin before the first row**, if it has a sample at all; only
a step below one is refused.  No array has more than `2 ^ 63` columns: its indices are words. -/
theorem scan_within (b : Buffer) (step startRow : Int) (scale : Number) (hw : b.width ≤ 2 ^ 63) :
    b.ScanWithin step startRow scale := by
  refine ⟨fun hs => dif_pos hs, fun hs e => ?_, fun s => first_of_scan, fun s hs => (sample_of_mem_scan hw hs).1,
    fun s hs => (sample_of_mem_scan hw hs).2.1, fun s hs => (sample_of_mem_scan hw hs).2.2.2,
    pairwise_scan b step startRow scale, ?_⟩
  · unfold scan
    rw [dif_neg (by omega)]
    exact Scan.failure_rowsFrom_ne _ _ e
  · rcases lt_or_ge step 1 with hs | hs
    · have hrefused : b.scan step scale startRow = .failed (.argument (.step step)) := dif_pos hs
      rw [hrefused]
      exact ⟨fun _ => .inr rfl, fun _ => staysInside_nil b⟩
    · exact staysInside_iff hw hs

/-- A stride of two from the row before the first one meets the upper row under two numbers. -/
theorem threeByTwo_scan_within : threeByTwo.width ≤ 2 ^ 63 ∧
    (threeByTwo.scan 2 (.real 2.5) (-1)).items.map (fun s => (s.sourceX, s.sourceY)) =
      [(0, -2), (2, -2), (0, 0), (2, 0)] ∧
    threeByTwo.ScanWithin 2 (-1) (.real 2.5) :=
  ⟨by decide, by decide +kernel, scan_within _ _ _ _ (by decide)⟩

/-- A scan that is not refused, begins above the image and comes by its lower row twice. -/
theorem threeByTwo_scan_outside :
    (threeByTwo.scan 1 (.real 1.0) (-1)).failure.isNone = true ∧
    (threeByTwo.scan 1 (.real 1.0) (-1)).items.map (fun s => (s.sourceX, s.sourceY)) =
      [(0, -1), (1, -1), (2, -1), (0, 0), (1, 0), (2, 0), (0, 1), (1, 1), (2, 1)] ∧
    ¬ threeByTwo.StaysInside (threeByTwo.scan 1 (.real 1.0) (-1)).items := by
  refine ⟨by decide +kernel, by decide +kernel, fun h => ?_⟩
  have habove : ∃ s ∈ (threeByTwo.scan 1 (.real 1.0) (-1)).items, s.sourceY < 0 := by decide +kernel
  obtain ⟨s, hs, hneg⟩ := habove
  exact absurd (h.rows s hs).1 (by omega)

end Buffer
end RasterSketch
