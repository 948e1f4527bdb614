import Mathlib.Algebra.Order.Ring.Int
import Mathlib.Tactic.Positivity
import Mathlib.Tactic.Ring
import RasterSketch.Proofs.Delivery
import RasterSketch.Proofs.Raster.Pixels
/-!
# Values in one row

Values in one row make a buffer exactly when there are as many as its pixels have and they become as many bytes, which
the buffer then holds (`Buffer.ofFlat_eq_ok`).  Its pixels, looked at row by row, have these bytes in their order
(`Buffer.channels_pixelAt`, `Buffer.readAll_eq_ok`).
-/
namespace RasterSketch

theorem fitsWord_iff {n : Int} : fitsWord n = true ↔ -2 ^ 63 ≤ n ∧ n < 2 ^ 63 := by
  unfold fitsWord
  rw [Bool.and_eq_true, decide_eq_true_eq, decide_eq_true_eq]
  norm_num

namespace Buffer

/-! ## Room -/

/-- Whether an array has room for so many rows and columns of pixels: a word counts its bytes, and it does so even if a
side of no pixels is taken for one of one. -/
def HasRoom (width height : Int) : Prop := max 1 width * max 1 height * RasterSketch.channels < 2 ^ 63

instance (width height : Int) : Decidable (HasRoom width height) := inferInstanceAs (Decidable (_ < _))

variable {w h n : Nat}

theorem extent_pixels (w h : Nat) : extent [(h : Int), w, RasterSketch.channels] 1 =
    max 1 (w : Int) * max 1 (h : Int) * RasterSketch.channels := by
  have hside : ∀ (n : Nat) (m : Int), (if (n : Int) = 0 then m else m * n) = m * max 1 (n : Int) := by
    intro n m
    split
    · rename_i h0
      rw [h0, max_eq_left (by decide), Int.mul_one]
    · rw [max_eq_right (by omega)]
  simp only [extent, List.foldl_cons, List.foldl_nil, hside]
  rw [max_eq_right (by decide : (1 : Int) ≤ RasterSketch.channels)]
  push_cast
  ring

/-- All that is counted on the way to an array is a word. -/
theorem HasRoom.fits (hroom : HasRoom w h) : (w : Int) < 2 ^ 63 ∧ (h : Int) < 2 ^ 63 ∧
    (h : Int) * w < 2 ^ 63 ∧ (h : Int) * w * RasterSketch.channels < 2 ^ 63 := by
  have hw : (w : Int) ≤ max 1 (w : Int) := le_max_right ..
  have hh : (h : Int) ≤ max 1 (h : Int) := le_max_right ..
  have hw1 : 1 ≤ max 1 (w : Int) := le_max_left ..
  have hh1 : 1 ≤ max 1 (h : Int) := le_max_left ..
  unfold HasRoom RasterSketch.channels at hroom
  unfold RasterSketch.channels
  generalize max 1 (w : Int) = a at *
  generalize max 1 (h : Int) = b at *
  have hwide : a ≤ a * b := le_mul_of_one_le_right (by omega) hh1
  have hhigh : b ≤ a * b := le_mul_of_one_le_left (by omega) hw1
  have harea : (h : Int) * w ≤ a * b := by
    rw [mul_comm a]
    exact mul_le_mul hh hw (Int.natCast_nonneg w) (by omega)
  omega

theorem checkExtent_eq_ok : checkExtent [(h : Int), w, RasterSketch.channels] 1 = .ok () ↔ HasRoom w h := by
  have hextent : -2 ^ 63 ≤ max 1 (w : Int) * max 1 (h : Int) * RasterSketch.channels := by
    have hpos : 0 ≤ max 1 (w : Int) * max 1 (h : Int) * RasterSketch.channels := by positivity
    omega
  have hside : ∀ n : Nat, fitsWord n = true ↔ (n : Int) < 2 ^ 63 := fun n => by
    rw [fitsWord_iff]
    omega
  unfold checkExtent
  rw [extent_pixels]
  simp only [List.all_cons, List.all_nil, Bool.and_true]
  constructor
  · intro hok
    split at hok
    · cases hok
    split at hok
    · cases hok
    · rename_i hfits
      rw [Bool.not_eq_true', Bool.not_eq_false, fitsWord_iff] at hfits
      exact hfits.2
  · intro hroom
    obtain ⟨hwide, hhigh, -⟩ := hroom.fits
    have hchannels : fitsWord RasterSketch.channels = true := by decide
    have hbytes := fitsWord_iff.2 ⟨hextent, hroom⟩
    rw [(hside h).2 hhigh, (hside w).2 hwide, hchannels, hbytes]
    rfl

theorem knownSize_cons (mismatch : ArrayError) (known n : Nat) (shape : List Int) (hfits : (known : Int) * n < 2 ^ 63) :
    knownSize mismatch known false ((n : Int) :: shape) = knownSize mismatch (known * n) false shape := by
  have hword : fitsWord ((known : Int) * n) = true := fitsWord_iff.2 ⟨(by decide : (-2 ^ 63 : Int) ≤ 0).trans (by positivity), hfits⟩
  rw [knownSize, if_neg (by omega), if_pos hword, Int.toNat_natCast]

/-- The shape of an array of pixels leaves no choice but the number of its bytes. -/
theorem dimensions_eq_ok (hroom : HasRoom w h) :
    (∃ ds, dimensions [(h : Int), w, RasterSketch.channels] n = .ok ds) ↔ n = w * h * RasterSketch.channels := by
  obtain ⟨hwide, hhigh, harea, hbytes⟩ := hroom.fits
  have hknown : ∀ mismatch, knownSize mismatch 1 false [(h : Int), w, RasterSketch.channels] =
      .ok (h * w * RasterSketch.channels, false) := by
    intro mismatch
    rw [knownSize_cons _ _ _ _ (by omega), Nat.one_mul, knownSize_cons _ _ _ _ (by omega),
      knownSize_cons _ _ _ _ (by exact_mod_cast hbytes)]
    rfl
  unfold dimensions
  constructor
  · rintro ⟨ds, hds⟩
    obtain ⟨_, hsize, hds⟩ := bind_eq_ok.1 hds
    cases (hknown _).symm.trans hsize
    by_contra hne
    dsimp only at hds
    rw [if_neg Bool.false_ne_true, if_pos (fun heq => hne (by rw [← heq, Nat.mul_comm h]))] at hds
    cases hds
  · rintro rfl
    dsimp only
    rw [hknown, Nat.mul_comm w]
    exact ⟨_, if_neg (fun hne => hne rfl)⟩

/-! ## Bytes -/

/-- A buffer of this size with these bytes. -/
structure Holds (b : Buffer) (width height : Int) (bytes : List UInt8) : Prop where
  width_eq : (b.width : Int) = width
  height_eq : (b.height : Int) = height
  bytes_eq : b.bytes.toList = bytes

variable {b b' : Buffer} {width height : Int} {bytes : List UInt8} {flat flat' : Flat}

theorem Holds.unique (hb : b.Holds width height bytes) (hb' : b'.Holds width height bytes) : b = b' := by
  obtain ⟨w, h, given, hsize⟩ := b
  obtain ⟨w', h', given', hsize'⟩ := b'
  obtain rfl : w = w' := by exact_mod_cast hb.width_eq.trans hb'.width_eq.symm
  obtain rfl : h = h' := by exact_mod_cast hb.height_eq.trans hb'.height_eq.symm
  obtain rfl : given = given' := Array.toList_inj.1 (hb.bytes_eq.trans hb'.bytes_eq.symm)
  rfl

theorem Holds.length_eq (hb : b.Holds width height bytes) :
    (bytes.length : Int) = width * height * RasterSketch.channels := by
  rw [← hb.bytes_eq, Array.length_toList, b.size_eq, ← hb.width_eq, ← hb.height_eq]
  push_cast
  rfl

theorem Holds.sides_le (hb : b.Holds width height bytes) (hroom : HasRoom width height) :
    b.width ≤ 2 ^ 63 ∧ b.height ≤ 2 ^ 63 := by
  rw [← hb.width_eq, ← hb.height_eq] at hroom
  obtain ⟨hwide, hhigh, -⟩ := hroom.fits
  omega

theorem ofBytes_eq_ok : ofBytes w h bytes = .ok b ↔ b.Holds w h bytes := by
  unfold ofBytes
  constructor
  · intro hok
    split at hok
    · cases hok
      exact ⟨rfl, rfl, rfl⟩
    · cases hok
  · intro hb
    have hlength : bytes.length = w * h * RasterSketch.channels := by exact_mod_cast hb.length_eq
    rw [dif_pos hlength]
    exact congrArg Except.ok (Holds.unique ⟨rfl, rfl, rfl⟩ hb)

/-- The buffer of bytes, if an array has room for them. -/
def packed (width height : Int) (bytes : List UInt8) : Except Error Buffer := do
  (checkExtent [height, width, RasterSketch.channels] 1).mapError .array
  let _ ← (dimensions [height, width, RasterSketch.channels] bytes.length).mapError .array
  (ofBytes width.toNat height.toNat bytes).mapError .buffer

theorem packed_eq_ok : packed w h bytes = .ok b ↔ HasRoom w h ∧ b.Holds w h bytes := by
  unfold packed
  rw [bind_eq_ok]
  constructor
  · rintro ⟨_, hextent, hok⟩
    obtain ⟨_, -, hok⟩ := bind_eq_ok.1 hok
    exact ⟨checkExtent_eq_ok.1 (mapError_eq_ok.1 hextent), ofBytes_eq_ok.1 (mapError_eq_ok.1 hok)⟩
  · rintro ⟨hroom, hb⟩
    obtain ⟨ds, hds⟩ := (dimensions_eq_ok hroom).2 (by exact_mod_cast hb.length_eq : bytes.length = _)
    exact ⟨(), mapError_eq_ok.2 (checkExtent_eq_ok.2 hroom), bind_eq_ok.2 ⟨ds, mapError_eq_ok.2 hds,
      mapError_eq_ok.2 (ofBytes_eq_ok.2 hb)⟩⟩

/-- Only of a size that is none, or for which there are not just the values, nothing more is asked. -/
theorem ofFlat_of_length (hw : 0 ≤ width) (hh : 0 ≤ height)
    (hcount : (flat.length : Int) = width * height * RasterSketch.channels) :
    ofFlat width height flat = flat.toBytes >>= packed width height := by
  unfold ofFlat checkDimensions
  rw [if_neg (by omega)]
  dsimp only [Except.mapError, bind, Except.bind]
  rw [if_neg (fun hne => hne hcount)]
  rfl

theorem length_of_ofFlat (hok : ofFlat width height flat = .ok b) :
    0 ≤ width ∧ 0 ≤ height ∧ (flat.length : Int) = width * height * RasterSketch.channels := by
  unfold ofFlat checkDimensions at hok
  obtain ⟨_, hsides, hok⟩ := bind_eq_ok.1 hok
  by_cases hnegative : width < 0 ∨ height < 0
  · rw [if_pos hnegative] at hsides
    cases hsides
  by_cases hcount : (flat.length : Int) = width * height * RasterSketch.channels
  · exact ⟨by omega, by omega, hcount⟩
  -- a wrong count is refused with a message, unless the count has too many digits for one
  · dsimp only at hok
    rw [if_pos hcount] at hok
    split at hok <;> cases hok

/-- **Values in one row are a buffer if they are as many as its pixels have**, and become its bytes. -/
theorem ofFlat_eq_ok : ofFlat width height flat = .ok b ↔ HasRoom width height ∧
    (flat.length : Int) = width * height * RasterSketch.channels ∧
      ∃ bytes, flat.toBytes = .ok bytes ∧ b.Holds width height bytes := by
  constructor
  · intro hok
    obtain ⟨hw, hh, hcount⟩ := length_of_ofFlat hok
    rw [ofFlat_of_length hw hh hcount] at hok
    obtain ⟨bytes, hbytes, hok⟩ := bind_eq_ok.1 hok
    obtain ⟨w, rfl⟩ := Int.eq_ofNat_of_zero_le hw
    obtain ⟨h, rfl⟩ := Int.eq_ofNat_of_zero_le hh
    obtain ⟨hroom, hb⟩ := packed_eq_ok.1 hok
    exact ⟨hroom, hcount, bytes, hbytes, hb⟩
  · rintro ⟨hroom, hcount, bytes, hbytes, hb⟩
    obtain rfl := hb.width_eq
    obtain rfl := hb.height_eq
    rw [ofFlat_of_length (Int.natCast_nonneg _) (Int.natCast_nonneg _) hcount]
    exact bind_eq_ok.2 ⟨bytes, hbytes, packed_eq_ok.2 ⟨hroom, hb⟩⟩

/-- Nothing but their number and their bytes is seen of the values. -/
theorem ofFlat_congr (hlength : flat.length = flat'.length) (hbytes : flat.toBytes = flat'.toBytes) :
    ofFlat width height flat = ofFlat width height flat' := by
  unfold ofFlat
  rw [hlength, hbytes]

/-! ## Pixels -/

/-- The bytes of a pixel are where its row and its column begin. -/
theorem channels_pixelAt {x y : Nat} (hx : x < b.width) (hy : y < b.height) : (b.pixelAt x y).channels =
    (b.bytes.toList.drop (RasterSketch.channels * (y * b.width + x))).take RasterSketch.channels := by
  have hplace := index_lt hx hy
  have hroom : RasterSketch.channels * (y * b.width + x) + 4 ≤ b.bytes.toList.length := by
    rw [Array.length_toList, b.size_eq]
    unfold RasterSketch.channels
    omega
  have hfour := four_of_drop hroom
  rw [Array.toArray_toList] at hfour
  exact hfour

/-- The columns and rows of all pixels, row after row. -/
def places (b : Buffer) : List (Nat × Nat) :=
  (List.range b.height).flatMap fun y => (List.range b.width).map fun x => (x, y)

/-- All pixels, looked at row after row. -/
def readAll (b : Buffer) : Except Error (List Pixel) := b.places.mapM fun (x, y) => b.pixel x y

theorem mem_places {x y : Nat} : (x, y) ∈ b.places ↔ x < b.width ∧ y < b.height := by
  unfold places
  simp [and_comm]

theorem map_places (b : Buffer) : b.places.map (fun p => p.2 * b.width + p.1) = List.range (b.height * b.width) := by
  unfold places
  induction b.height with
  | zero => simp
  | succ n ih =>
    rw [List.range_succ, List.flatMap_append, List.map_append, ih, Nat.succ_mul, List.range_add]
    simp

/-- A list of whole groups is its groups, one behind the other. -/
theorem flatMap_groups {α : Type} (size : Nat) (as : List α) : ∀ count : Nat,
    (List.range count).flatMap (fun k => (as.drop (size * k)).take size) = as.take (size * count)
  | 0 => by simp
  | count + 1 => by
    rw [List.range_succ, List.flatMap_append, flatMap_groups size as count, Nat.mul_succ, List.take_add]
    simp

theorem readAll_eq_ok (hw : b.width ≤ 2 ^ 63) (hh : b.height ≤ 2 ^ 63) :
    ∃ pixels, b.readAll = .ok pixels ∧ pixels.flatMap Pixel.channels = b.bytes.toList := by
  refine ⟨b.places.map fun p => b.pixelAt p.1 p.2, ?_, ?_⟩
  · unfold readAll
    rw [mapM_congr (g := fun p => pure (b.pixelAt p.1 p.2)), List.mapM_pure]
    · rfl
    · rintro ⟨x, y⟩ hp
      obtain ⟨hx, hy⟩ := mem_places.1 hp
      exact pixel_natCast hx hy hw hh
  · calc (b.places.map fun p => b.pixelAt p.1 p.2).flatMap Pixel.channels
        = b.places.flatMap fun p =>
            (b.bytes.toList.drop (RasterSketch.channels * (p.2 * b.width + p.1))).take RasterSketch.channels := by
          rw [List.flatMap_map]
          refine List.flatMap_congr fun p hp => ?_
          obtain ⟨hx, hy⟩ := mem_places.1 hp
          exact channels_pixelAt hx hy
      _ = (b.places.map fun p => p.2 * b.width + p.1).flatMap fun k =>
            (b.bytes.toList.drop (RasterSketch.channels * k)).take RasterSketch.channels := by
          rw [List.flatMap_map]
      _ = b.bytes.toList.take (RasterSketch.channels * (b.height * b.width)) := by
          rw [map_places, flatMap_groups]
      _ = b.bytes.toList := by
          refine List.take_of_length_le ?_
          rw [Array.length_toList, b.size_eq, Nat.mul_comm b.height, Nat.mul_comm RasterSketch.channels]

end Buffer

end RasterSketch
