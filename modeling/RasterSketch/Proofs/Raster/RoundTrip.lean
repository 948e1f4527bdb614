import RasterSketch.Proofs.Raster.Values
/-!
# Pixels given and read back

Of integers that are bytes every container makes the same buffer, whose pixels read back as these integers and make the
same buffer again (`Buffer.ofValues_round_trip`).  Pixels that are given one by one are put in one row first, so they
read back as they were given just when each of them has four values (`Buffer.ofPixels_groups`).
-/
namespace RasterSketch

/-! ## Containers -/

/-- The values that integers are handed over as. -/
def Value.ofInts (ks : List Int) : List Value := ofNumbers (ks.map .int)

/-- Integers become the bytes that they are. -/
theorem Flat.toBytes_ofInts {ks : List Int} {bytes : List UInt8} :
    (items (Value.ofInts ks)).toBytes = .ok bytes ↔ integersOf bytes = ks := by
  rw [Value.ofInts, toBytes_eq_ok, List.forall₂_map_left_iff, integersOf_eq_iff_forall₂]
  exact ⟨fun h => h.imp fun _ _ => Except.ok.inj, fun h => h.imp fun _ _ => congrArg _⟩

namespace Container

variable {ks : List Int} {flat : Flat} {bytes : List UInt8} {outOfRange : ArgumentError}

theorem bytesOf_eq_mapM (outOfRange : ArgumentError) :
    ∀ vs : List Value, bytesOf outOfRange vs = vs.mapM (byteOf outOfRange)
  | [] => rfl
  | v :: vs => by
    rw [bytesOf, bytesOf_eq_mapM outOfRange vs, List.mapM_cons]

theorem byteOf_int_eq_ok {outOfRange : ArgumentError} {k : Int} {byte : UInt8} :
    byteOf outOfRange (.expr (.number (.int k))) = .ok byte ↔ k = byte.toNat := by
  rw [eq_toNat_iff, byteOf]
  split
  · rename_i hrange
    rw [Except.ok.injEq]
    exact ⟨fun h => ⟨hrange, h⟩, fun h => h.2⟩
  · rename_i hrange
    exact ⟨fun h => (by cases h), fun h => absurd h.1 hrange⟩

theorem bytesOf_ofInts : bytesOf outOfRange (Value.ofInts ks) = .ok bytes ↔ integersOf bytes = ks := by
  rw [bytesOf_eq_mapM, mapM_eq_ok_iff_forall₂, Value.ofInts, Value.ofNumbers, List.map_map, List.forall₂_map_left_iff,
    integersOf_eq_iff_forall₂]
  exact ⟨fun h => h.imp fun _ _ => byteOf_int_eq_ok.1, fun h => h.imp fun _ _ => byteOf_int_eq_ok.2⟩

theorem length_of_hold {values : List Value} (container : Container) (hok : container.hold values = .ok flat) :
    flat.length = values.length := by
  have hbytes : ∀ {outOfRange : ArgumentError}, Flat.bytes <$> bytesOf outOfRange values = .ok flat →
      flat.length = values.length := fun h => by
    obtain ⟨bytes, hmap, rfl⟩ := map_eq_ok.1 h
    rw [bytesOf_eq_mapM, mapM_eq_ok_iff_forall₂] at hmap
    exact hmap.length_eq.symm
  cases container with
  | list | fixedList => cases hok; rfl
  | bytes | byteArray | view => exact hbytes hok

/-- **Every container has the same bytes of integers**, and none of anything else. -/
theorem toBytes_of_hold (container : Container) :
    container.hold (Value.ofInts ks) >>= Flat.toBytes = .ok bytes ↔ integersOf bytes = ks := by
  have hkept : ∀ {x : Except Error (List UInt8)}, (Flat.bytes <$> x) >>= Flat.toBytes = x := by
    intro x
    cases x <;> rfl
  cases container with
  | list | fixedList => exact Flat.toBytes_ofInts
  | bytes | byteArray | view => rw [hold, hkept, bytesOf_ofInts]

end Container

/-! ## Flat values -/

theorem length_integersOf (bytes : List UInt8) : (integersOf bytes).length = bytes.length := List.length_map _

theorem Value.length_ofInts (ks : List Int) : (ofInts ks).length = ks.length := by
  rw [ofInts, ofNumbers, List.length_map, List.length_map]

theorem exists_integersOf {ks : List Int} : (∃ bytes, integersOf bytes = ks) ↔ ∀ k ∈ ks, 0 ≤ k ∧ k ≤ 255 :=
  ⟨fun ⟨_, h⟩ => (integersOf_eq_iff.1 h).1, fun h => ⟨_, integersOf_eq_iff.2 ⟨h, rfl⟩⟩⟩

/-- The values of a pixel as integers. -/
def Pixel.values (p : Pixel) : List Int := integersOf p.channels

namespace Buffer

variable {width height : Int} {ks : List Int} {b : Buffer}

theorem ofValues_eq_ok {container : Container} : ofValues width height container (Value.ofInts ks) = .ok b ↔
    HasRoom width height ∧ ∃ bytes, integersOf bytes = ks ∧ b.Holds width height bytes := by
  unfold ofValues
  rw [bind_eq_ok]
  constructor
  · rintro ⟨flat, hflat, hok⟩
    obtain ⟨hroom, -, bytes, hbytes, hb⟩ := ofFlat_eq_ok.1 hok
    exact ⟨hroom, bytes, container.toBytes_of_hold.1 (bind_eq_ok.2 ⟨flat, hflat, hbytes⟩), hb⟩
  · rintro ⟨hroom, bytes, hks, hb⟩
    obtain ⟨flat, hflat, hbytes⟩ := bind_eq_ok.1 (container.toBytes_of_hold.2 hks)
    have hlength : flat.length = bytes.length := by
      rw [container.length_of_hold hflat, Value.length_ofInts, ← hks, length_integersOf]
    exact ⟨flat, hflat, ofFlat_eq_ok.2 ⟨hroom, by rw [hlength, hb.length_eq], bytes, hbytes, hb⟩⟩

/-- What the container was is not seen of integers that are bytes, even where they make no buffer. -/
theorem ofValues_integersOf (container : Container) (bytes : List UInt8) :
    ofValues width height container (Value.ofInts (integersOf bytes)) = ofFlat width height (.bytes bytes) := by
  obtain ⟨flat, hflat, hbytes⟩ := bind_eq_ok.1 (container.toBytes_of_hold.2 (rfl : integersOf bytes = _))
  have hlength : flat.length = bytes.length := by
    rw [container.length_of_hold hflat, Value.length_ofInts, length_integersOf]
  unfold ofValues
  rw [hflat]
  exact ofFlat_congr hlength hbytes

/-- There is a buffer just of as many bytes as its pixels have. -/
theorem exists_ofValues {container : Container} (hroom : 0 ≤ width → 0 ≤ height → HasRoom width height) :
    (∃ b, ofValues width height container (Value.ofInts ks) = .ok b) ↔ 0 ≤ width ∧ 0 ≤ height ∧
      (ks.length : Int) = width * height * RasterSketch.channels ∧ ∀ k ∈ ks, 0 ≤ k ∧ k ≤ 255 := by
  simp only [ofValues_eq_ok]
  constructor
  · rintro ⟨b, -, bytes, rfl, hb⟩
    refine ⟨?_, ?_, by rw [length_integersOf, hb.length_eq], exists_integersOf.1 ⟨bytes, rfl⟩⟩
    · rw [← hb.width_eq]
      exact Int.natCast_nonneg _
    · rw [← hb.height_eq]
      exact Int.natCast_nonneg _
  · rintro ⟨hw, hh, hcount, hrange⟩
    obtain ⟨bytes, rfl⟩ := exists_integersOf.2 hrange
    have hroom := hroom hw hh
    obtain ⟨w, rfl⟩ := Int.eq_ofNat_of_zero_le hw
    obtain ⟨h, rfl⟩ := Int.eq_ofNat_of_zero_le hh
    rw [length_integersOf] at hcount
    exact ⟨⟨w, h, bytes.toArray, by exact_mod_cast hcount⟩, hroom, bytes, rfl, rfl, rfl, rfl⟩

/-! ## Pixels -/

/-- Pixels of integers are these integers in one row. -/
theorem ofPixels_ofInts (pixels : List (List Int)) :
    ofPixels width height (pixels.map Value.ofInts) = ofValues width height .list (Value.ofInts pixels.flatten) := by
  have hflatten : (pixels.map Value.ofInts).flatten = Value.ofInts pixels.flatten := by
    unfold Value.ofInts Value.ofNumbers
    simp only [List.map_flatten, List.map_map, Function.comp_def]
  unfold ofPixels
  rw [hflatten]
  rfl

theorem flatMap_values (pixels : List Pixel) :
    pixels.flatMap Pixel.values = integersOf (pixels.flatMap Pixel.channels) := by
  unfold integersOf
  rw [List.map_flatMap]
  rfl

/-- **A buffer is made of just as many integers as its pixels have, all of them bytes, in any container; and the pixels
read back as these integers and make the buffer again.** -/
theorem ofValues_round_trip (width height : Int) (ks : List Int) (container : Container)
    (hroom : 0 ≤ width → 0 ≤ height → HasRoom width height) :
    ((∃ b, ofValues width height container (Value.ofInts ks) = .ok b) ↔ 0 ≤ width ∧ 0 ≤ height ∧
      (ks.length : Int) = width * height * RasterSketch.channels ∧ ∀ k ∈ ks, 0 ≤ k ∧ k ≤ 255) ∧
    ((∀ k ∈ ks, 0 ≤ k ∧ k ≤ 255) → ∀ other, ofValues width height other (Value.ofInts ks) =
      ofValues width height container (Value.ofInts ks)) ∧
    ∀ b, ofValues width height container (Value.ofInts ks) = .ok b →
      (b.width : Int) = width ∧ (b.height : Int) = height ∧
      ∃ pixels, b.readAll = .ok pixels ∧ pixels.flatMap Pixel.values = ks ∧
        ofPixels width height (pixels.map fun p => Value.ofInts p.values) = .ok b := by
  refine ⟨exists_ofValues hroom, fun hrange other => ?_, fun b hok => ?_⟩
  · obtain ⟨bytes, rfl⟩ := exists_integersOf.2 hrange
    rw [ofValues_integersOf, ofValues_integersOf]
  · obtain ⟨hroom, bytes, hks, hb⟩ := ofValues_eq_ok.1 hok
    obtain ⟨hw, hh⟩ := hb.sides_le hroom
    obtain ⟨pixels, hpixels, hchannels⟩ := b.readAll_eq_ok hw hh
    have hvalues : pixels.flatMap Pixel.values = ks := by
      rw [flatMap_values, hchannels, hb.bytes_eq, hks]
    have hgiven : (pixels.map fun p => Value.ofInts p.values) = (pixels.map Pixel.values).map Value.ofInts := by
      rw [List.map_map]
      rfl
    refine ⟨hb.width_eq, hb.height_eq, pixels, hpixels, hvalues, ?_⟩
    rw [hgiven, ofPixels_ofInts, ← List.flatMap_def, hvalues]
    exact ofValues_eq_ok.2 ⟨hroom, bytes, hks, hb⟩

/-- Two pixels in a fixed list. -/
theorem two_pixels_round_trip : ∃ b, ofValues 2 1 .fixedList (Value.ofInts [1, 2, 3, 4, 5, 6, 7, 255]) = .ok b ∧
    ∃ pixels, b.readAll = .ok pixels ∧ pixels.flatMap Pixel.values = [1, 2, 3, 4, 5, 6, 7, 255] := by
  obtain ⟨hiff, -, hback⟩ :=
    ofValues_round_trip 2 1 [1, 2, 3, 4, 5, 6, 7, 255] .fixedList (fun _ _ => by decide)
  obtain ⟨b, hb⟩ := hiff.2 (by decide)
  obtain ⟨-, -, pixels, hpixels, hvalues, -⟩ := hback b hb
  exact ⟨b, hb, pixels, hpixels, hvalues⟩

/-! ## Groups -/

/-- Lists of one length, one behind the other, are found at its multiples. -/
theorem take_drop_flatten {size : Nat} : ∀ {groups : List (List Int)} {i : Nat} (_ : ∀ g ∈ groups, g.length = size)
    (hi : i < groups.length), (groups.flatten.drop (size * i)).take size = groups[i]
  | [], _, _, hi => absurd hi (Nat.not_lt_zero _)
  | g :: groups, 0, hsize, _ => by
    rw [Nat.mul_zero, List.drop_zero, List.flatten_cons, List.take_left' (hsize g List.mem_cons_self)]
    rfl
  | g :: groups, i + 1, hsize, hi => by
    have hlength : g.length = size := hsize g List.mem_cons_self
    rw [List.flatten_cons, Nat.mul_succ, Nat.add_comm, ← List.drop_drop, List.drop_left' hlength,
      take_drop_flatten (fun g hg => hsize g (List.mem_cons_of_mem _ hg)) (Nat.lt_of_succ_lt_succ hi)]
    rfl

theorem length_flatten_of_length {size : Nat} : ∀ {groups : List (List Int)} (_ : ∀ g ∈ groups, g.length = size),
    groups.flatten.length = groups.length * size
  | [], _ => (Nat.zero_mul size).symm
  | g :: groups, hsize => by
    rw [List.flatten_cons, List.length_append, hsize g List.mem_cons_self, List.length_cons, Nat.succ_mul,
      length_flatten_of_length (fun g hg => hsize g (List.mem_cons_of_mem _ hg)), Nat.add_comm]

/-- Each pixel reads back as the one that was given at its place, and there are no others. -/
structure Keeps (b : Buffer) (pixels : List (List Int)) : Prop where
  length_eq : pixels.length = b.width * b.height
  pixel_eq : ∀ x < b.width, ∀ y < b.height, ∃ p, b.pixel x y = .ok p ∧ pixels[y * b.width + x]? = some p.values

/-- **Pixels make a buffer of their values in one row.**  It keeps them as they were given just when each of them has a
value for each channel. -/
theorem ofPixels_groups {pixels : List (List Int)} (hok : ofPixels width height (pixels.map Value.ofInts) = .ok b) :
    (b.width : Int) = width ∧ (b.height : Int) = height ∧
    pixels.flatten.length = b.width * b.height * RasterSketch.channels ∧
    (∀ x < b.width, ∀ y < b.height, ∃ p, b.pixel x y = .ok p ∧ p.values =
      (pixels.flatten.drop (RasterSketch.channels * (y * b.width + x))).take RasterSketch.channels) ∧
    (b.Keeps pixels ↔ ∀ p ∈ pixels, p.length = RasterSketch.channels) := by
  rw [ofPixels_ofInts] at hok
  obtain ⟨hroom, bytes, hflatten, hb⟩ := ofValues_eq_ok.1 hok
  obtain ⟨hw, hh⟩ := hb.sides_le hroom
  have hcount : pixels.flatten.length = b.width * b.height * RasterSketch.channels := by
    rw [← hflatten, length_integersOf, ← hb.bytes_eq, Array.length_toList, b.size_eq]
  have hread : ∀ x < b.width, ∀ y < b.height, ∃ p, b.pixel x y = .ok p ∧ p.values =
      (pixels.flatten.drop (RasterSketch.channels * (y * b.width + x))).take RasterSketch.channels := by
    intro x hx y hy
    refine ⟨_, pixel_natCast hx hy hw hh, ?_⟩
    rw [Pixel.values, channels_pixelAt hx hy, hb.bytes_eq, ← hflatten]
    unfold integersOf
    rw [List.map_take, List.map_drop]
  refine ⟨hb.width_eq, hb.height_eq, hcount, hread, fun hkeeps p hp => ?_, fun hsize => ?_⟩
  · -- the place of a pixel that was given is that of a column and a row
    obtain ⟨i, hi, rfl⟩ := List.mem_iff_getElem.1 hp
    have hplace : i < b.width * b.height := hkeeps.length_eq ▸ hi
    have hwide : 0 < b.width := Nat.pos_of_mul_pos_right (Nat.zero_lt_of_lt hplace)
    obtain ⟨p, -, hgiven⟩ := hkeeps.pixel_eq (i % b.width) (Nat.mod_lt i hwide) (i / b.width)
      (Nat.div_lt_of_lt_mul hplace)
    rw [Nat.div_add_mod', List.getElem?_eq_getElem hi] at hgiven
    rw [Option.some.inj hgiven]
    rfl
  · have hlength : pixels.length = b.width * b.height := by
      rw [length_flatten_of_length hsize] at hcount
      exact Nat.eq_of_mul_eq_mul_right (by decide) hcount
    refine ⟨hlength, fun x hx y hy => ?_⟩
    obtain ⟨p, hp, hvalues⟩ := hread x hx y hy
    have hplace : y * b.width + x < pixels.length := hlength ▸ index_lt hx hy
    refine ⟨p, hp, ?_⟩
    rw [hvalues, take_drop_flatten hsize hplace, List.getElem?_eq_getElem hplace]

theorem two_pixels_kept : ∃ b, ofPixels 2 1 ([[1, 2, 3, 4], [5, 6, 7, 8]].map Value.ofInts) = .ok b ∧
    b.Keeps [[1, 2, 3, 4], [5, 6, 7, 8]] := by
  have hok : ofPixels 2 1 ([[1, 2, 3, 4], [5, 6, 7, 8]].map Value.ofInts) =
      .ok ⟨2, 1, #[1, 2, 3, 4, 5, 6, 7, 8], rfl⟩ := rfl
  obtain ⟨-, -, -, -, hkeeps⟩ := ofPixels_groups hok
  exact ⟨_, hok, hkeeps.2 (by decide)⟩

/-- Three values and five more are two pixels, of which neither has been given. -/
theorem three_and_five_not_kept : ∃ b, ofPixels 2 1 ([[1, 2, 3], [4, 5, 6, 7, 8]].map Value.ofInts) = .ok b ∧
    ¬ b.Keeps [[1, 2, 3], [4, 5, 6, 7, 8]] := by
  refine ⟨⟨2, 1, #[1, 2, 3, 4, 5, 6, 7, 8], rfl⟩, rfl, fun hkeeps => ?_⟩
  obtain ⟨p, -, hp⟩ := hkeeps.pixel_eq 0 (by decide) 0 (by decide)
  have hlength : [1, 2, 3].length = p.values.length := congrArg List.length (Option.some.inj hp)
  exact absurd hlength (by decide : 3 ≠ 4)

end Buffer

end RasterSketch
