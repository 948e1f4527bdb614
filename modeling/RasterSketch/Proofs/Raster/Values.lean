import RasterSketch.Proofs.Number.Whole
import RasterSketch.Proofs.Raster.Flat
/-!
# Numbers as bytes

Numbers are cut to their whole parts, which have to fit a word, before it is looked whether they are bytes
(`Flat.toBytes_eq_ok`).  So a list of numbers is not always stored as it is or refused for what it is, and it can be
told of which lists this holds (`Buffer.ofValues_faithful_iff`).
-/
namespace RasterSketch

/-! ## Numbers -/

/-- The values that numbers are handed over as. -/
def Value.ofNumbers (ns : List Number) : List Value := ns.map fun n => .expr (.number n)

namespace Number

/-- A number that is a byte. -/
def IsByte (n : Number) : Prop := ∃ byte : UInt8, n.Is byte.toNat

/-- A number whose whole part is a byte. -/
def NearByte (n : Number) : Prop := ∃ q, n.Is q ∧ -1 < q ∧ q < 256

/-- A number whose whole part is a word. -/
def NearWord (n : Number) : Prop := ∃ q, n.Is q ∧ -(2 ^ 63 + 1) < q ∧ q < 2 ^ 63

variable {n : Number} {byte : UInt8}

theorem NearByte.nearWord (h : n.NearByte) : n.NearWord := by
  obtain ⟨q, hq, hlow, hhigh⟩ := h
  exact ⟨q, hq, by linarith, by linarith⟩

theorem IsByte.nearByte (h : n.IsByte) : n.NearByte := by
  obtain ⟨byte, hbyte⟩ := h
  have hlow : (0 : ℚ) ≤ byte.toNat := Nat.cast_nonneg _
  have hhigh : (byte.toNat : ℚ) < 256 := by exact_mod_cast byte.toNat_lt
  exact ⟨_, hbyte, by linarith, hhigh⟩

theorem truncate_of_is (h : n.Is byte.toNat) : n.truncate = .ok (byte.toNat : Int) :=
  truncate_eq_ok.2 ⟨_, h, by exact_mod_cast wholePart_intCast byte.toNat⟩

theorem nearByte_iff : n.NearByte ↔ ∃ k, n.truncate = .ok k ∧ 0 ≤ k ∧ k ≤ 255 := by
  have hbounds : ∀ q : ℚ, 0 ≤ wholePart q ∧ wholePart q ≤ 255 ↔ -1 < q ∧ q < 256 := fun q => by
    have hlow := le_wholePart_iff (q := q) (n := 0) le_rfl
    have hhigh := wholePart_le_iff (q := q) (n := 255) (by decide)
    norm_num at hlow hhigh
    rw [hlow, hhigh]
  constructor
  · rintro ⟨q, hq, hrange⟩
    exact ⟨_, truncate_eq_ok.2 ⟨q, hq, rfl⟩, (hbounds q).2 hrange⟩
  · rintro ⟨k, hk, hrange⟩
    obtain ⟨q, hq, rfl⟩ := truncate_eq_ok.1 hk
    exact ⟨q, hq, (hbounds q).1 hrange⟩

theorem nearWord_iff : n.NearWord ↔ ∃ k, n.truncate = .ok k ∧ fitsWord k = true := by
  have hbounds : ∀ q : ℚ, fitsWord (wholePart q) = true ↔ -(2 ^ 63 + 1) < q ∧ q < 2 ^ 63 := fun q => by
    have hlow : -2 ^ 63 ≤ wholePart q ↔ -(2 ^ 63 + 1 : ℚ) < q := by
      rw [le_wholePart_iff (by decide)]
      norm_num
    have hhigh : wholePart q < 2 ^ 63 ↔ q < 2 ^ 63 := by
      rw [← Int.le_sub_one_iff, wholePart_le_iff (by decide)]
      norm_num
    rw [fitsWord_iff, hlow, hhigh]
  constructor
  · rintro ⟨q, hq, hrange⟩
    exact ⟨_, truncate_eq_ok.2 ⟨q, hq, rfl⟩, (hbounds q).2 hrange⟩
  · rintro ⟨k, hk, hrange⟩
    obtain ⟨q, hq, rfl⟩ := truncate_eq_ok.1 hk
    exact ⟨q, hq, (hbounds q).1 hrange⟩

end Number

/-! ## Words -/

namespace ElementType

variable {n : Number} {k : Int} {e : Error}

theorem integers_eq_mapM (t : ElementType) : ∀ vs : List Value, t.integers vs = vs.mapM t.integer
  | [] => rfl
  | v :: vs => by
    rw [integers, integers_eq_mapM t vs, List.mapM_cons]

/-- A number is cut to its whole part, which has to be a word. -/
theorem integer_word (n : Number) : word.integer (.expr (.number n)) =
    n.truncate.mapError .arithmetic >>= fun k => if fitsWord k then .ok k else .error (.word .noWord) := by
  unfold integer Value.whole
  refine congrArg _ (funext fun k => ?_)
  have hcheck : word.checkWord k = if fitsWord k then .ok () else .error .noWord := rfl
  rw [hcheck]
  cases hfits : fitsWord k with
  | false => rfl
  | true =>
    have hrange : (-twoTo (8 * 8 - 1) : Int) ≤ k ∧ k ≤ twoTo (8 * 8 - 1) - 1 := by
      rw [fitsWord_iff] at hfits
      norm_num [twoTo] at hfits ⊢
      omega
    exact if_pos hrange

theorem integer_word_eq_ok :
    word.integer (.expr (.number n)) = .ok k ↔ n.truncate = .ok k ∧ fitsWord k = true := by
  rw [integer_word, bind_eq_ok]
  constructor
  · rintro ⟨k', hk', h⟩
    split at h
    · rename_i hfits
      cases h
      exact ⟨mapError_eq_ok.1 hk', hfits⟩
    · cases h
  · rintro ⟨hk, hfits⟩
    exact ⟨k, mapError_eq_ok.2 hk, if_pos hfits⟩

/-- A number that becomes no word is refused, but not as one that describes no image. -/
theorem isOwn_integer_word (h : word.integer (.expr (.number n)) = .error e) : e.isOwn = false := by
  rw [integer_word] at h
  cases hk : n.truncate with
  | error cause =>
    rw [hk] at h
    cases h
    rfl
  | ok k =>
    rw [hk] at h
    change (if fitsWord k = true then _ else _) = _ at h
    split at h
    · cases h
    · cases h
      rfl

end ElementType

/-! ## Bytes -/

/-- The integers that bytes are. -/
def integersOf (bytes : List UInt8) : List Int := bytes.map fun byte => byte.toNat

theorem eq_toNat_iff {k : Int} {byte : UInt8} :
    k = byte.toNat ↔ (0 ≤ k ∧ k ≤ 255) ∧ UInt8.ofNat k.toNat = byte := by
  constructor
  · rintro rfl
    have := byte.toNat_lt
    exact ⟨⟨by omega, by omega⟩, by rw [Int.toNat_natCast, UInt8.ofNat_toNat]⟩
  · rintro ⟨hk, rfl⟩
    rw [UInt8.toNat_ofNat', Nat.mod_eq_of_lt (by omega)]
    omega

theorem integersOf_eq_iff_forall₂ {ks : List Int} {bytes : List UInt8} :
    integersOf bytes = ks ↔ List.Forall₂ (fun (k : Int) (byte : UInt8) => k = byte.toNat) ks bytes := by
  rw [integersOf, eq_comm, ← List.forall₂_eq_eq_eq, List.forall₂_map_right_iff]

theorem integersOf_eq_iff {ks : List Int} {bytes : List UInt8} :
    integersOf bytes = ks ↔ (∀ k ∈ ks, 0 ≤ k ∧ k ≤ 255) ∧ (ks.map fun k => UInt8.ofNat k.toNat) = bytes := by
  unfold integersOf
  constructor
  · rintro rfl
    refine ⟨fun k hk => ?_, ?_⟩
    · obtain ⟨byte, -, rfl⟩ := List.mem_map.1 hk
      exact (eq_toNat_iff.1 rfl).1
    · rw [List.map_map]
      exact List.map_id'' (fun byte => (eq_toNat_iff.1 rfl).2) bytes
  · rintro ⟨hrange, rfl⟩
    rw [List.map_map]
    exact (List.map_congr_left fun k hk => (eq_toNat_iff.2 ⟨hrange k hk, rfl⟩).symm).trans (List.map_id ks)

namespace Flat

variable {ns : List Number} {bytes : List UInt8}

/-- The bytes of integers, if they are in range. -/
def inRange (ks : List Int) : Except Error (List UInt8) :=
  if ks.all fun k => 0 ≤ k ∧ k ≤ 255 then .ok (ks.map fun k => UInt8.ofNat k.toNat) else .error (.buffer .valueRange)

theorem inRange_eq_ok {ks : List Int} : inRange ks = .ok bytes ↔ integersOf bytes = ks := by
  have hall : (ks.all fun k => 0 ≤ k ∧ k ≤ 255) = true ↔ ∀ k ∈ ks, 0 ≤ k ∧ k ≤ 255 := by
    simp only [List.all_eq_true, decide_eq_true_eq]
  rw [integersOf_eq_iff, ← hall]
  unfold inRange
  split
  · rename_i h
    rw [Except.ok.injEq]
    exact ⟨fun hbytes => ⟨h, hbytes⟩, fun hbytes => hbytes.2⟩
  · rename_i h
    exact ⟨fun hbytes => (by cases hbytes), fun hbytes => absurd hbytes.1 h⟩

theorem toBytes_ofNumbers (ns : List Number) :
    (items (Value.ofNumbers ns)).toBytes = (Value.ofNumbers ns).mapM ElementType.word.integer >>= inRange := by
  have hlists : (Value.ofNumbers ns).any Value.isList = false := by
    rw [List.any_eq_false]
    intro v hv
    obtain ⟨n, -, rfl⟩ := List.mem_map.1 hv
    exact Bool.false_ne_true
  have hleaves : Value.leaves (Value.ofNumbers ns) = .ok ([(Value.ofNumbers ns).length], Value.ofNumbers ns) := by
    unfold Value.leaves
    rw [show Value.dimensionLimit = 63 + 1 from rfl, Value.leavesTo, hlists]
    rfl
  unfold toBytes
  dsimp only
  rw [hleaves, ← ElementType.integers_eq_mapM]
  rfl

/-- **Numbers become the bytes that their whole parts are.** -/
theorem toBytes_eq_ok : (items (Value.ofNumbers ns)).toBytes = .ok bytes ↔
    List.Forall₂ (fun n byte => n.truncate = .ok ((byte : UInt8).toNat : Int)) ns bytes := by
  have hword : ∀ byte : UInt8, fitsWord (byte.toNat : Int) = true := fun byte => by
    have := byte.toNat_lt
    exact fitsWord_iff.2 ⟨by omega, by omega⟩
  rw [toBytes_ofNumbers, bind_eq_ok]
  constructor
  · rintro ⟨ks, hks, hbytes⟩
    rw [mapM_eq_ok_iff_forall₂, ← inRange_eq_ok.1 hbytes, integersOf, Value.ofNumbers, List.forall₂_map_left_iff,
      List.forall₂_map_right_iff] at hks
    exact hks.imp fun n byte h => (ElementType.integer_word_eq_ok.1 h).1
  · intro h
    refine ⟨integersOf bytes, ?_, inRange_eq_ok.2 rfl⟩
    rw [mapM_eq_ok_iff_forall₂, integersOf, Value.ofNumbers, List.forall₂_map_left_iff, List.forall₂_map_right_iff]
    exact h.imp fun n byte h => ElementType.integer_word_eq_ok.2 ⟨h, hword byte⟩

/-- Each number of a row of words has become one of them. -/
theorem exists_word {ks : List Int} (hks : (Value.ofNumbers ns).mapM ElementType.word.integer = .ok ks) {n : Number}
    (hn : n ∈ ns) : ∃ k ∈ ks, n.truncate = .ok k ∧ fitsWord k = true := by
  rw [mapM_eq_ok_iff_forall₂, Value.ofNumbers, List.forall₂_map_left_iff] at hks
  obtain ⟨i, hi, rfl⟩ := List.mem_iff_getElem.1 hn
  have hik : i < ks.length := hks.length_eq ▸ hi
  exact ⟨_, List.getElem_mem hik, ElementType.integer_word_eq_ok.1 (hks.get hi hik)⟩

/-- A number that is no word is refused, whatever the others are, but not as one that describes no image. -/
theorem toBytes_error_of_word (hwords : ¬ ∀ n ∈ ns, n.NearWord) :
    ∃ e, (items (Value.ofNumbers ns)).toBytes = .error e ∧ e.isOwn = false := by
  rw [toBytes_ofNumbers]
  cases hks : (Value.ofNumbers ns).mapM ElementType.word.integer with
  | error e =>
    obtain ⟨v, hv, he⟩ := exists_of_mapM_error hks
    obtain ⟨n, -, rfl⟩ := List.mem_map.1 hv
    exact ⟨e, rfl, ElementType.isOwn_integer_word he⟩
  | ok ks =>
    refine absurd (fun n hn => ?_) hwords
    obtain ⟨k, -, hk⟩ := exists_word hks hn
    exact Number.nearWord_iff.2 ⟨k, hk⟩

/-- Words that are not all bytes are refused as values out of range. -/
theorem toBytes_error_of_byte (hwords : ∀ n ∈ ns, n.NearWord) (hbytes : ¬ ∀ n ∈ ns, n.NearByte) :
    (items (Value.ofNumbers ns)).toBytes = .error (.buffer .valueRange) := by
  rw [toBytes_ofNumbers]
  cases hks : (Value.ofNumbers ns).mapM ElementType.word.integer with
  | error e =>
    obtain ⟨v, hv, he⟩ := exists_of_mapM_error hks
    obtain ⟨n, hn, rfl⟩ := List.mem_map.1 hv
    obtain ⟨k, hk⟩ := Number.nearWord_iff.1 (hwords n hn)
    cases he.symm.trans (ElementType.integer_word_eq_ok.2 hk)
  | ok ks =>
    refine if_neg fun hall => hbytes fun n hn => ?_
    obtain ⟨k, hk, htruncate, -⟩ := exists_word hks hn
    exact Number.nearByte_iff.2 ⟨k, htruncate, of_decide_eq_true (List.all_eq_true.1 hall k hk)⟩

theorem exists_toBytes (hbytes : ∀ n ∈ ns, n.NearByte) : ∃ bytes, (items (Value.ofNumbers ns)).toBytes = .ok bytes := by
  have hbyte : ∀ n ∈ ns, ∃ byte : UInt8, n.truncate = .ok (byte.toNat : Int) := fun n hn => by
    obtain ⟨k, hk, hrange⟩ := Number.nearByte_iff.1 (hbytes n hn)
    exact ⟨UInt8.ofNat k.toNat, by rw [← eq_toNat_iff.2 ⟨hrange, rfl⟩, hk]⟩
  choose! byteOf hbyteOf using hbyte
  exact ⟨ns.map byteOf, toBytes_eq_ok.2 (List.forall₂_map_right_iff.2 (List.forall₂_same.2 hbyteOf))⟩

/-- The whole parts of numbers are the numbers themselves just where these are bytes. -/
theorem forall₂_is_iff (hbytes : (items (Value.ofNumbers ns)).toBytes = .ok bytes) :
    List.Forall₂ (fun (n : Number) (byte : UInt8) => n.Is byte.toNat) ns bytes ↔ ∀ n ∈ ns, n.IsByte := by
  rw [toBytes_eq_ok] at hbytes
  induction hbytes with
  | nil => exact ⟨fun _ n hn => (by cases hn), fun _ => .nil⟩
  | @cons n byte _ _ hn _ ih =>
    rw [List.forall₂_cons, ih, List.forall_mem_cons]
    refine and_congr_left' ⟨fun h => ⟨byte, h⟩, fun ⟨byte', h⟩ => ?_⟩
    have heq : (byte'.toNat : Int) = byte.toNat := Except.ok.inj ((Number.truncate_of_is h).symm.trans hn)
    rwa [show byte.toNat = byte'.toNat from by omega]

end Flat

/-! ## Buffers -/

namespace Buffer

/-- A buffer of values that are handed over in a container. -/
def ofValues (width height : Int) (container : Container) (values : List Value) : Except Error Buffer := do
  ofFlat width height (← container.hold values)

/-- What is asked of a construction: a buffer of just the numbers given, or the refusal of those that are no bytes. -/
def Faithful (width height : Int) (container : Container) (ns : List Number) : Prop :=
  (∃ b, ofValues width height container (Value.ofNumbers ns) = .ok b ∧
    List.Forall₂ (fun (n : Number) (byte : UInt8) => n.Is byte.toNat) ns b.bytes.toList) ∨
  (∃ n ∈ ns, ¬ n.IsByte) ∧ ∃ e, ofValues width height container (Value.ofNumbers ns) = .error (.buffer e)

variable {width height : Int} {container : Container} {ns : List Number} {bytes : List UInt8}

theorem ofValues_numbers (hlist : container = .list ∨ container = .fixedList) (hw : 0 ≤ width) (hh : 0 ≤ height)
    (hcount : (ns.length : Int) = width * height * RasterSketch.channels) :
    ofValues width height container (Value.ofNumbers ns) =
      (Flat.items (Value.ofNumbers ns)).toBytes >>= packed width height := by
  have hlength : ((Flat.items (Value.ofNumbers ns)).length : Int) = width * height * RasterSketch.channels := by
    rw [← hcount]
    exact congrArg Nat.cast (List.length_map _)
  rw [← ofFlat_of_length hw hh hlength]
  rcases hlist with rfl | rfl <;> rfl

/-- As many bytes as a size asks for are refused only where an array has no room for them. -/
theorem packed_ne_error (hw : 0 ≤ width) (hh : 0 ≤ height)
    (hcount : (bytes.length : Int) = width * height * RasterSketch.channels) (e : BufferError) :
    packed width height bytes ≠ .error (.buffer e) := by
  obtain ⟨w, rfl⟩ := Int.eq_ofNat_of_zero_le hw
  obtain ⟨h, rfl⟩ := Int.eq_ofNat_of_zero_le hh
  intro herror
  by_cases hroom : HasRoom w h
  · have hlength : bytes.length = w * h * RasterSketch.channels := by exact_mod_cast hcount
    have hok : packed w h bytes = .ok ⟨w, h, bytes.toArray, hlength⟩ := packed_eq_ok.2 ⟨hroom, rfl, rfl, rfl⟩
    cases hok.symm.trans herror
  · unfold packed at herror
    cases hextent : checkExtent [(h : Int), w, RasterSketch.channels] 1 with
    | ok => exact hroom (checkExtent_eq_ok.1 hextent)
    | error cause =>
      rw [hextent] at herror
      cases herror

/-- As long as all are bytes but for their fractions, there must be no fraction, and room for what there is. -/
theorem faithful_of_nearByte (hlist : container = .list ∨ container = .fixedList) (hw : 0 ≤ width) (hh : 0 ≤ height)
    (hcount : (ns.length : Int) = width * height * RasterSketch.channels) (hnear : ∀ n ∈ ns, n.NearByte) :
    Faithful width height container ns ↔ (∀ n ∈ ns, n.IsByte) ∧ HasRoom width height := by
  obtain ⟨bytes, hbytes⟩ := Flat.exists_toBytes hnear
  have hlength : (bytes.length : Int) = width * height * RasterSketch.channels := by
    rw [← hcount, (Flat.toBytes_eq_ok.1 hbytes).length_eq]
  have hvalues : ofValues width height container (Value.ofNumbers ns) = packed width height bytes := by
    rw [ofValues_numbers hlist hw hh hcount, hbytes]
    rfl
  unfold Faithful
  rw [hvalues]
  obtain ⟨w, rfl⟩ := Int.eq_ofNat_of_zero_le hw
  obtain ⟨h, rfl⟩ := Int.eq_ofNat_of_zero_le hh
  constructor
  · rintro (⟨b, hok, his⟩ | ⟨-, e, herror⟩)
    · obtain ⟨hroom, hb⟩ := packed_eq_ok.1 hok
      exact ⟨(Flat.forall₂_is_iff hbytes).1 (hb.bytes_eq ▸ his), hroom⟩
    · exact absurd herror (packed_ne_error hw hh hlength e)
  · rintro ⟨his, hroom⟩
    have hsize : bytes.length = w * h * RasterSketch.channels := by exact_mod_cast hlength
    exact .inl ⟨⟨w, h, bytes.toArray, hsize⟩, packed_eq_ok.2 ⟨hroom, rfl, rfl, rfl⟩,
      (Flat.forall₂_is_iff hbytes).2 his⟩

/-- **A list of numbers makes a buffer of just these numbers, or is refused as no pixels, if they are bytes or if they
are words of which one is no byte even without its fraction.**  Otherwise fractions are lost, or it is the failure to
make words of the numbers that is seen. -/
theorem ofValues_faithful_iff (hlist : container = .list ∨ container = .fixedList) (hw : 0 ≤ width) (hh : 0 ≤ height)
    (hcount : (ns.length : Int) = width * height * RasterSketch.channels) :
    Faithful width height container ns ↔
      ((∀ n ∈ ns, n.IsByte) ∧ HasRoom width height) ∨ ((∀ n ∈ ns, n.NearWord) ∧ ∃ n ∈ ns, ¬ n.NearByte) := by
  -- the conversion to words comes first, then the look at their range
  by_cases hwords : ∀ n ∈ ns, n.NearWord
  · by_cases hnear : ∀ n ∈ ns, n.NearByte
    · rw [faithful_of_nearByte hlist hw hh hcount hnear]
      exact ⟨.inl, fun h => h.resolve_right fun ⟨_, n, hn, hfar⟩ => hfar (hnear n hn)⟩
    · have hfar : ∃ n ∈ ns, ¬ n.NearByte := by simpa only [not_forall, exists_prop] using hnear
      refine iff_of_true (.inr ⟨?_, .valueRange, ?_⟩) (.inr ⟨hwords, hfar⟩)
      · obtain ⟨n, hn, hfar⟩ := hfar
        exact ⟨n, hn, fun his => hfar his.nearByte⟩
      · rw [ofValues_numbers hlist hw hh hcount, Flat.toBytes_error_of_byte hwords hnear]
        rfl
  · refine iff_of_false ?_ ?_
    · obtain ⟨e, he, hown⟩ := Flat.toBytes_error_of_word hwords
      have hvalues : ofValues width height container (Value.ofNumbers ns) = .error e := by
        rw [ofValues_numbers hlist hw hh hcount, he]
        rfl
      unfold Faithful
      rw [hvalues]
      rintro (⟨b, hok, -⟩ | ⟨-, cause, herror⟩)
      · cases hok
      · cases herror
        cases hown
    · rintro (⟨his, -⟩ | ⟨hall, -⟩)
      · exact hwords fun n hn => (his n hn).nearByte.nearWord
      · exact hwords hall

/-- A half and a number beyond the bytes are refused together. -/
theorem faithful_half_and_more :
    Faithful 1 1 .list [.real (Double.ofRatio false 1 2), .int 300, .int 0, .int 255] := by
  refine (ofValues_faithful_iff (.inl rfl) (by decide) (by decide) (by decide)).2
    (.inr ⟨?_, .int 300, by simp, fun hnear => ?_⟩)
  · have hwords : ∀ n ∈ [Number.real (Double.ofRatio false 1 2), .int 300, .int 0, .int 255],
        n.truncate.toOption.any fitsWord = true := by decide +kernel
    exact fun n hn => Number.nearWord_iff.2 (exists_ok_of_any (hwords n hn))
  · obtain ⟨k, hk, hrange⟩ := Number.nearByte_iff.1 hnear
    cases hk
    omega

/-- The failure of a word is not one of pixels, and a half on its own is stored as nothing. -/
theorem unfaithful_word_and_half :
    ¬ Faithful 1 1 .list [.int (2 ^ 63), .int 0, .int 0, .int 255] ∧
      ¬ Faithful 1 1 .list [.real (Double.ofRatio false 1 2), .int 0, .int 0, .int 255] := by
  constructor
  · have hvalues : ofValues 1 1 .list (Value.ofNumbers [.int (2 ^ 63), .int 0, .int 0, .int 255]) =
        .error (.word .noWord) := rfl
    unfold Faithful
    rw [hvalues]
    rintro (⟨b, hok, -⟩ | ⟨-, e, herror⟩)
    · cases hok
    · cases herror
  · have hstored : (ofValues 1 1 .list (Value.ofNumbers
        [.real (Double.ofRatio false 1 2), .int 0, .int 0, .int 255])).toOption.any
          (fun b => b.bytes.toList = [0, 0, 0, 255]) = true := by decide +kernel
    obtain ⟨b, hok, hb⟩ := exists_ok_of_any hstored
    unfold Faithful
    rw [hok]
    rintro (⟨b', hb', his⟩ | ⟨-, e, herror⟩)
    · cases hb'
      rw [of_decide_eq_true hb, List.forall₂_cons] at his
      have hzero : (Double.ofRatio false 1 2).value = (0 : UInt8).toNat := Option.some.inj his.1
      have hhalf : Double.ofRatio false 1 2 = .finite false ⟨0x10000000000000, -53, by decide⟩ := rfl
      rw [hhalf, Double.value, Magnitude.value] at hzero
      norm_num at hzero
    · cases herror

end Buffer

end RasterSketch
