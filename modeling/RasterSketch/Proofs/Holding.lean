import RasterSketch.Proofs.Raster.RoundTrip
import RasterSketch.Proofs.Raster.Sizes
import RasterSketch.Session.Holding
/-!
# A buffer that is held

The array of a buffer has a row of memory that nothing else has, and it cannot be set.  So what a session holds is the
buffer that was made last, byte for byte, whatever has been tried with it and with the values it was made of
(`Holding.after_stored`).
-/
namespace RasterSketch

/-! ## Constructions -/

namespace Buffer

variable {width height : Int} {a : PixelArray} {b : Buffer}

theorem ofArray_eq_ok : ofArray width height a = .ok b ↔
    a.shape = [b.height, b.width, RasterSketch.channels] ∧ a.layout.isByte = true ∧ b.Holds width height a.bytes := by
  unfold ofArray checkDimensions
  rw [bind_eq_ok]
  constructor
  · rintro ⟨_, hsides, hok⟩
    by_cases hnegative : width < 0 ∨ height < 0
    · rw [if_pos hnegative] at hsides
      cases hsides
    obtain ⟨hshape, hok⟩ := guard_eq_ok.1 hok
    obtain ⟨hbyte, hok⟩ := guard_eq_ok.1 hok
    have hb := ofBytes_eq_ok.1 hok
    rw [Int.toNat_of_nonneg (by omega), Int.toNat_of_nonneg (by omega)] at hb
    rw [not_not, ← hb.width_eq, ← hb.height_eq] at hshape
    rw [Bool.not_eq_true', Bool.not_eq_false] at hbyte
    exact ⟨hshape, hbyte, hb⟩
  · rintro ⟨hshape, hbyte, hb⟩
    obtain rfl := hb.width_eq
    obtain rfl := hb.height_eq
    refine ⟨(), if_neg (by omega), ?_⟩
    dsimp only [Int.toNat_natCast]
    rw [if_neg (not_not.2 hshape), hbyte]
    exact ofBytes_eq_ok.2 hb

end Buffer

namespace HoldingStep

/-- What comes of the construction that a step is, if it is one. -/
def construct? : HoldingStep → Option (Except Error Buffer)
  | .ofValues width height container values => some (Buffer.ofValues width height container values)
  | .ofPixels width height pixels => some (Buffer.ofPixels width height pixels)
  | .ofArray width height array => some (array >>= fun a => (Buffer.ofArray width height a).mapError .buffer)
  | .ofPicture picture => some (Buffer.ofPicture <$> picture)
  | .pixel .. | .setItem .. | .setPixel .. => none

/-- The buffer that a step makes: that of a construction that does not fail. -/
def made? (s : HoldingStep) : Option Buffer := s.construct?.bind Except.toOption

/-- An array is given by its shape, by the name of its elements and by their values, a picture by its size, its mode
and its pixels. -/
def IsGiven : HoldingStep → Prop
  | .ofArray _ _ array => ∃ shape name values, array = PixelArray.ofValues shape name values
  | .ofPicture picture => ∃ width height mode palette pixels, picture = Picture.filled width height mode palette pixels
  | _ => True

end HoldingStep

/-! ## Sizes -/

namespace HoldingStep

variable {s : HoldingStep} {b : Buffer}

theorem made?_eq_some : s.made? = some b ↔ s.construct? = some (.ok b) := by
  unfold made?
  cases s.construct? with
  | none => exact ⟨fun h => (by cases h), fun h => (by cases h)⟩
  | some result =>
    cases result with
    | error e => exact ⟨fun h => (by cases h), fun h => (by cases h)⟩
    | ok b' => exact ⟨fun h => (by cases h; rfl), fun h => (by cases h; rfl)⟩

/-- A word counts the rows and the columns of a buffer that is made. -/
theorem sides_le (hgiven : s.IsGiven) (hmade : s.made? = some b) : b.width ≤ 2 ^ 63 ∧ b.height ≤ 2 ^ 63 := by
  rw [made?_eq_some] at hmade
  cases s with
  | ofValues width height container values =>
    obtain ⟨flat, -, hok⟩ := bind_eq_ok.1 (Option.some.inj hmade)
    obtain ⟨hroom, -, bytes, -, hb⟩ := Buffer.ofFlat_eq_ok.1 hok
    exact hb.sides_le hroom
  | ofPixels width height pixels =>
    obtain ⟨hroom, -, bytes, -, hb⟩ := Buffer.ofFlat_eq_ok.1 (Option.some.inj hmade)
    exact hb.sides_le hroom
  | ofArray width height array =>
    obtain ⟨shape, name, values, rfl⟩ := hgiven
    obtain ⟨a, ha, hok⟩ := bind_eq_ok.1 (Option.some.inj hmade)
    obtain ⟨hshape, -, -⟩ := Buffer.ofArray_eq_ok.1 (mapError_eq_ok.1 hok)
    have hfits : ∀ d ∈ [b.height, b.width, channels], d ≤ 2 ^ 63 := fun d hd =>
      (PixelArray.lt_of_ofValues ha (hshape ▸ hd)).le
    exact ⟨hfits _ (by simp), hfits _ (by simp)⟩
  | ofPicture picture =>
    obtain ⟨width, height, mode, palette, pixels, rfl⟩ := hgiven
    obtain ⟨p, hp, rfl⟩ := map_eq_ok.1 (Option.some.inj hmade)
    have hsize := Picture.size_of_filled hp
    exact ⟨hsize.1.le.trans (by decide), hsize.2.le.trans (by decide)⟩
  | pixel | setItem | setPixel => cases hmade

end HoldingStep

/-! ## Memory -/

/-- Where the items are that a buffer was made of. -/
def Material.place? : Material → Option Nat
  | .nothing => none
  | .items _ place => some place
  | .array given => some given.place

/-- Setting an item leaves all rows but one. -/
theorem Material.read_setItem {material : Material} {m m' : Memory} {index : Int} {v : Value} {place : Nat}
    (hok : material.setItem m index v = .ok m') (hplace : material.place? ≠ some place) :
    m'.read place = m.read place := by
  have hother : ∀ {written : Nat}, material.place? = some written → place ≠ written := fun h heq =>
    hplace (heq ▸ h)
  cases material with
  | nothing => cases hok
  | items container written =>
    obtain ⟨_, -, hok⟩ := bind_eq_ok.1 hok
    obtain ⟨row, -, rfl⟩ := bind_pure_eq_ok.1 hok
    exact Memory.read_write_of_ne (hother rfl)
  | array given =>
    unfold setItem StoredArray.change at hok
    dsimp only at hok
    split at hok
    · cases hok
    · obtain ⟨row, -, rfl⟩ := bind_pure_eq_ok.1 hok
      exact Memory.read_write_of_ne (hother rfl)

/-- An array that cannot be set. -/
theorem StoredArray.change_of_guarded {a : StoredArray} (ha : a.writable = false) (m : Memory)
    (changed : PixelArray → Except Error PixelArray) : a.change m changed = .error (.argument .readOnly) := by
  unfold change
  rw [ha]
  rfl

/-- A buffer as it stands in memory. -/
structure Held.Stands (c : Held) (m : Memory) (b : Buffer) : Prop where
  width_eq : c.width = b.width
  height_eq : c.height = b.height
  shape_eq : c.pixels.shape = [b.height, b.width, channels]
  layout_eq : c.pixels.layout = .single .byte
  row_eq : m.read c.pixels.place = .bytes b.bytes.toList
  guarded : c.pixels.writable = false
  apart : c.material.place? ≠ some c.pixels.place

theorem Held.Stands.read_eq {c : Held} {m : Memory} {b : Buffer} (hc : c.Stands m b) : c.read m = .ok b := by
  have hb : b.Holds c.width c.height (c.pixels.read m).bytes := by
    refine ⟨hc.width_eq.symm, hc.height_eq.symm, ?_⟩
    rw [StoredArray.read, hc.row_eq]
    rfl
  have hbyte : c.pixels.layout.isByte = true := by
    rw [hc.layout_eq]
    rfl
  exact mapError_eq_ok.2 (Buffer.ofArray_eq_ok.2 ⟨hc.shape_eq, hbyte, hb⟩)

namespace Holding

variable {h : Holding} {last : Option Buffer}

/-- The buffer that is held, as it stands in memory, is the one given, and there is none if none is given. -/
inductive Shows (h : Holding) : Option Buffer → Prop where
  | nothing (hnone : h.current = none) : Shows h none
  | buffer {c : Held} {b : Buffer} (hcurrent : h.current = some c) (hc : c.Stands h.memory b) : Shows h (some b)

theorem shows_keep {m : Memory} {material : Material} {result : Except Error Buffer} (hs : h.Shows last)
    (hplace : material.place? ≠ some m.next) : (h.keep m material result).1.Shows (result.toOption.or last) := by
  cases result with
  | error e => exact hs
  | ok b => exact .buffer rfl ⟨rfl, rfl, rfl, rfl, Memory.read_add_next, rfl, hplace⟩

/-- What is held still stands when an item of what it was made of has been set. -/
theorem shows_setItem {index : Int} {v : Value} (hs : h.Shows last) : (h.step (.setItem index v)).1.Shows last := by
  cases hs with
  | nothing hnone =>
    simp only [step, hnone]
    exact .nothing hnone
  | @buffer c b hcurrent hc =>
    simp only [step, hcurrent]
    cases hok : c.material.setItem h.memory index v with
    | error e => exact .buffer hcurrent hc
    | ok m => exact .buffer hcurrent { hc with row_eq := (Material.read_setItem hok hc.apart).trans hc.row_eq }

/-- A channel of a pixel is never set. -/
theorem step_setPixel (hs : h.Shows last) (x y channel : Int) (v : Value) :
    ∃ e, h.step (.setPixel x y channel v) = (h, .error e) := by
  have hstep : h.step (.setPixel x y channel v) =
      h.change (h.held "pixels" >>= fun c => c.pixels.setElement h.memory [y, x, channel] v) := rfl
  rw [hstep]
  unfold held
  cases hs with
  | nothing hnone =>
    rw [hnone]
    exact ⟨_, rfl⟩
  | @buffer c b hcurrent hc =>
    have hset : c.pixels.setElement h.memory [y, x, channel] v = .error (.argument .readOnly) :=
      StoredArray.change_of_guarded hc.guarded _ _
    rw [hcurrent]
    dsimp only [bind, Except.bind]
    rw [hset]
    exact ⟨_, rfl⟩

/-- A construction keeps its result, with what it was made of in another row than its own. -/
theorem step_construct {s : HoldingStep} {result : Except Error Buffer} (hresult : s.construct? = some result) :
    ∃ m material, Material.place? material ≠ some (Memory.next m) ∧ h.step s = h.keep m material result := by
  cases s with
  | ofValues width height container values =>
    cases hresult
    cases hhold : container.hold values with
    | error e =>
      -- values that the container does not take leave no row, so any material will do
      refine ⟨h.memory, .nothing, by simp [Material.place?], ?_⟩
      simp only [step, Buffer.ofValues, hhold]
      rfl
    | ok flat =>
      refine ⟨h.memory.add flat, .items container h.memory.next, by simp [Material.place?, Memory.next_add], ?_⟩
      simp only [step, Buffer.ofValues, hhold, Memory.read_add_next]
      rfl
  | ofPixels width height pixels =>
    cases hresult
    exact ⟨_, _, by simp [Material.place?], rfl⟩
  | ofArray width height array =>
    cases hresult
    cases array with
    | error e => exact ⟨h.memory, .nothing, by simp [Material.place?], rfl⟩
    | ok a =>
      refine ⟨h.memory.add (.bytes a.bytes), .array ⟨a.shape, a.layout, h.memory.next, true⟩,
        by simp [Material.place?, Memory.next_add], ?_⟩
      simp only [step, StoredArray.read, Memory.read_add_next]
      rfl
  | ofPicture picture =>
    cases hresult
    exact ⟨_, _, by simp [Material.place?], rfl⟩
  | pixel | setItem | setPixel => cases hresult

/-- **After a step that makes a buffer it is held, and any other step leaves what is held.** -/
theorem shows_step (s : HoldingStep) (hs : h.Shows last) : (h.step s).1.Shows (s.made?.or last) := by
  cases hresult : s.construct? with
  | some result =>
    obtain ⟨m, material, hplace, hstep⟩ := step_construct (h := h) hresult
    rw [hstep, HoldingStep.made?, hresult]
    exact shows_keep hs hplace
  | none =>
    rw [HoldingStep.made?, hresult]
    cases s with
    | ofValues | ofPixels | ofArray | ofPicture => cases hresult
    | pixel x y => exact hs
    | setItem index v => exact shows_setItem hs
    | setPixel x y channel v =>
      obtain ⟨e, he⟩ := step_setPixel hs x y channel v
      rw [he]
      exact hs

/-! ## Scripts -/

/-- The session after the steps of a script, from the first on. -/
def after (script : List HoldingStep) : Holding := script.foldl (fun h s => (h.step s).1) empty

/-- The buffer of the last construction that has not failed. -/
def lastMade (script : List HoldingStep) : Option Buffer := (script.filterMap HoldingStep.made?).getLast?

/-- The size and the values of the buffer that is held, as they are in memory. -/
def stored (h : Holding) : Option (Int × Int × Flat) :=
  h.current.map fun c => (c.width, c.height, h.memory.read c.pixels.place)

theorem shows_after (script : List HoldingStep) : (after script).Shows (lastMade script) := by
  -- from the last step back, for it is the one that decides what was made last
  induction script using List.reverseRecOn with
  | nil => exact .nothing rfl
  | append_singleton script s ih =>
    have hafter : after (script ++ [s]) = ((after script).step s).1 := List.foldl_concat ..
    have hlast : lastMade (script ++ [s]) = s.made?.or (lastMade script) := by
      unfold lastMade
      rw [List.filterMap_append, List.getLast?_append]
      cases hmade : s.made? <;> simp [hmade]
    rw [hafter, hlast]
    exact shows_step s ih

/-- The buffer that is held has been made by a step of the script. -/
theorem sides_le_of_lastMade {script : List HoldingStep} {b : Buffer} (hgiven : ∀ s ∈ script, s.IsGiven)
    (hlast : lastMade script = some b) : b.width ≤ 2 ^ 63 ∧ b.height ≤ 2 ^ 63 := by
  obtain ⟨s, hs, hmade⟩ := List.mem_filterMap.1 (List.mem_of_getLast? hlast)
  exact HoldingStep.sides_le (hgiven s hs) hmade

theorem Shows.stored_eq (hs : h.Shows last) :
    h.stored = last.map fun b => ((b.width : Int), (b.height : Int), Flat.bytes b.bytes.toList) := by
  unfold stored
  cases hs with
  | nothing hnone =>
    rw [hnone]
    rfl
  | buffer hcurrent hc => rw [hcurrent, Option.map_some, Option.map_some, hc.width_eq, hc.height_eq, hc.row_eq]

/-- A pixel of the buffer that is held is read from its own bytes. -/
theorem Shows.step_pixel {b : Buffer} {x y : Nat} (hs : h.Shows (some b)) (hx : x < b.width) (hy : y < b.height)
    (hw : b.width ≤ 2 ^ 63) (hh : b.height ≤ 2 ^ 63) :
    h.step (.pixel x y) = (h, .ok (.pixel (b.pixelAt x y))) := by
  cases hs with
  | buffer hcurrent hc =>
    have hbuffer : h.buffer "pixel" = .ok b := by
      unfold Holding.buffer held
      rw [hcurrent]
      exact hc.read_eq
    have hanswer : (do return HoldingAnswer.pixel (← (← h.buffer "pixel").pixel x y)) =
        .ok (HoldingAnswer.pixel (b.pixelAt x y)) :=
      bind_eq_ok.2 ⟨b, hbuffer, bind_eq_ok.2 ⟨_, Buffer.pixel_natCast hx hy hw hh, rfl⟩⟩
    exact congrArg (Prod.mk h) hanswer

/-- **A session holds the buffer that was made last, in as many bytes of memory as its size asks for, of which each
pixel has its own; and a step that makes none leaves them all, be it a construction that fails, a look at a pixel, or
an attempt to set what the buffer was made of or a pixel itself.** -/
theorem after_stored (script : List HoldingStep) (hgiven : ∀ s ∈ script, s.IsGiven) :
    ((after script).stored = (lastMade script).map fun b => ((b.width : Int), (b.height : Int), .bytes b.bytes.toList)) ∧
    (∀ width height row, (after script).stored = some (width, height, row) → 0 ≤ width ∧ 0 ≤ height ∧
      ∃ bytes : List UInt8, row = .bytes bytes ∧ (bytes.length : Int) = width * height * channels ∧
        ∀ x y : Int, 0 ≤ x → x < width → 0 ≤ y → y < height → ∃ p : Pixel,
          (after script).step (.pixel x y) = (after script, .ok (.pixel p)) ∧
            p.channels = (bytes.drop (channels * (y * width + x)).toNat).take channels) ∧
    (∀ s : HoldingStep, s.made? = none → ((after script).step s).1.stored = (after script).stored) ∧
    ∀ x y channel v, ∃ e, (after script).step (.setPixel x y channel v) = (after script, .error e) := by
  have hs := shows_after script
  refine ⟨hs.stored_eq, fun width height row hstored => ?_, fun s hmade => ?_, step_setPixel hs⟩
  · rw [hs.stored_eq] at hstored
    obtain ⟨b, hlast, heq⟩ := Option.map_eq_some_iff.1 hstored
    cases heq
    obtain ⟨hw, hh⟩ := sides_le_of_lastMade hgiven hlast
    rw [hlast] at hs
    have hlength : (b.bytes.toList.length : Int) = b.width * b.height * channels := by
      rw [Array.length_toList, b.size_eq]
      push_cast
      rfl
    refine ⟨Int.natCast_nonneg _, Int.natCast_nonneg _, _, rfl, hlength, fun x y hx hxw hy hyh => ?_⟩
    obtain ⟨x, rfl⟩ := Int.eq_ofNat_of_zero_le hx
    obtain ⟨y, rfl⟩ := Int.eq_ofNat_of_zero_le hy
    have hx : x < b.width := by exact_mod_cast hxw
    have hy : y < b.height := by exact_mod_cast hyh
    refine ⟨_, hs.step_pixel hx hy hw hh, ?_⟩
    rw [Buffer.channels_pixelAt hx hy]
    norm_cast
  · have hstep := shows_step s hs
    rw [hmade, Option.none_or] at hstep
    rw [hstep.stored_eq, hs.stored_eq]

/-- An array of one pixel that is set behind the buffer's back, a value that is no byte, and a channel that is set. -/
theorem stored_after_attempts : (after [
      .ofArray 1 1 (PixelArray.ofValues [1, 1, 4] (Text.ofString "uint8") (Value.ofInts [1, 2, 3, 4])),
      .setItem 0 (.expr 9), .ofValues 1 1 .list (Value.ofInts [5, 6, 7, 800]), .setPixel 0 0 0 (.expr 9)]).stored =
    some (1, 1, .bytes [1, 2, 3, 4]) := by
  have hlast : lastMade [
      .ofArray 1 1 (PixelArray.ofValues [1, 1, 4] (Text.ofString "uint8") (Value.ofInts [1, 2, 3, 4])),
      .setItem 0 (.expr 9), .ofValues 1 1 .list (Value.ofInts [5, 6, 7, 800]), .setPixel 0 0 0 (.expr 9)] =
      some ⟨1, 1, #[1, 2, 3, 4], rfl⟩ := by rfl
  refine (after_stored _ fun s hs => ?_).1.trans (congrArg _ hlast)
  simp only [List.mem_cons, List.not_mem_nil, or_false] at hs
  rcases hs with rfl | rfl | rfl | rfl
  · exact ⟨_, _, _, rfl⟩
  all_goals exact trivial

end Holding

end RasterSketch
