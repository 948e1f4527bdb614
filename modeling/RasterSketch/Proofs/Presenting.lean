import RasterSketch.Generate
import RasterSketch.Proofs.Raster.Flat
import RasterSketch.Proofs.Raster.Loading
import RasterSketch.Proofs.Raster.PnmFiles
import RasterSketch.Raster.Filled
/-!
# One painting, many sources

A painting is a size and its pixels.  It may be handed over as its bytes, as a picture, as the data of an image file or
as the path of one (`Painting.IsSource`), in any mode whose samples tell its pixels (`Mode.Tells`).  Whatever it comes
from, the code is that of the one buffer that its bytes make (`Painting.code_eq`).
-/
namespace RasterSketch

/-! ## Pixels in a mode -/

def Pixel.IsOpaque (px : Pixel) : Prop := px.a = 255

def Pixel.IsGrey (px : Pixel) : Prop := px.r = px.g ∧ px.g = px.b

namespace Mode

/-- Whether the samples of a mode tell a pixel: there has to be an alpha unless it is opaque, and three colours unless
it is grey. -/
def Tells (px : Pixel) : Mode → Prop
  | .rgba => True
  | .rgb => px.IsOpaque
  | .greyAlpha => px.IsGrey
  | .grey => px.IsOpaque ∧ px.IsGrey
  | _ => False

def samplesOf (mode : Mode) (px : Pixel) : List UInt8 := mode.placed px.r px.g px.b px.a

theorem length_samplesOf (mode : Mode) (px : Pixel) : (mode.samplesOf px).length = mode.samples := by
  cases mode <;> rfl

theorem toRgba_samplesOf {mode : Mode} {px : Pixel} (h : mode.Tells px) :
    mode.toRgba (mode.samplesOf px) = px.channels := by
  obtain ⟨r, g, b, a⟩ := px
  cases mode with
  | rgba => rfl
  | rgb =>
    obtain rfl : a = 255 := h
    rfl
  | greyAlpha =>
    obtain ⟨hrg, hgb⟩ : r = g ∧ g = b := h
    rw [← hgb, ← hrg]
    rfl
  | grey =>
    obtain ⟨ha, hrg, hgb⟩ : a = 255 ∧ r = g ∧ g = b := h
    rw [← hgb, ← hrg, ha]
    rfl
  | _ => exact h.elim

end Mode

/-! ## Paintings -/

/-- A size that is not empty, and the pixels of its rows, one row behind the other. -/
structure Painting where
  width : Nat
  height : Nat
  pixels : List Pixel
  width_pos : 0 < width
  height_pos : 0 < height
  length_eq : pixels.length = width * height

namespace Painting

variable (t : Painting)

/-- The samples of all pixels in a mode. -/
def samples (mode : Mode) : List UInt8 := t.pixels.flatMap mode.samplesOf

/-- Red, green, blue and alpha of all pixels. -/
def flat : List UInt8 := t.pixels.flatMap Pixel.channels

def IsToldBy (mode : Mode) : Prop := ∀ px ∈ t.pixels, mode.Tells px

theorem length_samples (mode : Mode) : (t.samples mode).length = t.width * t.height * mode.samples := by
  rw [samples, List.length_flatMap, ← t.length_eq]
  induction t.pixels with
  | nil => simp
  | cons px pixels ih =>
    rw [List.map_cons, List.sum_cons, ih, mode.length_samplesOf, List.length_cons, Nat.succ_mul, Nat.add_comm]

theorem length_flat : t.flat.length = t.width * t.height * channels := t.length_samples .rgba

/-- The picture of a painting in a mode. -/
def picture (mode : Mode) : Picture := ⟨t.width, t.height, mode, t.samples mode, t.length_samples mode⟩

def buffer : Buffer := Buffer.ofPicture (t.picture .rgba)

variable {t} {mode : Mode} {pixelLimit : Int} {data : List UInt8} {files : Files}

theorem isToldBy_rgba : t.IsToldBy .rgba := fun _ _ => trivial

/-- The samples of any mode that tells the pixels have their colours. -/
theorem toRgba_samples (h : t.IsToldBy mode) : mode.toRgba (t.samples mode) = t.flat := by
  unfold samples flat
  unfold IsToldBy at h
  generalize t.pixels = pixels at h ⊢
  induction pixels with
  | nil => exact mode.toRgba_nil
  | cons px pixels ih =>
    rw [List.flatMap_cons, List.flatMap_cons, Mode.toRgba_pixel_append mode (mode.length_samplesOf px),
      Mode.toRgba_samplesOf (h px (List.mem_cons_self ..)), ih fun px' hpx => h px' (List.mem_cons_of_mem _ hpx)]

theorem ofPicture_picture (h : t.IsToldBy mode) : Buffer.ofPicture (t.picture mode) = t.buffer :=
  Buffer.ofPicture_congr rfl rfl ((toRgba_samples h).trans (toRgba_samples isToldBy_rgba).symm)

/-! ## Sources -/

/-- As many pixels as an image may have. -/
def Fits (t : Painting) (pixelLimit : Int) : Prop :=
  ((t.width * t.height : Nat) : Int) ≤ 2 * pixelLimit ∧ t.width * t.height ≤ 2 * defaultPixelLimit

/-- The image files of a painting: PNG whose rows have room in one block, and PNM whose rows have room in the decoder. -/
inductive IsFile (t : Painting) : Bytes → Prop where
  | png {mode : Mode} {colourType : UInt8} (start : Png.StreamStart) (told : t.IsToldBy mode)
      (hcolour : Png.colourType? mode = some colourType) (room : t.height * (t.width * mode.samples + 1) ≤ 0xffff) :
      IsFile t (Png.file start mode colourType t.width t.height (t.samples mode))
  | pnm {mode : Mode} {mark : List UInt8} (gaps : Pnm.Gaps) (told : t.IsToldBy mode)
      (hmark : Pnm.mark? mode = some mark) (room : checkDecodedRow t.width mode.samples = .ok ()) :
      IsFile t (Pnm.file gaps mark t.width t.height (t.samples mode))

/-- Whether a path ends like one of vector graphics, in letters of any size. -/
def hasSvgSuffix (path : Path) : Bool := svgSuffixes.any (lowerAscii path.suffix = ·)

/-- What the code of a painting can be made of. -/
inductive IsSource (t : Painting) (files : Files) : CodeSource → Prop where
  | buffer {b : Buffer} (hb : Buffer.ofFlat t.width t.height (.bytes t.flat) = .ok b) : IsSource t files (.buffer b)
  | picture {mode : Mode} (told : t.IsToldBy mode) : IsSource t files (.picture (t.picture mode))
  | data {data : Bytes} (hdata : t.IsFile data) : IsSource t files (.image (.bytes data))
  | path {path : Path} {data : Bytes} (hdata : t.IsFile data) (hread : files.read path = .ok data)
      (hsuffix : hasSvgSuffix path = false) : IsSource t files (.image (.file path))

theorem size_le (h : t.Fits pixelLimit) : t.width ≤ 178956970 ∧ t.height ≤ 178956970 := by
  have harea : t.width * t.height ≤ 178956970 := h.2
  exact ⟨(Nat.le_mul_of_pos_right _ t.height_pos).trans harea, (Nat.le_mul_of_pos_left _ t.width_pos).trans harea⟩

/-- The bytes of the pixels have room in an array. -/
theorem hasRoom (h : t.Fits pixelLimit) : Buffer.HasRoom t.width t.height := by
  have harea : (t.width : Int) * t.height ≤ 178956970 := by exact_mod_cast h.2
  have hw : (1 : Int) ≤ t.width := by exact_mod_cast t.width_pos
  have hh : (1 : Int) ≤ t.height := by exact_mod_cast t.height_pos
  unfold Buffer.HasRoom channels
  rw [max_eq_right hw, max_eq_right hh]
  omega

theorem ofFlat_flat (h : t.Fits pixelLimit) : Buffer.ofFlat t.width t.height (.bytes t.flat) = .ok t.buffer := by
  have hcount : ((Flat.bytes t.flat).length : Int) = (t.width : Int) * t.height * channels := by
    show (t.flat.length : Int) = _
    rw [t.length_flat]
    push_cast
    rfl
  exact Buffer.ofFlat_eq_ok.2 ⟨hasRoom h, hcount, t.flat, rfl, rfl, rfl, toRgba_samples isToldBy_rgba⟩

theorem checkSize_ok (h : t.Fits pixelLimit) : checkSize t.width t.height = .ok () := by
  obtain ⟨hw, hh⟩ := size_le h
  have hword : ∀ n : Nat, n ≤ 178956970 → checkHalfWord n = .ok () := by
    intro n hn
    unfold checkHalfWord fitsWord greatestHalfWord
    rw [if_neg, if_neg, if_neg]
    all_goals first | omega | simp
    omega
  unfold checkSize widthLimit
  rw [hword _ hw, hword _ hh]
  show (do if (536870910 : Int) < t.width then throw SizeError.outOfMemory : Except SizeError Unit) = _
  rw [if_neg (by omega)]
  rfl

theorem decode_of_header {h : ImageHeader} (hfits : t.Fits pixelLimit) (hheader : ImageHeader.of? data = .ok (some h))
    (hw : h.width = t.width) (hh : h.height = t.height) (hmode : h.mode = mode)
    (hroom : checkDecodedRow t.width h.pixelBytes = .ok ()) (hsamples : h.samples = .ok (t.samples mode)) :
    Picture.decode pixelLimit data = .ok (t.picture mode) := by
  have hpixels : h.pixels = t.width * t.height := by rw [ImageHeader.pixels, hw, hh]
  have hpos : h.pixels ≠ 0 := by
    rw [hpixels]
    exact Nat.ne_of_gt (Nat.mul_pos t.width_pos t.height_pos)
  have hcheck : h.checkRoom = .ok () := by
    unfold ImageHeader.checkRoom
    rw [hw, hh, checkSize_ok hfits]
    exact hroom
  have hpicture : Picture.ofSamples? h.width h.height h.mode (t.samples mode) = some (t.picture mode) := by
    rw [hw, hh, hmode]
    exact dif_pos (t.length_samples mode)
  exact Picture.decode_eq_ok.2 ⟨h, hheader, hpos, by rw [hpixels]; exact hfits.1,
    ImageHeader.picture_eq_ok.2 ⟨hcheck, _, hsamples, hpicture⟩⟩

/-- **A file of a painting is decoded to it.** -/
theorem decode_file (hfits : t.Fits pixelLimit) (h : t.IsFile data) :
    ∃ mode, t.IsToldBy mode ∧ Picture.decode pixelLimit data = .ok (t.picture mode) := by
  obtain ⟨hw, hh⟩ := size_le hfits
  cases h with
  | @png mode colourType start told hcolour room =>
    have hlength : (t.samples mode).length = t.height * (t.width * mode.samples) := by
      rw [t.length_samples, Nat.mul_assoc, Nat.mul_left_comm]
    refine ⟨mode, told, decode_of_header
      (h := ⟨.png, mode, t.width, t.height, Png.behindHeader start mode t.width t.height (t.samples mode)⟩)
      hfits ?_ rfl rfl rfl ?_ (Png.samples_file start hlength room)⟩
    · unfold ImageHeader.of?
      rw [Png.header?_file start hcolour (by omega) (by omega) hlength room]
      rfl
    · have hwidth : t.width ≤ 0xffff := by
        calc t.width ≤ t.width * mode.samples := Nat.le_mul_of_pos_right _ (by cases mode <;> cases hcolour <;> decide)
          _ ≤ t.width * mode.samples + 1 := Nat.le_succ _
          _ ≤ t.height * (t.width * mode.samples + 1) := Nat.le_mul_of_pos_left _ t.height_pos
          _ ≤ 0xffff := room
      have hroom : 67108863 ≤ rowBits / (8 * mode.samples) := by
        cases mode <;> cases hcolour <;> decide
      exact if_neg (not_lt.2 (le_trans (by omega) hroom))
  | @pnm mode mark gaps told hmark room =>
    have hlength : (t.samples mode).length = t.width * mode.samples * t.height := by
      rw [t.length_samples, Nat.mul_right_comm]
    have hroom : (ImageHeader.mk (.pnm 255) mode t.width t.height (t.samples mode)).pixelBytes = mode.samples := by
      cases mode <;> cases hmark <;> rfl
    refine ⟨mode, told, decode_of_header (h := ⟨.pnm 255, mode, t.width, t.height, t.samples mode⟩) hfits ?_ rfl rfl rfl
      (by rw [hroom]; exact room) (Pnm.samples_file hlength)⟩
    have hpng : Png.header? (Pnm.file gaps mark t.width t.height (t.samples mode)) = .ok none := by
      cases mode <;> cases hmark <;> rfl
    unfold ImageHeader.of?
    rw [hpng, Pnm.header?_file gaps hmark (by omega) (by omega)]
    rfl

theorem mark_file (h : t.IsFile data) : ∃ mark ∈ Svg.rasterMarks, mark <+: data := by
  cases h with
  | png start told hcolour room => exact ⟨_, List.mem_cons_self .., _, rfl⟩
  | @pnm mode mark gaps told hmark room =>
    refine ⟨mark, ?_, _, rfl⟩
    cases mode <;> cases hmark <;> decide

/-! ## Code -/

variable {r : Rasteriser} {style : Value} {config : Option StyleConfig} {bound : Int}

/-- A file of a painting is not taken for vector graphics, and its buffer is that of the painting. -/
theorem decode_source (hfits : t.Fits pixelLimit) (hdata : t.IsFile data) {source : ImageSource}
    (hsvg : source.isSvg data = Svg.looksLikeSvg data) (r : Rasteriser) :
    source.decode data r pixelLimit = ⟨.ok t.buffer, []⟩ := by
  obtain ⟨mark, hmark, hstart⟩ := mark_file hdata
  obtain ⟨mode, told, hdecode⟩ := decode_file hfits hdata
  have hbundled : (Imaging.bundled pixelLimit).decode data = .ok (t.picture mode) := mapError_eq_ok.2 hdecode
  unfold ImageSource.decode
  rw [hsvg, Svg.looksLikeSvg_of_mark hmark hstart, if_neg Bool.false_ne_true]
  rw [Buffer.decode_eq_ok.2 ⟨_, hbundled, ofPicture_picture told⟩]

theorem load_source {source : ImageSource} (hfits : t.Fits pixelLimit) (h : t.IsSource files (.image source))
    (r : Rasteriser) : source.load files r pixelLimit = ⟨.ok t.buffer, []⟩ := by
  cases h with
  | data hdata => exact decode_source hfits hdata rfl r
  | @path path data hdata hread hsuffix =>
    have hsvg : (ImageSource.file path).isSvg data = Svg.looksLikeSvg data := by
      show (hasSvgSuffix path || Svg.looksLikeSvg data) = _
      rw [hsuffix, Bool.false_or]
    unfold ImageSource.load
    rw [show (ImageSource.file path).read files = .ok data from hread]
    exact decode_source hfits hdata hsvg r

/-- **All sources of a painting have one code**, that of the buffer of its bytes, and none of them is rasterised. -/
theorem code_eq (t : Painting) (files : Files) (r : Rasteriser) (pixelLimit : Int) (style : Value)
    (config : Option StyleConfig) (bound : Int) (hfits : t.Fits pixelLimit) :
    ∃ b, Buffer.ofFlat t.width t.height (.bytes t.flat) = .ok b ∧ ∀ source, t.IsSource files source →
      (source.code files r pixelLimit style config bound).result = b.generateNamed style config bound ∧
        (source.code files r pixelLimit style config bound).rasterised = [] := by
  refine ⟨t.buffer, ofFlat_flat hfits, fun source hsource => ?_⟩
  cases source with
  | buffer b =>
    cases hsource with
    | buffer hb =>
      cases (ofFlat_flat hfits).symm.trans hb
      exact ⟨Buffer.result_code .., rfl⟩
  | picture p =>
    cases hsource with
    | picture told =>
      unfold CodeSource.code
      dsimp only
      rw [ofPicture_picture told]
      exact ⟨Buffer.result_code .., rfl⟩
  | image source =>
    unfold CodeSource.code
    dsimp only
    rw [load_source hfits hsource]
    exact ⟨Buffer.result_code .., rfl⟩

/-! A grey pixel. -/

def dot : Painting where
  width := 1
  height := 1
  pixels := [⟨7, 7, 7, 255⟩]
  width_pos := by decide
  height_pos := by decide
  length_eq := rfl

def fastest : Png.StreamStart := ⟨0x78, 0x01, by decide, by decide, by decide, by decide⟩

def spaces : Pnm.Gaps where
  first := ⟨32, [], by decide, by decide⟩
  second := ⟨32, [], by decide, by decide⟩
  third := ⟨32, [], by decide, by decide⟩
  last := 10
  last_isBlank := by decide

theorem dot_isToldBy {mode : Mode} (h : mode.Tells ⟨7, 7, 7, 255⟩) : dot.IsToldBy mode := fun px hpx => by
  rw [List.mem_singleton.1 hpx]
  exact h

/-- A file of the pixel in grey. -/
def dotPgm : Bytes := Pnm.file spaces [0x50, 0x35] 1 1 [7]

/-- A tree with that file alone, whose name has a mark of vector graphics where no suffix is. -/
def dotFiles : Files := .ofPaths [(Path.ofText "svg.pgm", dotPgm)] []

theorem code_eq_dot : ∃ b, Buffer.ofFlat 1 1 (.bytes [7, 7, 7, 255]) = .ok b ∧
    ((CodeSource.image (.bytes (Png.file fastest .greyAlpha 4 1 1 [7, 255]))).code dotFiles .missing (.bundled 1)
      (.bare "pixels") none 400).result = b.generateNamed (.bare "pixels") none 400 ∧
    ((CodeSource.image (.file (Path.ofText "svg.pgm"))).code dotFiles .missing (.bundled 1)
      (.bare "ascii") none 400).result = b.generateNamed (.bare "ascii") none 400 := by
  have hgrey : dot.IsToldBy .grey := dot_isToldBy ⟨rfl, rfl, rfl⟩
  have hgreyAlpha : dot.IsToldBy .greyAlpha := dot_isToldBy ⟨rfl, rfl⟩
  obtain ⟨data, hread, hsame⟩ := exists_ok_of_any (x := dotFiles.read (Path.ofText "svg.pgm")) (p := (· == dotPgm))
    (by decide +kernel)
  obtain rfl : data = dotPgm := beq_iff_eq.1 hsame
  obtain ⟨b, hb, hdata⟩ := code_eq dot dotFiles .missing 1 (.bare "pixels") none 400 ⟨by decide, by decide⟩
  obtain ⟨b', hb', hpath⟩ := code_eq dot dotFiles .missing 1 (.bare "ascii") none 400 ⟨by decide, by decide⟩
  cases hb.symm.trans hb'
  refine ⟨b, hb, (hdata _ (.data (.png fastest hgreyAlpha rfl (by decide)))).1, (hpath _ ?_).1⟩
  exact .path (.pnm spaces hgrey rfl rfl) hread (by decide +kernel)

end Painting

end RasterSketch
