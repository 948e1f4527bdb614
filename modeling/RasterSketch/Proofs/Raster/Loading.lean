import RasterSketch.Proofs.Files
import RasterSketch.Proofs.Raster.Pixels
import RasterSketch.Raster.Load
/-!
# What loading an image comes to

Loading decodes one piece of data (`ImageSource.decoded?`): what was read, or what the rasteriser made of it.  It gives
the buffer of the image in it, or reports that there is none (`Settled`), as long as the decoder reports its failures on
that piece (`Imaging.Reports`): any other error of the decoder is handed on.  Of a file, the same goes for a path that is
no name in the system (`ImageSource.load_file_settles_iff`).

The rasteriser is called once at most, for data that looks like vector graphics; what it answers is decoded and not
looked at again, and data with the mark of an image format never gets to it (`ImageSource.load_bytes`).
-/
namespace RasterSketch

/-! ## Decoding -/

namespace ImageHeader

variable {h : ImageHeader} {p : Picture}

/-- The samples of an image in the format of its header. -/
def samples (h : ImageHeader) : Except ImageError (List UInt8) :=
  match h.format with
  | .png => Png.samples h
  | .pnm brightest => Pnm.samples h brightest

/-- The picture of samples, if they are as many as its size needs. -/
def pictureOf (h : ImageHeader) (bytes : List UInt8) : Except ImageError Picture :=
  match Picture.ofSamples? h.width h.height h.mode bytes with
  | some p => .ok p
  | none => .error .unidentified

theorem picture_eq (h : ImageHeader) : h.picture = h.checkRoom.mapError .size >>= fun _ => h.samples >>= h.pictureOf := by
  unfold picture samples
  cases h.format <;> rfl

theorem pictureOf_eq_ok {bytes : List UInt8} :
    h.pictureOf bytes = .ok p ↔ Picture.ofSamples? h.width h.height h.mode bytes = some p := by
  unfold pictureOf
  cases Picture.ofSamples? h.width h.height h.mode bytes with
  | none => exact ⟨fun h => (by cases h), fun h => (by cases h)⟩
  | some made => exact ⟨fun h => congrArg some (Except.ok.inj h), fun h => congrArg Except.ok (Option.some.inj h)⟩

/-- **An image is a picture if there is room for it**, and samples for all of its pixels. -/
theorem picture_eq_ok : h.picture = .ok p ↔ h.checkRoom = .ok () ∧
    ∃ bytes, h.samples = .ok bytes ∧ Picture.ofSamples? h.width h.height h.mode bytes = some p := by
  rw [picture_eq, bind_eq_ok]
  constructor
  · rintro ⟨_, hroom, h⟩
    obtain ⟨bytes, hbytes, h⟩ := bind_eq_ok.1 h
    exact ⟨mapError_eq_ok.1 hroom, bytes, hbytes, pictureOf_eq_ok.1 h⟩
  · rintro ⟨hroom, bytes, hbytes, h⟩
    exact ⟨(), mapError_eq_ok.2 hroom, bind_eq_ok.2 ⟨bytes, hbytes, pictureOf_eq_ok.2 h⟩⟩

end ImageHeader

/-- **Data is decoded by its header**, if that has pixels, and no more than are allowed. -/
theorem Picture.decode_eq_ok {pixelLimit : Int} {data : Bytes} {p : Picture} : decode pixelLimit data = .ok p ↔
    ∃ h, ImageHeader.of? data = .ok (some h) ∧ h.pixels ≠ 0 ∧ (h.pixels : Int) ≤ 2 * pixelLimit ∧
      h.picture = .ok p := by
  unfold decode
  rw [bind_eq_ok]
  constructor
  · rintro ⟨found, hfound, h⟩
    cases found with
    | none => cases h
    | some header =>
      dsimp only at h
      by_cases hpixels : header.pixels = 0
      · rw [if_pos hpixels] at h
        cases h
      rw [if_neg hpixels] at h
      by_cases hmany : 2 * pixelLimit < header.pixels
      · rw [if_pos hmany] at h
        cases h
      rw [if_neg hmany] at h
      exact ⟨header, hfound, hpixels, Int.not_lt.1 hmany, h⟩
  · rintro ⟨header, hfound, hpixels, hfew, h⟩
    refine ⟨some header, hfound, ?_⟩
    dsimp only
    rw [if_neg hpixels, if_neg (Int.not_lt.2 hfew)]
    exact h

/-- Data is decoded, or its failure is told as such. -/
def Imaging.Reports (imaging : Imaging) (data : Bytes) : Prop :=
  ∀ e notOwn, imaging.decode data ≠ .error (.other e notOwn)

theorem Imaging.reports_of_decode {imaging : Imaging} {data : Bytes} {image : imaging.Image}
    (h : imaging.decode data = .ok image) : imaging.Reports data := fun e notOwn he => by
  rw [h] at he
  cases he

/-- A buffer, or an image that cannot be decoded, and no other failure. -/
def Settled (result : Except Error Buffer) : Prop := (∃ b, result = .ok b) ∨ ∃ e, result = .error (.decode e)

theorem settled_ok (b : Buffer) : Settled (.ok b) := .inl ⟨b, rfl⟩

theorem settled_decode (e : DecodeError) : Settled (.error (.decode e)) := .inr ⟨e, rfl⟩

theorem settled_error_iff {e : Error} : Settled (.error e) ↔ ∃ cause, e = .decode cause := by
  constructor
  · rintro (⟨b, h⟩ | ⟨cause, h⟩)
    · cases h
    · exact ⟨cause, Except.error.inj h⟩
  · rintro ⟨cause, rfl⟩
    exact settled_decode cause

/-- Whether there is a buffer, or no other failure. -/
def isSettled : Except Error Buffer → Bool
  | .ok _ => true
  | .error (.decode _) => true
  | .error _ => false

theorem isSettled_iff {result : Except Error Buffer} : isSettled result = true ↔ Settled result := by
  cases result with
  | ok b => exact ⟨fun _ => settled_ok b, fun _ => rfl⟩
  | error e =>
    rw [settled_error_iff]
    cases e with
    | decode cause => exact ⟨fun _ => ⟨cause, rfl⟩, fun _ => rfl⟩
    | _ => exact ⟨fun h => (by cases h), fun ⟨_, h⟩ => (by cases h)⟩

instance (result : Except Error Buffer) : Decidable (Settled result) := decidable_of_iff _ isSettled_iff

namespace Buffer

variable {imaging : Imaging} {name : Text} {data : Bytes} {b : Buffer}

theorem decode_eq_ok : decode imaging name data = .ok b ↔
    ∃ image, imaging.decode data = .ok image ∧ ofImage imaging image = b := by
  unfold decode
  cases imaging.decode data with
  | ok image => exact ⟨fun h => ⟨image, rfl, Except.ok.inj h⟩, fun ⟨_, hi, h⟩ => (by cases hi; exact congrArg _ h)⟩
  | error e =>
    refine ⟨fun h => ?_, fun ⟨_, hi, _⟩ => by cases hi⟩
    cases e <;> cases h

/-- An error that is none of an image that cannot be decoded is one of the decoder. -/
theorem decode_eq_error {e : Error} (hown : e.isOwn = false) : decode imaging name data = .error e ↔
    imaging.decode data = .error (.other e hown) := by
  unfold decode
  cases imaging.decode data with
  | ok image => exact ⟨fun h => (by cases h), fun h => (by cases h)⟩
  | error failure =>
    cases failure with
    | reported reason => exact ⟨fun h => (by cases h; cases hown), fun h => (by cases h)⟩
    | other e' notOwn => exact ⟨fun h => (by cases h; rfl), fun h => (by cases h; rfl)⟩

/-- **Data is settled if the decoder reports its failure.** -/
theorem settled_decode_iff : Settled (decode imaging name data) ↔ imaging.Reports data := by
  unfold Imaging.Reports decode
  cases imaging.decode data with
  | ok image => exact ⟨fun _ e notOwn he => (by cases he), fun _ => settled_ok _⟩
  | error failure =>
    cases failure with
    | reported reason => exact ⟨fun _ e notOwn he => (by cases he), fun _ => settled_decode _⟩
    | other e notOwn =>
      refine ⟨fun h => ?_, fun h => absurd rfl (h e notOwn)⟩
      obtain ⟨cause, rfl⟩ := settled_error_iff.1 h
      cases notOwn

/-- A buffer has the size of an image, and at each place the four channels of the image there. -/
structure Shows (b : Buffer) (imaging : Imaging) (image : imaging.Image) : Prop where
  width_eq : b.width = imaging.width image
  height_eq : b.height = imaging.height image
  channels_eq : ∀ x y, x < imaging.width image → y < imaging.height image → (b.pixelAt x y).channels =
    ((imaging.rgba image).drop (RasterSketch.channels * (y * imaging.width image + x))).take RasterSketch.channels

/-- **The buffer of an image shows it.** -/
theorem shows_ofImage (imaging : Imaging) (image : imaging.Image) : (ofImage imaging image).Shows imaging image := by
  refine ⟨rfl, rfl, fun x y hx hy => ?_⟩
  have hplace := index_lt hx hy
  have hroom : RasterSketch.channels * (y * imaging.width image + x) + 4 ≤ (imaging.rgba image).length := by
    rw [imaging.length_rgba]
    unfold RasterSketch.channels
    omega
  exact four_of_drop hroom

end Buffer

/-! ## What is decoded -/

namespace Rasteriser

/-- The image that the rasteriser makes of data, if it makes one. -/
def answer? : Rasteriser → Option Bytes
  | yields image => some image
  | _ => none

def isThere : Rasteriser → Bool
  | unavailable _ => false
  | _ => true

end Rasteriser

namespace ImageSource

variable (source : ImageSource) (data : Bytes) (r : Rasteriser) (imaging : Imaging)

/-- The data that is decoded: what was read, or what the rasteriser makes of vector graphics. -/
def decoded? : Option Bytes := if source.isSvg data then r.answer? else some data

variable {source data r imaging}

theorem result_decode {image : Bytes} (h : source.decoded? data r = some image) :
    (source.decode data r imaging).result = Buffer.decode imaging source.name image := by
  unfold decoded? at h
  unfold decode
  split at h
  · rename_i hsvg
    rw [if_pos hsvg]
    cases r <;> cases h
    rfl
  · rename_i hsvg
    rw [if_neg hsvg]
    cases h
    rfl

theorem result_decode_none (imaging : Imaging) (h : source.decoded? data r = none) :
    ∃ e, (source.decode data r imaging).result = .error (.decode e) := by
  unfold decoded? at h
  unfold decode
  split at h
  · rename_i hsvg
    rw [if_pos hsvg]
    cases r with
    | yields image => cases h
    | unavailable reason => exact ⟨_, rfl⟩
    | fails reason => exact ⟨_, rfl⟩
    | failsOnKey key => exact ⟨_, rfl⟩
  · cases h

/-- **The rasteriser gets vector graphics, as they are and once.** -/
theorem rasterised_decode : (source.decode data r imaging).rasterised =
    if source.isSvg data && r.isThere then [data] else [] := by
  unfold decode
  cases source.isSvg data with
  | false => rfl
  | true => cases r <;> rfl

theorem settled_decode_iff : Settled (source.decode data r imaging).result ↔
    ∀ image, source.decoded? data r = some image → imaging.Reports image := by
  cases h : source.decoded? data r with
  | none =>
    obtain ⟨e, he⟩ := result_decode_none imaging h
    rw [he]
    exact ⟨fun _ image hi => (by cases hi), fun _ => settled_decode e⟩
  | some image =>
    rw [result_decode h, Buffer.settled_decode_iff]
    exact ⟨fun hs image' hi => (by cases hi; exact hs), fun hs => hs image rfl⟩

end ImageSource

/-! ## Marks of image formats -/

namespace Svg

theorem openTag_eq : openTag = [60, 115, 118, 103] := by decide

theorem declaration_eq : declaration = [60, 63, 120, 109, 108] := by decide

/-- What begins neither with a blank nor with an angle is not taken for vector graphics. -/
theorem looksLikeSvg_cons {b : UInt8} (hblank : isAsciiBlank b = false) (hangle : b ≠ 60) (bytes : List UInt8) :
    looksLikeSvg (b :: bytes) = false := by
  have hhead : head (b :: bytes) = b :: bytes.take 1023 := by
    unfold head
    rw [List.take_succ_cons, List.dropWhile_cons_of_neg (by rw [hblank]; decide)]
  have hfirst : ((60 : UInt8) == b) = false := beq_eq_false_iff_ne.2 hangle.symm
  unfold looksLikeSvg
  rw [hhead, openTag_eq, declaration_eq, List.isPrefixOf, List.isPrefixOf, hfirst]
  rfl

/-- What PNG and the two binary forms of PNM begin with. -/
def rasterMarks : List (List UInt8) := [Png.signature, ascii "P5", ascii "P6"]

theorem looksLikeSvg_of_mark {mark data : List UInt8} (hmark : mark ∈ rasterMarks) (h : mark <+: data) :
    looksLikeSvg data = false := by
  obtain ⟨rest, rfl⟩ := h
  have hcases : mark = 0x89 :: [0x50, 0x4e, 0x47, 0x0d, 0x0a, 0x1a, 0x0a] ∨ mark = 0x50 :: [0x35] ∨
      mark = 0x50 :: [0x36] := by
    simpa [rasterMarks, Png.signature, ascii] using hmark
  rcases hcases with rfl | rfl | rfl <;> exact looksLikeSvg_cons (by decide) (by decide) _

end Svg

/-! ## Sources -/

namespace ImageSource

/-- **What loading a file comes to**: a buffer, or a file that cannot be decoded, just if its path is a name and the
decoder settles what it is given; a refusal of the system is a file that cannot be decoded too. -/
theorem load_file_settles_iff (path : Path) (files : Files) (r : Rasteriser) (imaging : Imaging) :
    (Settled ((file path).load files r imaging).result ↔
      NameFault.of? path.text = none ∧ ∀ data image, files.read path = .ok data →
        (file path).decoded? data r = some image → imaging.Reports image) ∧
    ∀ e : FileError, ((file path).decodeRead (.error (.file e)) r imaging).result =
      .error (.decode (.unreadable e)) := by
  refine ⟨?_, fun e => rfl⟩
  show Settled ((file path).decodeRead (files.read path) r imaging).result ↔ _
  cases hname : NameFault.of? path.text with
  | some fault =>
    rw [Files.read_of_fault hname]
    refine ⟨fun h => ?_, fun h => by cases h.1⟩
    obtain ⟨cause, hcause⟩ := settled_error_iff (e := .name fault) |>.1 h
    cases hcause
  | none =>
    rcases Files.read_of_no_fault (t := files) hname with ⟨data, hread⟩ | ⟨cause, hread⟩
    · rw [hread]
      show Settled ((file path).decode data r imaging).result ↔ _
      rw [settled_decode_iff]
      refine ⟨fun h => ⟨rfl, fun data' image hdata => ?_⟩, fun h image => h.2 data image rfl⟩
      cases hdata
      exact h image
    · rw [hread]
      exact ⟨fun _ => ⟨rfl, fun _ _ hdata => by cases hdata⟩, fun _ => settled_decode _⟩

/-- Vector graphics by their name and by their content. -/
def framed : Files := .ofPaths [(Path.ofText "d/a.SVG", ascii "<svg/>")] []

def whitePpm : Bytes := ascii "P6 1 1 255\n" ++ [255, 255, 255]

theorem framed_settles :
    Settled ((file (Path.ofText "./d//a.SVG")).load framed (.yields whitePpm) (.bundled 100)).result := by
  obtain ⟨image, hwhite⟩ := exists_ok (x := (Imaging.bundled 100).decode whitePpm) (by decide +kernel)
  refine (load_file_settles_iff (Path.ofText "./d//a.SVG") framed (.yields whitePpm) (.bundled 100)).1.2
    ⟨Option.isNone_iff_eq_none.1 (by decide +kernel), fun data image hdata himage => ?_⟩
  have hsvg : (file (Path.ofText "./d//a.SVG")).isSvg data = true := by
    have hsuffix : svgSuffixes.any (lowerAscii (Path.ofText "./d//a.SVG").suffix = ·) = true := by decide +kernel
    show (svgSuffixes.any (lowerAscii (Path.ofText "./d//a.SVG").suffix = ·) || Svg.looksLikeSvg data) = true
    rw [hsuffix]
    rfl
  unfold decoded? at himage
  rw [hsvg] at himage
  cases himage
  exact Imaging.reports_of_decode hwhite

/-- A path with a zero in it, and a file that ends behind the mark of its format. -/
theorem unsettled :
    (¬ Settled ((file (Path.ofText "a\x00b")).load (.ofPaths [] []) .missing (.bundled 100)).result) ∧
    ¬ Settled ((file (Path.ofText "a.ppm")).load (.ofPaths [(Path.ofText "a.ppm", ascii "P6 ")] []) .missing
      (.bundled 100)).result := by
  decide +kernel

/-! ## Data -/

/-- What is known of data that has been loaded. -/
structure BytesLoaded (data : Bytes) (r : Rasteriser) (imaging : Imaging) (l : Loaded) : Prop where
  settled_iff : Settled l.result ↔ ∀ decoded, (bytes data).decoded? data r = some decoded → imaging.Reports decoded
  shows : ∀ b, l.result = .ok b → ∃ decoded image, (bytes data).decoded? data r = some decoded ∧
    imaging.decode decoded = .ok image ∧ b.Shows imaging image
  loads : ∀ decoded image, (bytes data).decoded? data r = some decoded → imaging.decode decoded = .ok image →
    ∃ b, l.result = .ok b
  rasterised_eq : l.rasterised = if Svg.looksLikeSvg data && r.isThere then [data] else []

theorem bytesLoaded_decode (data : Bytes) (r : Rasteriser) (imaging : Imaging) :
    BytesLoaded data r imaging ((bytes data).decode data r imaging) where
  settled_iff := settled_decode_iff
  shows b hb := by
    cases hdecoded : (bytes data).decoded? data r with
    | none =>
      obtain ⟨e, he⟩ := result_decode_none imaging hdecoded
      rw [he] at hb
      cases hb
    | some decoded =>
      rw [result_decode hdecoded] at hb
      obtain ⟨image, himage, rfl⟩ := Buffer.decode_eq_ok.1 hb
      exact ⟨decoded, image, rfl, himage, Buffer.shows_ofImage imaging image⟩
  loads decoded image hdecoded himage :=
    ⟨Buffer.ofImage imaging image, by rw [result_decode hdecoded, Buffer.decode_eq_ok]; exact ⟨image, himage, rfl⟩⟩
  rasterised_eq := rasterised_decode

/-- **What loading data comes to**, and that the mark of an image format keeps it from the rasteriser. -/
theorem load_bytes (data : Bytes) (files : Files) (r : Rasteriser) (imaging : Imaging) :
    BytesLoaded data r imaging ((bytes data).load files r imaging) ∧
    ∀ mark ∈ Svg.rasterMarks, mark <+: data → ∀ r' : Rasteriser,
      (bytes data).load files r' imaging = (bytes data).load files r imaging ∧
        ((bytes data).load files r' imaging).rasterised = [] := by
  refine ⟨bytesLoaded_decode data r imaging, fun mark hmark hdata r' => ?_⟩
  have hsvg : (bytes data).isSvg data = false := Svg.looksLikeSvg_of_mark hmark hdata
  have hload : ∀ r : Rasteriser, (bytes data).load files r imaging = ⟨Buffer.decode imaging "<bytes>" data, []⟩ := by
    intro r
    show (bytes data).decode data r imaging = _
    unfold decode
    rw [hsvg]
    rfl
  rw [hload, hload]
  exact ⟨rfl, rfl⟩

theorem load_bytes_white :
    (∃ b image, ((bytes (ascii "\n<svg/>")).load framed (.yields whitePpm) (.bundled 100)).result = .ok b ∧
      (Imaging.bundled 100).decode whitePpm = .ok image ∧ b.Shows (.bundled 100) image) ∧
    ((bytes (ascii "\n<svg/>")).load framed (.yields whitePpm) (.bundled 100)).rasterised = [ascii "\n<svg/>"] ∧
    ((bytes whitePpm).load framed .missing (.bundled 100)).rasterised = [] := by
  have hsvg : Svg.looksLikeSvg (ascii "\n<svg/>") = true := by decide
  have hwhite : (bytes (ascii "\n<svg/>")).decoded? (ascii "\n<svg/>") (.yields whitePpm) = some whitePpm := by
    show (if Svg.looksLikeSvg (ascii "\n<svg/>") then _ else _) = _
    rw [if_pos hsvg]
    rfl
  obtain ⟨image, himage⟩ := exists_ok (x := (Imaging.bundled 100).decode whitePpm) (by decide +kernel)
  have hloaded := (load_bytes (ascii "\n<svg/>") framed (.yields whitePpm) (.bundled 100)).1
  obtain ⟨b, hb⟩ := hloaded.loads whitePpm image hwhite himage
  obtain ⟨decoded, image', hdecoded, himage', hshows⟩ := hloaded.shows b hb
  cases hwhite.symm.trans hdecoded
  refine ⟨⟨b, image', hb, himage', hshows⟩, hloaded.rasterised_eq.trans (by rw [hsvg]; rfl), ?_⟩
  exact ((load_bytes whitePpm framed .missing (.bundled 100)).2 (ascii "P6") (by decide) (by decide) .missing).2

end ImageSource

end RasterSketch
