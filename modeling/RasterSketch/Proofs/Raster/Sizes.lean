import RasterSketch.Proofs.Fitting
import RasterSketch.Proofs.Raster.Flat
import RasterSketch.Proofs.Raster.Loading
import RasterSketch.Raster.Filled
/-!
# Sizes of what is loaded or given

An image that is decoded has pixels, and sides that half a word can hold (`Imaging.HasSides`): the bundled decoder refuses
any other (`Imaging.hasSides_bundled`).  So whatever is loaded has sides that a grid can be fitted to
(`ImageSource.size_of_load`).  A picture that is given may be empty, but
its sides are half words too (`Picture.size_of_filled`), and the dimensions of an array are words
(`PixelArray.lt_of_ofValues`).
-/
namespace RasterSketch

open Grid (IsCount)

theorem checkHalfWord_eq_ok {n : Int} (h : checkHalfWord n = .ok ()) : n < 2 ^ 31 := by
  unfold checkHalfWord greatestHalfWord at h
  split at h
  · cases h
  split at h
  · cases h
  · omega

theorem checkSize_eq_ok {w h : Int} (hsize : checkSize w h = .ok ()) : w < 2 ^ 31 ∧ h < 2 ^ 31 := by
  obtain ⟨_, hw, hrest⟩ := bind_eq_ok.1 hsize
  obtain ⟨_, hh, -⟩ := bind_eq_ok.1 hrest
  exact ⟨checkHalfWord_eq_ok (mapError_eq_ok.1 hw), checkHalfWord_eq_ok (mapError_eq_ok.1 hh)⟩

theorem Picture.size_of_ofSamples? {width height : Nat} {mode : Mode} {samples : List UInt8} {p : Picture}
    (h : ofSamples? width height mode samples = some p) : p.width = width ∧ p.height = height := by
  unfold ofSamples? at h
  split at h
  · cases h
    exact ⟨rfl, rfl⟩
  · cases h

/-- **A picture that is decoded has pixels**, and sides that fit half a word. -/
theorem Picture.size_of_decode {pixelLimit : Int} {data : Bytes} {p : Picture} (h : decode pixelLimit data = .ok p) :
    IsCount p.width ∧ IsCount p.height := by
  obtain ⟨header, -, hpixels, -, hpicture⟩ := decode_eq_ok.1 h
  obtain ⟨hroom, _, -, hsamples⟩ := ImageHeader.picture_eq_ok.1 hpicture
  obtain ⟨_, hsize, -⟩ := bind_eq_ok.1 hroom
  obtain ⟨hw, hh⟩ := checkSize_eq_ok hsize
  obtain ⟨hwidth, hheight⟩ := size_of_ofSamples? hsamples
  have hpos := Nat.pos_of_ne_zero hpixels
  have hcolumns : 0 < header.width := Nat.pos_of_mul_pos_right hpos
  have hrows : 0 < header.height := Nat.pos_of_mul_pos_left hpos
  rw [hwidth, hheight]
  exact ⟨⟨by omega, hw⟩, by omega, hh⟩

/-- Every image that is decoded has pixels, and sides that fit half a word. -/
def Imaging.HasSides (imaging : Imaging) : Prop :=
  ∀ data image, imaging.decode data = .ok image → IsCount (imaging.width image) ∧ IsCount (imaging.height image)

theorem Imaging.hasSides_bundled (pixelLimit : Int) : (bundled pixelLimit).HasSides := fun _ _ himage =>
  Picture.size_of_decode (mapError_eq_ok.1 himage)

theorem Buffer.size_of_decode {imaging : Imaging} (hsides : imaging.HasSides) {name : Text} {data : Bytes} {b : Buffer}
    (h : decode imaging name data = .ok b) : IsCount b.width ∧ IsCount b.height := by
  obtain ⟨image, himage, rfl⟩ := decode_eq_ok.1 h
  exact hsides data image himage

theorem ImageSource.size_of_load {imaging : Imaging} (hsides : imaging.HasSides) {source : ImageSource} {files : Files}
    {r : Rasteriser} {b : Buffer} (h : (source.load files r imaging).result = .ok b) :
    IsCount b.width ∧ IsCount b.height := by
  unfold load decodeRead at h
  split at h
  · rename_i data hdata
    cases hdecoded : source.decoded? data r with
    | none =>
      obtain ⟨e, he⟩ := result_decode_none imaging hdecoded
      rw [he] at h
      cases h
    | some decoded =>
      rw [result_decode hdecoded] at h
      exact Buffer.size_of_decode hsides h
  · cases h

/-! ## Pictures and arrays that are given -/

theorem Picture.size_of_ofFirst {width height : Nat} {mode : Mode} {pixels : List PixelValue} {p : Picture}
    (hok : ofFirst width height mode pixels = .ok p) : p.width = width ∧ p.height = height := by
  unfold ofFirst at hok
  obtain ⟨-, hok⟩ := guard_eq_ok.1 hok
  obtain ⟨samples, -, hok⟩ := bind_eq_ok.1 hok
  dsimp only at hok
  split at hok
  · cases hok
    exact size_of_ofSamples? ‹_›
  · cases hok

/-- The sides of a picture that is filled are half words. -/
theorem Picture.size_of_filled {width height : Int} {mode : Mode} {palette : Option (List Value)}
    {pixels : List PixelValue} {p : Picture} (hok : filled width height mode palette pixels = .ok p) :
    p.width < 2 ^ 31 ∧ p.height < 2 ^ 31 := by
  unfold filled at hok
  obtain ⟨-, hok⟩ := guard_eq_ok.1 hok
  obtain ⟨_, hsize, hok⟩ := bind_eq_ok.1 hok
  obtain ⟨hw, hh⟩ := checkSize_eq_ok (mapError_eq_ok.1 hsize)
  have hfirst : ∃ mode', ofFirst width.toNat height.toNat mode' pixels = .ok p := by
    cases palette with
    | none => exact ⟨_, hok⟩
    | some values =>
      obtain ⟨mode', -, hok⟩ := bind_eq_ok.1 hok
      exact ⟨mode', hok⟩
  obtain ⟨mode', hok⟩ := hfirst
  obtain ⟨hwidth, hheight⟩ := size_of_ofFirst hok
  omega

theorem checkExtent_fits {shape : List Nat} {n : Nat} (hok : checkExtent (shape.map fun (d : Nat) => d) n = .ok ())
    {d : Nat} (hd : d ∈ shape) : d < 2 ^ 63 := by
  unfold checkExtent at hok
  split at hok
  · cases hok
  · rename_i hfits
    rw [Bool.not_eq_true', Bool.not_eq_false, List.all_eq_true] at hfits
    have hfit := hfits _ (List.mem_map_of_mem hd)
    rw [fitsWord_iff] at hfit
    omega

namespace PixelArray

variable {shape : List Int} {a : PixelArray} {d : Nat}

theorem lt_of_ofElements {layout : Layout} {count : Nat} {bytes : List UInt8}
    (hok : ofElements shape layout count bytes = .ok a) (hd : d ∈ a.shape) : d < 2 ^ 63 := by
  unfold ofElements at hok
  obtain ⟨-, hok⟩ := guard_eq_ok.1 hok
  obtain ⟨-, hok⟩ := guard_eq_ok.1 hok
  obtain ⟨shape, -, hok⟩ := bind_eq_ok.1 hok
  obtain ⟨_, hextent, hok⟩ := bind_eq_ok.1 hok
  cases hok
  exact checkExtent_fits (mapError_eq_ok.1 hextent) hd

/-- The dimensions of an array are words. -/
theorem lt_of_ofValues {name : Text} {values : List Value} (hok : ofValues shape name values = .ok a)
    (hd : d ∈ a.shape) : d < 2 ^ 63 := by
  unfold ofValues at hok
  split at hok
  · cases hok
  · obtain ⟨layout, -, hok⟩ := bind_eq_ok.1 hok
    obtain ⟨leaves, -, hok⟩ := bind_eq_ok.1 hok
    obtain ⟨fit, -, hok⟩ := bind_eq_ok.1 hok
    generalize spread fit = elements at hok
    obtain ⟨_, -, hok⟩ := bind_eq_ok.1 hok
    dsimp only at hok
    split at hok <;>
    · obtain ⟨bytes, -, hok⟩ := bind_eq_ok.1 hok
      exact lt_of_ofElements hok hd

end PixelArray

end RasterSketch
