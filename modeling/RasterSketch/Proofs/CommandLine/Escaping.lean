import RasterSketch.Proofs.CommandLine.Outcome
import RasterSketch.Proofs.Raster.Sizes
import RasterSketch.Proofs.Totality
/-!
# What a run hands on

A run ends with a status of its own, or hands on an error that it does not report (`run_ends_or_escapes`).  There are six
ways to the latter (`Request.Escapes`): the look for the image is refused; the decoder fails with an error that it does
not tell as such; the file for the text cannot be written; the divider was given for the style or for the bound, which is
then none; or the bound is larger than `2 ^ 1020`, and a number on the way to the sketch has no room in a double.  Up to
that bound every picture has its sketch.
-/
namespace RasterSketch

open Grid (IsSize)

namespace CommandLine

/-! ## Sketches that are not made -/

variable {files : Files} {r : Rasteriser} {imaging : Imaging} {q : Request}

def Request.load (q : Request) (files : Files) (r : Rasteriser) (imaging : Imaging) : Except Error Buffer :=
  ((ImageSource.file (Path.ofText q.image)).load files r imaging).result

/-- The data of the image that a request names, as the decoder gets it. -/
def Request.Decodes (q : Request) (files : Files) (r : Rasteriser) (decoded : Bytes) : Prop :=
  ∃ data, files.read (Path.ofText q.image) = .ok data ∧
    (ImageSource.file (Path.ofText q.image)).decoded? data r = some decoded

/-- The failures that are not reported. -/
inductive Request.Escapes (q : Request) (files : Files) (r : Rasteriser) (imaging : Imaging) : Error → Prop where
  /-- The look for the image is refused. -/
  | refused {fault : FileFault} (hrefuses : files.Refuses (Path.ofText q.image) fault) :
      Escapes q files r imaging (.file ⟨fault, (Path.ofText q.image).text⟩)
  /-- The decoder fails, and does not tell the failure as such. -/
  | undecoded {decoded : Bytes} {e : Error} {notOwn : e.isOwn = false} (hdecodes : q.Decodes files r decoded)
      (fails : imaging.decode decoded = .error (.other e notOwn)) : Escapes q files r imaging e
  /-- The file for the text cannot be written. -/
  | unwritten {text : Text} {p : Path} {e : Error} (made : q.sketch files r imaging = .ok text)
      (target : q.target? = some p) (hwrite : (files.write p text.utf8).1 = .error e) : Escapes q files r imaging e
  /-- The divider was given for the style. -/
  | noStyle {b : Buffer} (loaded : q.load files r imaging = .ok b) (hstyle : q.style = .list []) :
      Escapes q files r imaging (.argument (.unknownStyle (.list [])))
  /-- The divider was given for the bound. -/
  | noBound {b : Buffer} (loaded : q.load files r imaging = .ok b) (hstyle : q.style ≠ .list [])
      (hbound : q.bound = none) : Escapes q files r imaging (.kind .boundIsList)
  /-- A number has no room in a double. -/
  | tooLarge {b : Buffer} {bound : Int} {e : Error} (loaded : q.load files r imaging = .ok b)
      (hbound : q.bound = some bound) (hlarge : 2 ^ Grid.boundLimit < bound)
      (fails : q.sketch files r imaging = .error e) (hown : e.isOwn = false) : Escapes q files r imaging e

/-- An image that is loaded is there. -/
theorem Request.has_of_loaded {b : Buffer} (h : q.load files r imaging = .ok b) : files.Has (Path.ofText q.image) := by
  cases hread : files.read (Path.ofText q.image) with
  | ok data => exact Files.has_of_read hread
  | error e =>
    unfold load ImageSource.load at h
    rw [show (ImageSource.file (Path.ofText q.image)).read files = .error e from hread] at h
    cases e <;> cases h

theorem Request.load_of_read {data : Bytes} (hread : files.read (Path.ofText q.image) = .ok data) :
    q.load files r imaging = ((ImageSource.file (Path.ofText q.image)).decode data r imaging).result := by
  unfold load ImageSource.load
  rw [show (ImageSource.file (Path.ofText q.image)).read files = .ok data from hread]
  rfl

/-- **What is handed on of an image that is there** is an error of the decoder that it does not tell as such. -/
theorem Request.load_eq_error (hhas : files.Has (Path.ofText q.image)) {e : Error} (hown : e.isOwn = false) :
    q.load files r imaging = .error e ↔
      ∃ decoded, q.Decodes files r decoded ∧ imaging.decode decoded = .error (.other e hown) := by
  constructor
  · intro he
    obtain ⟨place, hplace, -⟩ := hhas
    have hread := Files.read_of_place hplace
    cases hat : files.readAt place with
    | error fault =>
      rw [hat] at hread
      unfold load ImageSource.load at he
      rw [show (ImageSource.file (Path.ofText q.image)).read files = _ from hread] at he
      cases he
      cases hown
    | ok data =>
      rw [hat] at hread
      rw [load_of_read hread] at he
      cases hdecoded : (ImageSource.file (Path.ofText q.image)).decoded? data r with
      | none =>
        obtain ⟨cause, hcause⟩ := ImageSource.result_decode_none imaging hdecoded
        cases hcause.symm.trans he
        cases hown
      | some decoded =>
        rw [ImageSource.result_decode hdecoded] at he
        exact ⟨decoded, ⟨data, hread, hdecoded⟩, (Buffer.decode_eq_error hown).1 he⟩
  · rintro ⟨decoded, ⟨data, hread, hdecoded⟩, hfails⟩
    rw [load_of_read hread, ImageSource.result_decode hdecoded]
    exact (Buffer.decode_eq_error hown).2 hfails

theorem Request.sketch_eq (q : Request) (files : Files) (r : Rasteriser) (imaging : Imaging) :
    q.sketch files r imaging = q.load files r imaging >>= fun b => match q.bound with
      | some bound => b.generateNamed q.style q.config bound
      | none => q.unbounded b := rfl

theorem Request.sketch_of_failed {e : Error} (h : q.load files r imaging = .error e) :
    q.sketch files r imaging = .error e := by
  rw [sketch_eq, h]
  rfl

theorem Request.sketch_of_loaded {b : Buffer} (h : q.load files r imaging = .ok b) : q.sketch files r imaging =
    match q.bound with
    | some bound => b.generateNamed q.style q.config bound
    | none => q.unbounded b := by
  rw [sketch_eq, h]
  rfl

/-- No style is looked up before the image is loaded, and none is found then. -/
theorem Request.sketch_of_noStyle {b : Buffer} (h : q.load files r imaging = .ok b) (hstyle : q.style = .list []) :
    q.sketch files r imaging = .error (.argument (.unknownStyle (.list []))) := by
  rw [sketch_of_loaded h]
  cases q.bound with
  | none => unfold unbounded; rw [hstyle]; rfl
  | some bound => unfold Buffer.generateNamed; rw [hstyle]; rfl

theorem Request.sketch_of_noBound (hsides : imaging.HasSides) {b : Buffer} (h : q.load files r imaging = .ok b)
    {style : Style} (hstyle : Style.ofValue q.style = .ok style) (hbound : q.bound = none) :
    q.sketch files r imaging = .error (.kind .boundIsList) := by
  obtain ⟨hw, hh⟩ := ImageSource.size_of_load hsides h
  rw [sketch_of_loaded h, hbound]
  unfold unbounded
  rw [hstyle]
  show (Grid.checkSize b.width b.height >>= fun _ => throw (Error.kind .boundIsList)) = _
  rw [Buffer.checkSize_ok hw.1 hh.1]
  rfl

theorem Request.isSize_baseStep (q : Request) (style : Style) : IsSize (Buffer.configOr style q.config).baseStep := by
  unfold config
  cases q.legacy with
  | false => exact (by decide : IsSize 8)
  | true => exact (by decide : IsSize 4)

theorem Request.isOwn_of_bound (hsides : imaging.HasSides) {b : Buffer} (h : q.load files r imaging = .ok b)
    {style : Style} (hstyle : Style.ofValue q.style = .ok style) {bound : Int} (hbound : q.bound = some bound)
    (hle : bound ≤ 2 ^ Grid.boundLimit) {e : Error} (he : q.sketch files r imaging = .error e) : e.isOwn = true := by
  obtain ⟨hw, hh⟩ := ImageSource.size_of_load hsides h
  rw [sketch_of_loaded h, hbound] at he
  dsimp only at he
  rcases le_or_gt bound 0 with hnonpos | hpos
  · rw [Buffer.generateNamed_of_bound_nonpos hstyle hw.1 hh.1 hnonpos] at he
    cases he
    rfl
  · obtain ⟨p, hp, hwritable⟩ := b.exists_program style q.config hw.isSize hh.isSize (q.isSize_baseStep style) hpos
      ⟨hpos.le, hle⟩ (by decide) le_rfl
    obtain ⟨text, htext, -⟩ := Buffer.generateNamed_of_program hstyle hp hwritable
    rw [htext] at he
    cases he

/-- **Why the sketch of an image that is there is not made**, and this is not reported. -/
theorem Request.escapes_of_sketch (hsides : imaging.HasSides) (hq : IsStyle q.style)
    (hhas : files.Has (Path.ofText q.image)) {e : Error} (he : q.sketch files r imaging = .error e)
    (hown : e.isOwn = false) : q.Escapes files r imaging e := by
  cases hload : q.load files r imaging with
  | error cause =>
    cases (sketch_of_failed hload).symm.trans he
    obtain ⟨decoded, hdecodes, hfails⟩ := (load_eq_error hhas hown).1 hload
    exact .undecoded hdecodes hfails
  | ok b =>
    rcases hq with hnone | ⟨style, hstyle⟩
    · cases (sketch_of_noStyle hload hnone).symm.trans he
      exact .noStyle hload hnone
    · cases hbound : q.bound with
      | none =>
        cases (sketch_of_noBound hsides hload hstyle hbound).symm.trans he
        refine .noBound hload (fun hnone => ?_) hbound
        rw [hnone] at hstyle
        cases hstyle
      | some bound =>
        rcases le_or_gt bound (2 ^ Grid.boundLimit) with hle | hlarge
        · rw [isOwn_of_bound hsides hload hstyle hbound hle he] at hown
          cases hown
        · exact .tooLarge hload hbound hlarge he hown

/-! ## Runs -/

/-- How a run ends whose text has been made, or could not be. -/
def Request.endingOf (q : Request) (files : Files) (made : Except Error Text) : Except Error Nat :=
  match made, q.target? with
  | .ok _, none => .ok 0
  | .ok text, some p => (files.write p text.utf8).1.map fun _ => 0
  | .error e, _ => if e.isOwn then .ok 1 else .error e

theorem ending_finish (q : Request) (files : Files) (c : Coded) :
    ((finish treeSystem q c).run files).1.ending = q.endingOf files c.result := by
  unfold finish Request.endingOf
  cases c.result with
  | error e =>
    dsimp only
    split <;> rfl
  | ok text =>
    cases htarget : q.target? with
    | none =>
      unfold deliver
      rw [htarget]
      rfl
    | some p =>
      dsimp only
      rw [run_deliver htarget]
      cases (files.write p text.utf8).1 <;> rfl

theorem Request.endingOf_eq_ok {made : Except Error Text} {status : Nat} (h : q.endingOf files made = .ok status) :
    status = 0 ∨ status = 1 := by
  unfold endingOf at h
  split at h
  · cases h
    exact .inl rfl
  · obtain ⟨_, -, rfl⟩ := map_eq_ok.1 h
    exact .inl rfl
  · split at h
    · cases h
      exact .inr rfl
    · cases h

theorem Request.escapes_of_endingOf (hsides : imaging.HasSides) (hq : IsStyle q.style)
    (hhas : files.Has (Path.ofText q.image)) {e : Error}
    (h : q.endingOf files (q.sketch files r imaging) = .error e) : q.Escapes files r imaging e := by
  unfold endingOf at h
  cases hsketch : q.sketch files r imaging with
  | error cause =>
    rw [hsketch] at h
    dsimp only at h
    split at h
    · cases h
    · rename_i hown
      cases h
      exact escapes_of_sketch hsides hq hhas hsketch (Bool.eq_false_iff.2 hown)
  | ok text =>
    rw [hsketch] at h
    cases htarget : q.target? with
    | none =>
      rw [htarget] at h
      cases h
    | some p =>
      rw [htarget] at h
      dsimp only at h
      cases hwrite : (files.write p text.utf8).1 with
      | ok _ =>
        rw [hwrite] at h
        cases h
      | error cause =>
        rw [hwrite] at h
        cases h
        exact .unwritten hsketch htarget hwrite

theorem Request.endingOf_of_failed {e : Error} (h : q.sketch files r imaging = .error e) (hown : e.isOwn = false) :
    q.endingOf files (q.sketch files r imaging) = .error e := by
  unfold endingOf
  rw [h]
  dsimp only
  rw [hown]
  rfl

/-- An error escapes because the look is refused, or it is that of an image that is there. -/
theorem Request.Escapes.refused_or_ends (hsides : imaging.HasSides) (hq : IsStyle q.style) {e : Error}
    (h : q.Escapes files r imaging e) :
    (∃ fault, files.Refuses (Path.ofText q.image) fault ∧ e = .file ⟨fault, (Path.ofText q.image).text⟩) ∨
      (files.Has (Path.ofText q.image) ∧ q.endingOf files (q.sketch files r imaging) = .error e) := by
  cases h with
  | refused hrefuses => exact .inl ⟨_, hrefuses, rfl⟩
  | @undecoded decoded e notOwn hdecodes fails =>
    have hhas : files.Has (Path.ofText q.image) := Files.has_of_read hdecodes.choose_spec.1
    have hload := (load_eq_error hhas notOwn).2 ⟨decoded, hdecodes, fails⟩
    exact .inr ⟨hhas, endingOf_of_failed (sketch_of_failed hload) notOwn⟩
  | unwritten made target hwrite =>
    obtain ⟨b, hload, -⟩ := bind_eq_ok.1 made
    refine .inr ⟨has_of_loaded hload, ?_⟩
    unfold endingOf
    rw [made, target]
    dsimp only
    rw [hwrite]
    rfl
  | noStyle loaded hstyle => exact .inr ⟨has_of_loaded loaded, endingOf_of_failed (sketch_of_noStyle loaded hstyle) rfl⟩
  | noBound loaded hstyle hbound =>
    obtain ⟨style, hstyle⟩ := hq.resolve_left hstyle
    exact .inr ⟨has_of_loaded loaded, endingOf_of_failed (sketch_of_noBound hsides loaded hstyle hbound) rfl⟩
  | tooLarge loaded hbound hlarge fails hown => exact .inr ⟨has_of_loaded loaded, endingOf_of_failed fails hown⟩

/-- **A run ends with a status, or hands on an error in one of six ways.** -/
theorem run_ends_or_escapes (files : Files) (r : Rasteriser) (imaging : Imaging) (hsides : imaging.HasSides)
    (texts : List Text) :
    (∀ status, ((run treeSystem r imaging texts).run files).1.ending = .ok status → status ∈ [0, 1, 2]) ∧
    ∀ e, ((run treeSystem r imaging texts).run files).1.ending = .error e ↔
      ∃ q, Request.ofWords texts = .ok q ∧ q.Escapes files r imaging e := by
  unfold run
  cases hwords : Request.ofWords texts with
  | error stop =>
    have hstops : ∀ e, ¬ ∃ q, (Except.error stop : Except Stop Request) = .ok q ∧ q.Escapes files r imaging e :=
      fun e ⟨q, hq, _⟩ => by cases hq
    cases stop with
    | help => exact ⟨fun status h => by cases h; decide, fun e => ⟨fun h => (by cases h), fun h => absurd h (hstops e)⟩⟩
    | usage cause =>
      exact ⟨fun status h => by cases h; decide, fun e => ⟨fun h => (by cases h), fun h => absurd h (hstops e)⟩⟩
  | ok q =>
    have hstyle := Request.isStyle hwords
    dsimp only
    rw [run_runRequest]
    rcases files.reaches_cases (Path.ofText q.image) with ⟨fault, hrefuses, hreaches⟩ | ⟨hhas, hlook, hreaches⟩ |
      ⟨hnone, hlook, hreaches⟩
    · rw [hreaches]
      refine ⟨fun status h => (by cases h), fun e => ⟨fun h => ⟨q, rfl, by cases h; exact .refused hrefuses⟩, ?_⟩⟩
      rintro ⟨_, ⟨⟩, h⟩
      rcases h.refused_or_ends hsides hstyle with ⟨fault', hrefuses', rfl⟩ | ⟨hhas, -⟩
      · rw [hrefuses.eq hrefuses']
      · exact absurd hhas (Files.not_has_of_refuses hrefuses)
    · rw [hreaches]
      dsimp only
      rw [ending_finish, q.result_loaded]
      refine ⟨fun status h => ?_, fun e => ⟨fun h => ⟨q, rfl, ?_⟩, ?_⟩⟩
      · rcases Request.endingOf_eq_ok h with rfl | rfl <;> decide
      · exact Request.escapes_of_endingOf hsides hstyle hhas h
      · rintro ⟨_, ⟨⟩, h⟩
        rcases h.refused_or_ends hsides hstyle with ⟨fault, hrefuses, -⟩ | ⟨-, hends⟩
        · exact absurd hrefuses (hlook fault)
        · exact hends
    · rw [hreaches]
      refine ⟨fun status h => by cases h; decide, fun e => ⟨fun h => (by cases h), ?_⟩⟩
      rintro ⟨_, ⟨⟩, h⟩
      rcases h.refused_or_ends hsides hstyle with ⟨fault, hrefuses, -⟩ | ⟨hhas, -⟩
      · exact absurd hrefuses (hlook fault)
      · exact absurd hhas hnone

theorem whitePixel_ends :
    (∃ status, ((run treeSystem .missing (.bundled 100) whitePixelWords).run whitePixel).1.ending = .ok status ∧
      status ∈ [0, 1, 2]) ∧
    ((run treeSystem .missing (.bundled 100) ["a.ppm", "--style=--"]).run whitePixel).1.ending =
      .error (.argument (.unknownStyle (.list []))) := by
  have hruns := run_ends_or_escapes whitePixel .missing (.bundled 100) (Imaging.hasSides_bundled 100)
  constructor
  · obtain ⟨status, hstatus⟩ := exists_ok
      (x := ((run treeSystem .missing (.bundled 100) whitePixelWords).run whitePixel).1.ending) (by decide +kernel)
    exact ⟨status, hstatus, (hruns whitePixelWords).1 status hstatus⟩
  · obtain ⟨q, hq, hset⟩ := exists_ok_of_any (x := Request.ofWords ["a.ppm", "--style=--"])
      (p := fun q => q.image = "a.ppm" ∧ (Style.ofValue? q.style).isNone) (by decide +kernel)
    obtain ⟨himage, hunknown⟩ := of_decide_eq_true hset
    have hstyle : q.style = .list [] := (Request.isStyle hq).resolve_right fun ⟨style, hstyle⟩ => by
      unfold Style.ofValue at hstyle
      rw [Option.isNone_iff_eq_none.1 hunknown] at hstyle
      cases hstyle
    obtain ⟨b, hb⟩ : ∃ b, q.load whitePixel .missing (.bundled 100) = .ok b := by
      unfold Request.load
      rw [himage]
      exact exists_ok (by decide +kernel)
    exact ((hruns _).2 _).2 ⟨q, hq, .noStyle hb hstyle⟩

/-- An output in a directory that is not there, the divider for a value, a bound of 401 digits, an image whose name is too
long, and one that ends behind the mark of its format. -/
theorem failures_escape :
    (∃ e, ((run treeSystem .missing (.bundled 100) ["a.ppm", "-o", "no/m.js"]).run whitePixel).1.ending = .error e) ∧
    (∃ e, ((run treeSystem .missing (.bundled 100) ["a.ppm", "-s--"]).run whitePixel).1.ending = .error e) ∧
    (∃ e, ((run treeSystem .missing (.bundled 100) ["a.ppm", "-m--"]).run whitePixel).1.ending = .error e) ∧
    (∃ e, ((run treeSystem .missing (.bundled 100)
      ["a.ppm", "-m", ⟨.char '1' :: List.replicate 400 (.char '0')⟩]).run whitePixel).1.ending = .error e) ∧
    (∃ e, ((run treeSystem .missing (.bundled 100) [longName]).run whitePixel).1.ending = .error e) ∧
    ∃ e, ((run treeSystem .missing (.bundled 100) ["a.ppm"]).run
      (.ofPaths [(Path.ofText "a.ppm", ascii "P6 ")] [])).1.ending = .error e := by
  refine ⟨exists_error ?_, exists_error ?_, exists_error ?_, exists_error ?_, exists_error ?_, exists_error ?_⟩ <;>
    decide +kernel

end CommandLine

end RasterSketch
