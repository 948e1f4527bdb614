import RasterSketch.CommandLine.Run
import RasterSketch.Proofs.CommandLine.Settings
import RasterSketch.Proofs.Files
/-!
# How a run of the command line ends

A run that ends as it should has made the sketch that it was asked for and put it in one place (`run_outcome`).  Between
it and a failure stand the image that is not there and the failures of the library's own kinds, with status 1 and their
message.  A run that ends otherwise has put nothing anywhere, with one exception: a write that breaks off behind the
start leaves the first part of the sketch in its file (`Request.BreaksOff`).

There is one image that is not there and is not reported so: one for which the look is refused (`Files.Refuses`), because
its name or its path is too long or because a directory on the way may not be searched.  The refusal is handed on
(`long_name_escapes`).
-/
namespace RasterSketch

/-! ## Runs -/

namespace CommandLine

/-- The sketch that a request asks for: its image is loaded, and code is generated from it. -/
def Request.sketch (q : Request) (files : Files) (r : Rasteriser) (imaging : Imaging) : Except Error Text := do
  let b ← ((ImageSource.file (Path.ofText q.image)).load files r imaging).result
  match q.bound with
  | some bound => b.generateNamed q.style q.config bound
  | none => q.unbounded b

theorem Request.result_code (q : Request) (b : Buffer) : (q.code b).result =
    match q.bound with
    | some bound => b.generateNamed q.style q.config bound
    | none => q.unbounded b := by
  unfold code
  cases q.bound with
  | none => rfl
  | some bound => exact b.result_code q.style q.config bound

theorem Request.result_loaded (q : Request) (l : Loaded) (name : Text) : (l.code name q.code).result =
    l.result >>= fun b => match q.bound with
      | some bound => b.generateNamed q.style q.config bound
      | none => q.unbounded b := by
  unfold Loaded.code
  cases l.result with
  | error e => rfl
  | ok b => exact q.result_code b

/-- A text has gone to standard output, or to the file that is named, and to nothing else. -/
structure Request.Delivers (q : Request) (files : Files) (text : Text) (o : Outcome) (files' : Files) : Prop where
  errors_eq : o.errors = []
  to_output : q.target? = none → o.output = text ∧ files' = files
  to_file : ∀ p, q.target? = some p → o.output = ⟨[]⟩ ∧
    ∃ place, files.locate p = .ok place ∧ files.Sets place text.utf8 files'

/-- The write of a text breaks off: its file has the first part of it, and nothing else has changed. -/
def Request.BreaksOff (q : Request) (files : Files) (text : Text) (o : Outcome) (files' : Files) : Prop :=
  ∃ p place room e, q.target? = some p ∧ files.locate p = .ok place ∧ files.BreaksOff text.utf8 room e ∧
    o.ending = .error e ∧ files.Sets place (text.utf8.take room) files'

/-- What becomes of a text that has been made, or of the failure to make one. -/
structure Request.Finishes (q : Request) (files : Files) (made : Except Error Text) (o : Outcome) (files' : Files) :
    Prop where
  of_failure : ∀ e, made = .error e → e.isOwn = true → o.ending = .ok 1 ∧ o.errors = [e.message]
  of_success : o.ending = .ok 0 → ∃ text, made = .ok text ∧ q.Delivers files text o files'
  unchanged : o.ending ≠ .ok 0 → o.output = ⟨[]⟩ ∧
    (files' = files ∨ ∃ text, made = .ok text ∧ q.BreaksOff files text o files')

/-- An outcome with what is said of a write. -/
def Outcome.afterWrite (o : Outcome) : Except Error Unit → Outcome
  | .ok () => o
  | .error e => { o with ending := .error e }

/-- What is said of the write of a text, and the tree behind it. -/
theorem run_deliver {q : Request} {p : Path} (hp : q.target? = some p) (files : Files) (text : Text) (o : Outcome) :
    (deliver treeSystem q text o).run files =
      (o.afterWrite (files.write p text.utf8).1, (files.write p text.utf8).2) := by
  have hwrite : (treeSystem.write p text.utf8).run files = files.write p text.utf8 := rfl
  unfold deliver
  rw [hp]
  dsimp only
  rw [StateT.run_bind, hwrite]
  obtain ⟨answer, later⟩ := files.write p text.utf8
  cases answer <;> rfl

theorem deliver_finishes (q : Request) (files : Files) (text : Text) {o : Outcome} (hending : o.ending = .ok 0)
    (houtput : o.output = ⟨[]⟩) (herrors : o.errors = []) :
    q.Finishes files (.ok text) ((deliver treeSystem q text o).run files).1
      ((deliver treeSystem q text o).run files).2 := by
  cases htarget : q.target? with
  | none =>
    have hrun : (deliver treeSystem q text o).run files = ({ o with output := text }, files) := by
      unfold deliver
      rw [htarget]
      rfl
    rw [hrun]
    refine ⟨fun e he => (by cases he), fun _ => ⟨text, rfl, herrors, fun _ => ⟨rfl, rfl⟩, fun p hp => ?_⟩,
      fun h => absurd hending h⟩
    cases htarget.symm.trans hp
  | some p =>
    rw [run_deliver htarget]
    -- the file cannot be opened, or it is written as a whole, or the write breaks off
    cases hopen : files.openPlace p with
    | error e =>
      rw [Files.write_of_not_open hopen]
      exact ⟨fun e he => (by cases he), fun h => (by cases h), fun _ => ⟨houtput, .inl rfl⟩⟩
    | ok place =>
      obtain ⟨hplace, -⟩ := Files.openPlace_eq_ok hopen
      rcases Files.write_of_open hopen text.utf8 with hwrite | ⟨room, e, hbreak, hwrite⟩
      · rw [hwrite]
        refine ⟨fun e he => (by cases he), fun _ => ⟨text, rfl, herrors, fun h => ?_, fun p' hp' => ?_⟩,
          fun h => absurd hending h⟩
        · cases htarget.symm.trans h
        · cases htarget.symm.trans hp'
          exact ⟨houtput, place, hplace, Files.sets_set⟩
      · rw [hwrite]
        exact ⟨fun e he => (by cases he), fun h => (by cases h), fun _ => ⟨houtput, .inr ⟨text, rfl, p, place, room, e,
          htarget, hplace, hbreak, rfl, Files.sets_set⟩⟩⟩

theorem finish_finishes (q : Request) (files : Files) (c : Coded) :
    q.Finishes files c.result ((finish treeSystem q c).run files).1 ((finish treeSystem q c).run files).2 := by
  unfold finish
  cases hresult : c.result with
  | ok text => exact deliver_finishes q files text rfl rfl rfl
  | error e =>
    by_cases hown : e.isOwn = true
    · dsimp only
      rw [if_pos hown]
      exact ⟨fun e' he' _ => (by cases he'; exact ⟨rfl, rfl⟩), fun h => (by cases h), fun _ => ⟨rfl, .inl rfl⟩⟩
    · dsimp only
      rw [if_neg hown]
      exact ⟨fun e' he' hown' => (by cases he'; exact absurd hown' hown), fun h => (by cases h),
        fun _ => ⟨rfl, .inl rfl⟩⟩

/-- What a run with a request comes to. -/
structure Request.EndsWith (q : Request) (files : Files) (r : Rasteriser) (imaging : Imaging) (o : Outcome)
    (files' : Files) : Prop where
  of_missing : ¬ files.Has (Path.ofText q.image) → (∀ fault, ¬ files.Refuses (Path.ofText q.image) fault) →
    o.ending = .ok 1 ∧ o.errors = ["File not found: " ++ (Path.ofText q.image).text]
  of_failure : files.Has (Path.ofText q.image) → ∀ e, q.sketch files r imaging = .error e → e.isOwn = true →
    o.ending = .ok 1 ∧ o.errors = [e.message]
  of_success : o.ending = .ok 0 → files.Has (Path.ofText q.image) ∧
    ∃ text, q.sketch files r imaging = .ok text ∧ q.Delivers files text o files'
  of_refusal : ∀ fault, files.Refuses (Path.ofText q.image) fault →
    o.ending = .error (.file ⟨fault, (Path.ofText q.image).text⟩)
  unchanged : o.ending ≠ .ok 0 → o.output = ⟨[]⟩ ∧
    (files' = files ∨ ∃ text, q.sketch files r imaging = .ok text ∧ q.BreaksOff files text o files')

theorem run_runRequest (files : Files) (r : Rasteriser) (imaging : Imaging) (q : Request) :
    (runRequest treeSystem r imaging q).run files =
      match files.reaches (Path.ofText q.image) with
      | .error e => ({ ending := .error e }, files)
      | .ok false =>
        ({ ending := .ok 1, errors := ["File not found: " ++ (Path.ofText q.image).text] }, files)
      | .ok true =>
        (finish treeSystem q (((ImageSource.file (Path.ofText q.image)).load files r imaging).code
          (Path.ofText q.image).text q.code)).run files := by
  have hreaches : (treeSystem.reaches (Path.ofText q.image)).run files =
    (files.reaches (Path.ofText q.image), files) := rfl
  have hread : (treeSystem.read (Path.ofText q.image)).run files = (files.read (Path.ofText q.image), files) := rfl
  unfold runRequest
  dsimp only
  rw [StateT.run_bind, hreaches]
  cases files.reaches (Path.ofText q.image) with
  | error e => rfl
  | ok found => cases found <;> rfl

/-- **How a run with a request ends.** -/
theorem endsWith_runRequest (files : Files) (r : Rasteriser) (imaging : Imaging) (q : Request) :
    q.EndsWith files r imaging ((runRequest treeSystem r imaging q).run files).1
      ((runRequest treeSystem r imaging q).run files).2 := by
  rw [run_runRequest]
  rcases files.reaches_cases (Path.ofText q.image) with ⟨fault, hrefuses, hreaches⟩ | ⟨hhas, hlook, hreaches⟩ |
    ⟨hnone, hlook, hreaches⟩
  · rw [hreaches]
    refine ⟨fun _ h => absurd hrefuses (h fault), fun h => absurd h (Files.not_has_of_refuses hrefuses),
      fun h => (by cases h), fun fault' h => (by rw [hrefuses.eq h]), fun _ => ⟨rfl, .inl rfl⟩⟩
  · rw [hreaches]
    have hfinishes := finish_finishes q files (((ImageSource.file (Path.ofText q.image)).load files r imaging).code
      (Path.ofText q.image).text q.code)
    rw [q.result_loaded] at hfinishes
    exact ⟨fun h => absurd hhas h, fun _ => hfinishes.of_failure, fun h => ⟨hhas, hfinishes.of_success h⟩,
      fun fault h => absurd h (hlook fault), hfinishes.unchanged⟩
  · rw [hreaches]
    exact ⟨fun _ _ => ⟨rfl, rfl⟩, fun h => absurd h hnone, fun h => (by cases h), fun fault h => absurd h (hlook fault),
      fun _ => ⟨rfl, .inl rfl⟩⟩

/-- **How every run ends**: with a request as the request says, which follows the words; and without one nothing is put
anywhere, but for the help that was asked for. -/
theorem run_outcome (files : Files) (r : Rasteriser) (imaging : Imaging) (texts : List Text) :
    (∀ q, Request.ofWords texts = .ok q → (∃ words, Words.classify texts = .ok words ∧ q.Follows words) ∧
      q.EndsWith files r imaging ((run treeSystem r imaging texts).run files).1
        ((run treeSystem r imaging texts).run files).2) ∧
    (∀ stop, Request.ofWords texts = .error stop →
      ((run treeSystem r imaging texts).run files).2 = files ∧
        (((run treeSystem r imaging texts).run files).1.output ≠ ⟨[]⟩ → stop = .help)) := by
  constructor
  · intro q hq
    refine ⟨Request.follows hq, ?_⟩
    unfold run
    rw [hq]
    exact endsWith_runRequest files r imaging q
  · intro stop hstop
    unfold run
    rw [hstop]
    cases stop with
    | help => exact ⟨rfl, fun _ => rfl⟩
    | usage e => exact ⟨rfl, fun h => absurd rfl h⟩

def whitePixel : Files := .ofPaths [(Path.ofText "a.ppm", ascii "P6 1 1 255\n" ++ [255, 255, 255])] []

def whitePixelWords : List Text := ["a.ppm", "--leg", "-om.js", "-m", "7"]

theorem whitePixel_written : ∃ q text, Request.ofWords whitePixelWords = .ok q ∧
    (∃ words, Words.classify whitePixelWords = .ok words ∧ q.Follows words) ∧
    (q.legacy = true ∧ q.bound = some 7 ∧ q.target? = some (Path.ofText "m.js")) ∧
    q.sketch whitePixel .missing (.bundled 100) = .ok text ∧
    q.Delivers whitePixel text ((run treeSystem .missing (.bundled 100) whitePixelWords).run whitePixel).1
      ((run treeSystem .missing (.bundled 100) whitePixelWords).run whitePixel).2 := by
  obtain ⟨q, hq, hset⟩ := exists_ok_of_any (x := Request.ofWords whitePixelWords)
    (p := fun q => q.legacy = true ∧ q.bound = some 7 ∧ q.target? = some (Path.ofText "m.js")) (by decide +kernel)
  obtain ⟨status, hstatus, hzero⟩ := exists_ok_of_any (p := fun status => status = 0)
    (x := ((run treeSystem .missing (.bundled 100) whitePixelWords).run whitePixel).1.ending) (by decide +kernel)
  obtain rfl : status = 0 := of_decide_eq_true hzero
  obtain ⟨hfollows, hends⟩ := (run_outcome whitePixel .missing (.bundled 100) whitePixelWords).1 q hq
  obtain ⟨-, text, htext, hdelivers⟩ := hends.of_success hstatus
  exact ⟨q, text, hq, hfollows, of_decide_eq_true hset, htext, hdelivers⟩

def longName : Text := ⟨List.replicate 256 (.char 'a')⟩

theorem refuses_longName : (Files.ofPaths [] []).Refuses (Path.ofText longName) .nameTooLong := by
  have hname : (NameFault.of? (Path.ofText longName).text).isNone = true := by decide +kernel
  have hsteps : (Path.ofText longName).steps = [] ++ longName :: [] := by decide +kernel
  exact .longName (Option.isNone_iff_eq_none.1 hname) (by decide +kernel) hsteps rfl rfl (by decide +kernel)
    (by decide +kernel)

theorem long_name_escapes : ¬ ∀ (files : Files) (r : Rasteriser) (imaging : Imaging) (texts : List Text) (q : Request),
    Request.ofWords texts = .ok q → ¬ files.Has (Path.ofText q.image) →
      ((run treeSystem r imaging texts).run files).1.ending = .ok 1 := by
  intro h
  obtain ⟨q, hwords, himage⟩ : ∃ q, Request.ofWords [longName] = .ok q ∧ q.image = longName := ⟨_, rfl, rfl⟩
  have hrefuses : (Files.ofPaths [] []).Refuses (Path.ofText q.image) .nameTooLong := himage ▸ refuses_longName
  have hending := h (.ofPaths [] []) .missing (.bundled 0) [longName] q hwords (Files.not_has_of_refuses hrefuses)
  unfold run at hending
  rw [hwords] at hending
  have hescapes := (endsWith_runRequest (.ofPaths [] []) .missing (.bundled 0) q).of_refusal _ hrefuses
  rw [hending] at hescapes
  cases hescapes

end CommandLine

end RasterSketch
