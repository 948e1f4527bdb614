import RasterSketch.Proofs.Drawing
import RasterSketch.Proofs.Sketch.Nodes
/-!
# Sketches written in bands

The text of a sketch can be written while its image is scanned: the preamble, then the body of each band of samples on
its own, then the epilogue (`Buffer.generateInBands`).  Since a body is the lines of its statements one after the other,
and the bands hold the samples of the scan in its order, that is the text that is generated at once
(`generateInBands_of_generate`).
-/
namespace RasterSketch

/-! ## Texts in parts -/

/-- Texts one after the other. -/
def Text.concat (parts : List Text) : Text := parts.foldr (· ++ ·) ⟨[]⟩

/-! ## Bands -/

namespace Style

/-- The body of a sketch for the samples of one band alone. -/
def bandBody (style : Style) (grid : Grid) (config : StyleConfig) (band : Band) : Except Error Text := do
  (← style.build grid (.ofList band.samples) config).body

theorem drawAll_ofList (style : Style) (config : StyleConfig) (cellSize : Int) (samples : List Sample) :
    style.drawAll config cellSize (.ofList samples) =
      List.flatten <$> samples.mapM (style.draw config cellSize) := by
  rw [Delivery.ofList_eq_traverse, drawAll_traverse]
  rfl

/-- The body of a band is the lines of what its samples draw. -/
theorem bandBody_eq_ok {style : Style} {grid : Grid} {config : StyleConfig} {frame : Program}
    (hf : (StyleRef.style style).frame grid = .ok frame) {band : Band} {groups : List (List Statement)}
    (hg : band.samples.mapM (style.draw config grid.cellSize) = .ok groups) {ls : List Text}
    (hl : Statement.linesAll 1 groups.flatten = .ok ls) :
    style.bandBody grid config band = .ok (Text.ofLines ls) := by
  have hb : style.build grid (.ofList band.samples) config = .ok { frame with statements := groups.flatten } := by
    unfold build
    rw [hf, drawAll_ofList, hg]
    rfl
  unfold bandBody
  rw [hb]
  show (Except.mapError Error.render (Program.body { frame with statements := groups.flatten })) = _
  unfold Program.body Program.bodyLines
  simp only [hl]
  rfl

/-- **The bodies of bands one after the other are the lines of what all their samples draw.** -/
theorem mapM_bandBody {style : Style} {grid : Grid} {config : StyleConfig} {frame : Program}
    (hf : (StyleRef.style style).frame grid = .ok frame) : ∀ {bands : List Band} {groups : List (List Statement)}
    {ls : List Text},
    (bands.flatMap (·.samples)).mapM (style.draw config grid.cellSize) = .ok groups →
    Statement.linesAll 1 groups.flatten = .ok ls →
    ∃ parts, bands.mapM (style.bandBody grid config) = .ok parts ∧ Text.concat parts = Text.ofLines ls
  | [], groups, ls, hg, hl => by
    cases hg
    cases hl
    exact ⟨[], List.mapM_nil, rfl⟩
  | band :: bands, groups, ls, hg, hl => by
    rw [List.flatMap_cons] at hg
    obtain ⟨now, later, hnow, hlater, rfl⟩ := mapM_append_eq_ok.1 hg
    rw [List.flatten_append] at hl
    obtain ⟨as, bs, ha, hb, rfl⟩ := Statement.linesAll_append_eq_ok.1 hl
    obtain ⟨parts, hparts, hconcat⟩ := mapM_bandBody hf hlater hb
    refine ⟨Text.ofLines as :: parts, ?_, ?_⟩
    · rw [List.mapM_cons, bandBody_eq_ok hf hnow ha, hparts]
      rfl
    · rw [Text.ofLines_append, ← hconcat]
      rfl

end Style

namespace Buffer

/-- The text of a sketch, written band by band. -/
def generateInBands (b : Buffer) (style : Style) (config : Option StyleConfig) (bound perBand : Int) :
    Except Error Text := do
  let config := configOr style config
  let grid ← b.gridFor config bound
  let frame ← (StyleRef.style style).frame grid
  let start ← frame.preamble
  let bands ← (b.bands grid.step (.real grid.scale) perBand).toList
  let parts ← bands.mapM (style.bandBody grid config)
  let finish ← frame.epilogueText
  return start ++ Text.concat parts ++ finish

/-- The bands of a buffer on a grid hold the samples of its points, if none is missing. -/
theorem bands_of_samples {b : Buffer} {bound base : Int} {grid : Grid}
    (hg : Grid.compute b.width b.height base bound = .ok grid) (hw : b.width < 2 ^ 53) (hh : b.height < 2 ^ 53)
    {perBand : Int} (hp : 1 ≤ perBand) {samples : List Sample}
    (h : (Scan.gridPoints (Scan.cells b.width grid.step.toNat) grid.step.toNat 0
      (Scan.cells b.height grid.step.toNat)).mapM (Scan.samplePoint b (.real grid.scale)) = .ok samples) :
    ∃ bands, (b.bands grid.step (.real grid.scale) perBand).toList = .ok bands ∧
      bands.flatMap (·.samples) = samples := by
  obtain ⟨hstep, hstep'⟩ := Grid.step_bounds hg
  obtain ⟨hw0, hh0, -⟩ := Grid.of_compute hg
  have hs : 0 < grid.step.toNat := by omega
  have hs' : grid.step.toNat < 2 ^ 1024 := by
    rw [Int.toNat_lt (by omega)]
    exact_mod_cast hstep'
  obtain ⟨bands, hbands, rfl⟩ := Scan.mapM_bandAt (by omega : 0 < perBand.toNat) h
  refine ⟨bands, ?_, rfl⟩
  rw [← Int.toNat_of_nonneg (by omega : 0 ≤ grid.step), ← Int.toNat_of_nonneg (by omega : 0 ≤ perBand),
    bands_eq b hs hs' (by exact_mod_cast hw0) hw (by exact_mod_cast hh0) hh _ (by omega), Delivery.toList_traverse]
  exact hbands

/-- **A sketch written in bands is the sketch that is generated at once**, whatever the number of rows in a band. -/
theorem generateInBands_of_generate (b : Buffer) (style : Style) (config : Option StyleConfig) (bound perBand : Int)
    (text : Text) (hw : b.width < 2 ^ 53) (hh : b.height < 2 ^ 53) (hp : 1 ≤ perBand)
    (h : b.generate style config bound = .ok text) : b.generateInBands style config bound perBand = .ok text := by
  unfold generate at h
  obtain ⟨p, htp, hr⟩ := bind_eq_ok.1 h
  obtain ⟨grid, frame, groups, hg, hf, hgroups, rfl⟩ := of_toProgram htp
  -- the preamble and the epilogue are those of the frame, whatever is drawn in between
  obtain ⟨start, hstart, hr⟩ := bind_eq_ok.1 (mapError_eq_ok.1 hr)
  obtain ⟨middle, hmiddle, hr⟩ := bind_eq_ok.1 hr
  obtain ⟨finish, hfinish, hr⟩ := bind_eq_ok.1 hr
  obtain ⟨ls, hls, hmiddle⟩ := bind_eq_ok.1 hmiddle
  cases hmiddle
  cases hr
  obtain ⟨samples, hsamples, hdraw⟩ := mapM_bind_eq_ok hgroups
  obtain ⟨bands, hbands, rfl⟩ := bands_of_samples hg hw hh hp hsamples
  obtain ⟨parts, hparts, hconcat⟩ := Style.mapM_bandBody hf hdraw hls
  rw [← hconcat]
  exact bind_eq_ok.2 ⟨grid, hg, bind_eq_ok.2 ⟨frame, hf, bind_eq_ok.2 ⟨start, mapError_eq_ok.2 hstart,
    bind_eq_ok.2 ⟨bands, hbands, bind_eq_ok.2 ⟨parts, hparts, bind_eq_ok.2 ⟨finish, mapError_eq_ok.2 hfinish,
      rfl⟩⟩⟩⟩⟩⟩

theorem threeByTwo_in_bands :
    ∃ text, threeByTwo.width < 2 ^ 53 ∧ threeByTwo.height < 2 ^ 53 ∧ (1 : Int) ≤ 1 ∧
      threeByTwo.generate .psychedelic (some ⟨1, 128, false⟩) 3 = .ok text ∧
      threeByTwo.generateInBands .psychedelic (some ⟨1, 128, false⟩) 3 1 = .ok text := by
  obtain ⟨text, h⟩ := exists_ok (x := threeByTwo.generate .psychedelic (some ⟨1, 128, false⟩) 3) (by decide +kernel)
  exact ⟨text, by decide, by decide, by decide, h,
    generateInBands_of_generate _ _ _ _ 1 text (by decide) (by decide) (by decide) h⟩

end Buffer

end RasterSketch
