import RasterSketch.Proofs.Sketch.Nodes
import RasterSketch.Sketch.Program
/-!
# The sections of a program

A program is written section by section, and what is drawn in a frame as one of them (`Program.render_eq`): its three
lists have lines of one indent, and neither the open end of the preamble nor the closing of the epilogue leaves a mark
where a list is empty.  So it makes no difference where they are cut (`Program.render_eq_of_drawn_eq`), not even to the
error if one of their statements is none.
-/

namespace RasterSketch.Program

open Statement (linesAll)

/-- All that is drawn in a frame, from the prologue to the epilogue. -/
def frameStatements (p : Program) : List Statement := p.prologue ++ p.statements ++ p.epilogue

/-- The lines from `setup` on. -/
def mainLines (setup drawn helpers : List Text) : List Text :=
  setup ++ ⟨[]⟩ :: ("function draw() \x7b" : Text) :: (drawn ++ ("\x7d" : Text) :: helpers)

/-- The text of a program whose lines are given section by section. -/
def sectionsText (noGlobals : Bool) (globals setup drawn helpers : List Text) : Text :=
  .ofLines (globals ++ if noGlobals then mainLines setup drawn helpers else ⟨[]⟩ :: mainLines setup drawn helpers)

theorem sectionsText_eq (noGlobals : Bool) (globals setup prologue body epilogue helpers : List Text) :
    sectionsText noGlobals globals setup (prologue ++ body ++ epilogue) helpers =
      .ofLines (globals ++ (if noGlobals then [] else [("" : Text)]) ++ setup ++
        [("" : Text), ("function draw() \x7b" : Text)] ++ prologue) ++ .ofLines body ++
          .ofLines (epilogue ++ ("\x7d" : Text) :: helpers) := by
  rw [sectionsText, ← Text.ofLines_append, ← Text.ofLines_append]
  cases noGlobals <;> simp [mainLines, Text.ofString, Text.ofChars]

/-- **A program is written section by section**, up to the first that cannot be, and what is drawn in a frame is one of
them. -/
theorem render_eq (p : Program) : p.render = do
    let globals ← linesAll 0 p.globals
    let setup ← Statement.lines 0 (.function "setup" [] p.setup)
    let drawn ← linesAll 1 p.frameStatements
    let helpers ← helperLines p.helpers
    return sectionsText p.globals.isEmpty globals setup drawn helpers := by
  rw [render, preamble, preambleLines, body, bodyLines, epilogueText, epilogueLines, frameStatements,
    Statement.linesAll_append, Statement.linesAll_append]
  -- where a section fails all that is behind it falls away on both sides
  cases linesAll 0 p.globals with
  | error e => rfl
  | ok globals =>
  cases Statement.lines 0 (.function "setup" [] p.setup) with
  | error e => rfl
  | ok setup =>
  cases linesAll 1 p.prologue with
  | error e => rfl
  | ok prologue =>
  cases linesAll 1 p.statements with
  | error e => rfl
  | ok body =>
  cases linesAll 1 p.epilogue with
  | error e => rfl
  | ok epilogue =>
  cases helperLines p.helpers with
  | error e => rfl
  | ok helpers => exact congrArg Except.ok (sectionsText_eq ..).symm

/-- **It makes no difference where a frame is cut**: programs that differ in that alone have the same text, or fail with
the same error. -/
theorem render_eq_of_drawn_eq {p q : Program} (hglobals : p.globals = q.globals) (hsetup : p.setup = q.setup)
    (hhelpers : p.helpers = q.helpers)
    (hdrawn : p.prologue ++ p.statements ++ p.epilogue = q.prologue ++ q.statements ++ q.epilogue) :
    p.render = q.render := by
  have hdrawn : p.frameStatements = q.frameStatements := hdrawn
  rw [render_eq, render_eq, hglobals, hsetup, hhelpers, hdrawn]

def cutFrame : Program where
  globals := [.declare "t" 0]
  prologue := [.call "noStroke" []]
  statements := [.call "circle" [.variable "t", 0, 4]]
  epilogue := [.increment "t" 0.05]

def uncutFrame : Program where
  globals := [.declare "t" 0]
  statements := [.call "noStroke" [], .call "circle" [.variable "t", 0, 4], .increment "t" 0.05]

theorem cutFrame_uncutFrame : cutFrame.globals = uncutFrame.globals ∧ cutFrame.setup = uncutFrame.setup ∧
    cutFrame.helpers = uncutFrame.helpers ∧
    cutFrame.prologue ++ cutFrame.statements ++ cutFrame.epilogue =
      uncutFrame.prologue ++ uncutFrame.statements ++ uncutFrame.epilogue ∧
    (∃ t, cutFrame.render = .ok t) ∧ cutFrame.render = uncutFrame.render :=
  ⟨rfl, rfl, rfl, rfl, exists_ok (by decide +kernel), render_eq_of_drawn_eq rfl rfl rfl rfl⟩

end RasterSketch.Program
