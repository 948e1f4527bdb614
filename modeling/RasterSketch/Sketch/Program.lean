import RasterSketch.Sketch.Render
import RasterSketch.Text.Lines
/-!
# Programs

A program is a sketch in six lists: declarations, the setup, the start, middle and end of what is
drawn in each frame, and helper functions.  Its text falls into a preamble, which is open in the
middle of `draw`, a body, and an epilogue which closes it, so that a body can be written in parts.
-/

namespace RasterSketch

structure Program where
  globals : List Statement := []
  setup : List Statement := []
  prologue : List Statement := []
  statements : List Statement := []
  epilogue : List Statement := []
  helpers : List Statement := []
  deriving Inhabited

namespace Program

def preambleLines (p : Program) : Except RenderError (List Text) := do
  let globals ← Statement.linesAll 0 p.globals
  let setup ← Statement.lines 0 (.function "setup" [] p.setup)
  let prologue ← Statement.linesAll 1 p.prologue
  let gap : List Text := if p.globals.isEmpty then [] else [""]
  let draw : List Text := ["", "function draw() \x7b"]
  return globals ++ gap ++ setup ++ draw ++ prologue

def bodyLines (p : Program) : Except RenderError (List Text) := Statement.linesAll 1 p.statements

/-- Each helper behind an empty line. -/
def helperLines : List Statement → Except RenderError (List Text)
  | [] => .ok []
  | h :: hs => do
    let l ← Statement.lines 0 h
    let ls ← helperLines hs
    return ↑"" :: l ++ ls

def epilogueLines (p : Program) : Except RenderError (List Text) := do
  let epilogue ← Statement.linesAll 1 p.epilogue
  let helpers ← helperLines p.helpers
  return epilogue ++ ↑"\x7d" :: helpers

def preamble (p : Program) : Except RenderError Text := return Text.ofLines (← p.preambleLines)

def body (p : Program) : Except RenderError Text := return Text.ofLines (← p.bodyLines)

def epilogueText (p : Program) : Except RenderError Text := return Text.ofLines (← p.epilogueLines)

/-- The text of a program: preamble, body, epilogue. -/
def render (p : Program) : Except RenderError Text := do
  let start ← p.preamble
  let middle ← p.body
  let finish ← p.epilogueText
  return start ++ middle ++ finish

end Program

end RasterSketch
