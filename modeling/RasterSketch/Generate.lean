import RasterSketch.Raster.Load
import RasterSketch.Scan.Band
import RasterSketch.Style.Frame
/-!
# From a buffer to a program

The whole way: a grid for the buffer, its scan, the cells of a style, and the text.  What is noted
on the way is computed on the side, so that the way itself stays a function of its arguments.
-/

namespace RasterSketch

/-! ## Notes -/

/-- The part of the library that a note is from, by the name in a log. -/
inductive NoteSource where
  | loading
  | sampling
  | converting

def NoteSource.name : NoteSource → String
  | .loading => "codeart.loader"
  | .sampling => "codeart.sampling"
  | .converting => "codeart.converter"

structure Note where
  source : NoteSource
  message : Text

def Note.line (n : Note) : Text := n.source.name ++ " DEBUG " ++ n.message

def Band.toNote (band : Band) : Note := ⟨.sampling, band.note⟩

/-- What is noted of a source that has been decoded. -/
def Loaded.notes (l : Loaded) (name : Text) : List Note :=
  match l.result with
  | .ok b => [⟨.loading, "Decoded " ++ name ++ ": " ++ sizeText b.width b.height⟩]
  | .error _ => []

/-! ## Programs -/

namespace Buffer

/-- The configuration of a style, unless there is another one. -/
def configOr (style : Style) (config : Option StyleConfig) : StyleConfig :=
  config.getD style.config

def gridFor (b : Buffer) (config : StyleConfig) (bound : Int) : Except Error Grid :=
  Grid.compute b.width b.height config.baseStep bound

/-- The samples of a buffer on a grid. -/
def samplesOn (b : Buffer) (grid : Grid) : Delivery Error Sample :=
  b.scan grid.step (.real grid.scale) 0

/-- The program of a buffer in a style. -/
def toProgram (b : Buffer) (style : Style) (config : Option StyleConfig) (bound : Int) :
    Except Error Program := do
  let config := configOr style config
  let grid ← b.gridFor config bound
  style.build grid (b.samplesOn grid) config

/-- The text of the program of a buffer. -/
def generate (b : Buffer) (style : Style) (config : Option StyleConfig) (bound : Int) :
    Except Error Text := do
  (← b.toProgram style config bound).render

/-- The style is looked up before anything else is done. -/
def toProgramNamed (b : Buffer) (style : Value) (config : Option StyleConfig) (bound : Int) :
    Except Error Program := do
  b.toProgram (← Style.ofValue style) config bound

def generateNamed (b : Buffer) (style : Value) (config : Option StyleConfig) (bound : Int) :
    Except Error Text := do
  b.generate (← Style.ofValue style) config bound

end Buffer

/-- A finite scale to four places. -/
def scaleText : Double → String
  | .finite s m => Double.fixedText 4 s m
  | x => x.shown

/-- What is noted of a grid before its cells are drawn. -/
def Grid.note (grid : Grid) (style : Style) : String :=
  let cells := match Grid.countCells grid.width grid.height grid.step with
    | .ok n => Decimal.intText n
    | .error e => e.message
  style.name ++ ": " ++ sizeText grid.width grid.height ++ " -> " ++
    sizeText grid.scaledWidth grid.scaledHeight ++ " canvas, scale " ++ scaleText grid.scale ++
    ", step " ++ Decimal.intText grid.step ++ ", " ++ cells ++ " cells"

/-- The program of a buffer, with what is noted while it is made. -/
def Buffer.notedProgram (b : Buffer) (style : Value) (config : Option StyleConfig) (bound : Int) :
    Except Error Program × List Note :=
  match Style.ofValue style with
  | .error e => (.error e, [])
  | .ok style =>
    let config := configOr style config
    match b.gridFor config bound with
    | .error e => (.error e, [])
    | .ok grid =>
      let begun : Note := ⟨.converting, grid.note style⟩
      match style.build grid (b.samplesOn grid) config with
      | .error e => (.error e, [begun])
      | .ok p =>
        let count := Decimal.intText p.statements.length
        (.ok p, [begun, ⟨.converting, style.name ++ ": emitted " ++ count ++ " statements"⟩])

/-- Taking notes changes nothing. -/
theorem Buffer.notedProgram_fst (b : Buffer) (style : Value) (config : Option StyleConfig)
    (bound : Int) :
    (b.notedProgram style config bound).1 = b.toProgramNamed style config bound := by
  unfold notedProgram toProgramNamed
  cases Style.ofValue style with
  | error e => rfl
  | ok s =>
    show _ = b.toProgram s config bound
    unfold toProgram
    dsimp only
    cases b.gridFor (configOr s config) bound with
    | error e => rfl
    | ok grid =>
      dsimp only
      show _ = s.build grid (b.samplesOn grid) (configOr s config)
      cases s.build grid (b.samplesOn grid) (configOr s config) <;> rfl

/-! ## From any source -/

/-- What code is made of: a picture, a buffer, or an image that has yet to be loaded. -/
inductive CodeSource where
  | picture (p : Picture)
  | buffer (b : Buffer)
  | image (source : ImageSource)

/-- The text of a program, what was noted on the way, and what the rasteriser was given. -/
structure Coded where
  result : Except Error Text
  notes : List Note
  rasterised : List Bytes

def Buffer.code (b : Buffer) (style : Value) (config : Option StyleConfig) (bound : Int) : Coded :=
  let (program, notes) := b.notedProgram style config bound
  ⟨do (← program).render, notes, []⟩

/-- The text of a buffer's code is what is generated from it. -/
theorem Buffer.result_code (b : Buffer) (style : Value) (config : Option StyleConfig)
    (bound : Int) : (b.code style config bound).result = b.generateNamed style config bound := by
  show ((b.notedProgram style config bound).1 >>= fun p => (p.render : Except Error Text)) = _
  rw [notedProgram_fst]
  unfold toProgramNamed generateNamed generate
  cases Style.ofValue style <;> rfl

/-- Generates from a loaded image, if it could be loaded. -/
def Loaded.code (l : Loaded) (name : Text) (generate : Buffer → Coded) : Coded :=
  match l.result with
  | .ok b =>
    let c := generate b
    ⟨c.result, l.notes name ++ c.notes, l.rasterised ++ c.rasterised⟩
  | .error e => ⟨.error e, [], l.rasterised⟩

def CodeSource.code (source : CodeSource) (files : Files) (r : Rasteriser) (imaging : Imaging)
    (style : Value) (config : Option StyleConfig) (bound : Int) : Coded :=
  match source with
  | .picture p => (Buffer.ofPicture p).code style config bound
  | .buffer b => b.code style config bound
  | .image s => (s.load files r imaging).code s.name fun b => b.code style config bound

end RasterSketch
