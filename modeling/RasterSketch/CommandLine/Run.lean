import RasterSketch.CommandLine.Usage
import RasterSketch.Generate
/-!
# A run of the command line

A run looks whether the image is there, reads it, generates, and writes the text to standard output
or to a file.  What it needs of the place where it runs is a `System` of three operations, so that a
tree of files can stand for the real one.  Failures of the library's own kinds end a run with status
1 and their message; any other failure is handed on as it is.
-/

namespace RasterSketch.CommandLine

/-- The operations on files that a run makes use of. -/
structure System (m : Type → Type) where
  reaches : Path → m (Except Error Bool)
  read : Path → m (Except Error Bytes)
  write : Path → Bytes → m (Except Error Unit)

/-- The operations on a tree of files. -/
def treeSystem : System (StateM Files) where
  reaches p := do return (← get).reaches p
  read p := do return (← get).read p
  write p content := modifyGet fun files => files.write p content

/-- How a run ends, with a status or with an error that is not its own to report; what it writes to
standard output and reports as errors; and what was noted before that. -/
structure Outcome where
  ending : Except Error Nat
  output : Text := ⟨[]⟩
  errors : List Text := []
  notes : List Note := []
  verbose : Bool := false
  rasterised : List Bytes := []

/-- The notes that are to be seen. -/
def Outcome.shownNotes (o : Outcome) : List Note := if o.verbose then o.notes else []

namespace Request

def config (q : Request) : Option StyleConfig := if q.legacy then some .legacy else none

/-- Without a bound there is nothing that the size of a buffer could be compared with. -/
def unbounded (q : Request) (b : Buffer) : Except Error Text := do
  let _ ← Style.ofValue q.style
  Grid.checkSize b.width b.height
  throw (.kind .boundIsList)

/-- The code that is asked for. -/
def code (q : Request) (b : Buffer) : Coded :=
  match q.bound with
  | some bound => b.code q.style q.config bound
  | none => ⟨q.unbounded b, [], []⟩

end Request

variable {m : Type → Type} [Monad m]

/-- The file that the text goes to, unless it goes to standard output. -/
def Request.target? (q : Request) : Option Path :=
  match q.output with
  | some name => if name.isEmpty then none else some (Path.ofText name)
  | none => none

/-- Writes the text of a program where it is to go. -/
def deliver (sys : System m) (q : Request) (text : Text) (o : Outcome) : m Outcome :=
  match q.target? with
  | none => pure { o with output := text }
  | some p => do
    match ← sys.write p text.utf8 with
    | .ok () => return o
    | .error e => return { o with ending := .error e }

/-- Ends a run whose code is made. -/
def finish (sys : System m) (q : Request) (c : Coded) : m Outcome :=
  let o : Outcome :=
    { ending := .ok 0, notes := c.notes, verbose := q.verbose, rasterised := c.rasterised }
  match c.result with
  | .ok text => deliver sys q text o
  | .error e =>
    if e.isOwn then pure { o with ending := .ok 1, errors := [e.message] }
    else pure { o with ending := .error e }

def runRequest (sys : System m) (r : Rasteriser) (imaging : Imaging) (q : Request) : m Outcome := do
  let path := Path.ofText q.image
  match ← sys.reaches path with
  | .error e => return { ending := .error e }
  | .ok false => return { ending := .ok 1, errors := ["File not found: " ++ path.text] }
  | .ok true =>
    let source := ImageSource.file path
    let loaded := source.decodeRead (← sys.read path) r imaging
    finish sys q (loaded.code source.name q.code)

/-- A run with the words of a command line. -/
def run (sys : System m) (r : Rasteriser) (imaging : Imaging) (words : List Text) : m Outcome :=
  match Request.ofWords words with
  | .ok q => runRequest sys r imaging q
  | .error .help => pure { ending := .ok 0, output := .ofLines (helpLines.map Text.ofString) }
  | .error (.usage e) => pure { ending := .ok 2, errors := e.lines }

end RasterSketch.CommandLine
