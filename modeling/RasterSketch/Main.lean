import RasterSketch.CommandLine.Run
/-!
# The program

A run of the command line on the files of the system.  No rasteriser is linked, so that vector
graphics are refused.
-/

namespace RasterSketch.CommandLine

/-- The faults that have a place in the library; any other one is left as it is. -/
def faultOf? : IO.Error → Option FileFault
  | .noFileOrDirectory .. => some .missing
  | .permissionDenied .. => some .denied
  | .inappropriateType _ code _ => some (if code = 21 then .isDirectory else .notDirectory)
  | .invalidArgument _ 36 _ => some .nameTooLong
  | _ => none

/-- An operation on the file of a path, with its fault as an error.  A name that stands for bytes
outside of all characters is out of reach. -/
def onFile {α : Type} (p : Path) (operation : String → IO α) : IO (Except Error α) := do
  match NameFault.of? p.text, p.text.toString? with
  | some fault, _ => return .error (.name fault)
  | none, none => return .error (.file ⟨.missing, p.text⟩)
  | none, some name => match ← (operation name).toBaseIO with
    | .ok a => return .ok a
    | .error e => match faultOf? e with
      | some fault => return .error (.file ⟨fault, p.text⟩)
      | none => throw e

def readFile (p : Path) : IO (Except Error Bytes) :=
  onFile p fun name => do return (← IO.FS.readBinFile name).toList

/-- Whether there is something at a path.  What is there has a path of its own; why there is none is
told by opening it. -/
def lookFor (p : Path) : IO (Except Error Bool) := do
  match ← onFile p fun name => IO.FS.realPath name with
  | .ok _ => return .ok true
  | .error _ => match ← readFile p with
    | .ok _ => return .ok true
    | .error e => return e.answerOfLook

/-- The operations on the files of the system. -/
def fileSystem : System IO where
  reaches := lookFor
  read := readFile
  write p content := onFile p fun name => IO.FS.writeBinFile name ⟨content.toArray⟩

/-- There is no rasteriser to be imported. -/
def noRasteriser : Rasteriser := .unavailable "No rasteriser is linked"

def writeLines (stream : IO.FS.Stream) (lines : List Text) : IO Unit :=
  stream.write ⟨(Text.ofLines lines).utf8.toArray⟩

/-- A run on the files of the system; an error that is not reported otherwise is told. -/
def runOnFiles (words : List Text) : IO UInt32 := do
  let o ← run fileSystem noRasteriser (.bundled defaultPixelLimit) words
  let errors ← IO.getStderr
  writeLines errors (o.shownNotes.map Note.line ++ o.errors)
  (← IO.getStdout).write ⟨o.output.utf8.toArray⟩
  match o.ending with
  | .ok status => return UInt32.ofNat status
  | .error e =>
    writeLines errors [e.message]
    return 1

end RasterSketch.CommandLine

def main (words : List String) : IO UInt32 :=
  RasterSketch.CommandLine.runOnFiles (words.map RasterSketch.Text.ofString)
