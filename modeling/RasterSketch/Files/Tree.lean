import RasterSketch.Error
import RasterSketch.Files.Path
/-!
# A tree of files

The files and directories that a run sees, each at its place below the root, and what may not be
done to them.  A path is followed name by name, from the root or from the working directory, so that
each fault of the system has its place: a name that is missing or too long, one below a file or in a
directory that may not be searched, a directory where a file is asked for.  There are no links.

A file is opened before it is written, and has lost its content by then.  Whatever breaks the write
off later leaves what was written before.
-/

namespace RasterSketch

/-- The names that lead to a file or a directory from the root. -/
abbrev Place := List Text

structure Files where
  files : List (Place × Bytes)
  directories : List Place
  working : Place
  /-- Directories that may not be searched. -/
  unsearchable : List Place := []
  /-- Files and directories that may not be read. -/
  unreadable : List Place := []
  /-- Files and directories that may not be written to. -/
  unwritable : List Place := []
  /-- The bytes of a file that are written at most, and the error that the next one is. -/
  breakOff : Option (Nat × Error) := none

inductive Entry where
  | file (content : Bytes)
  | directory

/-- A fault by which there is nothing at a path. -/
def FileFault.isAbsence : FileFault → Bool
  | .missing => true
  | .notDirectory => true
  | _ => false

/-- What a look for a path makes of its failure: there is nothing at what cannot be a path, but a
refusal is no answer. -/
def Error.answerOfLook : Error → Except Error Bool
  | .name _ => .ok false
  | .file e => if e.fault.isAbsence then .ok false else .error (.file e)
  | e => .error e

/-- The names by which a path is followed; without any, it is that of the directory itself. -/
def Path.steps (p : Path) : List Text := if p.root = "" ∧ p.names = [] then ["."] else p.names

namespace Files

def content? (t : Files) (place : Place) : Option Bytes :=
  (t.files.find? (·.1 = place)).map (·.2)

/-- A directory is the working one, or listed, or something lies below it. -/
def isDirectory (t : Files) (place : Place) : Bool :=
  place.isPrefixOf t.working || t.directories.any (place.isPrefixOf ·) ||
    t.files.any fun f => place.isPrefixOf f.1 && f.1 != place

def entry? (t : Files) (place : Place) : Option Entry :=
  match t.content? place with
  | some content => some (.file content)
  | none => if t.isDirectory place then some .directory else none

/-- The longest name that a directory can have, in bytes. -/
def nameLimit : Nat := 255

/-- The longest path that a system call takes, in bytes. -/
def pathLimit : Nat := 4095

/-- The place that a name leads to from a directory.  The root is above itself. -/
def enter (place : Place) (name : Text) : Except FileFault Place :=
  if name = "." then .ok place
  else if name = ".." then .ok place.dropLast
  else if nameLimit < name.systemSize then .error .nameTooLong
  else .ok (place ++ [name.systemForm])

/-- The place that a name leads to from a place, where there has to be a directory that may be searched. -/
def step (t : Files) (place : Place) (name : Text) : Except FileFault Place :=
  match t.entry? place with
  | none => .error .missing
  | some (.file _) => .error .notDirectory
  | some .directory => if place ∈ t.unsearchable then .error .denied else enter place name

/-- The place that names lead to. -/
def follow (t : Files) (place : Place) (names : List Text) : Except FileFault Place := names.foldlM t.step place

/-- Where a path begins. -/
def start (t : Files) (p : Path) : Place := if p.root = "" then t.working else []

def place (t : Files) (p : Path) : Except FileFault Place :=
  if pathLimit < p.text.systemSize then .error .nameTooLong else t.follow (t.start p) p.steps

/-- The place that a path leads to, as an operation on it finds out. -/
def locate (t : Files) (p : Path) : Except Error Place :=
  match NameFault.of? p.text with
  | some fault => .error (.name fault)
  | none => (t.place p).mapError fun fault => .file ⟨fault, p.text⟩

/-- Whether a path leads to a file or a directory. -/
def reaches (t : Files) (p : Path) : Except Error Bool :=
  match t.locate p with
  | .ok place => .ok (t.entry? place).isSome
  | .error e => e.answerOfLook

/-- The content of the file at a place. -/
def readAt (t : Files) (place : Place) : Except FileFault Bytes :=
  match t.entry? place with
  | none => .error .missing
  | some entry =>
    if place ∈ t.unreadable then .error .denied
    else match entry with
      | .directory => .error .isDirectory
      | .file content => .ok content

def read (t : Files) (p : Path) : Except Error Bytes := do
  (t.readAt (← t.locate p)).mapError fun fault => .file ⟨fault, p.text⟩

/-- Whether a file at a place may be written.  A new one is written to its directory. -/
def checkWritable (t : Files) (place : Place) : Except FileFault Unit :=
  match t.entry? place with
  | some .directory => .error .isDirectory
  | some (.file _) => if place ∈ t.unwritable then .error .denied else .ok ()
  | none => if place.dropLast ∈ t.unwritable then .error .denied else .ok ()

/-- The place of a file that is opened to be written. -/
def openPlace (t : Files) (p : Path) : Except Error Place := do
  let place ← t.locate p
  (t.checkWritable place).mapError fun fault => .file ⟨fault, p.text⟩
  return place

/-- The tree with the content of one file set. -/
def set (t : Files) (place : Place) (content : Bytes) : Files :=
  { t with files := t.files.filter (·.1 ≠ place) ++ [(place, content)] }

/-- What is said when an opened file is filled, and the tree with as much of it as is written. -/
def fill (t : Files) (place : Place) (content : Bytes) : Except Error Unit × Files :=
  match t.breakOff with
  | none => (.ok (), t.set place content)
  | some (room, e) =>
    if content.length ≤ room then (.ok (), t.set place content)
    else (.error e, t.set place (content.take room))

/-- What is said of a write, and the tree behind it. -/
def write (t : Files) (p : Path) (content : Bytes) : Except Error Unit × Files :=
  match t.openPlace p with
  | .ok place => t.fill place content
  | .error e => (.error e, t)

/-- A directory of its own, which no path has a name for. -/
def ownDirectory : Place := [⟨[]⟩]

/-- The place that a path has by its names, whatever is there. -/
def named (t : Files) (p : Path) : Place := t.start p ++ p.names.map Text.systemForm

/-- The tree of files and directories at the given paths, as they are seen from a directory of its
own.  The last of the files at one path is there. -/
def ofPaths (files : List (Path × Bytes)) (directories : List Path) : Files :=
  let empty : Files := { files := [], directories := [], working := ownDirectory }
  files.foldl (fun t (p, content) => t.set (empty.named p) content)
    { empty with directories := directories.map empty.named }

/-- The files below the working directory that are new or have another content in a later tree, by
their names there. -/
def changes (before later : Files) : List (Place × Bytes) :=
  (later.files.filter fun f =>
    before.working.isPrefixOf f.1 && before.content? f.1 ≠ some f.2).map fun f =>
      (f.1.drop before.working.length, f.2)

end Files

end RasterSketch
