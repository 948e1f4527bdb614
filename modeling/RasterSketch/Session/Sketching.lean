import RasterSketch.Session.Named
import RasterSketch.Style.Frame
/-!
# Working on programs

A session of programs under names.  The six lists of a program are in memory, where a step changes
them in their places and no others (`StatementStore.read_write_of_ne`); a program that is made anew
has lists of its own, behind all that there are (`StatementStore.read_add_next`).  A step may fail in
the middle, and what it did before it failed stays done.
-/

namespace RasterSketch

/-! ## Sections -/

inductive Section where
  | globals
  | setup
  | prologue
  | statements
  | epilogue
  | helpers
  deriving DecidableEq

namespace Section

def all : List Section := [.globals, .setup, .prologue, .statements, .epilogue, .helpers]

/-- The place among the six. -/
def index : Section → Nat
  | .globals => 0
  | .setup => 1
  | .prologue => 2
  | .statements => 3
  | .epilogue => 4
  | .helpers => 5

theorem getElem?_all (s : Section) : all[s.index]? = some s := by cases s <;> rfl

theorem index_lt (s : Section) : s.index < all.length :=
  (List.getElem?_eq_some_iff.1 s.getElem?_all).1

theorem index_inj {s t : Section} (h : s.index = t.index) : s = t :=
  Option.some.inj (s.getElem?_all.symm.trans (h ▸ t.getElem?_all))

end Section

namespace Program

def get (p : Program) : Section → List Statement
  | .globals => p.globals
  | .setup => p.setup
  | .prologue => p.prologue
  | .statements => p.statements
  | .epilogue => p.epilogue
  | .helpers => p.helpers

/-- The program of six lists. -/
def ofSections (list : Section → List Statement) : Program where
  globals := list .globals
  setup := list .setup
  prologue := list .prologue
  statements := list .statements
  epilogue := list .epilogue
  helpers := list .helpers

theorem ofSections_get (p : Program) : ofSections p.get = p := rfl

theorem get_ofSections {list : Section → List Statement} {s : Section} :
    (ofSections list).get s = list s := by
  cases s <;> rfl

/-- The lengths of the six lists. -/
def sizes (p : Program) : List Nat := Section.all.map fun s => (p.get s).length

end Program

/-- A part of the text of a program. -/
inductive ProgramPart where
  | all
  | preamble
  | body
  | epilogue

def ProgramPart.render : ProgramPart → Program → Except RenderError Text
  | .all => Program.render
  | .preamble => Program.preamble
  | .body => Program.body
  | .epilogue => Program.epilogueText

/-! ## Requests -/

/-- The name of a style, which may have to be the name of one. -/
structure StyleRequest where
  value : Value
  checked : Bool

def StyleRequest.resolve (r : StyleRequest) : Except Error StyleRef :=
  if r.checked then StyleRef.style <$> Style.ofValue r.value else .ok (.named r.value)

/-- A grid, or what one is computed from. -/
inductive GridRequest where
  | given (grid : Grid)
  | computed (width height baseStep bound : Int)

def GridRequest.resolve : GridRequest → Except Error Grid
  | .given grid => .ok grid
  | .computed w h baseStep bound => Grid.compute w h baseStep bound

def StyleRequest.frame (r : StyleRequest) (grid : GridRequest) : Except Error Program := do
  let style ← r.resolve
  style.frame (← grid.resolve)

/-- A sample that a cell is made of. -/
structure CellRequest where
  sample : Sample
  cellSize : Int
  includeAlpha : Bool

def CellRequest.resolve (r : CellRequest) : Except Error Cell :=
  (Cell.ofSample r.sample r.cellSize r.includeAlpha).mapError .arithmetic

def StyleRequest.emit (r : StyleRequest) (cell : CellRequest) : Except Error (List Statement) := do
  let cell ← cell.resolve
  let style ← r.resolve
  (← style.lookup).emit cell

/-! ## Steps -/

/-- What a program is made by: anew, or from the one there is. -/
inductive ProgramChange where
  | new (program : Program)
  | frame (style : StyleRequest) (grid : GridRequest)
  | append (s : Section) (items : List Statement)
  | clear (s : Section)
  | emit (style : StyleRequest) (cell : CellRequest)

inductive SketchingStep where
  | change (name : Text) (change : ProgramChange)
  | render (name : Text) (part : ProgramPart)

inductive SketchingAnswer where
  | sizes (programs : List (Text × List Nat))
  | text (text : Text)

/-! ## Programs in memory -/

/-- Lists of statements, each at a place of its own. -/
structure StatementStore where
  lists : List (List Statement)

namespace StatementStore

/-- The list at a place; there are no statements where no list was put. -/
def read (m : StatementStore) (place : Nat) : List Statement := m.lists.getD place []

/-- The place of the list that is added next. -/
def next (m : StatementStore) : Nat := m.lists.length

def add (m : StatementStore) (lists : List (List Statement)) : StatementStore := ⟨m.lists ++ lists⟩

def write (m : StatementStore) (place : Nat) (list : List Statement) : StatementStore :=
  ⟨m.lists.set place list⟩

variable {m : StatementStore} {lists : List (List Statement)} {list : List Statement}
  {place other : Nat}

theorem next_add : (m.add lists).next = m.next + lists.length := List.length_append

theorem next_write : (m.write place list).next = m.next := List.length_set

theorem read_add_of_lt (h : other < m.next) : (m.add lists).read other = m.read other := by
  unfold read add
  rw [List.getD_eq_getElem?_getD, List.getElem?_append_left h, ← List.getD_eq_getElem?_getD]

theorem read_add_next (i : Nat) : (m.add lists).read (m.next + i) = lists.getD i [] := by
  unfold read add next
  rw [List.getD_eq_getElem?_getD, List.getElem?_append_right (Nat.le_add_right _ _),
    Nat.add_sub_cancel_left, ← List.getD_eq_getElem?_getD]

theorem read_write (h : place < m.next) : (m.write place list).read place = list := by
  unfold read write
  rw [List.getD_eq_getElem?_getD, List.getElem?_set_self h, Option.getD_some]

theorem read_write_of_ne (h : other ≠ place) : (m.write place list).read other = m.read other := by
  unfold read write
  rw [List.getD_eq_getElem?_getD, List.getElem?_set_ne h.symm, ← List.getD_eq_getElem?_getD]

end StatementStore

/-- A program, by the places of its lists. -/
structure StoredProgram where
  place : Section → Nat

/-- The program as it stands. -/
def StoredProgram.read (p : StoredProgram) (m : StatementStore) : Program :=
  .ofSections fun s => m.read (p.place s)

structure Sketching where
  store : StatementStore
  programs : Named StoredProgram

namespace Sketching

def empty : Sketching := ⟨⟨[]⟩, .empty⟩

/-- Work on the session.  A failure leaves it as it is then. -/
abbrev Work := EStateM Error Sketching

instance : MonadLift (Except Error) Work := ⟨MonadExcept.ofExcept⟩

def sizes (h : Sketching) : List (Text × List Nat) :=
  h.programs.entries.map fun (name, p) => (name, (p.read h.store).sizes)

/-- The program that a name stands for. -/
def find (name : Text) : Work StoredProgram := do
  match (← get).programs.find? name with
  | some p => return p
  | none => throw (.key (.bare name))

/-- The session with a program under a name, which has new lists. -/
def keep (h : Sketching) (name : Text) (p : Program) : Sketching where
  store := h.store.add (Section.all.map p.get)
  programs := h.programs.set name ⟨fun s => h.store.next + s.index⟩

/-- The session with the list at a place changed there. -/
def edit (h : Sketching) (place : Nat) (changed : List Statement → List Statement) : Sketching :=
  { h with store := h.store.write place (changed (h.store.read place)) }

def change (name : Text) : ProgramChange → Work Unit
  | .new p => modify (·.keep name p)
  | .frame style grid => do
    let p ← style.frame grid
    modify (·.keep name p)
  | .append s items => do
    let p ← find name
    modify (·.edit (p.place s) (· ++ items))
  | .clear s => do
    let p ← find name
    modify (·.edit (p.place s) fun _ => [])
  | .emit style cell => do
    let p ← find name
    let drawn ← style.emit cell
    modify (·.edit (p.place .statements) (· ++ drawn))

def render (name : Text) (part : ProgramPart) : Work Text := do
  let p ← find name
  part.render (p.read (← get).store)

def answer : SketchingStep → Work SketchingAnswer
  | .change name c => do
    change name c
    return .sizes (← get).sizes
  | .render name part => SketchingAnswer.text <$> render name part

end Sketching

/-- The session after a step, and the answer. -/
def sketchingStep (h : Sketching) (s : SketchingStep) :
    Sketching × Except Error SketchingAnswer :=
  match Sketching.answer s h with
  | .ok a h => (h, .ok a)
  | .error e h => (h, .error e)

end RasterSketch
