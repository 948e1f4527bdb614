import RasterSketch.Text.Basic
/-!
# Paths

A path is a root, if it is absolute, and names.  Empty names and the name of the place itself mean
nothing and are dropped; the name of the place above is kept, for it depends on the files.
-/

namespace RasterSketch

structure Path where
  root : String
  names : List Text
  deriving DecidableEq

namespace Path

/-- Two slashes at the start are a root of their own, three and more are one. -/
def rootOf : List CodePoint → String
  | .char '/' :: .char '/' :: .char '/' :: _ => "/"
  | .char '/' :: .char '/' :: _ => "//"
  | .char '/' :: _ => "/"
  | _ => ""

/-- The parts of a text between slashes. -/
def between : List CodePoint → List (List CodePoint)
  | [] => [[]]
  | c :: cs =>
    if c = .char '/' then [] :: between cs
    else match between cs with
      | [] => [[c]]
      | part :: parts => (c :: part) :: parts

def ofText (text : Text) : Path where
  root := rootOf text.codes
  names := ((between text.codes).map Text.mk).filter fun name => !name.isEmpty ∧ name ≠ "."

/-- The path as it is written. -/
def text (p : Path) : Text :=
  if p.root = "" ∧ p.names = [] then "." else p.root ++ .separatedBy "/" p.names

/-- The last name from its last point on; a point at either end of the name begins no suffix. -/
def suffix (p : Path) : Text :=
  match p.names.getLast? with
  | none => ⟨[]⟩
  | some name =>
    let reversed := name.codes.reverse
    let ending := reversed.takeWhile (· ≠ .char '.')
    if ending.isEmpty || reversed.length ≤ ending.length + 1 then ⟨[]⟩
    else ⟨.char '.' :: ending.reverse⟩

end Path

end RasterSketch
