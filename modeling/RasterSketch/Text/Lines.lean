import RasterSketch.Text.Basic
/-!
# Lines

Lines are written each with its end, and read with any of the ends that Unicode knows.
-/

namespace RasterSketch.Text

/-- The lines, each with its end. -/
def ofLines : List Text → Text
  | [] => ⟨[]⟩
  | l :: ls => l ++ "\n" ++ ofLines ls

theorem ofLines_append : ∀ xs ys, ofLines (xs ++ ys) = ofLines xs ++ ofLines ys
  | [], ys => rfl
  | l :: ls, ys => by
    simp only [List.cons_append, ofLines, ofLines_append ls, append_assoc]

def isLineEnd (c : CodePoint) : Bool :=
  let n := c.value
  (0xa ≤ n && n ≤ 0xd) || (0x1c ≤ n && n ≤ 0x1e) || n == 0x85 || n == 0x2028 || n == 0x2029

/-- The code points of each line without its end.  What ends with an end begins no further line. -/
def lineCodes : List CodePoint → List (List CodePoint)
  | [] => []
  | .char '\r' :: .char '\n' :: cs => [] :: lineCodes cs
  | c :: cs =>
    if isLineEnd c then [] :: lineCodes cs
    else match lineCodes cs with
      | [] => [[c]]
      | line :: lines => (c :: line) :: lines

def lines (t : Text) : List Text := (lineCodes t.codes).map .mk

end RasterSketch.Text
