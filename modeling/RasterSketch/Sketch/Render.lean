import RasterSketch.Sketch.Shown
import RasterSketch.Text.Literal
/-!
# The text of nodes

An expression is one line; an operand is parenthesised if it is an operation itself or a number
below zero, so that no precedence has to be known to read it.  A statement is a list of lines, two
spaces in for each function body around it.  The first node that is none ends the rendering with a
`RenderError`.
-/

namespace RasterSketch

inductive RenderError where
  | boolean
  | tooManyDigits
  | nonFinite (value : Double)
  | unknownExpression (value : Value)
  | unknownStatement (value : Value)
  | depthTooLarge
  | indentTooLong
  | outOfMemory

def RenderError.message : RenderError → String
  | .boolean => "Booleans are not numeric literals"
  | .tooManyDigits => Decimal.limitMessage
  | .nonFinite x => "Cannot render non-finite number " ++ x.shown
  | .unknownExpression v => "Unknown expression node: " ++ v.shown
  | .unknownStatement v => "Unknown statement: " ++ v.shown
  | .depthTooLarge => "cannot fit 'int' into an index-sized integer"
  | .indentTooLong => "repeated string is too long"
  | .outOfMemory => ""

/-- The literal of a number: an integer in full, a double to three places. -/
def Number.literal : Number → Except RenderError String
  | .int n => if Decimal.exceedsLimit n then .error .tooManyDigits else .ok (Decimal.intText n)
  | .real (.finite s m) => .ok (Double.thousandthsText s m)
  | .real x => .error (.nonFinite x)

/-- A value as the expression that it is not. -/
def Value.refusedAsExpr : Value → RenderError
  | .truth _ => .boolean
  | v => .unknownExpression v

namespace Expr

/-- Whether an operand needs parentheses. -/
def isCompound : Expr → Bool
  | .binary .. => true
  | .number n => n.isNegative
  | _ => false

def parenthesised (e : Expr) (text : Text) : Text :=
  if e.isCompound then "(" ++ text ++ ")" else text

mutual

def render : Expr → Except RenderError Text
  | .number n => do return (← n.literal)
  | .variable name => .ok name
  | .text s => .ok s.literal
  | .apply name args => do return name ++ "(" ++ .commaSeparated (← renderAll args) ++ ")"
  | .binary op left right => do
    let l ← left.render
    let r ← right.render
    return left.parenthesised l ++ " " ++ op ++ " " ++ right.parenthesised r
  | .foreign v => .error v.refusedAsExpr

def renderAll : List Expr → Except RenderError (List Text)
  | [] => .ok []
  | e :: es => do
    let t ← e.render
    let ts ← renderAll es
    return t :: ts

end

end Expr

/-- Two spaces for each level; a level below zero has none. -/
def indent (depth : Int) : Text := .ofChars (List.replicate (2 * depth.toNat) ' ')

namespace Statement

mutual

/-- The lines of a statement at a level of nesting. -/
def lines : Int → Statement → Except RenderError (List Text)
  | depth, .call name args => do
    return [indent depth ++ name ++ "(" ++ .commaSeparated (← Expr.renderAll args) ++ ");"]
  | depth, .declare name value => do
    return [indent depth ++ "let " ++ name ++ " = " ++ (← value.render) ++ ";"]
  | depth, .increment name amount => do
    return [indent depth ++ name ++ " += " ++ (← amount.render) ++ ";"]
  | depth, .result value => do return [indent depth ++ "return " ++ (← value.render) ++ ";"]
  | depth, .function name params body => do
    let inner ← linesAll (depth + 1) body
    return (indent depth ++ "function " ++ name ++ "(" ++ .commaSeparated params ++ ") \x7b") ::
      inner ++ [indent depth ++ "\x7d"]
  | _, .foreign v => .error (.unknownStatement v)

def linesAll : Int → List Statement → Except RenderError (List Text)
  | _, [] => .ok []
  | depth, s :: ss => do
    let l ← lines depth s
    let ls ← linesAll depth ss
    return l ++ ls

end

/-- The greatest level whose lines are written.  Where the memory ends is up to the machine: the
indent of a greater level alone has more than `2 ^ 37` characters, which is taken to be too much. -/
def depthLimit : Nat := 0x1000000000

/-- A level has to fit a word, its indent a word as well, and a line of it the memory. -/
def checkDepth (depth : Int) : Except RenderError Unit :=
  if !fitsWord depth then .error .depthTooLarge
  else if !fitsWord (2 * depth) && 0 < depth then .error .indentTooLong
  else if depthLimit < depth then .error .outOfMemory
  else .ok ()

/-- The lines of a statement at a level that is given. -/
def linesAt (depth : Int) (s : Statement) : Except RenderError (List Text) := do
  checkDepth depth
  lines depth s

end Statement

end RasterSketch
