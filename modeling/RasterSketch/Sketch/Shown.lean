import RasterSketch.Number.Shortest
import RasterSketch.Sketch.Node
import RasterSketch.Text.Shown
/-!
# Nodes in messages

How a message names a node: its kind, and its fields in order.  A sequence of one item keeps a comma
behind it.
-/

namespace RasterSketch

def commaSeparated (items : List String) : String := ", ".intercalate items

def shownSequence : List String → String
  | [s] => "(" ++ s ++ ",)"
  | items => "(" ++ commaSeparated items ++ ")"

def shownTruth (b : Bool) : String := if b then "True" else "False"

/-- The kind of a node that stands for something, as a message names it. -/
def Expr.kind : Expr → Option String
  | .number (.int _) => some "int"
  | .number (.real _) => some "float"
  | .variable _ => some "Var"
  | .text _ => some "Str"
  | .apply _ _ => some "Fn"
  | .binary _ _ _ => some "BinOp"
  | .foreign _ => none

def Statement.kind : Statement → Option String
  | .call _ _ => some "Call"
  | .declare _ _ => some "Declare"
  | .increment _ _ => some "Increment"
  | .result _ => some "Return"
  | .function _ _ _ => some "Function"
  | .foreign _ => none

/-- The kind of a value.  A node that only holds another value is not handed over as one. -/
def Value.kind : Value → String
  | .nothing => "NoneType"
  | .truth _ => "bool"
  | .bare _ => "str"
  | .list _ => "list"
  | .record _ _ => "dict"
  | .expr e => e.kind.getD "object"
  | .statement s => s.kind.getD "object"

mutual

def Expr.shown : Expr → String
  | .number n => n.shown
  | .variable name => "Var(name=" ++ Text.shown name ++ ")"
  | .text s => "Str(value=" ++ Text.shown s ++ ")"
  | .apply name args =>
    "Fn(name=" ++ Text.shown name ++ ", args=" ++ shownSequence (Expr.shownAll args) ++ ")"
  | .binary op left right =>
    "BinOp(op=" ++ Text.shown op ++ ", left=" ++ left.shown ++ ", right=" ++ right.shown ++ ")"
  | .foreign v => v.shown

def Expr.shownAll : List Expr → List String
  | [] => []
  | e :: es => e.shown :: Expr.shownAll es

def Statement.shown : Statement → String
  | .call name args =>
    "Call(name=" ++ Text.shown name ++ ", args=" ++ shownSequence (Expr.shownAll args) ++ ")"
  | .declare name value =>
    "Declare(name=" ++ Text.shown name ++ ", value=" ++ value.shown ++ ")"
  | .increment name amount =>
    "Increment(name=" ++ Text.shown name ++ ", amount=" ++ amount.shown ++ ")"
  | .result value => "Return(value=" ++ value.shown ++ ")"
  | .function name params body =>
    "Function(name=" ++ Text.shown name ++ ", params=" ++ shownSequence (params.map Text.shown) ++
      ", body=" ++ shownSequence (Statement.shownAll body) ++ ")"
  | .foreign v => v.shown

def Statement.shownAll : List Statement → List String
  | [] => []
  | s :: ss => s.shown :: Statement.shownAll ss

def Value.shown : Value → String
  | .nothing => "None"
  | .truth b => shownTruth b
  | .bare s => Text.shown s
  | .list items => "[" ++ commaSeparated (Value.shownAll items) ++ "]"
  | .record keys items => "\x7b" ++ commaSeparated (Value.shownFields keys items) ++ "\x7d"
  | .expr e => e.shown
  | .statement s => s.shown

def Value.shownAll : List Value → List String
  | [] => []
  | v :: vs => v.shown :: Value.shownAll vs

def Value.shownFields : List Text → List Value → List String
  | key :: keys, v :: vs => (Text.shown key ++ ": " ++ v.shown) :: Value.shownFields keys vs
  | _, _ => []

end

end RasterSketch
