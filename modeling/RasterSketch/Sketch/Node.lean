import RasterSketch.Number.Basic
import RasterSketch.Text.Basic
/-!
# Nodes of a sketch

A sketch is made of statements, and statements of expressions.  Callers build nodes freely, so
either kind has a place for a value that is none: a truth value, a bare text, a list, an expression
for a statement.  Rendering is where such a value is refused.
-/

namespace RasterSketch

mutual

inductive Expr where
  | number (value : Number)
  | variable (name : Text)
  | text (value : Text)
  | apply (name : Text) (args : List Expr)
  | binary (op : Text) (left right : Expr)
  | foreign (value : Value)

inductive Statement where
  | call (name : Text) (args : List Expr)
  | declare (name : Text) (value : Expr)
  | increment (name : Text) (amount : Expr)
  | result (value : Expr)
  | function (name : Text) (params : List Text) (body : List Statement)
  | foreign (value : Value)

/-- Anything that may be handed over in place of a node or of the name of a style. -/
inductive Value where
  | nothing
  | truth (value : Bool)
  | bare (text : Text)
  | list (items : List Value)
  | record (keys : List Text) (items : List Value)
  | expr (e : Expr)
  | statement (s : Statement)

end

instance : Inhabited Expr := ⟨.number 0⟩
instance : Inhabited Statement := ⟨.call "" []⟩
instance : Inhabited Value := ⟨.nothing⟩

namespace Expr

def int (n : Int) : Expr := .number (.int n)

def real (x : Double) : Expr := .number (.real x)

instance (n : Nat) : OfNat Expr n := ⟨.int n⟩
instance : OfScientific Expr := ⟨fun m tenths e => .real (OfScientific.ofScientific m tenths e)⟩

instance : Add Expr := ⟨.binary "+"⟩
instance : Sub Expr := ⟨.binary "-"⟩
instance : Mul Expr := ⟨.binary "*"⟩
instance : Div Expr := ⟨.binary "/"⟩
instance : Mod Expr := ⟨.binary "%"⟩

def sin (angle : Expr) : Expr := .apply "sin" [angle]

def cos (angle : Expr) : Expr := .apply "cos" [angle]

end Expr

end RasterSketch
