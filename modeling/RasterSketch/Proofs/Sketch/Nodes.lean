import RasterSketch.Proofs.Delivery
import RasterSketch.Sketch.Render
/-!
# Nodes and their names

The names and operators that the language of a sketch has, names over any table of the letters beyond ASCII.
`Expr.every` asks something of each node of an expression, and a rendered node is put together from rendered parts.
-/

namespace RasterSketch

/-- The letters beyond ASCII that a name may begin with, and those that it may go on with. -/
structure Alphabet where
  isStart : Char → Bool
  isPart : Char → Bool

namespace Alphabet

/-- No letters beyond ASCII. -/
def ascii : Alphabet := ⟨fun _ => false, fun _ => false⟩

variable (a : Alphabet)

def begins (c : Char) : Bool :=
  if c.toNat < 128 then c.isAlpha || c == '$' || c == '_' else a.isStart c

def goesOn (c : Char) : Bool :=
  if c.toNat < 128 then c.isAlphanum || c == '$' || c == '_' else a.isPart c

def goesOnCode : CodePoint → Bool
  | .char c => a.goesOn c
  | .surrogate _ => false

def isName (t : Text) : Bool :=
  match t.codes with
  | .char c :: cs => a.begins c && cs.all a.goesOnCode
  | _ => false

end Alphabet

/-- The operators between two operands. -/
def operators : List Char := ['+', '-', '*', '/', '%']

def isOperator (op : Text) : Bool := operators.any fun c => op.codes == [.char c]

namespace Expr

mutual

/-- Whether each node passes. -/
def every (p : Expr → Bool) : Expr → Bool
  | .apply name args => p (.apply name args) && everyOf p args
  | .binary op left right => p (.binary op left right) && (left.every p && right.every p)
  | .number n => p (.number n)
  | .variable name => p (.variable name)
  | .text s => p (.text s)
  | .foreign v => p (.foreign v)

def everyOf (p : Expr → Bool) : List Expr → Bool
  | [] => true
  | e :: es => e.every p && everyOf p es

end

/-- Whether a node's own name is a name, or its operator an operator. -/
def isNamed (a : Alphabet) : Expr → Bool
  | .variable name => a.isName name
  | .apply name _ => a.isName name
  | .binary op _ _ => isOperator op
  | _ => true

theorem every_apply {p : Expr → Bool} {name : Text} {args : List Expr} :
    (Expr.apply name args).every p = true ↔ p (.apply name args) = true ∧ everyOf p args = true := by
  rw [every, Bool.and_eq_true]

theorem every_binary {p : Expr → Bool} {op : Text} {left right : Expr} : (Expr.binary op left right).every p = true ↔
    p (.binary op left right) = true ∧ left.every p = true ∧ right.every p = true := by
  rw [every, Bool.and_eq_true, Bool.and_eq_true]

theorem everyOf_cons {p : Expr → Bool} {e : Expr} {es : List Expr} :
    everyOf p (e :: es) = true ↔ e.every p = true ∧ everyOf p es = true := by
  rw [everyOf, Bool.and_eq_true]

end Expr

namespace Alphabet

variable {a : Alphabet}

/-- A name is a letter and what a name goes on with. -/
theorem isName_eq_true {t : Text} (h : a.isName t = true) :
    ∃ c cs, t.codes = .char c :: cs ∧ a.begins c = true ∧ cs.all a.goesOnCode = true := by
  unfold isName at h
  split at h
  · rename_i c cs ht
    rw [Bool.and_eq_true] at h
    exact ⟨c, cs, ht, h.1, h.2⟩
  · cases h

/-- No name begins with a digit. -/
theorem begins_digit (a : Alphabet) {c : Char} (h : c.isDigit = true) : a.begins c = false := by
  have hc : 48 ≤ c.toNat ∧ c.toNat ≤ 57 := by
    simpa [Char.isDigit, UInt32.le_iff_toNat_le] using h
  have hs : (c == '$') = false ∧ (c == '_') = false := by
    constructor <;> rw [beq_eq_false_iff_ne] <;> rintro rfl <;> exact absurd h (by decide)
  have he : Char.ofNat (48 + (c.toNat - 48)) = c := by
    rw [Nat.add_sub_of_le hc.1, Char.ofNat_toNat]
  have hdigits : ∀ k : Fin 10, (Char.ofNat (48 + k)).isAlpha = false := by decide
  have ha : c.isAlpha = false := he ▸ hdigits ⟨c.toNat - 48, by omega⟩
  rw [begins, if_pos (by omega), ha, hs.1, hs.2]
  rfl

end Alphabet

theorem isOperator_eq_true {op : Text} (h : isOperator op = true) : ∃ c ∈ operators, op = Text.ofChars [c] := by
  obtain ⟨c, hc, hop⟩ := List.any_eq_true.1 h
  exact ⟨c, hc, Text.codes_inj (beq_iff_eq.1 hop)⟩

/-! ## Rendered parts -/

namespace Expr

theorem render_number_eq_ok {n : Number} {text : Text} :
    (Expr.number n).render = .ok text ↔ ∃ t : String, n.literal = .ok t ∧ (t : Text) = text := by
  rw [render]
  exact bind_pure_eq_ok

theorem render_apply_eq_ok {name : Text} {args : List Expr} {text : Text} : (Expr.apply name args).render = .ok text ↔
    ∃ ts, renderAll args = .ok ts ∧ name ++ "(" ++ .commaSeparated ts ++ ")" = text := by
  rw [render]
  exact bind_pure_eq_ok

theorem render_binary_eq_ok {op : Text} {left right : Expr} {text : Text} :
    (Expr.binary op left right).render = .ok text ↔ ∃ l r, left.render = .ok l ∧ right.render = .ok r ∧
      left.parenthesised l ++ " " ++ op ++ " " ++ right.parenthesised r = text := by
  rw [render, bind_eq_ok]
  constructor
  · rintro ⟨l, hl, h⟩
    obtain ⟨r, hr, h⟩ := bind_pure_eq_ok.1 h
    exact ⟨l, r, hl, hr, h⟩
  · rintro ⟨l, r, hl, hr, rfl⟩
    exact ⟨l, hl, bind_pure_eq_ok.2 ⟨r, hr, rfl⟩⟩

theorem renderAll_cons_eq_ok {e : Expr} {es : List Expr} {texts : List Text} : renderAll (e :: es) = .ok texts ↔
    ∃ t ts, e.render = .ok t ∧ renderAll es = .ok ts ∧ t :: ts = texts := by
  rw [renderAll, bind_eq_ok]
  constructor
  · rintro ⟨t, ht, h⟩
    obtain ⟨ts, hts, h⟩ := bind_pure_eq_ok.1 h
    exact ⟨t, ts, ht, hts, h⟩
  · rintro ⟨t, ts, ht, hts, rfl⟩
    exact ⟨t, ht, bind_pure_eq_ok.2 ⟨ts, hts, rfl⟩⟩

end Expr

/-- The lines of statements in two parts, the second of which is come to only behind the first. -/
theorem Statement.linesAll_append (depth : Int) (xs ys : List Statement) :
    Statement.linesAll depth (xs ++ ys) = do
      let as ← Statement.linesAll depth xs
      let bs ← Statement.linesAll depth ys
      return as ++ bs := by
  induction xs with
  | nil =>
    rw [List.nil_append, Statement.linesAll]
    cases Statement.linesAll depth ys <;> rfl
  | cons s ss ih =>
    rw [List.cons_append, Statement.linesAll, Statement.linesAll, ih]
    cases Statement.lines depth s with
    | error e => rfl
    | ok l =>
      cases Statement.linesAll depth ss with
      | error e => rfl
      | ok ls =>
        cases Statement.linesAll depth ys with
        | error e => rfl
        | ok bs => exact congrArg Except.ok (List.append_assoc ..).symm

theorem Statement.linesAll_append_eq_ok {depth : Int} {xs ys : List Statement} {lines : List Text} :
    Statement.linesAll depth (xs ++ ys) = .ok lines ↔ ∃ as bs, Statement.linesAll depth xs = .ok as ∧
      Statement.linesAll depth ys = .ok bs ∧ lines = as ++ bs := by
  rw [Statement.linesAll_append, bind_eq_ok]
  constructor
  · rintro ⟨as, ha, h⟩
    obtain ⟨bs, hb, rfl⟩ := bind_pure_eq_ok.1 h
    exact ⟨as, bs, ha, hb, rfl⟩
  · rintro ⟨as, bs, ha, hb, rfl⟩
    exact ⟨as, ha, bind_pure_eq_ok.2 ⟨bs, hb, rfl⟩⟩

end RasterSketch
