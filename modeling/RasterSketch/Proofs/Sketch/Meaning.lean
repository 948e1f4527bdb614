import Mathlib.Algebra.Order.Floor.Ring
import RasterSketch.Proofs.Number.Whole
import RasterSketch.Session.Named
import RasterSketch.Sketch.Program
/-!
# What a sketch draws

The meaning of a program in exact rationals: what its expressions come to (`Expr.valueIn`), and what it draws from one
frame to the next (`Program.before`, `Program.drawn`).  A literal is its exact value, a remainder has the sign of the
dividend, a helper is evaluated through its own body, and the sine and the cosine are any two functions (`Waves`).
The setup changes no variable and is left out; what has no meaning here (a text, a division by zero, a name that is
unknown) has no value, and then there is no frame.

A program that declares a clock and ends each frame with its tick shows at frame `n` what it draws at `n` ticks
(`Program.HasClock.drawn_of_draws`).
-/
namespace RasterSketch

/-! ## Expressions -/

def remainder (x y : ℚ) : ℚ := x - wholePart (x / y) * y

/-- What is left of a dividend that is not negative. -/
theorem remainder_mem {x y : ℚ} (hx : 0 ≤ x) (hy : 0 < y) : 0 ≤ remainder x y ∧ remainder x y < y := by
  unfold remainder wholePart
  rw [if_pos (div_nonneg hx hy.le)]
  exact ⟨Int.sub_floor_div_mul_nonneg x hy, Int.sub_floor_div_mul_lt x hy⟩

structure Waves where
  sin : ℚ → ℚ
  cos : ℚ → ℚ

structure Waves.Bounded (w : Waves) : Prop where
  sin_mem : ∀ x, -1 ≤ w.sin x ∧ w.sin x ≤ 1
  cos_mem : ∀ x, -1 ≤ w.cos x ∧ w.cos x ≤ 1

def Waves.apply (w : Waves) (name : Text) : List ℚ → Option ℚ
  | [x] => if name = "sin" then some (w.sin x) else if name = "cos" then some (w.cos x) else none
  | _ => none

/-- Where expressions are evaluated: what variables are worth, and what calls give. -/
structure Scope where
  vars : Named ℚ
  call : Text → List ℚ → Option ℚ

namespace Expr

def operate (op : Text) (x y : ℚ) : Option ℚ :=
  if op = "+" then some (x + y)
  else if op = "-" then some (x - y)
  else if op = "*" then some (x * y)
  else if y = 0 then none
  else if op = "/" then some (x / y)
  else if op = "%" then some (remainder x y)
  else none

mutual

def valueIn (σ : Scope) : Expr → Option ℚ
  | .number n => n.exact?
  | .variable name => σ.vars.find? name
  | .apply name args => do σ.call name (← valuesIn σ args)
  | .binary op l r => do operate op (← l.valueIn σ) (← r.valueIn σ)
  | .text _ | .foreign _ => none

def valuesIn (σ : Scope) : List Expr → Option (List ℚ)
  | [] => some []
  | e :: es => do return (← e.valueIn σ) :: (← valuesIn σ es)

end

variable {σ : Scope} {e f : Expr} {x y : ℚ}

theorem valueIn_int (n : Int) : (int n).valueIn σ = some (n : ℚ) := rfl

theorem valueIn_real {d : Double} (h : d.isFinite = true) : (real d).valueIn σ = some d.value := by
  show (if d.isFinite then some d.value else none) = _
  rw [if_pos h]

theorem valueIn_add (he : e.valueIn σ = some x) (hf : f.valueIn σ = some y) : (e + f).valueIn σ = some (x + y) := by
  show (binary "+" e f).valueIn σ = _
  rw [valueIn, he, hf]
  rfl

theorem valueIn_sub (he : e.valueIn σ = some x) (hf : f.valueIn σ = some y) : (e - f).valueIn σ = some (x - y) := by
  show (binary "-" e f).valueIn σ = _
  rw [valueIn, he, hf]
  rfl

theorem valueIn_mul (he : e.valueIn σ = some x) (hf : f.valueIn σ = some y) : (e * f).valueIn σ = some (x * y) := by
  show (binary "*" e f).valueIn σ = _
  rw [valueIn, he, hf]
  rfl

theorem valueIn_div (he : e.valueIn σ = some x) (hf : f.valueIn σ = some y) (hy : y ≠ 0) :
    (e / f).valueIn σ = some (x / y) := by
  show (binary "/" e f).valueIn σ = _
  rw [valueIn, he, hf]
  show (if y = 0 then none else some (x / y)) = _
  rw [if_neg hy]

theorem valueIn_mod (he : e.valueIn σ = some x) (hf : f.valueIn σ = some y) (hy : y ≠ 0) :
    (e % f).valueIn σ = some (remainder x y) := by
  show (binary "%" e f).valueIn σ = _
  rw [valueIn, he, hf]
  show (if y = 0 then none else some (remainder x y)) = _
  rw [if_neg hy]

theorem valuesIn_eq {es : List Expr} {xs : List ℚ} (h : List.Forall₂ (fun e x => e.valueIn σ = some x) es xs) :
    valuesIn σ es = some xs := by
  induction h with
  | nil => rfl
  | cons he _ ih =>
    rw [valuesIn, he, ih]
    rfl

theorem valueIn_apply {name : Text} {args : List Expr} {xs : List ℚ}
    (h : List.Forall₂ (fun e x => e.valueIn σ = some x) args xs) : (apply name args).valueIn σ = σ.call name xs := by
  rw [valueIn, valuesIn_eq h]
  rfl

end Expr

/-! ## Frames -/

/-- Something drawn: the function that draws it, and the exact values of its arguments. -/
structure Drawing where
  name : Text
  args : List ℚ

namespace Statement

def function? (name : Text) : Statement → Option (List Text × List Statement)
  | .function called params body => if called = name then some (params, body) else none
  | _ => none

/-- What a body gives back first. -/
def valueOfBody (σ : Scope) : List Statement → Option ℚ
  | .result e :: _ => e.valueIn σ
  | _ => none

end Statement

namespace Program

variable (p : Program) (w : Waves)

def helper? (name : Text) : Option (List Text × List Statement) := p.helpers.reverse.findSome? (·.function? name)

/-- The value of a call, with room for `depth` calls inside each other. -/
def call (vars : Named ℚ) : Nat → Text → List ℚ → Option ℚ
  | 0, _, _ => none
  | depth + 1, name, args =>
    match p.helper? name with
    | none => w.apply name args
    | some (params, body) =>
      if params.length = args.length then
        let inner := (params.zip args).foldl (fun vars binding => vars.set binding.1 binding.2) vars
        Statement.valueOfBody ⟨inner, call vars depth⟩ body
      else none

/-- Where a program is while its variables are worth so much.  Helpers that do not call themselves are never deeper
inside each other than there are helpers. -/
def scope (vars : Named ℚ) : Scope := ⟨vars, p.call w vars (p.helpers.length + 1)⟩

/-- What a statement of a frame leaves in the variables, and what it draws. -/
def run (vars : Named ℚ) : Statement → Option (Named ℚ × List Drawing)
  | .call name args => do return (vars, [⟨name, ← Expr.valuesIn (p.scope w vars) args⟩])
  | .increment name amount => do
    let x ← vars.find? name
    return (vars.set name (x + (← amount.valueIn (p.scope w vars))), [])
  | _ => none

def runAll (vars : Named ℚ) : List Statement → Option (Named ℚ × List Drawing)
  | [] => some (vars, [])
  | s :: ss => do
    let (now, first) ← p.run w vars s
    let (last, others) ← runAll now ss
    return (last, first ++ others)

def start : Option (Named ℚ) :=
  p.globals.foldlM (fun vars s => match s with
    | .declare name e => do return vars.set name (← e.valueIn (p.scope w vars))
    | _ => none) .empty

def runFrame (vars : Named ℚ) : Option (Named ℚ × List Drawing) :=
  p.runAll w vars (p.prologue ++ p.statements ++ p.epilogue)

/-- The variables before frame `n`, the first being frame 0. -/
def before : Nat → Option (Named ℚ)
  | 0 => p.start w
  | n + 1 => do return (← p.runFrame w (← before n)).1

def drawn (n : Nat) : Option (List Drawing) := do return (← p.runFrame w (← p.before w n)).2

/-! ### Statements that only draw -/

def Draws (vars : Named ℚ) (ss : List Statement) (ds : List Drawing) : Prop := p.runAll w vars ss = some (vars, ds)

variable {p w} {vars : Named ℚ} {ss ts : List Statement} {ds es : List Drawing}

theorem Draws.nil : p.Draws w vars [] [] := rfl

theorem Draws.cons {name : Text} {args : List Expr} {xs : List ℚ}
    (hargs : List.Forall₂ (fun e x => e.valueIn (p.scope w vars) = some x) args xs) (h : p.Draws w vars ss ds) :
    p.Draws w vars (.call name args :: ss) (⟨name, xs⟩ :: ds) := by
  unfold Draws at h ⊢
  rw [runAll, run, Expr.valuesIn_eq hargs]
  show (p.runAll w vars ss >>= fun r => some (r.1, ⟨name, xs⟩ :: r.2)) = _
  rw [h]
  rfl

/-- Statements are run where the ones before them have led. -/
theorem runAll_append {now last : Named ℚ} (ht : p.runAll w now ts = some (last, es)) :
    ∀ {start : Named ℚ} {ss : List Statement} {ds : List Drawing}, p.runAll w start ss = some (now, ds) →
      p.runAll w start (ss ++ ts) = some (last, ds ++ es)
  | start, [], ds, h => by
    cases h
    exact ht
  | start, s :: ss, ds, h => by
    rw [runAll, Option.bind_eq_bind, Option.bind_eq_some_iff] at h
    obtain ⟨⟨next, first⟩, hs, h⟩ := h
    obtain ⟨⟨_, others⟩, hss, h⟩ := Option.bind_eq_some_iff.1 h
    cases h
    rw [List.cons_append, runAll, hs]
    show (p.runAll w next (ss ++ ts) >>= fun r => some (r.1, first ++ r.2)) = _
    rw [runAll_append ht hss, List.append_assoc]
    rfl

theorem Draws.append (h : p.Draws w vars ss ds) (ht : p.Draws w vars ts es) : p.Draws w vars (ss ++ ts) (ds ++ es) :=
  runAll_append ht h

theorem Draws.flatten {groups : List (List Statement)} {drawings : List (List Drawing)}
    (h : List.Forall₂ (p.Draws w vars) groups drawings) : p.Draws w vars groups.flatten drawings.flatten := by
  induction h with
  | nil => exact .nil
  | cons hd _ ih => exact hd.append ih

/-! ### The clock -/

/-- A program with one variable, which starts at zero and grows by a tick at the end of each frame. -/
structure HasClock (p : Program) (name : Text) (tick : Double) : Prop where
  globals_eq : p.globals = [.declare name 0]
  epilogue_eq : p.epilogue = [.increment name (.real tick)]
  tick_finite : tick.isFinite = true

/-- The variables of a program with a clock, at a time. -/
def clockAt (name : Text) (time : ℚ) : Named ℚ := Named.empty.set name time

theorem find?_clockAt (name : Text) (time : ℚ) : (clockAt name time).find? name = some time := by
  rw [clockAt, Named.find?_set, if_pos rfl]

theorem set_clockAt (name : Text) (time later : ℚ) : (clockAt name time).set name later = clockAt name later := by
  simp [clockAt, Named.set, Named.setIn, Named.empty]

variable {name : Text} {tick : Double}

theorem HasClock.start_eq (h : p.HasClock name tick) : p.start w = some (clockAt name 0) := by
  rw [start, h.globals_eq]
  rfl

/-- **A frame whose other statements only draw moves the clock by its tick.** -/
theorem HasClock.runFrame_eq (h : p.HasClock name tick) {time : ℚ}
    (hdraws : p.Draws w (clockAt name time) (p.prologue ++ p.statements) ds) :
    p.runFrame w (clockAt name time) = some (clockAt name (time + tick.value), ds) := by
  have htick : p.runAll w (clockAt name time) p.epilogue = some (clockAt name (time + tick.value), []) := by
    rw [h.epilogue_eq, runAll, run, find?_clockAt, Expr.valueIn_real h.tick_finite]
    show some ((clockAt name time).set name (time + tick.value), []) = _
    rw [set_clockAt]
  rw [runFrame, runAll_append htick hdraws, List.append_nil]

/-- **Frame `n` is drawn at `n` ticks**: what holds of all drawings at times that are not negative holds of all
frames. -/
theorem HasClock.drawn_of_draws (h : p.HasClock name tick) (hpos : 0 ≤ tick.value) {P : List Drawing → Prop}
    (hdraws : ∀ time, 0 ≤ time → ∃ ds, p.Draws w (clockAt name time) (p.prologue ++ p.statements) ds ∧ P ds) (n : Nat) :
    ∃ ds, p.drawn w n = some ds ∧ P ds := by
  have htime : ∀ n : Nat, 0 ≤ n * tick.value := fun n => mul_nonneg n.cast_nonneg hpos
  -- each frame moves the clock and nothing else
  have hbefore : ∀ n : Nat, p.before w n = some (clockAt name (n * tick.value)) := by
    intro n
    induction n with
    | zero => rw [before, h.start_eq, Nat.cast_zero, zero_mul]
    | succ n ih =>
      obtain ⟨ds, hds, -⟩ := hdraws _ (htime n)
      rw [before, ih]
      show (p.runFrame w (clockAt name (n * tick.value)) >>= fun r => some r.1) = _
      rw [h.runFrame_eq hds, Nat.cast_succ, add_one_mul]
      rfl
  obtain ⟨ds, hds, hP⟩ := hdraws _ (htime n)
  refine ⟨ds, ?_, hP⟩
  rw [drawn, hbefore]
  show (p.runFrame w (clockAt name (n * tick.value)) >>= fun r => some r.2) = _
  rw [h.runFrame_eq hds]
  rfl

end Program

end RasterSketch
