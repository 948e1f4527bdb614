import RasterSketch.Proofs.Sketch.Sections
/-!
# Where rendering fails

Rendering goes through the nodes of a program in the order in which they stand (`Program.nodes`), each node before its
parts, and fails at the first that has a fault of its own (`Program.render_fails_at_first`).  A value in the place of a
node is a fault, and so is a number that has no literal; no other node is, whatever its parts are.

Each part of a program is traced by the nodes that it is made of (`Traces`), and parts that are rendered one after the
other are traced by their nodes one after the other.
-/

namespace RasterSketch

/-! ## Nodes -/

inductive Node where
  | expr (e : Expr)
  | statement (s : Statement)

namespace Node

/-- The error of a node that cannot be rendered, whatever its parts are. -/
def fault? : Node → Option RenderError
  | .expr (.number (.int n)) => if Decimal.exceedsLimit n then some .tooManyDigits else none
  | .expr (.number (.real x)) => if x.isFinite then none else some (.nonFinite x)
  | .expr (.foreign (.truth _)) => some .boolean
  | .expr (.foreign v) => some (.unknownExpression v)
  | .statement (.foreign v) => some (.unknownStatement v)
  | _ => none

/-- The value that stands in the place of a node. -/
def foreign? : Node → Option Value
  | .expr (.foreign v) => some v
  | .statement (.foreign v) => some v
  | _ => none

/-- The error of a value ends with the value, but for that of a truth value. -/
theorem names_of_fault {n : Node} {e : RenderError} {v : Value} (hfault : n.fault? = some e)
    (hv : n.foreign? = some v) : (∃ b, v = .truth b) ∨ ∃ start, e.message = start ++ v.shown := by
  cases n with
  | expr x =>
    cases x <;> cases hv
    cases v with
    | truth b => exact .inl ⟨b, rfl⟩
    | _ => cases hfault; exact .inr ⟨_, rfl⟩
  | statement s =>
    cases s <;> cases hv
    cases hfault
    exact .inr ⟨_, rfl⟩

end Node

mutual

/-- The nodes of an expression, each before its parts. -/
def Expr.nodes : Expr → List Node
  | .apply name args => .expr (.apply name args) :: Expr.nodesOf args
  | .binary op left right => .expr (.binary op left right) :: (left.nodes ++ right.nodes)
  | .number n => [.expr (.number n)]
  | .variable name => [.expr (.variable name)]
  | .text s => [.expr (.text s)]
  | .foreign v => [.expr (.foreign v)]

def Expr.nodesOf : List Expr → List Node
  | [] => []
  | e :: es => e.nodes ++ Expr.nodesOf es

end

mutual

/-- The nodes of a statement, each before its parts. -/
def Statement.nodes : Statement → List Node
  | .call name args => .statement (.call name args) :: Expr.nodesOf args
  | .declare name value => .statement (.declare name value) :: value.nodes
  | .increment name amount => .statement (.increment name amount) :: amount.nodes
  | .result value => .statement (.result value) :: value.nodes
  | .function name params body => .statement (.function name params body) :: Statement.nodesOf body
  | .foreign v => [.statement (.foreign v)]

def Statement.nodesOf : List Statement → List Node
  | [] => []
  | s :: ss => s.nodes ++ Statement.nodesOf ss

end

open Statement (nodesOf)

theorem Statement.nodesOf_append (xs ys : List Statement) : nodesOf (xs ++ ys) = nodesOf xs ++ nodesOf ys := by
  induction xs with
  | nil => rfl
  | cons s ss ih => rw [List.cons_append, nodesOf, nodesOf, ih, List.append_assoc]

/-- The nodes of a program, section by section. -/
def Program.nodes (p : Program) : List Node :=
  nodesOf p.globals ++ nodesOf p.setup ++ nodesOf p.prologue ++ nodesOf p.statements ++ nodesOf p.epilogue ++
    nodesOf p.helpers

/-! ## Traces -/

/-- A result that fails with the first fault among some nodes, and only if there is one. -/
def Traces {α : Type} (nodes : List Node) (x : Except RenderError α) : Prop :=
  ∀ e, x = .error e ↔ nodes.findSome? Node.fault? = some e

namespace Traces

variable {α β : Type} {nodes later : List Node} {x : Except RenderError α} {f : α → Except RenderError β}

theorem ok (a : α) : Traces [] (Except.ok a) := fun e => ⟨fun h => (by cases h), fun h => (by cases h)⟩

/-- What comes behind a result adds its nodes behind. -/
theorem bind (hx : Traces nodes x) (hf : ∀ a, Traces later (f a)) : Traces (nodes ++ later) (x >>= f) := by
  intro e
  rw [List.findSome?_append]
  cases x with
  | error e' =>
    rw [(hx e').1 rfl]
    exact ⟨fun h => (by cases h; rfl), fun h => (by cases h; rfl)⟩
  | ok a =>
    have hnone : nodes.findSome? Node.fault? = none := by
      cases hfault : nodes.findSome? Node.fault? with
      | none => rfl
      | some e' => cases (hx e').2 hfault
    rw [hnone, Option.none_or]
    exact hf a e

theorem map {g : α → β} (hx : Traces nodes x) : Traces nodes (x >>= fun a => pure (g a)) := by
  have h := hx.bind fun a => ok (g a)
  rwa [List.append_nil] at h

/-- A node without a fault of its own is passed over. -/
theorem behind {n : Node} (hn : n.fault? = none) (hx : Traces nodes x) : Traces (n :: nodes) x := by
  intro e
  rw [List.findSome?_cons_of_isNone (by rw [hn]; rfl)]
  exact hx e

theorem of_fault {n : Node} {e : RenderError} (hn : n.fault? = some e) :
    Traces [n] (.error e : Except RenderError α) := by
  intro e'
  rw [List.findSome?_singleton, hn]
  exact ⟨fun h => (by cases h; rfl), fun h => (by cases h; rfl)⟩

end Traces

/-! ## Expressions -/

theorem Number.traces_literal : ∀ n : Number, Traces [.expr (.number n)] n.literal
  | .int n => by
    rw [literal]
    cases hlong : Decimal.exceedsLimit n with
    | true => exact .of_fault (by rw [Node.fault?, hlong]; rfl)
    | false => exact (Traces.ok _).behind (by rw [Node.fault?, hlong]; rfl)
  | .real (.finite s m) => (Traces.ok _).behind rfl
  | .real (.infinity s) => .of_fault rfl
  | .real .nan => .of_fault rfl

theorem Value.traces_refused (v : Value) :
    Traces [.expr (.foreign v)] (.error v.refusedAsExpr : Except RenderError Text) := by
  refine .of_fault ?_
  cases v <;> rfl

mutual

/-- **An expression fails at its first fault.** -/
theorem Expr.traces_render : ∀ e : Expr, Traces e.nodes e.render
  | .number n => by
    rw [Expr.nodes, Expr.render]
    exact n.traces_literal.map
  | .variable name => (Traces.ok _).behind rfl
  | .text s => (Traces.ok _).behind rfl
  | .apply name args => by
    rw [Expr.nodes, Expr.render]
    exact (Expr.traces_renderAll args).map.behind rfl
  | .binary op left right => by
    rw [Expr.nodes, Expr.render]
    exact (left.traces_render.bind fun _ => right.traces_render.map).behind rfl
  | .foreign v => by
    rw [Expr.nodes, Expr.render]
    exact v.traces_refused

theorem Expr.traces_renderAll : ∀ es : List Expr, Traces (Expr.nodesOf es) (Expr.renderAll es)
  | [] => .ok []
  | e :: es => by
    rw [Expr.nodesOf, Expr.renderAll]
    exact e.traces_render.bind fun _ => (Expr.traces_renderAll es).map

end

/-! ## Statements -/

mutual

/-- **A statement fails at its first fault**, at whatever depth it is written. -/
theorem Statement.traces_lines : ∀ (depth : Int) (s : Statement), Traces s.nodes (Statement.lines depth s)
  | depth, .call name args => by
    rw [Statement.nodes, Statement.lines]
    exact (Expr.traces_renderAll args).map.behind rfl
  | depth, .declare name value => by
    rw [Statement.nodes, Statement.lines]
    exact value.traces_render.map.behind rfl
  | depth, .increment name amount => by
    rw [Statement.nodes, Statement.lines]
    exact amount.traces_render.map.behind rfl
  | depth, .result value => by
    rw [Statement.nodes, Statement.lines]
    exact value.traces_render.map.behind rfl
  | depth, .function name params body => by
    rw [Statement.nodes, Statement.lines]
    exact (Statement.traces_linesAll (depth + 1) body).map.behind rfl
  | depth, .foreign v => by
    rw [Statement.nodes, Statement.lines]
    exact .of_fault rfl

theorem Statement.traces_linesAll : ∀ (depth : Int) (ss : List Statement),
    Traces (nodesOf ss) (Statement.linesAll depth ss)
  | _, [] => .ok []
  | depth, s :: ss => by
    rw [nodesOf, Statement.linesAll]
    exact (Statement.traces_lines depth s).bind fun _ => (Statement.traces_linesAll depth ss).map

end

/-! ## Programs -/

namespace Program

theorem traces_helperLines : ∀ hs : List Statement, Traces (nodesOf hs) (helperLines hs)
  | [] => .ok []
  | h :: hs => by
    rw [nodesOf, helperLines]
    exact (Statement.traces_lines 0 h).bind fun _ => (traces_helperLines hs).map

theorem traces_setup (p : Program) : Traces (nodesOf p.setup) (Statement.lines 0 (.function "setup" [] p.setup)) := by
  rw [Statement.lines]
  exact (Statement.traces_linesAll (0 + 1) p.setup).map

theorem nodes_eq (p : Program) : p.nodes = nodesOf p.globals ++ (nodesOf p.setup ++ (nodesOf p.frameStatements ++
    nodesOf p.helpers)) := by
  simp only [nodes, frameStatements, Statement.nodesOf_append, List.append_assoc]

theorem traces_render (p : Program) : Traces p.nodes p.render := by
  rw [render_eq, nodes_eq]
  exact (Statement.traces_linesAll 0 p.globals).bind fun _ => p.traces_setup.bind fun _ =>
    (Statement.traces_linesAll 1 p.frameStatements).bind fun _ => (traces_helperLines p.helpers).map

/-- **Rendering fails at the first node that has a fault**, with the error of that node, and does not fail if there is
none.  The error of a value in the place of a node names the value, unless it is a truth value. -/
theorem render_fails_at_first (p : Program) :
    ((∃ t, p.render = .ok t) ↔ ∀ n ∈ p.nodes, n.fault? = none) ∧
    ∀ e, p.render = .error e ↔ ∃ before n after, p.nodes = before ++ n :: after ∧ (∀ m ∈ before, m.fault? = none) ∧
      n.fault? = some e ∧ ∀ v, n.foreign? = some v → (∃ b, v = .truth b) ∨ ∃ start, e.message = start ++ v.shown := by
  have htraces := p.traces_render
  constructor
  · rw [← List.findSome?_eq_none_iff, ← Option.not_isSome_iff_eq_none, Option.isSome_iff_exists]
    constructor
    · rintro ⟨t, ht⟩ ⟨e, he⟩
      rw [(htraces e).2 he] at ht
      cases ht
    · intro hnone
      cases hrender : p.render with
      | ok t => exact ⟨t, rfl⟩
      | error e => exact absurd ⟨e, (htraces e).1 hrender⟩ hnone
  · intro e
    rw [htraces e, List.findSome?_eq_some_iff]
    constructor
    · rintro ⟨before, n, after, hnodes, hfault, hbefore⟩
      exact ⟨before, n, after, hnodes, hbefore, hfault, fun v hv => Node.names_of_fault hfault hv⟩
    · rintro ⟨before, n, after, hnodes, hbefore, hfault, -⟩
      exact ⟨before, n, after, hnodes, hfault, hbefore⟩

/-- The first fault is an operand in a function of the setup; there is one behind it, and one in what is drawn. -/
def faulty : Program where
  globals := [.declare "t" (.text "a")]
  setup := [.function "f" ["a"] [.result (.apply "g" [.foreign .nothing - .real .nan])]]
  statements := [.foreign (.truth true)]

theorem faulty_fails_at_first : ∃ before after, faulty.nodes = before ++ .expr (.foreign .nothing) :: after ∧
    (∀ m ∈ before, m.fault? = none) ∧ faulty.render = .error (.unknownExpression .nothing) := by
  have hnodes : faulty.nodes = faulty.nodes.take 6 ++ .expr (.foreign .nothing) :: faulty.nodes.drop 7 := rfl
  have hbefore : ∀ m ∈ faulty.nodes.take 6, m.fault? = none := List.findSome?_eq_none_iff.1 rfl
  refine ⟨_, _, hnodes, hbefore, ((render_fails_at_first faulty).2 _).2 ⟨_, _, _, hnodes, hbefore, rfl, ?_⟩⟩
  rintro v ⟨⟩
  exact .inr ⟨"Unknown expression node: ", rfl⟩

/-- A truth value in the place of an expression. -/
def truthDrawn : Program where
  statements := [.call "f" [.foreign (.truth true)]]

/-- The error of a truth value does not name it. -/
theorem truth_goes_unnamed : ¬ ∀ (p : Program) (before after : List Node) (v : Value),
    p.nodes = before ++ .expr (.foreign v) :: after → (∀ m ∈ before, m.fault? = none) →
      ∃ e, p.render = .error e ∧ v.shown.toList <:+: e.message.toList := by
  intro h
  obtain ⟨e, he, hnamed⟩ := h truthDrawn [.statement (.call "f" [.foreign (.truth true)])] [] (.truth true) rfl
    (List.findSome?_eq_none_iff.1 rfl)
  obtain rfl : RenderError.boolean = e := Except.error.inj he
  exact absurd hnamed (by decide +kernel)

end Program

end RasterSketch
