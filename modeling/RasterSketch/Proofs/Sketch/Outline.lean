import RasterSketch.Proofs.Sketch.Nodes
import RasterSketch.Sketch.Program
/-!
# The outline of a program

The outline of a program has the text of each expression in the place of the expression.  Its lines, taken without
their indents, are its forms.  Statements are settled by their forms (`Outline.formsAll_append_inj`), as a function is
closed where it was opened, and so is a whole program (`ProgramOutline.forms_inj`): an empty line behind the globals
cannot be the one behind the setup.
-/

namespace RasterSketch

inductive Clause where
  | call (name : Text) (args : List Text)
  | declare (name value : Text)
  | increment (name amount : Text)
  | result (value : Text)

inductive Outline where
  | clause (c : Clause)
  | function (name : Text) (params : List Text) (body : List Outline)

inductive Form where
  | blank
  | closing
  | clause (c : Clause)
  | header (name : Text) (params : List Text)

/-- A line that no statement begins with. -/
def Form.isEnd : Form → Bool
  | .blank => true
  | .closing => true
  | _ => false

/-! ## Outlines -/

namespace Statement

mutual

def outline : Statement → Except RenderError Outline
  | .call name args => do return .clause (.call name (← Expr.renderAll args))
  | .declare name value => do return .clause (.declare name (← value.render))
  | .increment name amount => do return .clause (.increment name (← amount.render))
  | .result value => do return .clause (.result (← value.render))
  | .function name params body => do return .function name params (← outlineAll body)
  | .foreign v => .error (.unknownStatement v)

def outlineAll : List Statement → Except RenderError (List Outline)
  | [] => .ok []
  | s :: ss => do
    let o ← outline s
    let os ← outlineAll ss
    return o :: os

end

end Statement

/-- The sections of a program that its text tells apart. -/
structure ProgramOutline where
  globals : List Outline
  setup : List Outline
  drawn : List Outline
  helpers : List Outline

/-- The outlines of the sections; what is drawn in a frame is one of them. -/
def Program.outline (p : Program) : Except RenderError ProgramOutline := do
  let globals ← Statement.outlineAll p.globals
  let setup ← Statement.outlineAll p.setup
  let drawn ← Statement.outlineAll (p.prologue ++ p.statements ++ p.epilogue)
  let helpers ← Statement.outlineAll p.helpers
  return ⟨globals, setup, drawn, helpers⟩

/-! ## Forms of statements -/

namespace Outline

mutual

def forms : Outline → List Form
  | .clause c => [.clause c]
  | .function name params body => .header name params :: formsAll body ++ [.closing]

def formsAll : List Outline → List Form
  | [] => []
  | o :: os => o.forms ++ formsAll os

end

theorem formsAll_singleton (o : Outline) : formsAll [o] = o.forms := List.append_nil _

/-- What may stand behind the last of some statements. -/
def Behind (fs : List Form) : Prop := ∀ f ∈ fs.head?, f.isEnd = true

theorem Behind.nil : Behind [] := fun _ h => (by cases h)

theorem Behind.cons {f : Form} (h : f.isEnd = true) (fs : List Form) : Behind (f :: fs) :=
  fun _ hg => Option.some.inj hg ▸ h

theorem not_behind (o : Outline) (fs : List Form) : ¬ Behind (o.forms ++ fs) := by
  intro h
  cases o with
  | clause c => exact Bool.false_ne_true (h _ rfl)
  | function name params body => exact Bool.false_ne_true (h _ rfl)

/-- **Statements are settled by their forms, and so is where they end.** -/
theorem formsAll_append_inj : ∀ {os us : List Outline} {r s : List Form}, Behind r → Behind s →
    formsAll os ++ r = formsAll us ++ s → os = us ∧ r = s
  | [], [], _, _, _, _, h => ⟨rfl, h⟩
  | [], u :: us, r, s, hr, _, h => by
    rw [formsAll, formsAll, List.nil_append, List.append_assoc] at h
    exact absurd (h ▸ hr) (not_behind u _)
  | o :: os, [], r, s, _, hs, h => by
    rw [formsAll, formsAll, List.nil_append, List.append_assoc] at h
    exact absurd (h ▸ hs) (not_behind o _)
  | .clause c :: os, .clause c' :: us, r, s, hr, hs, h => by
    obtain ⟨hc, hrest⟩ := List.cons.inj h
    obtain ⟨rfl, rfl⟩ := formsAll_append_inj hr hs hrest
    cases hc
    exact ⟨rfl, rfl⟩
  | .clause c :: os, .function name params body :: us, r, s, _, _, h => by cases (List.cons.inj h).1
  | .function name params body :: os, .clause c :: us, r, s, _, _, h => by cases (List.cons.inj h).1
  | .function name params body :: os, .function name' params' body' :: us, r, s, hr, hs, h => by
    rw [formsAll, forms, formsAll, forms] at h
    simp only [List.cons_append, List.append_assoc] at h
    obtain ⟨hc, hrest⟩ := List.cons.inj h
    -- The bodies end with the first line that begins no statement, which closes the function.
    obtain ⟨rfl, hbehind⟩ := formsAll_append_inj (Behind.cons rfl _) (Behind.cons rfl _) hrest
    obtain ⟨rfl, rfl⟩ := formsAll_append_inj hr hs (List.cons.inj hbehind).2
    cases hc
    exact ⟨rfl, rfl⟩
termination_by os => sizeOf os

end Outline

/-! ## Forms of programs -/

namespace ProgramOutline

open Outline

/-- Each helper behind an empty line. -/
def helperForms (hs : List Outline) : List Form := hs.flatMap fun h => .blank :: h.forms

/-- From `setup` on. -/
def mainForms (o : ProgramOutline) : List Form :=
  formsAll [.function "setup" [] o.setup] ++
    .blank :: .header "draw" [] :: (formsAll o.drawn ++ .closing :: helperForms o.helpers)

def forms (o : ProgramOutline) : List Form :=
  formsAll o.globals ++ (if o.globals.isEmpty then o.mainForms else .blank :: o.mainForms)

theorem forms_of_nil {o : ProgramOutline} (h : o.globals = []) : o.forms = o.mainForms := by
  rw [forms, h]
  rfl

theorem forms_of_ne_nil {o : ProgramOutline} (h : o.globals ≠ []) :
    o.forms = formsAll o.globals ++ .blank :: o.mainForms := by
  rw [forms, if_neg (by simpa using h)]

theorem behind_helperForms (hs : List Outline) : Behind (helperForms hs) := by
  cases hs with
  | nil => exact Behind.nil
  | cons h hs => exact Behind.cons rfl _

theorem helperForms_inj : ∀ {hs gs : List Outline}, helperForms hs = helperForms gs → hs = gs
  | [], [], _ => rfl
  | [], _ :: _, h => by cases h
  | _ :: _, [], h => by cases h
  | x :: hs, y :: gs, h => by
    have hrest : formsAll [x] ++ helperForms hs = formsAll [y] ++ helperForms gs := by
      rw [formsAll_singleton, formsAll_singleton]
      exact (List.cons.inj h).2
    obtain ⟨hxy, hhs⟩ := formsAll_append_inj (behind_helperForms hs) (behind_helperForms gs) hrest
    rw [(List.cons.inj hxy).1, helperForms_inj hhs]

/-- **From `setup` on a program is settled by its forms.** -/
theorem mainForms_inj {o u : ProgramOutline} (h : o.mainForms = u.mainForms) :
    o.setup = u.setup ∧ o.drawn = u.drawn ∧ o.helpers = u.helpers := by
  obtain ⟨hsetup, hdraw⟩ := formsAll_append_inj (Behind.cons rfl _) (Behind.cons rfl _) h
  obtain ⟨hdrawn, hclose⟩ := formsAll_append_inj (Behind.cons rfl _) (Behind.cons rfl _)
    (List.cons.inj (List.cons.inj hdraw).2).2
  refine ⟨?_, hdrawn, helperForms_inj (List.cons.inj hclose).2⟩
  injection (List.cons.inj hsetup).1

/-- Without globals the first empty line has `draw` behind it, with globals `setup`. -/
theorem mainForms_ne (o u : ProgramOutline) (os : List Outline) :
    o.mainForms ≠ formsAll os ++ .blank :: u.mainForms := by
  intro h
  obtain ⟨-, hblank⟩ := formsAll_append_inj (Behind.cons rfl _) (Behind.cons rfl _) h
  have hname : ("draw" : Text) = "setup" := by
    injection (List.cons.inj (List.cons.inj hblank).2).1
  exact absurd hname (by decide)

/-- **A program's outline is settled by its forms.** -/
theorem forms_inj {o u : ProgramOutline} (h : o.forms = u.forms) : o = u := by
  have hmain : o.globals = u.globals ∧ o.mainForms = u.mainForms := by
    by_cases ho : o.globals = [] <;> by_cases hu : u.globals = []
    · rw [forms_of_nil ho, forms_of_nil hu] at h
      exact ⟨ho.trans hu.symm, h⟩
    · rw [forms_of_nil ho, forms_of_ne_nil hu] at h
      exact absurd h (mainForms_ne o u _)
    · rw [forms_of_ne_nil ho, forms_of_nil hu] at h
      exact absurd h.symm (mainForms_ne u o _)
    · rw [forms_of_ne_nil ho, forms_of_ne_nil hu] at h
      obtain ⟨hglobals, hrest⟩ := formsAll_append_inj (Behind.cons rfl _) (Behind.cons rfl _) h
      exact ⟨hglobals, (List.cons.inj hrest).2⟩
  obtain ⟨hsetup, hdrawn, hhelpers⟩ := mainForms_inj hmain.2
  cases o
  cases u
  obtain rfl := hmain.1
  obtain rfl := hsetup
  obtain rfl := hdrawn
  obtain rfl := hhelpers
  rfl

end ProgramOutline

end RasterSketch
