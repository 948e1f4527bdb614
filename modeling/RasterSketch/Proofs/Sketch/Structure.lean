import RasterSketch.Proofs.Sketch.Layout
import RasterSketch.Proofs.Sketch.Sections
/-!
# The structure of a program

The lines of a program are those of its outline (`Program.outline_of_render`), so that its text settles the statements
of each section, with the text of each expression in its place (`Program.outline_eq_of_render_eq`).  Only where the
prologue ends and the epilogue begins does the text not say.
-/

namespace RasterSketch

open Outline

/-! ## Names of statements -/

namespace Statement

mutual

/-- Whether every name in a statement is a name, and every operator an operator. -/
def isNamed (a : Alphabet) : Statement → Bool
  | .call name args => a.isName name && Expr.everyOf (Expr.isNamed a) args
  | .declare name value => a.isName name && value.every (Expr.isNamed a)
  | .increment name amount => a.isName name && amount.every (Expr.isNamed a)
  | .result value => value.every (Expr.isNamed a)
  | .function name params body => a.isName name && (params.all a.isName && areNamed a body)
  | .foreign _ => true

def areNamed (a : Alphabet) : List Statement → Bool
  | [] => true
  | s :: ss => isNamed a s && areNamed a ss

end

/-! ## Lines of statements -/

variable {a : Alphabet}

theorem lineOf_indented (f : Form) (h : f.Valid a) (depth : Int) : LineOf a (indent depth ++ f.text) f := by
  refine ⟨h, 2 * depth.toNat, ?_⟩
  rw [Text.codes_append, indent, Text.ofChars, List.map_replicate]

theorem outline_of_clause {s : Statement} {l : Text} (c : Clause) (depth : Int) (ho : s.outline = .ok (.clause c))
    (hc : c.Valid a) (hl : l = indent depth ++ c.text) :
    ∃ o, s.outline = .ok o ∧ List.Forall₂ (LineOf a) [l] o.forms :=
  ⟨.clause c, ho, .cons (hl ▸ lineOf_indented (.clause c) hc depth) .nil⟩

mutual

/-- **The lines of a statement are those of its outline.** -/
theorem outline_of_lines : ∀ {s : Statement} {depth : Int} {ls : List Text}, s.isNamed a = true →
    lines depth s = .ok ls → ∃ o, s.outline = .ok o ∧ List.Forall₂ (LineOf a) ls o.forms
  | .call name args, depth, _, hn, h => by
    rw [isNamed, Bool.and_eq_true] at hn
    rw [lines] at h
    obtain ⟨ts, hts, rfl⟩ := bind_pure_eq_ok.1 h
    refine outline_of_clause (.call name ts) depth (by rw [outline, hts]; rfl) ?_ ?_
    · exact ⟨hn.1, Expr.inline_of_renderAll hn.2 hts⟩
    · simp only [Clause.text, Text.append_assoc]
  | .declare name value, depth, _, hn, h => by
    rw [isNamed, Bool.and_eq_true] at hn
    rw [lines] at h
    obtain ⟨t, ht, rfl⟩ := bind_pure_eq_ok.1 h
    refine outline_of_clause (.declare name t) depth (by rw [outline, ht]; rfl) ?_ ?_
    · exact ⟨hn.1, Expr.inline_of_render hn.2 ht⟩
    · simp only [Clause.text, Text.append_assoc]
  | .increment name amount, depth, _, hn, h => by
    rw [isNamed, Bool.and_eq_true] at hn
    rw [lines] at h
    obtain ⟨t, ht, rfl⟩ := bind_pure_eq_ok.1 h
    refine outline_of_clause (.increment name t) depth (by rw [outline, ht]; rfl) ?_ ?_
    · exact ⟨hn.1, Expr.inline_of_render hn.2 ht⟩
    · simp only [Clause.text, Text.append_assoc]
  | .result value, depth, _, hn, h => by
    rw [isNamed] at hn
    rw [lines] at h
    obtain ⟨t, ht, rfl⟩ := bind_pure_eq_ok.1 h
    refine outline_of_clause (.result t) depth (by rw [outline, ht]; rfl) ?_ ?_
    · exact Expr.inline_of_render hn ht
    · simp only [Clause.text, Text.append_assoc]
  | .function name params body, depth, _, hn, h => by
    rw [isNamed, Bool.and_eq_true, Bool.and_eq_true] at hn
    rw [lines] at h
    obtain ⟨inner, hinner, rfl⟩ := bind_pure_eq_ok.1 h
    obtain ⟨os, hos, hforms⟩ := outlineAll_of_linesAll hn.2.2 hinner
    have hheader : LineOf a (indent depth ++ (Form.header name params).text) (.header name params) :=
      lineOf_indented (.header name params) ⟨hn.1, List.all_eq_true.1 hn.2.1⟩ depth
    have hclosing : LineOf a (indent depth ++ "\x7d") .closing := lineOf_indented .closing trivial depth
    refine ⟨.function name params os, by rw [outline, hos]; rfl, ?_⟩
    simp only [Form.text, Text.append_assoc] at hheader
    simp only [Text.append_assoc]
    exact .cons hheader (List.rel_append hforms (.cons hclosing .nil))
  | .foreign v, _, _, _, h => by cases h

theorem outlineAll_of_linesAll : ∀ {ss : List Statement} {depth : Int} {ls : List Text}, areNamed a ss = true →
    linesAll depth ss = .ok ls → ∃ os, outlineAll ss = .ok os ∧ List.Forall₂ (LineOf a) ls (formsAll os)
  | [], _, _, _, h => by
    cases h
    exact ⟨[], rfl, .nil⟩
  | s :: ss, depth, _, hn, h => by
    rw [areNamed, Bool.and_eq_true] at hn
    rw [linesAll] at h
    obtain ⟨l, hl, h⟩ := bind_eq_ok.1 h
    obtain ⟨ls, hls, rfl⟩ := bind_pure_eq_ok.1 h
    obtain ⟨o, ho, hforms⟩ := outline_of_lines hn.1 hl
    obtain ⟨os, hos, hformsAll⟩ := outlineAll_of_linesAll hn.2 hls
    exact ⟨o :: os, by rw [outlineAll, ho, hos]; rfl, List.rel_append hforms hformsAll⟩

end

theorem areNamed_append : ∀ {ss ts : List Statement}, areNamed a ss = true → areNamed a ts = true →
    areNamed a (ss ++ ts) = true
  | [], _, _, ht => ht
  | s :: ss, _, hs, ht => by
    rw [areNamed, Bool.and_eq_true] at hs
    rw [List.cons_append, areNamed, hs.1, areNamed_append hs.2 ht]
    rfl

theorem isEmpty_of_outlineAll {ss : List Statement} {os : List Outline} (h : outlineAll ss = .ok os) :
    os.isEmpty = ss.isEmpty := by
  cases ss with
  | nil =>
    cases h
    rfl
  | cons s ss =>
    rw [outlineAll] at h
    obtain ⟨o, -, h⟩ := bind_eq_ok.1 h
    obtain ⟨os, -, rfl⟩ := bind_pure_eq_ok.1 h
    rfl

end Statement

/-! ## Lines of programs -/

namespace Program

open Statement ProgramOutline

def isNamed (a : Alphabet) (p : Program) : Bool :=
  [p.globals, p.setup, p.prologue, p.statements, p.epilogue, p.helpers].all (areNamed a)

variable {a : Alphabet}

theorem outlineAll_of_helperLines : ∀ {hs : List Statement} {ls : List Text}, areNamed a hs = true →
    helperLines hs = .ok ls → ∃ os, outlineAll hs = .ok os ∧ List.Forall₂ (LineOf a) ls (helperForms os)
  | [], _, _, h => by
    cases h
    exact ⟨[], rfl, .nil⟩
  | s :: hs, _, hn, h => by
    rw [areNamed, Bool.and_eq_true] at hn
    rw [helperLines] at h
    obtain ⟨l, hl, h⟩ := bind_eq_ok.1 h
    obtain ⟨ls, hls, rfl⟩ := bind_pure_eq_ok.1 h
    obtain ⟨o, ho, hforms⟩ := outline_of_lines hn.1 hl
    obtain ⟨os, hos, hhelpers⟩ := outlineAll_of_helperLines hn.2 hls
    have hblank : LineOf a "" .blank := lineOf_indented .blank trivial 0
    exact ⟨o :: os, by rw [outlineAll, ho, hos]; rfl, .cons hblank (List.rel_append hforms hhelpers)⟩

theorem render_eq_ok {p : Program} {t : Text} (h : p.render = .ok t) : ∃ globals setup drawn helpers,
    linesAll 0 p.globals = .ok globals ∧ lines 0 (.function "setup" [] p.setup) = .ok setup ∧
      linesAll 1 (p.prologue ++ p.statements ++ p.epilogue) = .ok drawn ∧ helperLines p.helpers = .ok helpers ∧
      t = Text.ofLines (globals ++ if p.globals.isEmpty then mainLines setup drawn helpers
        else ⟨[]⟩ :: mainLines setup drawn helpers) := by
  rw [render_eq] at h
  obtain ⟨globals, hglobals, h⟩ := bind_eq_ok.1 h
  obtain ⟨setup, hsetup, h⟩ := bind_eq_ok.1 h
  obtain ⟨drawn, hdrawn, h⟩ := bind_eq_ok.1 h
  obtain ⟨helpers, hhelpers, rfl⟩ := bind_pure_eq_ok.1 h
  exact ⟨globals, setup, drawn, helpers, hglobals, hsetup, hdrawn, hhelpers, rfl⟩

theorem forall₂_mainLines {setup drawn helpers : List Text} {o : ProgramOutline}
    (hsetup : List.Forall₂ (LineOf a) setup (Outline.function "setup" [] o.setup).forms)
    (hdrawn : List.Forall₂ (LineOf a) drawn (formsAll o.drawn))
    (hhelpers : List.Forall₂ (LineOf a) helpers (helperForms o.helpers)) :
    List.Forall₂ (LineOf a) (mainLines setup drawn helpers) o.mainForms := by
  have hblank : LineOf a ⟨[]⟩ .blank := lineOf_indented .blank trivial 0
  have hdraw : LineOf a "function draw() \x7b" (.header "draw" []) :=
    lineOf_indented (.header "draw" []) ⟨rfl, fun x hx => (by cases hx)⟩ 0
  have hclosing : LineOf a "\x7d" .closing := lineOf_indented .closing trivial 0
  rw [mainLines, mainForms, formsAll_singleton]
  exact List.rel_append hsetup (.cons hblank (.cons hdraw (List.rel_append hdrawn (.cons hclosing hhelpers))))

/-- **The lines of a program are those of its outline.** -/
theorem outline_of_render {p : Program} {t : Text} (hn : p.isNamed a = true) (h : p.render = .ok t) :
    ∃ o ls, p.outline = .ok o ∧ t = Text.ofLines ls ∧ List.Forall₂ (LineOf a) ls o.forms := by
  obtain ⟨globals, setup, drawn, helpers, hglobals, hsetup, hdrawn, hhelpers, rfl⟩ := render_eq_ok h
  simp only [isNamed, List.all_cons, List.all_nil, Bool.and_true, Bool.and_eq_true] at hn
  obtain ⟨hng, hns, hnp, hnb, hne, hnh⟩ := hn
  obtain ⟨g, hg, hgforms⟩ := outlineAll_of_linesAll hng hglobals
  obtain ⟨fn, hfn, hfnforms⟩ := outline_of_lines (a := a) (s := .function "setup" [] p.setup) hns hsetup
  obtain ⟨d, hd, hdforms⟩ := outlineAll_of_linesAll (areNamed_append (areNamed_append hnp hnb) hne) hdrawn
  obtain ⟨hs, hhs, hhsforms⟩ := outlineAll_of_helperLines hnh hhelpers
  rw [Statement.outline] at hfn
  obtain ⟨s, hs', rfl⟩ := bind_pure_eq_ok.1 hfn
  have hmain : List.Forall₂ (LineOf a) (mainLines setup drawn helpers) (ProgramOutline.mk g s d hs).mainForms :=
    forall₂_mainLines hfnforms hdforms hhsforms
  refine ⟨⟨g, s, d, hs⟩, _, ?_, rfl, ?_⟩
  · rw [outline, hg, hs', hd, hhs]
    rfl
  · rw [ProgramOutline.forms, ← isEmpty_of_outlineAll hg]
    refine List.rel_append hgforms ?_
    cases g.isEmpty with
    | true => exact hmain
    | false => exact .cons (lineOf_indented .blank trivial 0) hmain

theorem newline_not_mem_of_forall₂ : ∀ {ls : List Text} {fs : List Form}, List.Forall₂ (LineOf a) ls fs →
    ∀ l ∈ ls, Layout.newline ∉ l.codes
  | _, _, .cons hf hfs, l, hl => by
    rcases List.mem_cons.1 hl with rfl | hl
    · exact hf.newline_not_mem
    · exact newline_not_mem_of_forall₂ hfs l hl

/-- **The text of a program settles its outline**: two programs of one text have the same globals, the same setup, the
same helpers, and from the prologue to the epilogue the same statements. -/
theorem outline_eq_of_render_eq (a : Alphabet) {p q : Program} {t : Text} (hp : p.isNamed a = true)
    (hq : q.isNamed a = true) (htp : p.render = .ok t) (htq : q.render = .ok t) :
    ∃ o, p.outline = .ok o ∧ q.outline = .ok o := by
  obtain ⟨o, ls, ho, rfl, hforms⟩ := outline_of_render hp htp
  obtain ⟨u, ms, hu, ht, hforms'⟩ := outline_of_render hq htq
  obtain rfl := ofLines_inj (newline_not_mem_of_forall₂ hforms) (newline_not_mem_of_forall₂ hforms') ht
  obtain rfl := forms_inj (LineOf.unique_all hforms hforms')
  exact ⟨o, ho, hu⟩

/-- A helper as a global, and what is drawn in the prologue. -/
def early : Program where
  globals := [.function "setup" ["a", "b"] [.result (.variable "a" - (.variable "b" - 1))]]
  prologue := [.call "f" [.text "x, y);\n", 1], .increment "let" (.int (-1))]

/-- The same text, the statements in other sections and a number of another kind. -/
def late : Program where
  globals := [.function "setup" ["a", "b"] [.result (.variable "a" - (.variable "b" - 1))]]
  statements := [.call "f" [.text "x, y);\n", 1.0]]
  epilogue := [.increment "let" (.int (-1))]

theorem early_late : early.isNamed .ascii = true ∧ late.isNamed .ascii = true ∧
    ∃ t, early.render = .ok t ∧ late.render = .ok t ∧ ∃ o, early.outline = .ok o ∧ late.outline = .ok o := by
  have hearly : early.isNamed .ascii = true := by decide
  have hlate : late.isNamed .ascii = true := by decide
  obtain ⟨t, ht⟩ := exists_ok (x := early.render) (by decide +kernel)
  obtain ⟨u, hu⟩ := exists_ok (x := late.render) (by decide +kernel)
  have hsame : early.render.toOption = late.render.toOption := by decide +kernel
  rw [ht, hu] at hsame
  cases hsame
  exact ⟨hearly, hlate, t, ht, hu, outline_eq_of_render_eq .ascii hearly hlate ht hu⟩

end Program

end RasterSketch
