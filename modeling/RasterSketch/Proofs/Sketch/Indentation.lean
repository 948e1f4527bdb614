import RasterSketch.Proofs.Sketch.Structure
/-!
# Indentation

The lines of a statement are the forms of its outline, each behind an indent of its own: the depth of the statement and
one level more for each function body around the line (`lines_eq`).  So a deeper statement has the same lines, all of
them farther in by the same number of spaces, and what is indented by how much is told by the statement alone
(`lines_indented`).
-/
namespace RasterSketch

/-! ## Spaces in front -/

/-- How many spaces a text begins with. -/
def Text.leadingSpaces (t : Text) : Nat := (t.codes.takeWhile (· == .char ' ')).length

theorem indent_codes (depth : Int) : (indent depth).codes = List.replicate (2 * depth.toNat) (.char ' ') := by
  rw [indent, Text.ofChars, List.map_replicate]

theorem indent_add (m n : Nat) : indent (m + n) = indent m ++ indent n := by
  refine Text.codes_inj ?_
  rw [Text.codes_append, indent_codes, indent_codes, indent_codes, ← List.replicate_add, ← Nat.mul_add]
  rfl

theorem leadingSpaces_indent_append (depth : Nat) {t : Text} (h : t.codes.head? ≠ some (.char ' ')) :
    (indent depth ++ t).leadingSpaces = 2 * depth := by
  have htext : t.codes.takeWhile (· == .char ' ') = [] := by
    cases ht : t.codes with
    | nil => rfl
    | cons c cs =>
      rw [ht] at h
      refine List.takeWhile_cons_of_neg fun hc => h ?_
      rw [beq_iff_eq.1 hc]
      rfl
  rw [Text.leadingSpaces, Text.codes_append, indent_codes, List.takeWhile_append_of_pos, htext, List.append_nil,
    List.length_replicate, Int.toNat_natCast]
  intro c hc
  rw [List.eq_of_mem_replicate hc]
  rfl

/-- What the line of a statement ends with. -/
def lineEnds : List CodePoint := [.char ';', .char '\x7b', .char '\x7d']

theorem Text.getLast?_append {t u : Text} {c : CodePoint} (h : u.codes.getLast? = some c) :
    (t ++ u).codes.getLast? = some c := by
  rw [codes_append, List.getLast?_append, h]
  rfl

theorem Form.getLast?_text : ∀ {f : Form}, f ≠ .blank → ∃ c ∈ lineEnds, f.text.codes.getLast? = some c
  | .blank, h => absurd rfl h
  | .closing, _ => ⟨.char '\x7d', by decide, rfl⟩
  | .clause (.call ..), _ => ⟨.char ';', by decide, Text.getLast?_append (u := ");") rfl⟩
  | .clause (.declare ..), _ => ⟨.char ';', by decide, Text.getLast?_append (u := ";") rfl⟩
  | .clause (.increment ..), _ => ⟨.char ';', by decide, Text.getLast?_append (u := ";") rfl⟩
  | .clause (.result ..), _ => ⟨.char ';', by decide, Text.getLast?_append (u := ";") rfl⟩
  | .header .., _ => ⟨.char '\x7b', by decide, Text.getLast?_append (u := ") \x7b") rfl⟩

/-! ## Lines with their levels -/

namespace Outline

mutual

/-- The form of each line, with the number of function bodies around it. -/
def placed : Outline → List (Nat × Form)
  | .clause c => [(0, .clause c)]
  | .function name params body =>
    (0, .header name params) :: (placedAll body).map (fun p => (p.1 + 1, p.2)) ++ [(0, .closing)]

def placedAll : List Outline → List (Nat × Form)
  | [] => []
  | o :: os => o.placed ++ placedAll os

end

mutual

theorem map_snd_placed : ∀ o : Outline, o.placed.map Prod.snd = o.forms
  | .clause c => rfl
  | .function name params body => by
    have hbody := map_snd_placedAll body
    rw [placed, forms, List.map_append, List.map_cons, List.map_map, ← hbody]
    rfl

theorem map_snd_placedAll : ∀ os : List Outline, (placedAll os).map Prod.snd = formsAll os
  | [] => rfl
  | o :: os => by rw [placedAll, formsAll, List.map_append, map_snd_placed o, map_snd_placedAll os]

end

mutual

/-- No statement has an empty line. -/
theorem blank_not_mem_forms : ∀ o : Outline, Form.blank ∉ o.forms
  | .clause c => by simp [forms]
  | .function name params body => by simpa [forms] using blank_not_mem_formsAll body

theorem blank_not_mem_formsAll : ∀ os : List Outline, Form.blank ∉ formsAll os
  | [] => List.not_mem_nil
  | o :: os => by
    rw [formsAll, List.mem_append, not_or]
    exact ⟨blank_not_mem_forms o, blank_not_mem_formsAll os⟩

end

end Outline

/-- The line of a form at a depth, with so many function bodies around it. -/
def Form.lineAt (depth : Int) (p : Nat × Form) : Text := indent (depth + p.1) ++ p.2.text

theorem Form.lineAt_succ (depth : Int) (ps : List (Nat × Form)) :
    (ps.map fun p => (p.1 + 1, p.2)).map (lineAt depth) = ps.map (lineAt (depth + 1)) := by
  rw [List.map_map]
  refine List.map_congr_left fun p _ => ?_
  have hlevel : depth + (p.1 + 1 : Nat) = depth + 1 + p.1 := by omega
  simp only [Function.comp_apply, lineAt, hlevel]

namespace Outline

def lines (depth : Int) (o : Outline) : List Text := o.placed.map (Form.lineAt depth)

def linesAll (depth : Int) (os : List Outline) : List Text := (placedAll os).map (Form.lineAt depth)

theorem lines_clause (depth : Int) (c : Clause) : (clause c).lines depth = [indent depth ++ c.text] := by
  simp [lines, placed, Form.lineAt, Form.text]

theorem lines_function (depth : Int) (name : Text) (params : List Text) (body : List Outline) :
    (function name params body).lines depth =
      (indent depth ++ (Form.header name params).text) :: linesAll (depth + 1) body ++
        [indent depth ++ Form.closing.text] := by
  rw [lines, linesAll, placed, List.map_append, List.map_cons, Form.lineAt_succ]
  simp [Form.lineAt]

theorem lines_natCast (depth : Nat) (o : Outline) : o.lines depth = (o.lines 0).map (indent depth ++ ·) := by
  rw [lines, lines, List.map_map]
  refine List.map_congr_left fun p _ => ?_
  simp only [Function.comp_apply, Form.lineAt, Int.zero_add]
  rw [indent_add, Text.append_assoc]

end Outline

namespace Statement

/-- A statement of one line. -/
theorem line_eq {α : Type} {x : Except RenderError α} {depth : Int} {line : α → Text} {clause : α → Clause}
    (h : ∀ t, line t = indent depth ++ (clause t).text) :
    (do return [line (← x)]) = Outline.lines depth <$> (do return Outline.clause (clause (← x))) := by
  cases x with
  | error e => rfl
  | ok t =>
    show Except.ok [line t] = Except.ok ((Outline.clause (clause t)).lines depth)
    rw [Outline.lines_clause, h]

mutual

/-- **The lines of a statement are the forms of its outline, each behind its indent.** -/
theorem lines_eq : ∀ (s : Statement) (depth : Int), lines depth s = Outline.lines depth <$> s.outline
  | .call name args, depth => by
    rw [lines, outline]
    exact line_eq fun ts => by simp only [Clause.text, Text.append_assoc]
  | .declare name value, depth => by
    rw [lines, outline]
    exact line_eq fun t => by simp only [Clause.text, Text.append_assoc]
  | .increment name amount, depth => by
    rw [lines, outline]
    exact line_eq fun t => by simp only [Clause.text, Text.append_assoc]
  | .result value, depth => by
    rw [lines, outline]
    exact line_eq fun t => by simp only [Clause.text, Text.append_assoc]
  | .function name params body, depth => by
    rw [lines, outline, linesAll_eq body (depth + 1)]
    cases outlineAll body with
    | error e => rfl
    | ok os =>
      refine congrArg Except.ok ((?_ : _ = _).trans (Outline.lines_function depth name params os).symm)
      simp only [Form.text, Text.append_assoc]
  | .foreign v, depth => rfl

theorem linesAll_eq : ∀ (ss : List Statement) (depth : Int),
    linesAll depth ss = Outline.linesAll depth <$> outlineAll ss
  | [], _ => rfl
  | s :: ss, depth => by
    rw [linesAll, outlineAll, lines_eq s depth, linesAll_eq ss depth]
    cases s.outline with
    | error e => rfl
    | ok o =>
      cases outlineAll ss with
      | error e => rfl
      | ok os => exact congrArg Except.ok (List.map_append ..).symm

end

/-- **A statement that is deeper has the same lines farther in**, or fails in the same way. -/
theorem lines_natCast (s : Statement) (depth : Nat) :
    lines depth s = (List.map (indent depth ++ ·)) <$> lines 0 s := by
  rw [lines_eq, lines_eq]
  cases s.outline with
  | error e => rfl
  | ok o => exact congrArg Except.ok (o.lines_natCast depth)

/-! ## Levels of a statement -/

mutual

/-- How many lines a statement has: one, or those of a body with one in front and one behind. -/
def lineCount : Statement → Nat
  | .function _ _ body => 2 + lineCountAll body
  | _ => 1

def lineCountAll : List Statement → Nat
  | [] => 0
  | s :: ss => lineCount s + lineCountAll ss

end

mutual

/-- How many function bodies are around each line of a statement. -/
def nesting : Statement → List Nat
  | .function _ _ body => 0 :: (nestingAll body).map (· + 1) ++ [0]
  | _ => [0]

def nestingAll : List Statement → List Nat
  | [] => []
  | s :: ss => nesting s ++ nestingAll ss

end

mutual

theorem length_nesting : ∀ s : Statement, s.nesting.length = s.lineCount
  | .function name params body => by
    rw [nesting, lineCount, List.length_append, List.length_cons, List.length_map, length_nestingAll body,
      List.length_singleton]
    omega
  | .call .. | .declare .. | .increment .. | .result .. | .foreign .. => rfl

theorem length_nestingAll : ∀ ss : List Statement, (nestingAll ss).length = lineCountAll ss
  | [] => rfl
  | s :: ss => by rw [nestingAll, lineCountAll, List.length_append, length_nesting s, length_nestingAll ss]

end

mutual

theorem map_fst_placed : ∀ {s : Statement} {o : Outline}, s.outline = .ok o → o.placed.map Prod.fst = s.nesting
  | .call name args, _, h => by
    rw [outline] at h
    obtain ⟨ts, -, rfl⟩ := bind_pure_eq_ok.1 h
    rfl
  | .declare name value, _, h => by
    rw [outline] at h
    obtain ⟨t, -, rfl⟩ := bind_pure_eq_ok.1 h
    rfl
  | .increment name amount, _, h => by
    rw [outline] at h
    obtain ⟨t, -, rfl⟩ := bind_pure_eq_ok.1 h
    rfl
  | .result value, _, h => by
    rw [outline] at h
    obtain ⟨t, -, rfl⟩ := bind_pure_eq_ok.1 h
    rfl
  | .function name params body, _, h => by
    rw [outline] at h
    obtain ⟨os, hos, rfl⟩ := bind_pure_eq_ok.1 h
    rw [Outline.placed, nesting, ← map_fst_placedAll hos]
    simp
  | .foreign v, _, h => by cases h

theorem map_fst_placedAll : ∀ {ss : List Statement} {os : List Outline}, outlineAll ss = .ok os →
    (Outline.placedAll os).map Prod.fst = nestingAll ss
  | [], _, h => by
    cases h
    rfl
  | s :: ss, _, h => by
    rw [outlineAll] at h
    obtain ⟨o, ho, h⟩ := bind_eq_ok.1 h
    obtain ⟨os, hos, rfl⟩ := bind_pure_eq_ok.1 h
    rw [Outline.placedAll, nestingAll, List.map_append, map_fst_placed ho, map_fst_placedAll hos]

end

/-! ## Statements within statements -/

/-- A statement stands in another with so many function bodies around it. -/
inductive Within (t : Statement) : Nat → Statement → Prop
  | self : Within t 0 t
  | body {k : Nat} {u : Statement} {name : Text} {params : List Text} {body : List Statement} :
      u ∈ body → Within t k u → Within t (k + 1) (.function name params body)

/-- **The lines of a statement are together among those of a statement that it stands in.** -/
theorem lines_within {t s : Statement} {k : Nat} (h : Within t k s) : ∀ {depth : Int} {ls : List Text},
    lines depth s = .ok ls →
      ∃ before inner after, lines (depth + k) t = .ok inner ∧ ls = before ++ inner ++ after := by
  induction h with
  | self =>
    intro depth ls hls
    exact ⟨[], ls, [], by simpa using hls, by simp⟩
  | @body k u name params body hu _ ih =>
    intro depth ls hls
    rw [lines] at hls
    obtain ⟨inner, hinner, rfl⟩ := bind_pure_eq_ok.1 hls
    obtain ⟨xs, ys, rfl⟩ := List.append_of_mem hu
    obtain ⟨as, bs, -, hbs, rfl⟩ := linesAll_append_eq_ok.1 hinner
    rw [linesAll] at hbs
    obtain ⟨l, hl, hbs⟩ := bind_eq_ok.1 hbs
    obtain ⟨rest, -, rfl⟩ := bind_pure_eq_ok.1 hbs
    obtain ⟨before, own, after, hown, rfl⟩ := ih hl
    have hdepth : depth + (k + 1 : Nat) = depth + 1 + k := by omega
    have hsplit : ∀ x y : Text, x :: (as ++ (before ++ own ++ after ++ rest)) ++ [y] =
        x :: (as ++ before) ++ own ++ (after ++ rest ++ [y]) := fun x y => by
      simp only [List.cons_append, List.append_assoc]
    exact ⟨_, own, _, by rw [hdepth]; exact hown, hsplit _ _⟩

/-! ## Statements at a depth -/

theorem checkDepth_natCast {depth : Nat} (h : depth ≤ depthLimit) : checkDepth depth = .ok () := by
  have hword : fitsWord depth = true ∧ fitsWord (2 * (depth : Int)) = true := by
    unfold depthLimit at h
    unfold fitsWord
    simp only [Bool.and_eq_true, decide_eq_true_eq]
    omega
  rw [checkDepth, hword.1, hword.2]
  simp only [Bool.not_true, Bool.false_and, Bool.false_eq_true, if_false]
  rw [if_neg (by omega)]

/-- How the lines of a statement stand at a depth. -/
structure IsIndented (s : Statement) (depth : Nat) (ls : List Text) : Prop where
  count : ls.length = s.lineCount
  spaces : ls.map Text.leadingSpaces = s.nesting.map fun k => 2 * (depth + k)
  inLine : ∀ l ∈ ls, Layout.newline ∉ l.codes
  ends : ∀ l ∈ ls, ∃ c ∈ lineEnds, l.codes.getLast? = some c
  parts : ∀ {k t}, Within t k s →
    ∃ before inner after, lines (depth + k : Nat) t = .ok inner ∧ ls = before ++ inner ++ after
  closed : ∀ {k name params body}, Within (.function name params body) k s →
    ∃ before inner after, linesAll (depth + k + 1 : Nat) body = .ok inner ∧
      ls = before ++ ((indent (depth + k : Nat) ++ (Form.header name params).text) :: inner ++
        [indent (depth + k : Nat) ++ Form.closing.text]) ++ after

theorem leadingSpaces_lineAt {a : Alphabet} (depth : Nat) {p : Nat × Form} (h : p.2.Valid a) :
    (Form.lineAt depth p).leadingSpaces = 2 * (depth + p.1) := by
  rw [Form.lineAt, ← Int.natCast_add, leadingSpaces_indent_append _ (Form.head_text h)]

theorem valid_of_forall₂ {a : Alphabet} : ∀ {ls : List Text} {fs : List Form}, List.Forall₂ (LineOf a) ls fs →
    ∀ f ∈ fs, f.Valid a
  | _, _, .cons hf hfs, g, hg => by
    rcases List.mem_cons.1 hg with rfl | hg
    · exact hf.1
    · exact valid_of_forall₂ hfs g hg

theorem isIndented_of_lines {a : Alphabet} {s : Statement} (hn : s.isNamed a = true) {depth : Nat} {ls : List Text}
    (h : lines depth s = .ok ls) : s.IsIndented depth ls := by
  obtain ⟨o, ho, hforms⟩ := outline_of_lines hn h
  have hls : ls = o.lines depth := by
    rw [lines_eq, ho] at h
    exact (Except.ok.inj h).symm
  have hmem : ∀ p ∈ o.placed, p.2 ∈ o.forms := fun p hp => by
    rw [← Outline.map_snd_placed]
    exact List.mem_map_of_mem hp
  refine ⟨?_, ?_, Program.newline_not_mem_of_forall₂ hforms, ?_, fun hw => ?_, fun hw => ?_⟩
  · rw [hls, Outline.lines, List.length_map, ← length_nesting, ← map_fst_placed ho, List.length_map]
  · rw [hls, Outline.lines, List.map_map, ← map_fst_placed ho, List.map_map]
    exact List.map_congr_left fun p hp => leadingSpaces_lineAt depth (valid_of_forall₂ hforms _ (hmem p hp))
  · intro l hl
    rw [hls] at hl
    obtain ⟨p, hp, rfl⟩ := List.mem_map.1 hl
    have hne : p.2 ≠ .blank := fun hblank => o.blank_not_mem_forms (hblank ▸ hmem p hp)
    obtain ⟨c, hc, hlast⟩ := Form.getLast?_text hne
    exact ⟨c, hc, Text.getLast?_append hlast⟩
  · exact lines_within hw h
  · obtain ⟨before, own, after, hown, rfl⟩ := lines_within hw h
    rw [lines] at hown
    obtain ⟨inner, hinner, rfl⟩ := bind_pure_eq_ok.1 hown
    refine ⟨before, inner, after, by exact_mod_cast hinner, ?_⟩
    simp only [Form.text, Text.append_assoc]
    rfl

/-- **Indentation is a shift**: at every depth a statement has the lines that it has at the outermost one, behind two
spaces for each level, and each line stands as far in as there are function bodies around it.  A depth that is asked for
gives these lines, or has no room for them. -/
theorem lines_indented (a : Alphabet) (s : Statement) (hn : s.isNamed a = true) {ls : List Text}
    (h : lines 0 s = .ok ls) (depth : Nat) :
    lines depth s = .ok (ls.map (indent depth ++ ·)) ∧ s.IsIndented depth (ls.map (indent depth ++ ·)) ∧
      (linesAt depth s = .ok (ls.map (indent depth ++ ·)) ∨
        depthLimit < depth ∧ ∃ e, checkDepth depth = .error e ∧ linesAt depth s = .error e) := by
  have hlines : lines depth s = .ok (ls.map (indent depth ++ ·)) := by
    rw [lines_natCast, h]
    rfl
  refine ⟨hlines, isIndented_of_lines hn hlines, ?_⟩
  unfold linesAt
  cases hroom : checkDepth depth with
  | ok u => exact .inl hlines
  | error e =>
    refine .inr ⟨Nat.lt_of_not_le fun hle => ?_, e, rfl, rfl⟩
    rw [checkDepth_natCast hle] at hroom
    cases hroom

/-- A function in the body of another, and a text with a line end and a brace. -/
def nested : Statement :=
  .function "outer" ["a", "b"] [
    .call "f" [.text "say\n \x7b", .variable "a" - 2],
    .function "inner" [] [.increment "b" (.int (-1))],
    .result (.variable "b")]

theorem nested_indented : nested.isNamed .ascii = true ∧ ∃ ls, lines 0 nested = .ok ls ∧
    lines (3 : Nat) nested = .ok (ls.map (indent (3 : Nat) ++ ·)) ∧
      nested.IsIndented 3 (ls.map (indent (3 : Nat) ++ ·)) ∧
      (linesAt (3 : Nat) nested = .ok (ls.map (indent (3 : Nat) ++ ·)) ∨
        depthLimit < 3 ∧ ∃ e, checkDepth (3 : Nat) = .error e ∧ linesAt (3 : Nat) nested = .error e) := by
  have hn : nested.isNamed .ascii = true := by decide
  obtain ⟨ls, hls⟩ := exists_ok (x := lines 0 nested) (by decide +kernel)
  exact ⟨hn, ls, hls, lines_indented .ascii nested hn hls 3⟩

example : nested.nesting = [0, 1, 1, 2, 1, 1, 0] := rfl

end Statement
end RasterSketch
