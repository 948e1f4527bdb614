import RasterSketch.Proofs.Number.Numeral
import RasterSketch.Proofs.Sketch.Nodes
import RasterSketch.Proofs.Text.Units
import RasterSketch.Sketch.Program
/-!
# Sketches of printable ASCII

Rendering refuses a value that is no node, a number that has no literal, and nothing else.  A program without these
whose names are of printable ASCII has a text (`Program.render_plain`), and the text is lines of printable ASCII:
strings are escaped, so nothing is asked of them.
-/
namespace RasterSketch

/-! ## Printable ASCII -/

def CodePoint.isPlain : CodePoint → Bool
  | .char c => 32 ≤ c.toNat && c.toNat ≤ 126
  | .surrogate _ => false

namespace Text

def isPlain (t : Text) : Bool := t.codes.all CodePoint.isPlain

theorem isPlain_append (s t : Text) : (s ++ t).isPlain = (s.isPlain && t.isPlain) := List.all_append

theorem isPlain_ofChars {cs : List Char} (h : ∀ c ∈ cs, (CodePoint.char c).isPlain = true) :
    (ofChars cs).isPlain = true := by
  unfold isPlain ofChars
  rw [List.all_map, List.all_eq_true]
  exact h

theorem isPlain_separatedBy {separator : Text} (hs : separator.isPlain = true) : ∀ {ts : List Text},
    ts.all isPlain = true → (separatedBy separator ts).isPlain = true
  | [], _ => rfl
  | [t], h => by
    rw [List.all_cons, Bool.and_eq_true] at h
    exact h.1
  | t :: u :: ts, h => by
    rw [List.all_cons, Bool.and_eq_true] at h
    rw [separatedBy, isPlain_append, isPlain_append, h.1, hs, isPlain_separatedBy hs h.2]
    rfl

theorem isPlain_commaSeparated {ts : List Text} (h : ts.all isPlain = true) : (commaSeparated ts).isPlain = true :=
  isPlain_separatedBy (by decide) h

theorem isPlain_of_isDigit {c : Char} (h : c.isDigit = true) : (CodePoint.char c).isPlain = true := by
  have hc : 48 ≤ c.toNat ∧ c.toNat ≤ 57 := by
    simpa [Char.isDigit, UInt32.le_iff_toNat_le] using h
  simp only [CodePoint.isPlain, Bool.and_eq_true, decide_eq_true_eq]
  omega

theorem isPlain_unitEscape (unit : Nat) : ∀ c ∈ unitEscape unit, (CodePoint.char c).isPlain = true := by
  intro c h
  have hdigit : ∀ k : Fin 16, (CodePoint.char (Nat.digitChar k)).isPlain = true := by decide
  rw [unitEscape, List.mem_cons, List.mem_cons] at h
  rcases h with rfl | rfl | h
  · decide
  · decide
  · obtain ⟨k, rfl⟩ := mem_hexDigits h
    exact hdigit k

theorem isPlain_escape : ∀ code : CodePoint, ∀ c ∈ escape code, (CodePoint.char c).isPlain = true
  | .surrogate place => isPlain_unitEscape _
  | .char d => by
    rw [escape, escapeChar]
    iterate 2
      split
      · exact List.all_eq_true.1 rfl
    split
    · rename_i hd
      intro c hc
      rw [List.mem_singleton.1 hc]
      have hlow : 32 ≤ d.toNat := hd.1
      have hhigh : d.toNat ≤ 126 := hd.2
      simp only [CodePoint.isPlain, hlow, hhigh, decide_true, Bool.and_self]
    iterate 5
      split
      · exact List.all_eq_true.1 rfl
    · intro c hc
      obtain ⟨unit, -, hunit⟩ := List.mem_flatMap.1 hc
      exact isPlain_unitEscape unit c hunit

/-- **A string is written in printable ASCII, whatever its characters.** -/
theorem isPlain_literal (text : Text) : (text.literal : Text).isPlain = true := by
  unfold literal ofString
  rw [String.toList_ofList]
  refine isPlain_ofChars fun c h => ?_
  rw [List.mem_append, List.mem_cons, List.mem_singleton] at h
  rcases h with (rfl | h) | rfl
  · decide
  · obtain ⟨code, -, hc⟩ := List.mem_flatMap.1 h
    exact isPlain_escape code c hc
  · decide

end Text

/-! ## Numbers -/

namespace Number

/-- A number that can be written. -/
def isWritable : Number → Bool
  | .int n => !Decimal.exceedsLimit n
  | .real x => x.isFinite

theorem isPlain_withSign (negative : Bool) {cs : List Char} (h : Decimal.isNumeral cs = true) :
    ∀ c ∈ Decimal.withSign negative cs, (CodePoint.char c).isPlain = true := by
  obtain ⟨c, rest, rfl, hc, hrest⟩ := Decimal.isNumeral_cons h
  have hnumeral : ∀ d ∈ c :: rest, (CodePoint.char d).isPlain = true := by
    intro d hd
    rcases List.mem_cons.1 hd with rfl | hd
    · exact Text.isPlain_of_isDigit hc
    · rcases Bool.or_eq_true_iff.1 (hrest d hd) with hd | hd
      · exact Text.isPlain_of_isDigit hd
      · rw [beq_iff_eq.1 hd]
        decide
  intro d hd
  cases negative with
  | false => exact hnumeral d hd
  | true =>
    rcases List.mem_cons.1 hd with rfl | hd
    · decide
    · exact hnumeral d hd

theorem literal_plain {n : Number} (h : n.isWritable = true) :
    ∃ t : String, n.literal = .ok t ∧ (t : Text).isPlain = true := by
  obtain ⟨t, ht⟩ : ∃ t, n.literal = .ok t := by
    cases n with
    | int n =>
      rw [isWritable, Bool.not_eq_true'] at h
      exact ⟨_, Number.literal_int h⟩
    | real x =>
      cases x with
      | finite s m => exact ⟨_, rfl⟩
      | infinity s => cases h
      | nan => cases h
  obtain ⟨negative, cs, hcs, rfl⟩ := Number.literal_eq_ok ht
  refine ⟨_, ht, ?_⟩
  unfold Text.ofString
  rw [String.toList_ofList]
  exact Text.isPlain_ofChars (isPlain_withSign negative hcs)

end Number

/-! ## Expressions -/

namespace Expr

/-- A node that can be written, and in printable ASCII, if its parts can be. -/
def isWritable : Expr → Bool
  | .number n => n.isWritable
  | .variable name => name.isPlain
  | .text _ => true
  | .apply name _ => name.isPlain
  | .binary op _ _ => op.isPlain
  | .foreign _ => false

theorem isPlain_parenthesised (e : Expr) {t : Text} (h : t.isPlain = true) : (e.parenthesised t).isPlain = true := by
  unfold parenthesised
  split
  · rw [Text.isPlain_append, Text.isPlain_append, h]
    rfl
  · exact h

mutual

theorem render_plain : ∀ {e : Expr}, e.every isWritable = true → ∃ t, e.render = .ok t ∧ t.isPlain = true
  | .number n, h => by
    obtain ⟨t, ht, hplain⟩ := Number.literal_plain (n := n) h
    exact ⟨t, render_number_eq_ok.2 ⟨t, ht, rfl⟩, hplain⟩
  | .variable name, h => ⟨name, rfl, h⟩
  | .text s, _ => ⟨s.literal, rfl, Text.isPlain_literal s⟩
  | .apply name args, h => by
    obtain ⟨hname, hargs⟩ := every_apply.1 h
    obtain ⟨ts, hts, hplain⟩ := renderAll_plain hargs
    refine ⟨_, render_apply_eq_ok.2 ⟨ts, hts, rfl⟩, ?_⟩
    have hname : name.isPlain = true := hname
    rw [Text.isPlain_append, Text.isPlain_append, Text.isPlain_append, hname, Text.isPlain_commaSeparated hplain]
    rfl
  | .binary op left right, h => by
    obtain ⟨hop, hleft, hright⟩ := every_binary.1 h
    obtain ⟨l, hl, hlplain⟩ := render_plain hleft
    obtain ⟨r, hr, hrplain⟩ := render_plain hright
    refine ⟨_, render_binary_eq_ok.2 ⟨l, r, hl, hr, rfl⟩, ?_⟩
    have hop : op.isPlain = true := hop
    rw [Text.isPlain_append, Text.isPlain_append, Text.isPlain_append, Text.isPlain_append, hop,
      isPlain_parenthesised left hlplain, isPlain_parenthesised right hrplain]
    rfl

theorem renderAll_plain : ∀ {es : List Expr}, everyOf isWritable es = true →
    ∃ ts, renderAll es = .ok ts ∧ ts.all Text.isPlain = true
  | [], _ => ⟨[], rfl, rfl⟩
  | e :: es, h => by
    obtain ⟨he, hes⟩ := everyOf_cons.1 h
    obtain ⟨t, ht, hplain⟩ := render_plain he
    obtain ⟨ts, hts, hplains⟩ := renderAll_plain hes
    refine ⟨t :: ts, renderAll_cons_eq_ok.2 ⟨t, ts, ht, hts, rfl⟩, ?_⟩
    rw [List.all_cons, hplain, hplains]
    rfl

end

end Expr

/-! ## Statements -/

namespace Statement

mutual

/-- Whether a statement can be written, and in printable ASCII. -/
def isWritable : Statement → Bool
  | .call name args => name.isPlain && Expr.everyOf Expr.isWritable args
  | .declare name value => name.isPlain && value.every Expr.isWritable
  | .increment name amount => name.isPlain && amount.every Expr.isWritable
  | .result value => value.every Expr.isWritable
  | .function name params body => name.isPlain && params.all Text.isPlain && areWritable body
  | .foreign _ => false

def areWritable : List Statement → Bool
  | [] => true
  | s :: ss => s.isWritable && areWritable ss

end

theorem areWritable_append : ∀ ss us : List Statement,
    areWritable (ss ++ us) = (areWritable ss && areWritable us)
  | [], _ => rfl
  | s :: ss, us => by rw [List.cons_append, areWritable, areWritable, areWritable_append ss us, Bool.and_assoc]

theorem areWritable_flatten : ∀ {groups : List (List Statement)}, (∀ g ∈ groups, areWritable g = true) →
    areWritable groups.flatten = true
  | [], _ => rfl
  | g :: groups, h => by
    rw [List.flatten_cons, areWritable_append, h g List.mem_cons_self,
      areWritable_flatten fun g' hg' => h g' (List.mem_cons_of_mem g hg')]
    rfl

theorem isPlain_indent (depth : Int) : (indent depth).isPlain = true := by
  refine Text.isPlain_ofChars fun c h => ?_
  rw [List.eq_of_mem_replicate h]
  decide

mutual

theorem lines_plain : ∀ {s : Statement} (depth : Int), s.isWritable = true →
    ∃ ls, lines depth s = .ok ls ∧ ls.all Text.isPlain = true
  | .call name args, depth, h => by
    rw [isWritable, Bool.and_eq_true] at h
    obtain ⟨ts, hts, hplain⟩ := Expr.renderAll_plain h.2
    refine ⟨_, by rw [lines, hts]; rfl, ?_⟩
    simp only [List.all_cons, List.all_nil, Text.isPlain_append, isPlain_indent, h.1, Text.isPlain_commaSeparated hplain]
    decide
  | .declare name value, depth, h => by
    rw [isWritable, Bool.and_eq_true] at h
    obtain ⟨t, ht, hplain⟩ := Expr.render_plain h.2
    refine ⟨_, by rw [lines, ht]; rfl, ?_⟩
    simp only [List.all_cons, List.all_nil, Text.isPlain_append, isPlain_indent, h.1, hplain]
    decide
  | .increment name amount, depth, h => by
    rw [isWritable, Bool.and_eq_true] at h
    obtain ⟨t, ht, hplain⟩ := Expr.render_plain h.2
    refine ⟨_, by rw [lines, ht]; rfl, ?_⟩
    simp only [List.all_cons, List.all_nil, Text.isPlain_append, isPlain_indent, h.1, hplain]
    decide
  | .result value, depth, h => by
    rw [isWritable] at h
    obtain ⟨t, ht, hplain⟩ := Expr.render_plain h
    refine ⟨_, by rw [lines, ht]; rfl, ?_⟩
    simp only [List.all_cons, List.all_nil, Text.isPlain_append, isPlain_indent, hplain]
    decide
  | .function name params body, depth, h => by
    rw [isWritable, Bool.and_eq_true, Bool.and_eq_true] at h
    obtain ⟨inner, hinner, hplain⟩ := linesAll_plain (depth + 1) h.2
    refine ⟨_, by rw [lines, hinner]; rfl, ?_⟩
    simp only [List.all_append, List.all_cons, List.all_nil, Text.isPlain_append, isPlain_indent, h.1.1, hplain,
      Text.isPlain_commaSeparated h.1.2]
    decide

theorem linesAll_plain : ∀ {ss : List Statement} (depth : Int), areWritable ss = true →
    ∃ ls, linesAll depth ss = .ok ls ∧ ls.all Text.isPlain = true
  | [], _, _ => ⟨[], rfl, rfl⟩
  | s :: ss, depth, h => by
    rw [areWritable, Bool.and_eq_true] at h
    obtain ⟨l, hl, hplain⟩ := lines_plain depth h.1
    obtain ⟨ls, hls, hplains⟩ := linesAll_plain depth h.2
    refine ⟨l ++ ls, by rw [linesAll, hl, hls]; rfl, ?_⟩
    rw [List.all_append, hplain, hplains]
    rfl

end

end Statement

/-! ## Programs -/

namespace Text

/-- Lines of printable ASCII, each with its end: nothing but printable characters and newlines, a newline the last. -/
structure IsPlainLines (t : Text) : Prop where
  plain : ∀ c ∈ t.codes, c = .char '\n' ∨ c.isPlain = true
  ends : t.codes.getLast? = some (.char '\n')

theorem plain_ofLines : ∀ {ls : List Text}, ls.all isPlain = true →
    ∀ c ∈ (ofLines ls).codes, c = .char '\n' ∨ c.isPlain = true
  | [], _, c, hc => by cases hc
  | l :: ls, h, c, hc => by
    rw [List.all_cons, Bool.and_eq_true] at h
    rw [ofLines, codes_append, codes_append, List.mem_append, List.mem_append] at hc
    rcases hc with (hc | hc) | hc
    · exact .inr (List.all_eq_true.1 h.1 c hc)
    · exact .inl (List.mem_singleton.1 hc)
    · exact plain_ofLines h.2 c hc

theorem getLast?_ofLines : ∀ {ls : List Text}, ls ≠ [] → (ofLines ls).codes.getLast? = some (.char '\n')
  | [l], _ => by
    rw [ofLines, ofLines, append_empty, codes_append]
    exact List.getLast?_concat
  | l :: k :: ls, _ => by
    have hrest := getLast?_ofLines (List.cons_ne_nil k ls)
    rw [ofLines, codes_append, List.getLast?_append, hrest]
    rfl

end Text

namespace Program

def isWritable (p : Program) : Bool :=
  [p.globals, p.setup, p.prologue, p.statements, p.epilogue, p.helpers].all Statement.areWritable

theorem helperLines_plain : ∀ {hs : List Statement}, Statement.areWritable hs = true →
    ∃ ls, helperLines hs = .ok ls ∧ ls.all Text.isPlain = true
  | [], _ => ⟨[], rfl, rfl⟩
  | s :: hs, h => by
    rw [Statement.areWritable, Bool.and_eq_true] at h
    obtain ⟨l, hl, hplain⟩ := Statement.lines_plain 0 h.1
    obtain ⟨ls, hls, hplains⟩ := helperLines_plain h.2
    refine ⟨_, by rw [helperLines, hl, hls]; rfl, ?_⟩
    rw [List.cons_append, List.all_cons, List.all_append, hplain, hplains]
    decide

theorem preambleLines_plain {p : Program} (hg : Statement.areWritable p.globals = true)
    (hs : Statement.areWritable p.setup = true) (hp : Statement.areWritable p.prologue = true) :
    ∃ ls, p.preambleLines = .ok ls ∧ ls.all Text.isPlain = true := by
  obtain ⟨globals, hglobals, hgplain⟩ := Statement.linesAll_plain 0 hg
  have hfunction : (Statement.function "setup" [] p.setup).isWritable = true := by
    rw [Statement.isWritable, hs]
    decide
  obtain ⟨setup, hsetup, hsplain⟩ := Statement.lines_plain 0 hfunction
  obtain ⟨prologue, hprologue, hpplain⟩ := Statement.linesAll_plain 1 hp
  refine ⟨_, by rw [preambleLines, hglobals, hsetup, hprologue]; rfl, ?_⟩
  rw [List.all_append, List.all_append, List.all_append, List.all_append, hgplain, hsplain, hpplain]
  cases p.globals.isEmpty <;> decide

theorem epilogueLines_plain {p : Program} (he : Statement.areWritable p.epilogue = true)
    (hh : Statement.areWritable p.helpers = true) :
    ∃ ls, p.epilogueLines = .ok ls ∧ ls.all Text.isPlain = true ∧ ls ≠ [] := by
  obtain ⟨epilogue, hepilogue, heplain⟩ := Statement.linesAll_plain 1 he
  obtain ⟨helpers, hhelpers, hhplain⟩ := helperLines_plain hh
  refine ⟨_, by rw [epilogueLines, hepilogue, hhelpers]; rfl, ?_, ?_⟩
  · rw [List.all_append, List.all_cons, heplain, hhplain]
    decide
  · exact List.append_ne_nil_of_right_ne_nil _ (List.cons_ne_nil _ _)

/-- **A program that can be written has a text, and it is lines of printable ASCII.** -/
theorem render_plain {p : Program} (h : p.isWritable = true) : ∃ t, p.render = .ok t ∧ t.IsPlainLines := by
  simp only [isWritable, List.all_cons, List.all_nil, Bool.and_true, Bool.and_eq_true] at h
  obtain ⟨hglobals, hsetup, hprologue, hstatements, hepilogue, hhelpers⟩ := h
  obtain ⟨start, hstart, hplain⟩ := preambleLines_plain hglobals hsetup hprologue
  obtain ⟨middle, hmiddle, hplain'⟩ := Statement.linesAll_plain 1 hstatements
  obtain ⟨finish, hfinish, hplain'', hne⟩ := epilogueLines_plain hepilogue hhelpers
  refine ⟨Text.ofLines (start ++ middle ++ finish), ?_, Text.plain_ofLines ?_, Text.getLast?_ofLines ?_⟩
  · rw [Text.ofLines_append, Text.ofLines_append, render, preamble, body, epilogueText, bodyLines, hstart, hmiddle,
      hfinish]
    rfl
  · rw [List.all_append, List.all_append, hplain, hplain', hplain'']
    rfl
  · exact List.append_ne_nil_of_right_ne_nil _ hne

end Program
end RasterSketch
