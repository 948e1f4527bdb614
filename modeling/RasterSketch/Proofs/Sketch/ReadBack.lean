import RasterSketch.Proofs.Delivery
import RasterSketch.Proofs.Sketch.Parser
/-!
# Expressions are read back

The text of an expression is that expression and no other: `Expr.parse_render`.  An operand is always one word, a call
or something in parentheses, so that the grammar gives it at the level of operands (`Expr.Writes`), and with it every
operation of the tree at the level of its operator.
-/

namespace RasterSketch

open Reading

namespace Expr

mutual

/-- The tree that is written, each number as its exact value in the text.  A value that is no node is never written;
the empty text stands for it. -/
def written : Expr → Term
  | .number n => .number n.written
  | .variable name => .variable name
  | .text s => .text s
  | .apply name args => .apply name (writtenAll args)
  | .binary op left right => .binary op left.written right.written
  | .foreign _ => .text ⟨[]⟩

def writtenAll : List Expr → List Term
  | [] => []
  | e :: es => e.written :: writtenAll es

end

/-- Whether a node is one of the language: finite numbers, names, texts of characters, operators. -/
def isLegible (a : Alphabet) : Expr → Bool
  | .number (.real x) => x.isFinite
  | .text s => s.codes.all Text.isChar
  | .foreign _ => false
  | e => e.isNamed a

/-- Whether a node is no integer of too many digits. -/
def fits : Expr → Bool
  | .number (.int n) => !Decimal.exceedsLimit n
  | _ => true

/-! ## The text is denoted -/

variable {a : Alphabet}

/-- The text is spelt with words that denote the tree, as an operand if it needs no parentheses for that. -/
def Writes (a : Alphabet) (e : Expr) (text : Text) : Prop :=
  ∃ ws, Spells a text.codes ws ∧ Denotes 1 ws e.written ∧ (e.isCompound = false → Denotes 3 ws e.written)

theorem Writes.of_operand {e : Expr} {text : Text} (ws : List Word) (hs : Spells a text.codes ws)
    (hd : Denotes 3 ws e.written) : Writes a e text :=
  ⟨ws, hs, hd.mono (by decide), fun _ => hd⟩

/-- **A parenthesised text is an operand.** -/
theorem Writes.parenthesised {e : Expr} {text : Text} (h : Writes a e text) :
    ∃ ws, Spells a (e.parenthesised text).codes ws ∧ Denotes 3 ws e.written := by
  obtain ⟨ws, hs, hd, ho⟩ := h
  by_cases hc : e.isCompound = true
  · have hp : (e.parenthesised text).codes = .char '(' :: (text.codes ++ [.char ')']) := by
      rw [Expr.parenthesised, if_pos hc]
      rfl
    have hclose : Spells a [.char ')'] [.closing] := Spells.nil.cons [.closing] rfl
    rw [hp]
    exact ⟨_, (hs.append hclose (Ends.cons (by decide) _)).cons [.opening] rfl, .group hd⟩
  · rw [Expr.parenthesised, if_neg hc]
    exact ⟨ws, hs, ho (by simpa using hc)⟩

theorem Writes.number {n : Number} {text : String} (h : n.literal = .ok text) : Writes a (.number n) text := by
  obtain ⟨negative, cs, hcs, rfl⟩ := Number.literal_eq_ok h
  have hv : (Expr.number n).written = .number (if negative then -Decimal.magnitudeOf cs else Decimal.magnitudeOf cs) := by
    rw [written, Number.written_eq h, String.toList_ofList, Decimal.exactValue_withSign negative hcs]
  have ht : ((String.ofList (Decimal.withSign negative cs) : String) : Text).codes
      = (Decimal.withSign negative cs).map .char := by
    simp [Text.ofString, Text.ofChars]
  cases negative with
  | false =>
    refine .of_operand [.number (Decimal.magnitudeOf cs)] ?_ ?_
    · rw [ht]
      exact Spells.numeral hcs
    · rw [hv]
      exact .number _
  | true =>
    refine .of_operand [.operator '-', .number (Decimal.magnitudeOf cs)] ?_ ?_
    · rw [ht]
      exact Spells.negative hcs
    · rw [hv]
      exact .negative _

theorem Writes.binary {op : Text} {left right : Expr} {l r : Text} (ho : isOperator op = true) (hl : Writes a left l)
    (hr : Writes a right r) :
    Writes a (.binary op left right) (left.parenthesised l ++ " " ++ op ++ " " ++ right.parenthesised r) := by
  obtain ⟨ws, hsl, hdl⟩ := hl.parenthesised
  obtain ⟨vs, hsr, hdr⟩ := hr.parenthesised
  obtain ⟨o, hmem, rfl⟩ := isOperator_eq_true ho
  have hp : precedence o + 1 ≤ 3 := by unfold precedence; split <;> decide
  refine ⟨ws ++ .operator o :: vs, ?_, ?_, fun h => by cases h⟩
  · have ht : (left.parenthesised l ++ " " ++ Text.ofChars [o] ++ " " ++ right.parenthesised r).codes
        = (left.parenthesised l).codes ++ .char ' ' :: ([.char o] ++ .char ' ' :: (right.parenthesised r).codes) := by
      simp [Text.ofString, Text.ofChars]
    rw [ht]
    exact hsl.append ((Spells.operator hmem).append hsr.space (Ends.cons (by decide) _)).space (Ends.cons (by decide) _)
  · exact Denotes.mono (by unfold precedence; split <;> decide)
      (.binary hmem (hdl.mono (Nat.le_of_succ_le hp)) (hdr.mono hp))

/-- The texts are spelt, with commas between them, with the words of terms. -/
def WritesAll (a : Alphabet) (es : List Expr) (texts : List Text) : Prop :=
  ∃ args : List (List Word × Term), (∀ x ∈ args, Denotes 1 x.1 x.2) ∧ args.map (·.2) = writtenAll es ∧
    Spells a (Text.commaSeparated texts).codes ([Word.comma].intercalate (args.map (·.1)))

theorem WritesAll.cons {e e' : Expr} {es : List Expr} {t t' : Text} {ts : List Text} (h : Writes a e t)
    (hs : WritesAll a (e' :: es) (t' :: ts)) : WritesAll a (e :: e' :: es) (t :: t' :: ts) := by
  obtain ⟨ws, hsp, hd, -⟩ := h
  obtain ⟨args, hargs, hterms, hsps⟩ := hs
  refine ⟨(ws, e.written) :: args, fun x hx => ?_, ?_, ?_⟩
  · rcases List.mem_cons.1 hx with rfl | hx
    · exact hd
    · exact hargs x hx
  · rw [List.map_cons, hterms]
    rfl
  · cases args with
    | nil => cases hterms
    | cons x args =>
      have ht : (Text.commaSeparated (t :: t' :: ts)).codes
          = t.codes ++ .char ',' :: .char ' ' :: (Text.commaSeparated (t' :: ts)).codes := by
        simp [Text.commaSeparated, Text.separatedBy, Text.ofString, Text.ofChars]
      rw [ht, List.map_cons, List.map_cons, List.intercalate_cons_cons, List.append_assoc]
      exact hsp.append (hsps.space.cons [.comma] rfl) (Ends.cons (by decide) _)

theorem Writes.apply {name : Text} {args : List Expr} {texts : List Text} (hn : a.isName name = true)
    (h : WritesAll a args texts) :
    Writes a (.apply name args) (name ++ "(" ++ .commaSeparated texts ++ ")") := by
  obtain ⟨words, hw, hterms, hs⟩ := h
  have ht : (name ++ "(" ++ .commaSeparated texts ++ ")").codes
      = name.codes ++ .char '(' :: ((Text.commaSeparated texts).codes ++ [.char ')']) := by
    simp [Text.ofString, Text.ofChars]
  have hclose : Spells a [.char ')'] [.closing] := Spells.nil.cons [.closing] rfl
  have hin := (hs.append hclose (Ends.cons (by decide) _)).cons (c := '(') [.opening] rfl
  refine .of_operand _ (ht ▸ (Spells.name hn).append hin (Ends.cons (by decide) _)) ?_
  rw [written, ← hterms]
  exact .call name words hw

mutual

/-- **Rendered text denotes its expression.** -/
theorem writes_of_render : ∀ {e : Expr} {text : Text}, e.every (isLegible a) = true → e.render = .ok text →
    Writes a e text
  | .number n, _, _, h => by
    obtain ⟨t, ht, rfl⟩ := render_number_eq_ok.1 h
    exact .number ht
  | .variable name, _, hl, h => by
    cases h
    exact .of_operand _ (Spells.name hl) (.name name)
  | .text s, _, hl, h => by
    cases h
    have hs : s = ⟨Text.ofUnits (s.codes.flatMap Text.units)⟩ := Text.codes_inj (Text.ofUnits_units hl).symm
    refine .of_operand _ (Spells.literal s) ?_
    rw [← hs]
    exact .string s
  | .apply name args, _, hl, h => by
    obtain ⟨ts, hts, rfl⟩ := render_apply_eq_ok.1 h
    rw [every_apply] at hl
    exact .apply hl.1 (writesAll_of_renderAll hl.2 hts)
  | .binary op left right, _, hl, h => by
    obtain ⟨l, r, hleft, hright, rfl⟩ := render_binary_eq_ok.1 h
    rw [every_binary] at hl
    exact .binary hl.1 (writes_of_render hl.2.1 hleft) (writes_of_render hl.2.2 hright)
  | .foreign v, _, hl, _ => by cases hl

theorem writesAll_of_renderAll : ∀ {es : List Expr} {texts : List Text}, everyOf (isLegible a) es = true →
    renderAll es = .ok texts → WritesAll a es texts
  | [], _, _, h => by
    cases h
    exact ⟨[], fun x hx => (by cases hx), rfl, Spells.nil⟩
  | e :: es, _, hl, h => by
    obtain ⟨t, ts, ht, hts, rfl⟩ := renderAll_cons_eq_ok.1 h
    rw [everyOf_cons] at hl
    have he : Writes a e t := writes_of_render hl.1 ht
    have hes : WritesAll a es ts := writesAll_of_renderAll hl.2 hts
    cases es with
    | nil =>
      cases hts
      obtain ⟨ws, hs, hd, -⟩ := he
      refine ⟨[(ws, e.written)], fun x hx => ?_, rfl, ?_⟩
      · rw [List.mem_singleton.1 hx]
        exact hd
      · rw [List.map_singleton, List.intercalate_singleton]
        exact hs
    | cons e' es =>
      obtain ⟨t', ts, -, -, rfl⟩ := renderAll_cons_eq_ok.1 hts
      exact WritesAll.cons he hes

end

/-! ## Every legible expression -/

mutual

/-- The only thing that keeps an expression of the language from being rendered is an integer too long. -/
theorem render_or_limit : ∀ {e : Expr}, e.every (isLegible a) = true →
    (∃ text, e.render = .ok text) ∨ e.render = .error .tooManyDigits ∧ e.every fits = false
  | .number (.int n), _ => by
    by_cases hn : Decimal.exceedsLimit n = true
    · refine .inr ⟨?_, ?_⟩
      · rw [render, Number.literal, if_pos hn]
        rfl
      · rw [every, fits, hn]
        rfl
    · exact .inl ⟨_, render_number_eq_ok.2 ⟨_, Number.literal_int (by simpa using hn), rfl⟩⟩
  | .number (.real (.finite s m)), _ => .inl ⟨_, render_number_eq_ok.2 ⟨_, Number.literal_real s m, rfl⟩⟩
  | .number (.real (.infinity s)), h => by cases h
  | .number (.real .nan), h => by cases h
  | .variable name, _ => .inl ⟨name, rfl⟩
  | .text s, _ => .inl ⟨s.literal, rfl⟩
  | .apply name args, h => by
    rw [every_apply] at h
    rcases renderAll_or_limit h.2 with ⟨ts, hts⟩ | ⟨herr, hfits⟩
    · exact .inl ⟨_, render_apply_eq_ok.2 ⟨ts, hts, rfl⟩⟩
    · refine .inr ⟨?_, ?_⟩
      · rw [render, herr]
        rfl
      · rw [every, hfits, Bool.and_false]
  | .binary op left right, h => by
    rw [every_binary] at h
    rcases render_or_limit h.2.1 with ⟨l, hl⟩ | ⟨herr, hfits⟩
    · rcases render_or_limit h.2.2 with ⟨r, hr⟩ | ⟨herr, hfits⟩
      · exact .inl ⟨_, render_binary_eq_ok.2 ⟨l, r, hl, hr, rfl⟩⟩
      · refine .inr ⟨?_, ?_⟩
        · rw [render, hl, herr]
          rfl
        · rw [every, hfits, Bool.and_false, Bool.and_false]
    · refine .inr ⟨?_, ?_⟩
      · rw [render, herr]
        rfl
      · rw [every, hfits, Bool.false_and, Bool.and_false]
  | .foreign v, h => by cases h

theorem renderAll_or_limit : ∀ {es : List Expr}, everyOf (isLegible a) es = true →
    (∃ texts, renderAll es = .ok texts) ∨ renderAll es = .error .tooManyDigits ∧ everyOf fits es = false
  | [], _ => .inl ⟨[], rfl⟩
  | e :: es, h => by
    rw [everyOf_cons] at h
    rcases render_or_limit h.1 with ⟨t, ht⟩ | ⟨herr, hfits⟩
    · rcases renderAll_or_limit h.2 with ⟨ts, hts⟩ | ⟨herr, hfits⟩
      · exact .inl ⟨_, renderAll_cons_eq_ok.2 ⟨t, ts, ht, hts, rfl⟩⟩
      · refine .inr ⟨?_, ?_⟩
        · rw [renderAll, ht, herr]
          rfl
        · rw [everyOf, hfits, Bool.and_false]
    · refine .inr ⟨?_, ?_⟩
      · rw [renderAll, herr]
        rfl
      · rw [everyOf, hfits, Bool.false_and]

end

/-- **The text of an expression is read back, to its last character, as that expression with each number as its exact
value in the text.**  Only an integer of too many digits is without a text. -/
theorem parse_render (a : Alphabet) (e : Expr) (h : e.every (isLegible a) = true) :
    (∃ t, e.render = .ok t ∧ parse a t = some e.written) ∨
      e.render = .error .tooManyDigits ∧ e.every fits = false := by
  rcases render_or_limit h with ⟨t, ht⟩ | hlimit
  · obtain ⟨ws, hs, hd, -⟩ := writes_of_render h ht
    have hw : wordsOf a t = some ws := by
      rw [wordsOf, ← List.append_nil t.codes, hs [] Ends.nil]
      simp [words, finish]
    refine .inl ⟨t, ht, ?_⟩
    rw [parse, hw]
    exact run_of_denotes hd
  · exact .inr hlimit

/-- Differences within a difference, a negative operand, and a text of quotes, commas, parentheses and an emoji. -/
def tangled : Expr :=
  .variable "a" - (.variable "b" - .int (-2) * .apply "f" [.text "say \"hi\", (ok)\n\\ é😀", 2.5, .apply "g" []]) % 7

theorem tangled_read_back : tangled.every (isLegible .ascii) = true ∧
    ∃ t, tangled.render = .ok t ∧ parse .ascii t = some tangled.written := by
  have h : tangled.every (isLegible .ascii) = true := by decide
  refine ⟨h, ?_⟩
  rcases parse_render .ascii tangled h with hread | ⟨-, hfits⟩
  · exact hread
  · exact absurd hfits (by decide +kernel)

end Expr

end RasterSketch
