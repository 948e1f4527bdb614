import RasterSketch.Proofs.Sketch.Inline
import RasterSketch.Proofs.Sketch.Outline
/-!
# The lines of a program

Each form has a text, and no two have the same (`Form.text_inj`): the word in front and what stands behind it tell the
kinds apart, and names, arguments and values keep to themselves.  A line is the text of a form behind blanks
(`LineOf.unique`), and lines can be told apart in a text (`ofLines_inj`).
-/

namespace RasterSketch

open Layout

/-! ## The text of a form -/

def Clause.text : Clause → Text
  | .call name args => name ++ "(" ++ .commaSeparated args ++ ");"
  | .declare name value => "let " ++ name ++ " = " ++ value ++ ";"
  | .increment name amount => name ++ " += " ++ amount ++ ";"
  | .result value => "return " ++ value ++ ";"

def Form.text : Form → Text
  | .blank => ""
  | .closing => "\x7d"
  | .clause c => c.text
  | .header name params => "function " ++ name ++ "(" ++ .commaSeparated params ++ ") \x7b"

/-- Names are names, and the texts of expressions keep to themselves. -/
def Clause.Valid (a : Alphabet) : Clause → Prop
  | .call name args => a.isName name = true ∧ ∀ t ∈ args, Inline t
  | .declare name value => a.isName name = true ∧ Inline value
  | .increment name amount => a.isName name = true ∧ Inline amount
  | .result value => Inline value

def Form.Valid (a : Alphabet) : Form → Prop
  | .clause c => c.Valid a
  | .header name params => a.isName name = true ∧ ∀ p ∈ params, a.isName p = true
  | _ => True

section

variable (n v : Text) (ts : List Text)

theorem call_codes : (Clause.call n ts).text.codes
    = n.codes ++ .char '(' :: ((Text.commaSeparated ts).codes ++ [.char ')', .char ';']) := by
  simp [Clause.text, Text.ofString, Text.ofChars]

theorem declare_codes : (Clause.declare n v).text.codes = ("let" : Text).codes ++
    .char ' ' :: (n.codes ++ .char ' ' :: .char '=' :: .char ' ' :: (v.codes ++ [.char ';'])) := by
  simp [Clause.text, Text.ofString, Text.ofChars]

theorem increment_codes : (Clause.increment n v).text.codes
    = n.codes ++ .char ' ' :: .char '+' :: .char '=' :: .char ' ' :: (v.codes ++ [.char ';']) := by
  simp [Clause.text, Text.ofString, Text.ofChars]

theorem result_codes : (Clause.result v).text.codes
    = ("return" : Text).codes ++ .char ' ' :: (v.codes ++ [.char ';']) := by
  simp [Clause.text, Text.ofString, Text.ofChars]

theorem header_codes : (Form.header n ts).text.codes = ("function" : Text).codes ++
    .char ' ' :: (n.codes ++ .char '(' :: ((Text.commaSeparated ts).codes ++ [.char ')', .char ' ', .char '\x7b'])) := by
  simp [Form.text, Text.ofString, Text.ofChars]

end

/-! ## What ends with the first code point of its kind -/

section

variable {p : CodePoint → Bool} {xs ys : List CodePoint} {c d : CodePoint}

theorem takeWhile_until (hxs : ∀ x ∈ xs, p x = true) (hc : p c = false) (cs : List CodePoint) :
    (xs ++ c :: cs).takeWhile p = xs := by
  rw [List.takeWhile_append_of_pos hxs, List.takeWhile_cons_of_neg (by simpa using hc), List.append_nil]

theorem dropWhile_until (hxs : ∀ x ∈ xs, p x = true) (hc : p c = false) (cs : List CodePoint) :
    (xs ++ c :: cs).dropWhile p = c :: cs := by
  rw [List.dropWhile_append_of_pos hxs, List.dropWhile_cons_of_neg (by simpa using hc)]

theorem until_inj (hxs : ∀ x ∈ xs, p x = true) (hys : ∀ y ∈ ys, p y = true) (hc : p c = false) (hd : p d = false)
    {cs ds : List CodePoint} (h : xs ++ c :: cs = ys ++ d :: ds) : xs = ys ∧ cs = ds := by
  have htake := congrArg (List.takeWhile p) h
  have hdrop := congrArg (List.dropWhile p) h
  rw [takeWhile_until hxs hc, takeWhile_until hys hd] at htake
  rw [dropWhile_until hxs hc, dropWhile_until hys hd] at hdrop
  exact ⟨htake, (List.cons.inj hdrop).2⟩

/-- **Lines are settled by their text.** -/
theorem ofLines_inj : ∀ {ls ms : List Text} (_ : ∀ l ∈ ls, newline ∉ l.codes) (_ : ∀ m ∈ ms, newline ∉ m.codes),
    Text.ofLines ls = Text.ofLines ms → ls = ms
  | [], [], _, _, _ => rfl
  | [], m :: ms, _, _, h => by
    have hcodes := congrArg Text.codes h
    simp [Text.ofLines, Text.ofString, Text.ofChars] at hcodes
  | l :: ls, [], _, _, h => by
    have hcodes := congrArg Text.codes h
    simp [Text.ofLines, Text.ofString, Text.ofChars] at hcodes
  | l :: ls, m :: ms, hl, hm, h => by
    have hcodes : l.codes ++ newline :: (Text.ofLines ls).codes = m.codes ++ newline :: (Text.ofLines ms).codes := by
      simpa [Text.ofLines, Text.ofString, Text.ofChars, newline] using congrArg Text.codes h
    have hline : ∀ {x : Text}, newline ∉ x.codes → ∀ c ∈ x.codes, (c != newline) = true := by
      intro x hx c hc
      exact bne_iff_ne.2 fun he => hx (he ▸ hc)
    obtain ⟨hfirst, hrest⟩ := until_inj (hline (hl l (by simp))) (hline (hm m (by simp))) (bne_self_eq_false newline)
      (bne_self_eq_false newline) hcodes
    rw [Text.codes_inj hfirst, ofLines_inj (fun x hx => hl x (by simp [hx])) (fun x hx => hm x (by simp [hx]))
      (Text.codes_inj hrest)]

end

/-! ## The word in front -/

def Alphabet.isLetter (a : Alphabet) : CodePoint → Bool
  | .char c => a.begins c || a.goesOn c
  | .surrogate _ => false

section

variable {a : Alphabet} {n n' : Text} {c c' : CodePoint} {cs cs' : List CodePoint}

theorem letters_of_name (hn : a.isName n = true) : ∀ x ∈ n.codes, a.isLetter x = true := by
  obtain ⟨c, cs, ht, hc, hcs⟩ := Alphabet.isName_eq_true hn
  intro x hx
  rw [ht] at hx
  rcases List.mem_cons.1 hx with rfl | hx
  · rw [Alphabet.isLetter, hc, Bool.true_or]
  · have hx := List.all_eq_true.1 hcs x hx
    cases x with
    | char c => rw [Alphabet.isLetter, show a.goesOn c = true from hx, Bool.or_true]
    | surrogate place => cases hx

/-- **A name is settled by what follows it.** -/
theorem name_append_inj (hn : a.isName n = true) (hn' : a.isName n' = true) (hc : a.isLetter c = false)
    (hc' : a.isLetter c' = false) (h : n.codes ++ c :: cs = n'.codes ++ c' :: cs') : n = n' ∧ cs = cs' := by
  obtain ⟨hname, hrest⟩ := until_inj (letters_of_name hn) (letters_of_name hn') hc hc' h
  exact ⟨Text.codes_inj hname, hrest⟩

end

/-! ## The kinds of forms -/

inductive Kind where
  | blank
  | closing
  | call
  | declare
  | increment
  | result
  | header

def Clause.kind : Clause → Kind
  | .call .. => .call
  | .declare .. => .declare
  | .increment .. => .increment
  | .result .. => .result

def Form.kind : Form → Kind
  | .blank => .blank
  | .closing => .closing
  | .clause c => c.kind
  | .header .. => .header

/-- The kind that a word in front and the text behind it have. -/
def kindBehind (word : List CodePoint) : List CodePoint → Kind
  | [] => .blank
  | c :: cs =>
    if c = .char '(' then .call
    else if c ≠ .char ' ' then .closing
    else if cs.head? = some (.char '+') then .increment
    else if word = ("let" : Text).codes then .declare
    else if word = ("return" : Text).codes then .result
    else .header

def kindOf (a : Alphabet) (t : Text) : Kind :=
  kindBehind (t.codes.takeWhile a.isLetter) (t.codes.dropWhile a.isLetter)

section

variable {a : Alphabet}

theorem kindOf_word {t n : Text} (hn : a.isName n = true) {c : CodePoint} (hc : a.isLetter c = false)
    {cs : List CodePoint} (h : t.codes = n.codes ++ c :: cs) : kindOf a t = kindBehind n.codes (c :: cs) := by
  rw [kindOf, h, takeWhile_until (letters_of_name hn) hc, dropWhile_until (letters_of_name hn) hc]

theorem head_append {t : Text} (h : Inline t) (cs : List CodePoint) :
    (t.codes ++ cs).head? ≠ some (.char '+') := by
  rw [List.head?_append_of_ne_nil _ h.ne_nil]
  exact h.head

theorem Clause.kindOf_text : ∀ {c : Clause}, c.Valid a → kindOf a c.text = c.kind
  | .call n ts, h => by
    rw [kindOf_word h.1 rfl (call_codes n ts)]
    rfl
  | .declare n v, h => by
    rw [kindOf_word (n := "let") rfl rfl (declare_codes n v), kindBehind, if_neg (by decide), if_neg (by decide),
      if_neg (head_append (.name h.1) _), if_pos rfl]
    rfl
  | .increment n v, h => by
    rw [kindOf_word h.1 rfl (increment_codes n v)]
    rfl
  | .result v, h => by
    rw [kindOf_word (n := "return") rfl rfl (result_codes v), kindBehind, if_neg (by decide), if_neg (by decide),
      if_neg (head_append h _), if_neg (by decide), if_pos rfl]
    rfl

/-- **The kind of a form is read off its text.** -/
theorem Form.kindOf_text : ∀ {f : Form}, f.Valid a → kindOf a f.text = f.kind
  | .blank, _ => rfl
  | .closing, _ => rfl
  | .clause c, h => Clause.kindOf_text h
  | .header n ps, h => by
    rw [kindOf_word (n := "function") rfl rfl (header_codes n ps), kindBehind, if_neg (by decide),
      if_neg (by decide), if_neg (head_append (.name h.1) _), if_neg (by decide), if_neg (by decide)]
    rfl

theorem Clause.text_inj : ∀ {c d : Clause}, c.Valid a → d.Valid a → c.kind = d.kind →
    c.text.codes = d.text.codes → c = d
  | .call n ts, .call n' ts', hc, hd, _, h => by
    rw [call_codes, call_codes] at h
    obtain ⟨rfl, hargs⟩ := name_append_inj hc.1 hd.1 rfl rfl h
    rw [commaSeparated_inj hc.2 hd.2 (List.append_cancel_right hargs)]
  | .declare n v, .declare n' v', hc, hd, _, h => by
    rw [declare_codes, declare_codes] at h
    obtain ⟨rfl, hvalue⟩ := name_append_inj hc.1 hd.1 rfl rfl (List.cons.inj (List.append_cancel_left h)).2
    simp only [List.cons.injEq, true_and] at hvalue
    rw [Text.codes_inj (List.append_cancel_right hvalue)]
  | .increment n v, .increment n' v', hc, hd, _, h => by
    rw [increment_codes, increment_codes] at h
    obtain ⟨rfl, hvalue⟩ := name_append_inj hc.1 hd.1 rfl rfl h
    simp only [List.cons.injEq, true_and] at hvalue
    rw [Text.codes_inj (List.append_cancel_right hvalue)]
  | .result v, .result v', _, _, _, h => by
    rw [result_codes, result_codes] at h
    rw [Text.codes_inj (List.append_cancel_right (List.cons.inj (List.append_cancel_left h)).2)]

/-- **A form is settled by its text.** -/
theorem Form.text_inj {f g : Form} (hf : f.Valid a) (hg : g.Valid a) (h : f.text.codes = g.text.codes) : f = g := by
  have hk : f.kind = g.kind := by rw [← kindOf_text hf, ← kindOf_text hg, Text.codes_inj h]
  cases f with
  | blank =>
    cases g with
    | blank => rfl
    | clause d => cases d <;> cases hk
    | _ => cases hk
  | closing =>
    cases g with
    | closing => rfl
    | clause d => cases d <;> cases hk
    | _ => cases hk
  | clause c =>
    cases g with
    | clause d => rw [Clause.text_inj hf hg hk h]
    | _ => cases c <;> cases hk
  | header n ps =>
    cases g with
    | header n' ps' =>
      rw [header_codes, header_codes] at h
      obtain ⟨rfl, hparams⟩ := name_append_inj hf.1 hg.1 rfl rfl (List.cons.inj (List.append_cancel_left h)).2
      rw [commaSeparated_inj (fun p hp => .name (hf.2 p hp)) (fun p hp => .name (hg.2 p hp))
        (List.append_cancel_right hparams)]
    | clause d => cases d <;> cases hk
    | _ => cases hk

/-! ## Lines -/

/-- No form begins with a blank. -/
theorem Form.head_text {f : Form} (h : f.Valid a) : f.text.codes.head? ≠ some (.char ' ') := by
  have hword : ∀ {n : Text} {c : CodePoint} {cs : List CodePoint}, a.isName n = true →
      (n.codes ++ c :: cs).head? ≠ some (.char ' ') := by
    intro n c cs hn
    obtain ⟨x, xs, ht, hx, -⟩ := Alphabet.isName_eq_true hn
    rw [ht]
    exact fun h => begins_ne hx (d := ' ') rfl (CodePoint.char.inj (Option.some.inj h))
  cases f with
  | blank => exact fun h => (by cases h)
  | closing => exact fun h => (by cases h)
  | clause c =>
    rw [Form.text]
    cases c with
    | call n ts => rw [call_codes]; exact hword h.1
    | declare n v => rw [declare_codes]; exact hword (n := "let") rfl
    | increment n v => rw [increment_codes]; exact hword h.1
    | result v => rw [result_codes]; exact hword (n := "return") rfl
  | header n ps => rw [header_codes]; exact hword (n := "function") rfl

theorem newline_not_mem_args {ts : List Text} (h : ∀ t ∈ ts, Inline t) :
    newline ∉ (Text.commaSeparated ts).codes :=
  newline_not_mem (scan_commaSeparated 0 h)

theorem Layout.Inline.newline_not_mem {t : Text} (h : Inline t) : newline ∉ t.codes :=
  Layout.newline_not_mem (h.closed 0)

/-- Each form is written in one line. -/
theorem Form.newline_not_mem_text {f : Form} (h : f.Valid a) : newline ∉ f.text.codes := by
  cases f with
  | blank => exact List.not_mem_nil
  | closing => decide
  | clause c =>
    rw [Form.text]
    cases c with
    | call n ts =>
      have hn := (Inline.name h.1).newline_not_mem
      have hts := newline_not_mem_args h.2
      rw [call_codes]
      simp_all [newline]
    | declare n v =>
      have hn := (Inline.name h.1).newline_not_mem
      have hv := h.2.newline_not_mem
      rw [declare_codes]
      simp_all [newline, Text.ofString, Text.ofChars]
    | increment n v =>
      have hn := (Inline.name h.1).newline_not_mem
      have hv := h.2.newline_not_mem
      rw [increment_codes]
      simp_all [newline]
    | result v =>
      have hv := Inline.newline_not_mem h
      rw [result_codes]
      simp_all [newline, Text.ofString, Text.ofChars]
  | header n ps =>
    have hn := (Inline.name h.1).newline_not_mem
    have hps := newline_not_mem_args fun p hp => .name (h.2 p hp)
    rw [header_codes]
    simp_all [newline, Text.ofString, Text.ofChars]

/-- A line that is a form behind blanks. -/
def LineOf (a : Alphabet) (l : Text) (f : Form) : Prop :=
  f.Valid a ∧ ∃ k, l.codes = List.replicate k (.char ' ') ++ f.text.codes

theorem LineOf.newline_not_mem {l : Text} {f : Form} (h : LineOf a l f) : newline ∉ l.codes := by
  obtain ⟨hf, k, hl⟩ := h
  rw [hl, List.mem_append, not_or]
  refine ⟨fun hm => ?_, Form.newline_not_mem_text hf⟩
  have hblank : newline = .char ' ' := List.eq_of_mem_replicate hm
  exact absurd hblank (by decide)

/-- **A line is of one form only.** -/
theorem LineOf.unique {l : Text} {f g : Form} (hf : LineOf a l f) (hg : LineOf a l g) : f = g := by
  have hdrop : ∀ {h : Form}, LineOf a l h → l.codes.dropWhile (· == .char ' ') = h.text.codes := by
    rintro h ⟨hv, k, hl⟩
    rw [hl, List.dropWhile_append_of_pos (fun x hx => by rw [List.eq_of_mem_replicate hx]; rfl)]
    cases ht : h.text.codes with
    | nil => rfl
    | cons c cs =>
      have hc : c ≠ .char ' ' := by
        rintro rfl
        exact Form.head_text hv (by rw [ht]; rfl)
      exact List.dropWhile_cons_of_neg (by simpa using hc)
  exact Form.text_inj hf.1 hg.1 ((hdrop hf).symm.trans (hdrop hg))

theorem LineOf.unique_all : ∀ {ls : List Text} {fs gs : List Form}, List.Forall₂ (LineOf a) ls fs →
    List.Forall₂ (LineOf a) ls gs → fs = gs
  | _, _, _, .nil, .nil => rfl
  | _, _, _, .cons hf hfs, .cons hg hgs => by rw [hf.unique hg, LineOf.unique_all hfs hgs]

end

end RasterSketch
