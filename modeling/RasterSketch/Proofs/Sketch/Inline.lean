import RasterSketch.Proofs.Number.Numeral
import RasterSketch.Proofs.Sketch.Nodes
import RasterSketch.Proofs.Text.Units
/-!
# One argument among others

The text of an expression stands in a line, between commas and parentheses, and keeps to itself: it closes what it
opens, has no comma outside of parentheses and strings, and no line ends in it (`Expr.inline_of_render`).  So texts with
commas between them can be told apart (`Text.commaSeparated_inj`).
-/

namespace RasterSketch

namespace Layout

/-! ## Places in a line -/

/-- How many parentheses are open, and whether a string is. -/
inductive Place where
  | plain (depth : Nat)
  | quoted (depth : Nat)
  | escaped (depth : Nat)

def newline : CodePoint := .char '\n'

/-- The place behind a code point; none behind what ends an argument, or a line. -/
def next : Place → CodePoint → Option Place
  | .plain d, c =>
    if c = newline then none
    else if c = .char '"' then some (.quoted d)
    else if c = .char '(' then some (.plain (d + 1))
    else if c = .char ')' then if d = 0 then none else some (.plain (d - 1))
    else if c = .char ',' then if d = 0 then none else some (.plain d)
    else some (.plain d)
  | .quoted d, c =>
    if c = newline then none
    else if c = .char '"' then some (.plain d)
    else if c = .char '\\' then some (.escaped d)
    else some (.quoted d)
  | .escaped d, c => if c = newline then none else some (.quoted d)

def scan (p : Place) (cs : List CodePoint) : Option Place := cs.foldlM next p

theorem scan_cons (p : Place) (c : CodePoint) (cs : List CodePoint) :
    scan p (c :: cs) = (next p c).bind (scan · cs) := rfl

theorem scan_append (p : Place) (cs ds : List CodePoint) : scan p (cs ++ ds) = (scan p cs).bind (scan · ds) :=
  List.foldlM_append

theorem next_newline (p : Place) : next p newline = none := by
  cases p <;> rfl

/-- What is scanned is within one line. -/
theorem newline_not_mem : ∀ {cs : List CodePoint} {p q : Place}, scan p cs = some q → newline ∉ cs
  | [], _, _, _ => List.not_mem_nil
  | c :: cs, p, q, h => by
    rw [scan_cons] at h
    obtain ⟨p', hp, h⟩ := Option.bind_eq_some_iff.1 h
    rw [List.mem_cons, not_or]
    refine ⟨?_, newline_not_mem h⟩
    rintro rfl
    rw [next_newline] at hp
    cases hp

/-- The code points that a place outside of strings depends on. -/
def marks : List CodePoint := [newline, .char '"', .char '(', .char ')', .char ',']

theorem next_plain {c : CodePoint} (h : c ∉ marks) (d : Nat) : next (.plain d) c = some (.plain d) := by
  simp only [marks, List.mem_cons, List.not_mem_nil, or_false, not_or] at h
  rw [next, if_neg h.1, if_neg h.2.1, if_neg h.2.2.1, if_neg h.2.2.2.1, if_neg h.2.2.2.2]

theorem scan_plain : ∀ {cs : List CodePoint} (_ : ∀ c ∈ cs, c ∉ marks) (d : Nat),
    scan (.plain d) cs = some (.plain d)
  | [], _, _ => rfl
  | c :: cs, h, d => by
    rw [scan_cons, next_plain (h c (by simp)), Option.bind_some, scan_plain fun x hx => h x (by simp [hx])]

/-- The code points that a place inside a string depends on. -/
def stringMarks : List Char := ['\n', '"', '\\']

theorem scan_quoted : ∀ {cs : List Char} (_ : ∀ c ∈ cs, c ∉ stringMarks) (d : Nat),
    scan (.quoted d) (cs.map .char) = some (.quoted d)
  | [], _, _ => rfl
  | c :: cs, h, d => by
    have hc := h c (by simp)
    simp only [stringMarks, List.mem_cons, List.not_mem_nil, or_false, not_or] at hc
    have hn : next (.quoted d) (.char c) = some (.quoted d) := by
      rw [next, if_neg (by simpa [newline] using hc.1), if_neg (by simpa using hc.2.1), if_neg (by simpa using hc.2.2)]
    rw [List.map_cons, scan_cons, hn, Option.bind_some, scan_quoted fun x hx => h x (by simp [hx])]

/-! ## Text that keeps to itself -/

/-- A text that leaves each place outside of strings as it was, and neither is empty nor begins as `+=` does. -/
structure Inline (t : Text) : Prop where
  ne_nil : t.codes ≠ []
  head : t.codes.head? ≠ some (.char '+')
  closed : ∀ d, scan (.plain d) t.codes = some (.plain d)

/-- What may stand behind a text that keeps to itself. -/
def Stops (cs : List CodePoint) : Prop := ∀ c ∈ cs.head?, next (.plain 0) c = none

/-- **Where a text that keeps to itself ends is settled by what may stand behind it.** -/
theorem Inline.append_inj {t u : Text} (ht : Inline t) (hu : Inline u) {r s : List CodePoint} (hr : Stops r)
    (hs : Stops s) (h : t.codes ++ r = u.codes ++ s) : t = u ∧ r = s := by
  -- Of two texts one could only be longer by a code point at which its own scan ends.
  have hlonger : ∀ {x y : Text} {a rest : List CodePoint}, Inline x → Inline y → Stops (a ++ rest) →
      y.codes = x.codes ++ a → a = [] := by
    intro x y a rest hx hy hstop hxy
    cases a with
    | nil => rfl
    | cons c a =>
      have hc := hy.closed 0
      rw [hxy, scan_append, hx.closed 0, Option.bind_some, scan_cons, hstop c rfl] at hc
      cases hc
  rcases List.append_eq_append_iff.1 h with ⟨a, ha, hra⟩ | ⟨a, ha, hsa⟩
  · obtain rfl := hlonger ht hu (hra ▸ hr) ha
    exact ⟨Text.codes_inj (by rw [ha, List.append_nil]), hra⟩
  · obtain rfl := hlonger hu ht (hsa ▸ hs) ha
    exact ⟨Text.codes_inj (by rw [ha, List.append_nil]), hsa.symm⟩

/-- The arguments behind the first one. -/
def further : List Text → List CodePoint
  | [] => []
  | t :: ts => .char ',' :: .char ' ' :: (Text.commaSeparated (t :: ts)).codes

theorem commaSeparated_cons (t : Text) (ts : List Text) :
    (Text.commaSeparated (t :: ts)).codes = t.codes ++ further ts := by
  cases ts with
  | nil => exact (List.append_nil _).symm
  | cons u ts => simp [Text.commaSeparated, Text.separatedBy, further, Text.ofString, Text.ofChars]

theorem further_inj {ts us : List Text} (h : further ts = further us) :
    (Text.commaSeparated ts).codes = (Text.commaSeparated us).codes := by
  cases ts with
  | nil =>
    cases us with
    | nil => rfl
    | cons u us => cases h
  | cons t ts =>
    cases us with
    | nil => cases h
    | cons u us => exact (List.cons.inj (List.cons.inj h).2).2

theorem stops_further (ts : List Text) : Stops (further ts) := by
  cases ts with
  | nil => exact fun c hc => (by cases hc)
  | cons t ts => exact fun c hc => (by rw [← Option.some.inj hc]; rfl)

/-- Inside parentheses the arguments keep to themselves too. -/
theorem scan_commaSeparated (d : Nat) : ∀ {ts : List Text} (_ : ∀ t ∈ ts, Inline t),
    scan (.plain (d + 1)) (Text.commaSeparated ts).codes = some (.plain (d + 1))
  | [], _ => rfl
  | t :: ts, h => by
    rw [commaSeparated_cons, scan_append, (h t (by simp)).closed, Option.bind_some]
    cases ts with
    | nil => rfl
    | cons u ts => exact scan_commaSeparated d fun x hx => h x (List.mem_cons_of_mem t hx)

/-- **Arguments are settled by their text.** -/
theorem commaSeparated_inj : ∀ {ts us : List Text} (_ : ∀ t ∈ ts, Inline t) (_ : ∀ u ∈ us, Inline u),
    (Text.commaSeparated ts).codes = (Text.commaSeparated us).codes → ts = us
  | [], [], _, _, _ => rfl
  | [], u :: us, _, hu, h => by
    rw [commaSeparated_cons] at h
    exact absurd (List.append_eq_nil_iff.1 h.symm).1 (hu u (by simp)).ne_nil
  | t :: ts, [], ht, _, h => by
    rw [commaSeparated_cons] at h
    exact absurd (List.append_eq_nil_iff.1 h).1 (ht t (by simp)).ne_nil
  | t :: ts, u :: us, ht, hu, h => by
    rw [commaSeparated_cons, commaSeparated_cons] at h
    obtain ⟨rfl, hrest⟩ := (ht t (by simp)).append_inj (hu u (by simp)) (stops_further ts) (stops_further us) h
    rw [commaSeparated_inj (fun x hx => ht x (by simp [hx])) (fun x hx => hu x (by simp [hx])) (further_inj hrest)]

/-! ## Names, numbers, literals -/

variable {a : Alphabet}

theorem not_mark_of_goesOn {c : CodePoint} (h : a.goesOnCode c = true) : c ∉ marks := by
  intro hm
  simp only [marks, List.mem_cons, List.not_mem_nil, or_false] at hm
  rcases hm with rfl | rfl | rfl | rfl | rfl <;> exact absurd h Bool.false_ne_true

theorem begins_ne {c d : Char} (h : a.begins c = true) (hd : a.begins d = false) : c ≠ d := by
  rintro rfl
  rw [h] at hd
  cases hd

theorem not_mark_of_begins {c : Char} (h : a.begins c = true) : CodePoint.char c ∉ marks := by
  simp [marks, newline, begins_ne h (d := '\n') rfl, begins_ne h (d := '"') rfl, begins_ne h (d := '(') rfl,
    begins_ne h (d := ')') rfl, begins_ne h (d := ',') rfl]

theorem Inline.name {t : Text} (h : a.isName t = true) : Inline t := by
  obtain ⟨c, cs, ht, hc, hcs⟩ := Alphabet.isName_eq_true h
  refine ⟨by simp [ht], by simpa [ht] using begins_ne hc rfl, fun d => ?_⟩
  rw [ht]
  refine scan_plain (fun x hx => ?_) d
  rcases List.mem_cons.1 hx with rfl | hx
  · exact not_mark_of_begins hc
  · exact not_mark_of_goesOn (List.all_eq_true.1 hcs x hx)

theorem not_mark_of_numeral {c : Char} (h : (c.isDigit || c == '.') = true) : CodePoint.char c ∉ marks := by
  intro hm
  simp only [marks, newline, List.mem_cons, List.not_mem_nil, or_false, CodePoint.char.injEq] at hm
  rcases hm with rfl | rfl | rfl | rfl | rfl <;> exact absurd h (by decide)

theorem Inline.number {n : Number} {t : String} (h : n.literal = .ok t) : Inline t := by
  obtain ⟨negative, cs, hcs, rfl⟩ := Number.literal_eq_ok h
  obtain ⟨c, rest, rfl, hc, hrest⟩ := Decimal.isNumeral_cons hcs
  have hmarks : ∀ x ∈ (c :: rest).map CodePoint.char, x ∉ marks := by
    intro x hx
    obtain ⟨y, hy, rfl⟩ := List.mem_map.1 hx
    rcases List.mem_cons.1 hy with rfl | hy
    · exact not_mark_of_numeral (by rw [hc, Bool.true_or])
    · exact not_mark_of_numeral (hrest y hy)
  have ht : ((String.ofList (Decimal.withSign negative (c :: rest)) : String) : Text).codes
      = (if negative then [.char '-'] else []) ++ (c :: rest).map .char := by
    cases negative <;> simp [Decimal.withSign, Text.ofString, Text.ofChars]
  refine ⟨by simp [ht], ?_, fun d => ?_⟩
  · rw [ht]
    cases negative with
    | false =>
      rintro h
      obtain rfl : c = '+' := CodePoint.char.inj (Option.some.inj h)
      exact absurd hc (by decide)
    | true => exact fun h => absurd (CodePoint.char.inj (Option.some.inj h)) (by decide)
  · rw [ht, scan_append]
    have hsign : scan (.plain d) (if negative then [.char '-'] else []) = some (.plain d) := by
      cases negative <;> rfl
    rw [hsign, Option.bind_some, scan_plain hmarks]

theorem scan_escaped {e : Char} (he : e ≠ '\n') (d : Nat) :
    scan (.quoted d) (['\\', e].map .char) = some (.quoted d) := by
  have hn : next (.escaped d) (.char e) = some (.quoted d) := by
    rw [next, if_neg (by simpa [newline] using he)]
  rw [List.map_cons, scan_cons, show next (.quoted d) (.char '\\') = some (.escaped d) from rfl, Option.bind_some,
    List.map_cons, scan_cons, hn]
  rfl

theorem hexDigits_not_mark (w n : Nat) : ∀ c ∈ Text.hexDigits w n, c ∉ stringMarks := by
  intro c hc
  have hk : ∀ k : Fin 16, Nat.digitChar k ∉ stringMarks := by decide
  obtain ⟨k, rfl⟩ := Text.mem_hexDigits hc
  exact hk k

theorem scan_unitEscape (u d : Nat) : scan (.quoted d) ((Text.unitEscape u).map .char) = some (.quoted d) := by
  rw [show Text.unitEscape u = ['\\', 'u'] ++ Text.hexDigits 4 u from rfl, List.map_append, scan_append,
    scan_escaped (by decide), Option.bind_some, scan_quoted (hexDigits_not_mark 4 u)]

theorem scan_units (d : Nat) : ∀ us : List Nat,
    scan (.quoted d) ((us.flatMap Text.unitEscape).map .char) = some (.quoted d)
  | [] => rfl
  | u :: us => by
    rw [List.flatMap_cons, List.map_append, scan_append, scan_unitEscape, Option.bind_some, scan_units d us]

/-- No escape ends its string. -/
theorem scan_escape (d : Nat) : ∀ c : CodePoint, scan (.quoted d) ((Text.escape c).map .char) = some (.quoted d)
  | .surrogate place => scan_unitEscape _ d
  | .char c => by
    rw [Text.escape, Text.escapeChar]
    iterate 2
      split
      · exact scan_escaped (by decide) d
    split
    · rename_i hq hb hc
      refine scan_quoted (fun x hx => ?_) d
      rw [List.mem_singleton.1 hx]
      have hn : c ≠ '\n' := by
        rintro rfl
        exact absurd hc.1 (by decide)
      simp [stringMarks, hq, hb, hn]
    iterate 5
      split
      · exact scan_escaped (by decide) d
    · exact scan_units d _

theorem scan_escapes (d : Nat) : ∀ cs : List CodePoint,
    scan (.quoted d) ((cs.flatMap Text.escape).map .char) = some (.quoted d)
  | [] => rfl
  | c :: cs => by
    rw [List.flatMap_cons, List.map_append, scan_append, scan_escape, Option.bind_some, scan_escapes d cs]

theorem Inline.literal (t : Text) : Inline (t.literal : Text) := by
  have ht : (t.literal : Text).codes = .char '"' :: ((t.codes.flatMap Text.escape).map .char ++ [.char '"']) := by
    simp [Text.literal, Text.ofString, Text.ofChars]
  refine ⟨by simp [ht], by simp [ht], fun d => ?_⟩
  rw [ht, scan_cons, show next (.plain d) (.char '"') = some (.quoted d) from rfl, Option.bind_some, scan_append,
    scan_escapes]
  rfl

/-! ## Expressions -/

theorem Inline.append {t u : Text} (ht : Inline t) (hu : ∀ d, scan (.plain d) u.codes = some (.plain d)) :
    Inline (t ++ u) := by
  refine ⟨fun h => ht.ne_nil (List.append_eq_nil_iff.1 h).1, ?_, fun d => ?_⟩
  · rw [Text.codes_append, List.head?_append_of_ne_nil _ ht.ne_nil]
    exact ht.head
  · rw [Text.codes_append, scan_append, ht.closed, Option.bind_some, hu]

theorem scan_parenthesised {cs : List CodePoint} {d : Nat} (h : scan (.plain (d + 1)) cs = some (.plain (d + 1))) :
    scan (.plain d) (.char '(' :: (cs ++ [.char ')'])) = some (.plain d) := by
  rw [scan_cons, show next (.plain d) (.char '(') = some (.plain (d + 1)) from rfl, Option.bind_some, scan_append, h]
  rfl

theorem Inline.parenthesised {e : Expr} {t : Text} (h : Inline t) : Inline (e.parenthesised t) := by
  rw [Expr.parenthesised]
  split
  · exact ⟨by simp [Text.ofString, Text.ofChars], by simp [Text.ofString, Text.ofChars],
      fun d => scan_parenthesised (h.closed (d + 1))⟩
  · exact h

theorem Inline.binary {op l r : Text} (ho : isOperator op = true) (hl : Inline l) (hr : Inline r) :
    Inline (l ++ " " ++ op ++ " " ++ r) := by
  obtain ⟨c, hc, rfl⟩ := isOperator_eq_true ho
  rw [Text.append_assoc, Text.append_assoc, Text.append_assoc]
  refine hl.append fun d => ?_
  have hop : scan (.plain d) [.char ' ', .char c, .char ' '] = some (.plain d) := by
    fin_cases hc <;> rfl
  rw [show (" " ++ (Text.ofChars [c] ++ (" " ++ r))).codes = [.char ' ', .char c, .char ' '] ++ r.codes from rfl,
    scan_append, hop, Option.bind_some, hr.closed]

theorem Inline.apply {name : Text} {ts : List Text} (hn : a.isName name = true) (hts : ∀ t ∈ ts, Inline t) :
    Inline (name ++ "(" ++ .commaSeparated ts ++ ")") := by
  rw [Text.append_assoc, Text.append_assoc]
  exact (Inline.name hn).append fun d => scan_parenthesised (scan_commaSeparated d hts)

end Layout

namespace Expr

open Layout

variable {a : Alphabet}

mutual

/-- **The text of an expression keeps to itself.** -/
theorem inline_of_render : ∀ {e : Expr} {t : Text}, e.every (isNamed a) = true → e.render = .ok t → Inline t
  | .number n, _, _, h => by
    obtain ⟨t, ht, rfl⟩ := render_number_eq_ok.1 h
    exact .number ht
  | .variable name, _, hn, h => by
    cases h
    exact .name hn
  | .text s, _, _, h => by
    cases h
    exact .literal s
  | .apply name args, _, hn, h => by
    obtain ⟨ts, hts, rfl⟩ := render_apply_eq_ok.1 h
    rw [every_apply] at hn
    exact .apply hn.1 (inline_of_renderAll hn.2 hts)
  | .binary op left right, _, hn, h => by
    obtain ⟨l, r, hl, hr, rfl⟩ := render_binary_eq_ok.1 h
    rw [every_binary] at hn
    exact .binary hn.1 (inline_of_render hn.2.1 hl).parenthesised (inline_of_render hn.2.2 hr).parenthesised
  | .foreign v, _, _, h => by cases h

theorem inline_of_renderAll : ∀ {es : List Expr} {ts : List Text}, everyOf (isNamed a) es = true →
    renderAll es = .ok ts → ∀ t ∈ ts, Inline t
  | [], _, _, h => by
    cases h
    exact fun t ht => (by cases ht)
  | e :: es, _, hn, h => by
    obtain ⟨t, ts, ht, hts, rfl⟩ := renderAll_cons_eq_ok.1 h
    rw [everyOf_cons] at hn
    intro x hx
    rcases List.mem_cons.1 hx with rfl | hx
    · exact inline_of_render hn.1 ht
    · exact inline_of_renderAll hn.2 hts x hx

end

end Expr

end RasterSketch
