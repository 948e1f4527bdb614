import RasterSketch.Proofs.Number.Numeral
import RasterSketch.Proofs.Sketch.Nodes
import RasterSketch.Proofs.Text.Units
/-!
# The words of an expression

A reader of expressions: numerals, names, strings with their escapes, operators, parentheses and commas.  It takes one
code point at a time, and what it has not finished is its mode.

`Spells` says that code points are read as given words whatever delimiter comes behind them.  Rendered text is put
together from such pieces, and `Spells` is put together with it.
-/

namespace RasterSketch.Reading

inductive Word where
  | number (value : ℚ)
  | name (text : Text)
  | string (value : Text)
  | operator (c : Char)
  | opening
  | closing
  | comma

/-- What has been read of a word that may still go on. -/
inductive Mode where
  | between
  | operator (c : Char)
  | numeral (cs : List Char)
  | name (cs : List Char)
  | string (units : List Nat)
  | escape (units : List Nat)
  | unit (units : List Nat) (left value : Nat)

def escapedUnit? (c : Char) : Option Nat :=
  match c with
  | '"' => some 0x22
  | '\\' => some 0x5c
  | '/' => some 0x2f
  | 'b' => some 0x8
  | 'f' => some 0xc
  | 'n' => some 0xa
  | 'r' => some 0xd
  | 't' => some 0x9
  | _ => none

/-- The word that ends with its mode. -/
def finish : Mode → Option (List Word)
  | .between => some []
  | .operator c => some [.operator c]
  | .numeral cs => if Decimal.isNumeral cs then some [.number (Decimal.magnitudeOf cs)] else none
  | .name cs => some [.name (Text.ofChars cs)]
  | _ => none

section

variable (a : Alphabet)

/-- A character where no word is open. -/
def start (c : Char) : Option (List Word × Mode) :=
  if c = ' ' then some ([], .between)
  else if c = '(' then some ([.opening], .between)
  else if c = ')' then some ([.closing], .between)
  else if c = ',' then some ([.comma], .between)
  else if c = '"' then some ([], .string [])
  else if operators.contains c then some ([], .operator c)
  else if c.isDigit then some ([], .numeral [c])
  else if a.begins c then some ([], .name [c])
  else none

def startAfter (m : Mode) (c : Char) : Option (List Word × Mode) :=
  (finish m).bind fun ws => (start a c).map fun (vs, m') => (ws ++ vs, m')

/-- One character.  An operator right behind another is refused, as is a letter behind a numeral. -/
def step : Mode → Char → Option (List Word × Mode)
  | .between, c => start a c
  | .operator o, c => if operators.contains c then none else startAfter a (.operator o) c
  | .numeral cs, c =>
    if c.isDigit || c == '.' then some ([], .numeral (cs ++ [c]))
    else if a.goesOn c then none
    else startAfter a (.numeral cs) c
  | .name cs, c => if a.goesOn c then some ([], .name (cs ++ [c])) else startAfter a (.name cs) c
  | .string us, c =>
    if c = '"' then some ([.string ⟨Text.ofUnits us⟩], .between)
    else if c = '\\' then some ([], .escape us)
    else if ' ' ≤ c then some ([], .string (us ++ Text.units16 c.toNat))
    else none
  | .escape us, c =>
    if c = 'u' then some ([], .unit us 4 0) else (escapedUnit? c).map fun u => ([], .string (us ++ [u]))
  | .unit us left value, c => (Text.hexValue? c).map fun d =>
    ([], if left = 1 then .string (us ++ [16 * value + d]) else .unit us (left - 1) (16 * value + d))

def words : Mode → List CodePoint → Option (List Word)
  | m, [] => finish m
  | m, .char c :: cs => (step a m c).bind fun (ws, m') => (words m' cs).map (ws ++ ·)
  | _, .surrogate _ :: _ => none

/-- The words of a text. -/
def wordsOf (t : Text) : Option (List Word) := words a .between t.codes

end

/-! ## Delimiters -/

/-- The characters behind which a word of the text has ended. -/
def delimiters : List Char := [' ', '(', ')', ',']

/-- Whether a text behind a word begins with a delimiter, or is none. -/
def Ends (cs : List CodePoint) : Prop := ∀ c ∈ cs.head?, ∃ d ∈ delimiters, c = .char d

theorem Ends.nil : Ends [] := by
  intro c hc
  cases hc

theorem Ends.cons {d : Char} (h : d ∈ delimiters) (cs : List CodePoint) : Ends (.char d :: cs) := by
  intro c hc
  exact ⟨d, h, (Option.some.inj hc).symm⟩

theorem Ends.append {cs rest : List CodePoint} (hc : Ends cs) (hr : Ends rest) : Ends (cs ++ rest) := by
  cases cs with
  | nil => exact hr
  | cons c cs => exact hc

section

variable {a : Alphabet}

theorem goesOn_delimiter {d : Char} (h : d ∈ delimiters) : a.goesOn d = false := by
  fin_cases h <;> simp [Alphabet.goesOn]

/-- A step that ends no word. -/
theorem words_silent {m : Mode} {c : Char} (m' : Mode) (h : step a m c = some ([], m')) (cs : List CodePoint) :
    words a m (.char c :: cs) = words a m' cs := by
  rw [words, h, Option.bind_some]
  exact Option.map_id'

theorem words_between_cons {c : Char} {ws : List Word} (h : start a c = some (ws, .between)) (cs : List CodePoint) :
    words a .between (.char c :: cs) = (words a .between cs).map (ws ++ ·) := by
  rw [words, step, h, Option.bind_some]

theorem start_delimiter {d : Char} (h : d ∈ delimiters) : ∃ ws, start a d = some (ws, .between) := by
  fin_cases h
  · exact ⟨[], rfl⟩
  · exact ⟨[.opening], rfl⟩
  · exact ⟨[.closing], rfl⟩
  · exact ⟨[.comma], rfl⟩

/-- **A delimiter ends a word.** -/
theorem words_ends {m : Mode} {ws : List Word} (hf : finish m = some ws)
    (hs : ∀ d ∈ delimiters, step a m d = startAfter a m d) {rest : List CodePoint} (hr : Ends rest) :
    words a m rest = (words a .between rest).map (ws ++ ·) := by
  cases rest with
  | nil => rw [words, words, hf, finish, Option.map_some, List.append_nil]
  | cons c cs =>
    obtain ⟨d, hd, rfl⟩ := hr c rfl
    obtain ⟨vs, hv⟩ := start_delimiter (a := a) hd
    rw [words, hs d hd, startAfter, hf, hv, words_between_cons hv, Option.map_map]
    simp [Function.comp_def, List.append_assoc]

end

/-! ## Spelling -/

/-- Code points that are read as the given words, before every delimiter. -/
def Spells (a : Alphabet) (cs : List CodePoint) (ws : List Word) : Prop :=
  ∀ rest, Ends rest → words a .between (cs ++ rest) = (words a .between rest).map (ws ++ ·)

namespace Spells

variable {a : Alphabet} {cs ds : List CodePoint} {ws vs : List Word}

theorem nil : Spells a [] [] := by
  intro rest _
  exact Option.map_id'.symm

/-- A piece that begins with a delimiter can follow any other. -/
theorem append (hc : Spells a cs ws) (hd : Spells a ds vs) (he : Ends ds) : Spells a (cs ++ ds) (ws ++ vs) := by
  intro rest hr
  rw [List.append_assoc, hc _ (he.append hr), hd rest hr, Option.map_map]
  simp [Function.comp_def]

theorem cons (hc : Spells a cs ws) {c : Char} (vs : List Word) (hs : start a c = some (vs, .between)) :
    Spells a (.char c :: cs) (vs ++ ws) := by
  intro rest hr
  rw [List.cons_append, words_between_cons hs, hc rest hr, Option.map_map]
  simp [Function.comp_def]

theorem space (hc : Spells a cs ws) : Spells a (.char ' ' :: cs) ws :=
  hc.cons [] rfl

/-- A word that its first character and then silent steps have led to. -/
theorem of_mode {c : Char} {m m' : Mode} (hc : start a c = some ([], m))
    (hcs : ∀ rest, words a m (cs ++ rest) = words a m' rest) (hf : finish m' = some ws)
    (hs : ∀ d ∈ delimiters, step a m' d = startAfter a m' d) : Spells a (.char c :: cs) ws := by
  intro rest hr
  rw [List.cons_append, words_silent (m := .between) _ hc, hcs, words_ends hf hs hr]

theorem operator {o : Char} (ho : o ∈ operators) : Spells a [.char o] [.operator o] := by
  have hc : start a o = some ([], .operator o) := by
    fin_cases ho <;> rfl
  exact of_mode hc (fun _ => rfl) rfl (fun d hd => by fin_cases hd <;> rfl)

/-! ### Names -/

theorem words_name : ∀ {cs : List CodePoint} (_ : cs.all a.goesOnCode = true) (done : List Char),
    ∃ more, cs = more.map .char ∧ ∀ rest, words a (.name done) (cs ++ rest) = words a (.name (done ++ more)) rest
  | [], _, done => ⟨[], rfl, fun rest => by rw [List.append_nil]; rfl⟩
  | .surrogate _ :: _, h, _ => by simp [Alphabet.goesOnCode] at h
  | .char c :: cs, h, done => by
    rw [List.all_cons, Bool.and_eq_true] at h
    obtain ⟨more, hcs, hw⟩ := words_name h.2 (done ++ [c])
    have hc : a.goesOn c = true := h.1
    have hs : step a (.name done) c = some ([], .name (done ++ [c])) := by rw [step, if_pos hc]
    refine ⟨c :: more, by rw [hcs, List.map_cons], fun rest => ?_⟩
    rw [List.cons_append, words_silent _ hs, hw, List.append_assoc]
    rfl

/-- A letter is nothing else that a word may begin with. -/
theorem start_letter {c : Char} (h : a.begins c = true) : start a c = some ([], .name [c]) := by
  have hne : ∀ d, a.begins d = false → c ≠ d := by
    rintro d hd rfl
    rw [h] at hd
    cases hd
  have ho : operators.contains c = false := by
    simp [operators, hne '+' rfl, hne '-' rfl, hne '*' rfl, hne '/' rfl, hne '%' rfl]
  have hd : c.isDigit = false := by
    rw [Bool.eq_false_iff]
    intro hd
    rw [a.begins_digit hd] at h
    cases h
  rw [start, if_neg (hne ' ' rfl), if_neg (hne '(' rfl), if_neg (hne ')' rfl), if_neg (hne ',' rfl),
    if_neg (hne '"' rfl), ho, if_neg Bool.false_ne_true, hd, if_neg Bool.false_ne_true, if_pos h]

theorem name {t : Text} (h : a.isName t = true) : Spells a t.codes [.name t] := by
  obtain ⟨c, cs, ht, hc, hcs⟩ := Alphabet.isName_eq_true h
  obtain ⟨more, hm, hw⟩ := words_name hcs [c]
  have hn : Text.ofChars (c :: more) = t := Text.codes_inj (by rw [ht, hm]; rfl)
  rw [ht]
  refine of_mode (start_letter hc) hw (by rw [finish, List.singleton_append, hn]) (fun d hd => ?_)
  rw [step, if_neg (by rw [goesOn_delimiter hd]; exact Bool.false_ne_true)]

/-! ### Numerals -/

theorem words_numeral : ∀ {cs : List Char} (_ : ∀ c ∈ cs, (c.isDigit || c == '.') = true) (done : List Char) rest,
    words a (.numeral done) (cs.map .char ++ rest) = words a (.numeral (done ++ cs)) rest
  | [], _, done, rest => by rw [List.append_nil]; rfl
  | c :: cs, h, done, rest => by
    have hs : step a (.numeral done) c = some ([], .numeral (done ++ [c])) := by
      rw [step, if_pos (h c (by simp))]
    rw [List.map_cons, List.cons_append, words_silent _ hs, words_numeral fun d hd => h d (by simp [hd])]
    simp

theorem digit_ne {c d : Char} (h : c.isDigit = true) (hd : d.isDigit = false) : c ≠ d := by
  rintro rfl
  rw [h] at hd
  cases hd

theorem digit_operator {c : Char} (h : c.isDigit = true) : operators.contains c = false := by
  simp [operators, digit_ne (d := '+') h rfl, digit_ne (d := '-') h rfl, digit_ne (d := '*') h rfl,
    digit_ne (d := '/') h rfl, digit_ne (d := '%') h rfl]

theorem start_digit {c : Char} (h : c.isDigit = true) : start a c = some ([], .numeral [c]) := by
  rw [start, if_neg (digit_ne h rfl), if_neg (digit_ne h rfl), if_neg (digit_ne h rfl), if_neg (digit_ne h rfl),
    if_neg (digit_ne h rfl), digit_operator h, if_neg Bool.false_ne_true, if_pos h]

theorem step_numeral {cs : List Char} {d : Char} (hd : d ∈ delimiters) :
    step a (.numeral cs) d = startAfter a (.numeral cs) d := by
  rw [step, goesOn_delimiter hd, if_neg (by fin_cases hd <;> decide), if_neg Bool.false_ne_true]

theorem numeral {cs : List Char} (h : Decimal.isNumeral cs = true) :
    Spells a (cs.map .char) [.number (Decimal.magnitudeOf cs)] := by
  obtain ⟨c, more, rfl, hc, hm⟩ := Decimal.isNumeral_cons h
  refine of_mode (start_digit hc) (words_numeral hm [c]) ?_ (fun d hd => step_numeral hd)
  rw [finish, List.singleton_append, if_pos h]

/-- A numeral may stand right behind a minus. -/
theorem negative {cs : List Char} (h : Decimal.isNumeral cs = true) :
    Spells a (('-' :: cs).map .char) [.operator '-', .number (Decimal.magnitudeOf cs)] := by
  intro rest hr
  have hcs := numeral (a := a) h rest hr
  obtain ⟨c, more, rfl, hc, -⟩ := Decimal.isNumeral_cons h
  have hs : step a (.operator '-') c = some ([.operator '-'], .numeral [c]) := by
    rw [step, digit_operator hc, if_neg Bool.false_ne_true, startAfter, start_digit hc]
    rfl
  rw [List.map_cons, List.cons_append, words_silent (m := .between) _ (start_digit hc)] at hcs
  rw [List.map_cons, List.cons_append, words_silent (m := .between) (.operator '-') rfl, List.map_cons,
    List.cons_append, words, hs, Option.bind_some]
  dsimp only
  rw [hcs, Option.map_map]
  rfl

/-! ### Strings -/

theorem words_unit (us : List Nat) {n : Nat} (h : n < 0x10000) (rest : List CodePoint) :
    words a (.string us) ((Text.unitEscape n).map .char ++ rest) = words a (.string (us ++ [n])) rest := by
  have hd : ∀ left value k, step a (.unit us left value) (Nat.digitChar (k % 16)) = some ([],
      if left = 1 then .string (us ++ [16 * value + k % 16]) else .unit us (left - 1) (16 * value + k % 16)) := by
    intro left value k
    rw [step, Text.hexValue?_mod]
    rfl
  have hn : 16 * (16 * (16 * (16 * 0 + n / 16 / 16 / 16 % 16) + n / 16 / 16 % 16) + n / 16 % 16) + n % 16 = n := by
    omega
  rw [Text.unitEscape, Text.hexDigits_four]
  simp only [List.map_cons, List.map_nil, List.cons_append, List.nil_append]
  rw [words_silent (.escape us) rfl, words_silent (.unit us 4 0) rfl, words_silent _ (hd ..),
    if_neg (by decide), words_silent _ (hd ..), if_neg (by decide), words_silent _ (hd ..), if_neg (by decide),
    words_silent _ (hd ..), if_pos rfl, hn]

theorem words_units : ∀ {vs : List Nat} (_ : ∀ u ∈ vs, u < 0x10000) (us : List Nat) (rest : List CodePoint),
    words a (.string us) ((vs.flatMap Text.unitEscape).map .char ++ rest) = words a (.string (us ++ vs)) rest
  | [], _, us, rest => by rw [List.append_nil]; rfl
  | v :: vs, h, us, rest => by
    rw [List.flatMap_cons, List.map_append, List.append_assoc, words_unit us (h v (by simp)),
      words_units fun u hu => h u (by simp [hu])]
    simp

theorem words_escaped (us : List Nat) {e : Char} {u : Nat} (he : e ≠ 'u') (hu : escapedUnit? e = some u)
    (rest : List CodePoint) :
    words a (.string us) (['\\', e].map .char ++ rest) = words a (.string (us ++ [u])) rest := by
  have hs : step a (.escape us) e = some ([], .string (us ++ [u])) := by
    rw [step, if_neg he, hu]
    rfl
  rw [List.map_cons, List.cons_append, words_silent (.escape us) rfl, List.map_cons, List.cons_append,
    words_silent _ hs]
  rfl

theorem words_plain (us : List Nat) {c : Char} (hq : c ≠ '"') (hb : c ≠ '\\') (hc : ' ' ≤ c)
    (rest : List CodePoint) :
    words a (.string us) ([c].map .char ++ rest) = words a (.string (us ++ Text.units16 c.toNat)) rest := by
  have hs : step a (.string us) c = some ([], .string (us ++ Text.units16 c.toNat)) := by
    rw [step, if_neg hq, if_neg hb, if_pos hc]
  rw [List.map_cons, List.cons_append, words_silent _ hs]
  rfl

/-- **Each escape adds the units of its code point.** -/
theorem words_escape (us : List Nat) (rest : List CodePoint) : ∀ c : CodePoint,
    words a (.string us) ((Text.escape c).map .char ++ rest) = words a (.string (us ++ Text.units c)) rest
  | .surrogate place => words_unit us (by omega) rest
  | .char c => by
    rw [Text.escape, Text.escapeChar, Text.units]
    split
    · rename_i h
      rw [h]
      exact words_escaped us (by decide) rfl rest
    split
    · rename_i h
      rw [h]
      exact words_escaped us (by decide) rfl rest
    split
    · rename_i hq hb hc
      exact words_plain us hq hb hc.1 rest
    iterate 5
      split
      · rename_i h
        rw [h]
        exact words_escaped us (by decide) rfl rest
    · exact words_units (Text.units16_lt c) us rest

theorem words_escapes : ∀ (cs : List CodePoint) (us : List Nat) (rest : List CodePoint),
    words a (.string us) ((cs.flatMap Text.escape).map .char ++ rest)
      = words a (.string (us ++ cs.flatMap Text.units)) rest
  | [], us, rest => by rw [List.flatMap_nil, List.flatMap_nil, List.append_nil]; rfl
  | c :: cs, us, rest => by
    rw [List.flatMap_cons, List.map_append, List.append_assoc, words_escape, words_escapes cs, List.flatMap_cons,
      List.append_assoc]

/-- **A literal is one word, with the code points of its units.** -/
theorem literal (t : Text) :
    Spells a (t.literal : Text).codes [.string ⟨Text.ofUnits (t.codes.flatMap Text.units)⟩] := by
  have ht : (t.literal : Text).codes = .char '"' :: ((t.codes.flatMap Text.escape).map .char ++ [.char '"']) := by
    simp [Text.literal, Text.ofString, Text.ofChars]
  intro rest _
  rw [ht, List.cons_append, words_silent (m := .between) (.string []) rfl, List.append_assoc, words_escapes,
    List.singleton_append, words]
  rfl

end Spells

end RasterSketch.Reading
