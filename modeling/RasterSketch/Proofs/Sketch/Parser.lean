import RasterSketch.Proofs.Sketch.Lexer
/-!
# The tree of an expression

`Denotes` is the grammar of expressions: operands, products and sums, each level over the next, the left side of an
operator at the operator's own level and the right side at the next one.  `parse` reads words with a stack of what
waits for an operand.  It finds every tree that the grammar gives (`run_of_denotes`), so the grammar gives one tree at
most (`Denotes.unique`).
-/

namespace RasterSketch.Reading

inductive Term where
  | number (value : ℚ)
  | variable (name : Text)
  | text (value : Text)
  | apply (name : Text) (args : List Term)
  | binary (op : Text) (left right : Term)

def precedence (o : Char) : Nat := if o = '+' ∨ o = '-' then 1 else 2

/-! ## The grammar -/

/-- Words at a level denote a term; level 1 are sums, 2 products, 3 operands. -/
inductive Denotes : Nat → List Word → Term → Prop where
  | number (v : ℚ) : Denotes 3 [.number v] (.number v)
  | negative (v : ℚ) : Denotes 3 [.operator '-', .number v] (.number (-v))
  | name (n : Text) : Denotes 3 [.name n] (.variable n)
  | string (s : Text) : Denotes 3 [.string s] (.text s)
  | group {ws : List Word} {t : Term} (h : Denotes 1 ws t) : Denotes 3 (.opening :: ws ++ [.closing]) t
  | call (n : Text) (args : List (List Word × Term)) (h : ∀ x ∈ args, Denotes 1 x.1 x.2) :
    Denotes 3 (.name n :: .opening :: [Word.comma].intercalate (args.map (·.1)) ++ [.closing])
      (.apply n (args.map (·.2)))
  | looser {p : Nat} {ws : List Word} {t : Term} (h : Denotes (p + 1) ws t) : Denotes p ws t
  | binary {o : Char} {ws vs : List Word} {l r : Term} (ho : o ∈ operators) (hl : Denotes (precedence o) ws l)
    (hr : Denotes (precedence o + 1) vs r) :
    Denotes (precedence o) (ws ++ .operator o :: vs) (.binary (Text.ofChars [o]) l r)

theorem Denotes.mono {p q : Nat} {ws : List Word} {t : Term} (hpq : p ≤ q) (h : Denotes q ws t) : Denotes p ws t := by
  induction hpq with
  | refl => exact h
  | step _ ih => exact ih h.looser

/-! ## The parser -/

/-- What waits for the rest of it: a left operand, a parenthesis, a call with the arguments before. -/
inductive Frame where
  | left (term : Term) (o : Char)
  | group
  | call (name : Text) (args : List Term)

inductive State where
  | want (stack : List Frame)
  | minus (stack : List Frame)
  | named (stack : List Frame) (name : Text)
  | got (stack : List Frame) (term : Term)

/-- The left operands of operators that bind as strongly as `p` at least take the term as their right one. -/
def reduce (p : Nat) : List Frame → Term → List Frame × Term
  | .left l o :: stack, t =>
    if p ≤ precedence o then reduce p stack (.binary (Text.ofChars [o]) l t) else (.left l o :: stack, t)
  | stack, t => (stack, t)

def behind (stack : List Frame) (t : Term) : Word → Option State
  | .operator o =>
    let (rest, l) := reduce (precedence o) stack t
    some (.want (.left l o :: rest))
  | .closing => match reduce 1 stack t with
    | (.group :: rest, t') => some (.got rest t')
    | (.call n args :: rest, t') => some (.got rest (.apply n (args ++ [t'])))
    | _ => none
  | .comma => match reduce 1 stack t with
    | (.call n args :: rest, t') => some (.want (.call n (args ++ [t']) :: rest))
    | _ => none
  | _ => none

def read : State → Word → Option State
  | .want stack, .number v => some (.got stack (.number v))
  | .want stack, .name n => some (.named stack n)
  | .want stack, .string s => some (.got stack (.text s))
  | .want stack, .operator '-' => some (.minus stack)
  | .want stack, .opening => some (.want (.group :: stack))
  | .want (.call n [] :: stack), .closing => some (.got stack (.apply n []))
  | .want _, _ => none
  | .minus stack, .number v => some (.got stack (.number (-v)))
  | .minus _, _ => none
  | .named stack n, .opening => some (.want (.call n [] :: stack))
  | .named stack n, w => behind stack (.variable n) w
  | .got stack t, w => behind stack t w

/-- The term, if nothing waits any more. -/
def whole (stack : List Frame) (t : Term) : Option Term :=
  match reduce 1 stack t with
  | ([], t') => some t'
  | _ => none

def result : State → Option Term
  | .named stack n => whole stack (.variable n)
  | .got stack t => whole stack t
  | _ => none

def run : State → List Word → Option Term
  | s, [] => result s
  | s, w :: ws => (read s w).bind (run · ws)

/-- The tree of a text that is one expression, from its first character to its last. -/
def parse (a : Alphabet) (text : Text) : Option Term := (wordsOf a text).bind (run (.want []))

/-! ## Every tree of the grammar is found -/

/-- Whether the operator in front, if there is one, binds weaker than `p`. -/
def Loose (p : Nat) : List Frame → Prop
  | .left _ o :: _ => precedence o < p
  | _ => True

theorem Loose.mono {p q : Nat} (hpq : p ≤ q) : ∀ {stack : List Frame}, Loose p stack → Loose q stack
  | [], _ => trivial
  | .left _ _ :: _, h => lt_of_lt_of_le h hpq
  | .group :: _, _ => trivial
  | .call _ _ :: _, _ => trivial

theorem reduce_loose {p : Nat} : ∀ {stack : List Frame} (_ : Loose p stack) (t : Term), reduce p stack t = (stack, t)
  | [], _, _ => rfl
  | .left _ o :: _, h, _ => by rw [reduce, if_neg (not_le.2 h)]
  | .group :: _, _, _ => rfl
  | .call _ _ :: _, _, _ => rfl

/-- What binds more strongly may be taken first. -/
theorem reduce_reduce {p q : Nat} (hpq : p ≤ q) : ∀ (stack : List Frame) (t : Term),
    reduce p (reduce q stack t).1 (reduce q stack t).2 = reduce p stack t
  | [], _ => rfl
  | .group :: _, _ => rfl
  | .call _ _ :: _, _ => rfl
  | .left l o :: stack, t => by
    by_cases hq : q ≤ precedence o
    · rw [reduce, if_pos hq, reduce_reduce hpq, reduce.eq_1 p, if_pos (hpq.trans hq)]
    · rw [reduce.eq_1 q, if_neg hq]

theorem reduce_of_reduce {p q : Nat} (hpq : p ≤ q) {stack rest : List Frame} {t l : Term}
    (h : reduce q stack t = (rest, l)) : reduce p stack t = reduce p rest l := by
  rw [← reduce_reduce hpq, h]

/-- The words bring the parser from wanting an operand to having one, whose parts at level `p` are together the
term. -/
def Reads (p : Nat) (ws : List Word) (t : Term) : Prop :=
  ∀ stack rest, Loose p stack → rest.head? ≠ some .opening →
    ∃ inner l, run (.want stack) (ws ++ rest) = run (.got inner l) rest ∧ reduce p inner l = (stack, t)

theorem run_named {rest : List Word} (hr : rest.head? ≠ some .opening) (stack : List Frame) (n : Text) :
    run (.named stack n) rest = run (.got stack (.variable n)) rest := by
  cases rest with
  | nil => rfl
  | cons w ws =>
    cases w with
    | opening => exact absurd rfl hr
    | _ => rfl

/-- The arguments of a call, after those before them. -/
theorem run_arguments (n : Text) (stack : List Frame) (rest : List Word) :
    ∀ (args : List (List Word × Term)) (x : List Word × Term) (done : List Term), (∀ y ∈ x :: args, Reads 1 y.1 y.2) →
      run (.want (.call n done :: stack)) ([Word.comma].intercalate ((x :: args).map (·.1)) ++ .closing :: rest)
        = run (.got stack (.apply n (done ++ (x :: args).map (·.2)))) rest
  | [], x, done, h => by
    obtain ⟨inner, l, hrun, hred⟩ := (h x (by simp)) (.call n done :: stack) (.closing :: rest) trivial (by simp)
    rw [List.map_cons, List.map_nil, List.intercalate_singleton, hrun, run, read, behind, hred]
    rfl
  | y :: args, x, done, h => by
    have ih := run_arguments n stack rest args y (done ++ [x.2]) fun z hz => h z (by simp [List.mem_cons.1 hz])
    have hw : [Word.comma].intercalate ((x :: y :: args).map (·.1)) ++ .closing :: rest
        = x.1 ++ .comma :: ([Word.comma].intercalate ((y :: args).map (·.1)) ++ .closing :: rest) := by
      simp [List.intercalate_cons_cons]
    obtain ⟨inner, l, hrun, hred⟩ := (h x (by simp)) (.call n done :: stack) (.comma :: _) trivial (by simp)
    rw [hw, hrun, run, read, behind, hred]
    simpa using ih

/-- **What the grammar gives, the parser finds.** -/
theorem reads_of_denotes {p : Nat} {ws : List Word} {t : Term} (h : Denotes p ws t) : Reads p ws t := by
  induction h with
  | number v => exact fun stack rest hs _ => ⟨stack, .number v, rfl, reduce_loose hs _⟩
  | negative v => exact fun stack rest hs _ => ⟨stack, .number (-v), rfl, reduce_loose hs _⟩
  | name n => exact fun stack rest hs hr => ⟨stack, .variable n, run_named hr stack n, reduce_loose hs _⟩
  | string s => exact fun stack rest hs _ => ⟨stack, .text s, rfl, reduce_loose hs _⟩
  | @group ws t _ ih =>
    intro stack rest hs _
    obtain ⟨inner, l, hrun, hred⟩ := ih (.group :: stack) (.closing :: rest) trivial (by simp)
    refine ⟨stack, t, ?_, reduce_loose hs _⟩
    rw [List.cons_append, List.cons_append, List.append_assoc, run, read, Option.bind_some, List.singleton_append, hrun,
      run, read, behind, hred]
    rfl
  | call n args _ ih =>
    intro stack rest hs _
    refine ⟨stack, .apply n (args.map (·.2)), ?_, reduce_loose hs _⟩
    cases args with
    | nil => rfl
    | cons x args =>
      have hargs := run_arguments n stack rest args x [] ih
      rw [List.nil_append] at hargs
      rw [← hargs]
      simp only [List.cons_append, List.append_assoc]
      rfl
  | looser _ ih =>
    intro stack rest hs hr
    obtain ⟨inner, l, hrun, hred⟩ := ih stack rest (hs.mono (Nat.le_succ _)) hr
    exact ⟨inner, l, hrun, (reduce_of_reduce (Nat.le_succ _) hred).trans (reduce_loose hs _)⟩
  | @binary o ws vs l r ho _ _ ihl ihr =>
    intro stack rest hs hr
    obtain ⟨inner, x, hrun, hred⟩ := ihl stack (.operator o :: (vs ++ rest)) hs (by simp)
    obtain ⟨inner', y, hrun', hred'⟩ := ihr (.left l o :: stack) rest (Nat.lt_succ_self _) hr
    refine ⟨inner', y, ?_, ?_⟩
    · rw [List.append_assoc, List.cons_append, hrun, run, read, behind, hred]
      exact hrun'
    · rw [reduce_of_reduce (Nat.le_succ _) hred', reduce, if_pos le_rfl, reduce_loose hs]

/-- **A whole expression is read as its tree.** -/
theorem run_of_denotes {ws : List Word} {t : Term} (h : Denotes 1 ws t) : run (.want []) ws = some t := by
  obtain ⟨inner, l, hrun, hred⟩ := reads_of_denotes h [] [] trivial (by simp)
  rw [← List.append_nil ws, hrun, run, result, whole, hred]

example : parse .ascii "a - b * c - d" = some (.binary "-"
    (.binary "-" (.variable "a") (.binary "*" (.variable "b") (.variable "c"))) (.variable "d")) := rfl

/-- **Words denote one expression at most.** -/
theorem Denotes.unique {ws : List Word} {t t' : Term} (h : Denotes 1 ws t) (h' : Denotes 1 ws t') : t = t' :=
  Option.some.inj ((run_of_denotes h).symm.trans (run_of_denotes h'))

end RasterSketch.Reading
