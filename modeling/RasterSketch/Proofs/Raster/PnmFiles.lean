import RasterSketch.Proofs.Number.Numeral
import RasterSketch.Proofs.Raster.PngFiles
/-!
# PNM files

A picture of grey or of three colours is written as PNM with blanks of any kind and number before the numbers of its
header (`Pnm.file`).  The decoder reads the numbers that were written, and finds the samples behind the one blank that
ends them (`Pnm.header?_file`, `Pnm.samples_file`).
-/
namespace RasterSketch

open Decimal (digits)

/-! ## Integers of digits -/

namespace Decimal

theorem length_digits_le : ∀ (k : Nat) {n : Nat}, n < 10 ^ (k + 1) → (digits n).length ≤ k + 1
  | 0, n, h => by
    rw [digits, if_pos (by omega)]
    exact Nat.le_refl _
  | k + 1, n, h => by
    rw [digits]
    split
    · exact Nat.succ_le_succ (Nat.zero_le _)
    · rw [Nat.pow_succ] at h
      have ih := length_digits_le k (n := n / 10) (by omega)
      rw [List.length_append, List.length_singleton]
      omega

end Decimal

namespace Text

open Decimal (digitOf naturalOf isDigit_bounds)

theorem digitValue?_digit {c : Char} (h : c.isDigit = true) : digitValue? (.char c) = some (digitOf c) := by
  obtain ⟨hlow, hhigh⟩ := isDigit_bounds h
  unfold digitValue?
  exact if_pos ⟨hlow, Nat.lt_succ_of_le hhigh⟩

theorem digitValues?_digits : ∀ {cs : List Char} (after : Bool), cs.all Char.isDigit = true →
    (after = true ∨ cs ≠ []) → digitValues? after (cs.map .char) = some (cs.map digitOf)
  | [], after, _, hsome => by
    rw [hsome.resolve_right (fun h => h rfl)]
    rfl
  | c :: cs, after, h, _ => by
    rw [List.all_cons, Bool.and_eq_true] at h
    have hbar : ¬ CodePoint.char c = .char '_' := fun hc => by
      rw [CodePoint.char.inj hc] at h
      exact absurd h.1 (by decide)
    rw [List.map_cons, digitValues?, if_neg hbar, digitValue?_digit h.1]
    show (do let ds ← digitValues? true (cs.map .char); return digitOf c :: ds) = _
    rw [digitValues?_digits true h.2 (.inl rfl)]
    rfl

theorem isBlank_digit {c : Char} (h : c.isDigit = true) : isBlank (.char c) = false := by
  obtain ⟨hlow, hhigh⟩ := isDigit_bounds h
  have hvalue : (CodePoint.char c).value = c.toNat := rfl
  simp only [isBlank, hvalue, Bool.or_eq_false_iff, beq_eq_false_iff_ne, Bool.and_eq_false_iff, decide_eq_false_iff_not]
  omega

theorem dropWhile_isBlank_digits {cs : List Char} (h : cs.all Char.isDigit = true) :
    (cs.map CodePoint.char).dropWhile isBlank = cs.map .char := by
  cases cs with
  | nil => rfl
  | cons c cs =>
    rw [List.all_cons, Bool.and_eq_true] at h
    rw [List.map_cons, List.dropWhile_cons_of_neg (by rw [isBlank_digit h.1]; decide)]

theorem stripBlanks_digits {cs : List Char} (h : cs.all Char.isDigit = true) :
    stripBlanks (cs.map .char) = cs.map .char := by
  have hback : cs.reverse.all Char.isDigit = true := by rw [List.all_reverse, h]
  rw [stripBlanks, dropWhile_isBlank_digits h, ← List.map_reverse, dropWhile_isBlank_digits hback, ← List.map_reverse,
    List.reverse_reverse]

/-- **A written natural is read as it is.** -/
theorem integer?_digits {n : Nat} (h : (digits n).length ≤ Decimal.digitLimit) :
    integer? (.ofChars (digits n)) = some (n : Int) := by
  have hall := Decimal.digits_all n
  obtain ⟨c, cs, hcs⟩ := List.exists_cons_of_ne_nil (Decimal.digits_ne_nil n)
  have hnatural : natural? ((digits n).map .char) = some n := by
    unfold natural?
    rw [digitValues?_digits false hall (.inr (Decimal.digits_ne_nil n))]
    show (if ((digits n).map digitOf).length ≤ Decimal.digitLimit then _ else _) = _
    rw [if_pos (by rw [List.length_map]; exact h), List.foldl_map]
    exact congrArg some (Decimal.naturalOf_digits n)
  have hfirst : c.isDigit = true := by
    rw [hcs, List.all_cons, Bool.and_eq_true] at hall
    exact hall.1
  unfold integer? Text.ofChars
  rw [stripBlanks_digits hall]
  split
  · rename_i heq
    rw [hcs, List.map_cons] at heq
    rw [CodePoint.char.inj (List.cons.inj heq).1] at hfirst
    exact absurd hfirst (by decide)
  · rename_i heq
    rw [hcs, List.map_cons] at heq
    rw [CodePoint.char.inj (List.cons.inj heq).1] at hfirst
    exact absurd hfirst (by decide)
  · rw [hnatural]
    rfl

end Text

namespace Pnm

/-! ## Files -/

/-- Blanks, and one at least. -/
structure Gap where
  first : UInt8
  others : List UInt8
  first_isBlank : isAsciiBlank first = true
  others_isBlank : others.all isAsciiBlank = true

def Gap.blanks (gap : Gap) : List UInt8 := gap.first :: gap.others

theorem Gap.blanks_isBlank (gap : Gap) : gap.blanks.all isAsciiBlank = true := by
  rw [blanks, List.all_cons, gap.first_isBlank, gap.others_isBlank, Bool.and_self]

/-- A natural in ASCII. -/
def numeral (n : Nat) : List UInt8 := (digits n).map fun c => UInt8.ofNat c.toNat

/-- What the files of a mode begin with, if there are any. -/
def mark? : Mode → Option (List UInt8)
  | .grey => some [0x50, 0x35]
  | .rgb => some [0x50, 0x36]
  | _ => none

/-- What separates the parts of a header. -/
structure Gaps where
  first : Gap
  second : Gap
  third : Gap
  last : UInt8
  last_isBlank : isAsciiBlank last = true

def file (gaps : Gaps) (mark : List UInt8) (width height : Nat) (samples : List UInt8) : List UInt8 :=
  mark ++ (gaps.first.blanks ++ (numeral width ++ (gaps.second.blanks ++ (numeral height ++ (gaps.third.blanks ++
    (numeral 255 ++ gaps.last :: samples))))))

/-! ## Numbers -/

theorem byte_digit {c : Char} (h : c.isDigit = true) : Char.ofNat (UInt8.ofNat c.toNat).toNat = c := by
  obtain ⟨hlow, hhigh⟩ := Decimal.isDigit_bounds h
  rw [UInt8.toNat_ofNat', Nat.mod_eq_of_lt (by omega), Char.ofNat_toNat]

theorem numeral_bounds {n : Nat} {b : UInt8} (h : b ∈ numeral n) : 48 ≤ b ∧ b ≤ 57 := by
  obtain ⟨c, hc, rfl⟩ := List.mem_map.1 h
  obtain ⟨hlow, hhigh⟩ := Decimal.isDigit_bounds (List.all_eq_true.1 (Decimal.digits_all n) c hc)
  have hbyte : (UInt8.ofNat c.toNat).toNat = c.toNat := by rw [UInt8.toNat_ofNat', Nat.mod_eq_of_lt (by omega)]
  rw [UInt8.le_iff_toNat_le, UInt8.le_iff_toNat_le, hbyte]
  exact ⟨hlow, hhigh⟩

theorem length_numeral (n : Nat) : (numeral n).length = (digits n).length := List.length_map _

theorem integer?_numeral {n : Nat} (h : n < 10 ^ 10) : integer? (numeral n) = some (n : Int) := by
  have hascii : (numeral n).all (· < 0x80) = true := by
    rw [List.all_eq_true]
    intro b hb
    obtain ⟨-, hhigh⟩ := numeral_bounds hb
    rw [decide_eq_true_eq, UInt8.lt_iff_toNat_lt]
    have := UInt8.le_iff_toNat_le.1 hhigh
    show b.toNat < 128
    have h57 : (57 : UInt8).toNat = 57 := rfl
    omega
  have hchars : (numeral n).map (fun b => Char.ofNat b.toNat) = digits n := by
    rw [numeral, List.map_map]
    refine (List.map_congr_left fun c hc => ?_).trans (List.map_id _)
    exact byte_digit (List.all_eq_true.1 (Decimal.digits_all n) c hc)
  have hlength := Decimal.length_digits_le 9 h
  unfold integer?
  rw [if_pos hascii, hchars, Text.integer?_digits (by unfold Decimal.digitLimit; omega)]

/-! ## Tokens -/

theorem token_blanks : ∀ {blanks : List UInt8}, blanks.all isAsciiBlank = true → ∀ bytes,
    token false [] (blanks ++ bytes) = token false [] bytes
  | [], _, _ => rfl
  | b :: blanks, h, bytes => by
    rw [List.all_cons, Bool.and_eq_true] at h
    rw [List.cons_append, token, if_neg Bool.false_ne_true, if_pos h.1, List.isEmpty_nil, if_pos rfl,
      token_blanks h.2]

/-- Digits are read up to the blank behind them. -/
theorem token_digits {blank : UInt8} (hblank : isAsciiBlank blank = true) (rest : List UInt8) :
    ∀ {bytes read : List UInt8}, (∀ b ∈ bytes, 48 ≤ b ∧ b ≤ 57) → read.length + bytes.length ≤ tokenLimit →
      read ++ bytes ≠ [] → token false read (bytes ++ blank :: rest) = (read ++ bytes, rest)
  | [], read, _, _, hne => by
    rw [List.append_nil] at hne
    rw [List.nil_append, token, if_neg Bool.false_ne_true, if_pos hblank, List.append_nil,
      if_neg (by rw [List.isEmpty_iff]; exact hne)]
  | b :: bytes, read, h, hlength, _ => by
    obtain ⟨hlow, hhigh⟩ := h b (List.mem_cons_self ..)
    have hb : isAsciiBlank b = false ∧ b ≠ 35 := by
      unfold isAsciiBlank
      rw [UInt8.le_iff_toNat_le] at hlow hhigh
      change 48 ≤ b.toNat at hlow
      refine ⟨?_, fun h35 => by rw [h35] at hlow; exact absurd hlow (by decide)⟩
      simp only [Bool.or_eq_false_iff, beq_eq_false_iff_ne, Bool.and_eq_false_iff, decide_eq_false_iff_not,
        UInt8.le_iff_toNat_le]
      refine ⟨fun h32 => by rw [h32] at hlow; exact absurd hlow (by decide), .inr ?_⟩
      show ¬ b.toNat ≤ 13
      omega
    rw [List.length_cons] at hlength
    rw [List.cons_append, token, if_neg Bool.false_ne_true, hb.1, if_neg Bool.false_ne_true, if_neg hb.2,
      if_pos (by omega), token_digits hblank rest (fun b' hb' => h b' (List.mem_cons_of_mem _ hb'))
        (by rw [List.length_append, List.length_singleton]; omega) (by simp), List.append_assoc, List.singleton_append]

/-- **A number is read up to the blank behind it.** -/
theorem number_numeral {n : Nat} (h : n < 10 ^ 10) {blanks : List UInt8} (hblanks : blanks.all isAsciiBlank = true)
    {blank : UInt8} (hblank : isAsciiBlank blank = true) (rest : List UInt8) :
    number (blanks ++ (numeral n ++ blank :: rest)) = .ok ((n : Int), rest) := by
  have hdigits := Decimal.length_digits_le 9 h
  have hne : numeral n ≠ [] := fun hnil => Decimal.digits_ne_nil n (List.map_eq_nil_iff.1 hnil)
  have htoken : token false [] (blanks ++ (numeral n ++ blank :: rest)) = (numeral n, rest) := by
    rw [token_blanks hblanks, token_digits hblank rest (fun b hb => numeral_bounds hb)
      (by rw [length_numeral, List.length_nil]; unfold tokenLimit; omega) hne, List.nil_append]
  unfold number
  rw [htoken]
  dsimp only
  rw [if_neg (by rw [List.isEmpty_iff]; exact hne), if_neg (by rw [length_numeral]; unfold tokenLimit; omega),
    integer?_numeral h]

theorem number_between {n : Nat} (h : n < 10 ^ 10) {blanks : List UInt8} (hblanks : blanks.all isAsciiBlank = true)
    (gap : Gap) (rest : List UInt8) :
    number (blanks ++ (numeral n ++ (gap.blanks ++ rest))) = .ok ((n : Int), gap.others ++ rest) :=
  number_numeral h hblanks gap.first_isBlank _

/-! ## Decoding -/

variable {mode : Mode} {mark samples : List UInt8} {width height : Nat}

theorem mode?_mark (h : mark? mode = some mark) (rest : List UInt8) : mode? (mark ++ rest) = some (mode, rest) := by
  cases mode <;> cases h <;> rfl

theorem header?_file (gaps : Gaps) (hmark : mark? mode = some mark) (hw : width < 10 ^ 10) (hh : height < 10 ^ 10) :
    header? (file gaps mark width height samples) = .ok (some ⟨.pnm 255, mode, width, height, samples⟩) := by
  have hfirst : ∀ rest, ((gaps.first.blanks ++ rest).head?.all isAsciiBlank) = true := fun _ => gaps.first.first_isBlank
  have hbrightest : number (gaps.third.others ++ (numeral 255 ++ gaps.last :: samples)) = .ok (255, samples) :=
    number_numeral (by decide) gaps.third.others_isBlank gaps.last_isBlank samples
  unfold header? file
  rw [mode?_mark hmark]
  dsimp only
  rw [hfirst, if_neg (by decide), number_between hw gaps.first.blanks_isBlank]
  dsimp only [bind, Except.bind]
  rw [number_between hh gaps.second.others_isBlank]
  dsimp only
  rw [hbrightest]
  dsimp only
  rw [if_neg (by decide), if_neg (by omega)]
  rfl

theorem samples_file (hlength : samples.length = width * mode.samples * height) :
    Pnm.samples ⟨.pnm 255, mode, width, height, samples⟩ 255 = .ok samples := by
  have hplain : isPlain ⟨.pnm 255, mode, width, height, samples⟩ 255 = true := rfl
  have hsplit := split?_append hlength []
  rw [List.append_nil] at hsplit
  have hbytes : sampleBytes 255 = 1 := rfl
  unfold Pnm.samples
  dsimp only
  rw [hbytes, Nat.mul_one, hsplit, hplain]
  show Except.ok ((samples.map UInt8.toNat).map fun n => UInt8.ofNat (min 255 n)) = _
  have hbyte : ∀ b ∈ samples, UInt8.ofNat (min 255 b.toNat) = b := fun b _ => by
    rw [Nat.min_eq_right (Nat.le_of_lt_succ (UInt8.toNat_lt b)), UInt8.ofNat_toNat]
  rw [List.map_map]
  exact congrArg Except.ok ((List.map_congr_left hbyte).trans (List.map_id _))

end Pnm

end RasterSketch
