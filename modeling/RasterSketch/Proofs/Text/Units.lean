import RasterSketch.Text.Literal
/-!
# Reading UTF-16 units

A literal spells out the UTF-16 units of a text.  `Text.ofUnits` puts the pairs together again; a text of characters
is found in its units (`Text.ofUnits_units`), where one with surrogates need not be.
-/

namespace RasterSketch.Text

def units : CodePoint → List Nat
  | .char c => units16 c.toNat
  | .surrogate place => [0xd800 + place]

def ofUnit (u : Nat) : CodePoint :=
  if h : 0xd800 ≤ u ∧ u < 0xe000 then .surrogate ⟨u - 0xd800, by omega⟩ else .char (Char.ofNat u)

/-- Whether two units are the halves of a character. -/
def isPair (high low : Nat) : Bool := 0xd800 ≤ high && high < 0xdc00 && 0xdc00 ≤ low && low < 0xe000

def ofPair (high low : Nat) : CodePoint := .char (Char.ofNat (0x10000 + (high - 0xd800) * 0x400 + (low - 0xdc00)))

/-- The code points of units; a half without its other half is a surrogate. -/
def ofUnits : List Nat → List CodePoint
  | [] => []
  | [u] => [ofUnit u]
  | u :: v :: us => if isPair u v then ofPair u v :: ofUnits us else ofUnit u :: ofUnits (v :: us)

theorem toNat_lt_or (c : Char) : c.toNat < 0xd800 ∨ 0xdfff < c.toNat ∧ c.toNat < 0x110000 := c.valid

theorem units16_lt (c : Char) : ∀ u ∈ units16 c.toNat, u < 0x10000 := by
  have h := toNat_lt_or c
  intro u hu
  unfold units16 at hu
  split at hu
  · rw [List.mem_singleton.1 hu]
    assumption
  · simp only [List.mem_cons, List.not_mem_nil, or_false] at hu
    omega

theorem ofUnit_toNat (c : Char) : ofUnit c.toNat = .char c := by
  have h := toNat_lt_or c
  rw [ofUnit, dif_neg (by omega), Char.ofNat_toNat]

theorem ofPair_toNat {c : Char} (h : 0x10000 ≤ c.toNat) :
    ofPair (0xd800 + (c.toNat - 0x10000) / 0x400) (0xdc00 + (c.toNat - 0x10000) % 0x400) = .char c := by
  have hc : 0x10000 + (0xd800 + (c.toNat - 0x10000) / 0x400 - 0xd800) * 0x400
      + (0xdc00 + (c.toNat - 0x10000) % 0x400 - 0xdc00) = c.toNat := by omega
  rw [ofPair, hc, Char.ofNat_toNat]

/-- The units of a character in front are read as that character. -/
theorem ofUnits_units16 (c : Char) (us : List Nat) : ofUnits (units16 c.toNat ++ us) = .char c :: ofUnits us := by
  have h := toNat_lt_or c
  unfold units16
  split
  · rename_i hc
    cases us with
    | nil => exact congrArg (· :: []) (ofUnit_toNat c)
    | cons v us =>
      have hp : isPair c.toNat v = false := by
        rw [Bool.eq_false_iff]
        intro hp
        simp only [isPair, Bool.and_eq_true, decide_eq_true_eq] at hp
        omega
      rw [List.singleton_append, ofUnits, hp, if_neg Bool.false_ne_true, ofUnit_toNat]
  · rename_i hc
    have hp : isPair (0xd800 + (c.toNat - 0x10000) / 0x400) (0xdc00 + (c.toNat - 0x10000) % 0x400) = true := by
      simp only [isPair, Bool.and_eq_true, decide_eq_true_eq]
      omega
    rw [List.cons_append, List.singleton_append, ofUnits, hp, if_pos rfl, ofPair_toNat (by omega)]

def isChar : CodePoint → Bool
  | .char _ => true
  | .surrogate _ => false

/-- **A text of characters is read back from its units.** -/
theorem ofUnits_units : ∀ {cs : List CodePoint}, cs.all isChar = true → ofUnits (cs.flatMap units) = cs
  | [], _ => rfl
  | .char c :: cs, h => by
    rw [List.flatMap_cons, units, ofUnits_units16, ofUnits_units (by simpa [isChar] using h)]
  | .surrogate _ :: _, h => by simp [isChar] at h

/-! ## Hexadecimal digits -/

def hexValue? (c : Char) : Option Nat :=
  if c.isDigit then some (c.toNat - 48)
  else if 'a' ≤ c ∧ c ≤ 'f' then some (c.toNat - 87)
  else if 'A' ≤ c ∧ c ≤ 'F' then some (c.toNat - 55)
  else none

theorem hexValue?_digitChar : ∀ k : Fin 16, hexValue? (Nat.digitChar k) = some k := by decide

theorem hexValue?_mod (n : Nat) : hexValue? (Nat.digitChar (n % 16)) = some (n % 16) :=
  hexValue?_digitChar ⟨n % 16, Nat.mod_lt n (by decide)⟩

theorem mem_hexDigits {c : Char} : ∀ {width n : Nat}, c ∈ hexDigits width n → ∃ k : Fin 16, c = Nat.digitChar k
  | width + 1, n, h => by
    rcases List.mem_append.1 h with h | h
    · exact mem_hexDigits h
    · exact ⟨⟨n % 16, Nat.mod_lt n (by decide)⟩, List.mem_singleton.1 h⟩

theorem hexDigits_four (n : Nat) : hexDigits 4 n = [Nat.digitChar (n / 16 / 16 / 16 % 16),
    Nat.digitChar (n / 16 / 16 % 16), Nat.digitChar (n / 16 % 16), Nat.digitChar (n % 16)] := rfl

end RasterSketch.Text
