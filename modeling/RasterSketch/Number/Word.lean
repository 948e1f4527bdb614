import RasterSketch.Number.Double
/-!
# Doubles as words

The interchange form of a double: a sign bit, eleven bits of exponent and 52 bits of fraction.
`ofWord_toWord` says that a finite double is read back from its word.
-/

namespace RasterSketch.Double

/-- A magnitude of the given fields, for an exponent field below the last. -/
def magnitudeOfFields (field fraction : Nat) : Magnitude :=
  if field = 0 then (Magnitude.ofParts? fraction (-1074)).getD .zero
  else (Magnitude.ofParts? (fraction + 0x10000000000000) (field - 1075)).getD .zero

def ofWord (w : Nat) : Double :=
  let negative := w / 0x8000000000000000 % 2 == 1
  let field := w / 0x10000000000000 % 0x800
  let fraction := w % 0x10000000000000
  if field = 2047 then (if fraction = 0 then .infinity negative else .nan)
  else .finite negative (magnitudeOfFields field fraction)

def signBit (negative : Bool) : Nat := if negative then 0x8000000000000000 else 0

/-- The word of a double; of the words of a NaN, the quiet one with no payload. -/
def toWord : Double → Nat
  | .finite s m =>
    if m.mantissa < 0x10000000000000 then signBit s + m.mantissa
    else
      signBit s + (m.exponent + 1075).toNat * 0x10000000000000 + (m.mantissa - 0x10000000000000)
  | .infinity s => signBit s + 2047 * 0x10000000000000
  | .nan => 2047 * 0x10000000000000 + 0x8000000000000

theorem magnitudeOfFields_zero {k : Nat} (h : Canonical k (-1074)) :
    magnitudeOfFields 0 k = ⟨k, -1074, h⟩ := by
  rw [magnitudeOfFields, if_pos rfl, Magnitude.ofParts?, dif_pos h, Option.getD_some]

theorem magnitudeOfFields_pos {f r : Nat} (hf : f ≠ 0)
    (h : Canonical (r + 0x10000000000000) (f - 1075)) :
    magnitudeOfFields f r = ⟨r + 0x10000000000000, f - 1075, h⟩ := by
  rw [magnitudeOfFields, if_neg hf, Magnitude.ofParts?, dif_pos h, Option.getD_some]

theorem ofWord_toWord (s : Bool) (m : Magnitude) : ofWord (toWord (.finite s m)) = .finite s m := by
  obtain ⟨k, e, hk, he, he', hn⟩ := m
  have hs : signBit s / 0x8000000000000000 % 2 = if s then 1 else 0 := by cases s <;> decide
  have hsm : signBit s = 0x8000000000000000 * (if s then 1 else 0) := by cases s <;> decide
  by_cases h : k < 0x10000000000000
  · simp only [toWord, h, if_true]
    have he0 : e = -1074 := by omega
    subst he0
    have h1 : (signBit s + k) / 0x8000000000000000 % 2 = if s then 1 else 0 := by
      rw [hsm]; split <;> omega
    have h2 : (signBit s + k) / 0x10000000000000 % 0x800 = 0 := by rw [hsm]; split <;> omega
    have h3 : (signBit s + k) % 0x10000000000000 = k := by rw [hsm]; split <;> omega
    simp only [ofWord, h1, h2, h3, magnitudeOfFields_zero ⟨hk, he, he', hn⟩]
    cases s <;> rfl
  · simp only [toWord, h, if_false]
    obtain ⟨f, hf⟩ : ∃ f : Nat, (e + 1075).toNat = f := ⟨_, rfl⟩
    have hf' : e = f - 1075 := by omega
    have hfl : f < 2047 := by omega
    have hfp : 1 ≤ f := by omega
    simp only [hf]
    obtain ⟨r, hr⟩ : ∃ r, k = r + 0x10000000000000 := ⟨k - 0x10000000000000, by omega⟩
    have hrl : r < 0x10000000000000 := by omega
    have hk' : k - 0x10000000000000 = r := by omega
    have h1 : (signBit s + f * 0x10000000000000 + r) / 0x8000000000000000 % 2 =
        if s then 1 else 0 := by
      rw [hsm]; split <;> omega
    have h2 : (signBit s + f * 0x10000000000000 + r) / 0x10000000000000 % 0x800 = f := by
      rw [hsm]; split <;> omega
    have h3 : (signBit s + f * 0x10000000000000 + r) % 0x10000000000000 = r := by
      rw [hsm]; split <;> omega
    have hc : Canonical (r + 0x10000000000000) ((f : Int) - 1075) :=
      ⟨by omega, by omega, by omega, .inl (by omega)⟩
    subst hr hf'
    simp only [ofWord, hk', h1, h2, h3, if_neg (Nat.ne_of_lt hfl),
      magnitudeOfFields_pos (Nat.ne_of_gt hfp) hc]
    cases s <;> rfl

end RasterSketch.Double
