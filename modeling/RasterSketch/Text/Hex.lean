/-!
# Hexadecimal digits
-/

namespace RasterSketch.Text

/-- The last `width` hexadecimal digits, in small letters, with leading zeros. -/
def hexDigits : (width : Nat) → Nat → List Char
  | 0, _ => []
  | w + 1, n => hexDigits w (n / 16) ++ [Nat.digitChar (n % 16)]

theorem hexDigits_length : ∀ w n, (hexDigits w n).length = w
  | 0, _ => rfl
  | w + 1, n => by simp [hexDigits, hexDigits_length w]

end RasterSketch.Text
