/-!
# Text

Names, paths and words are given from outside, and what is given need not be well formed: beside
characters a text may hold surrogates, halves of a pair whose other half is missing.  A `Text` keeps
them where they are.  Any string is a text.
-/

namespace RasterSketch

/-- A character, or a surrogate by its place in the range of surrogates. -/
inductive CodePoint where
  | char (c : Char)
  | surrogate (place : Fin 0x800)
  deriving DecidableEq

namespace CodePoint

def value : CodePoint → Nat
  | char c => c.toNat
  | surrogate place => 0xd800 + place

def char? : CodePoint → Option Char
  | char c => some c
  | surrogate _ => none

/-- The bytes of UTF-8, which are formed for a surrogate as for its neighbours. -/
def utf8 : CodePoint → List UInt8
  | char c => String.utf8EncodeChar c
  | surrogate place =>
    [0xed, 0xa0 + UInt8.ofNat (place / 0x40), 0x80 + UInt8.ofNat (place % 0x40)]

end CodePoint

structure Text where
  codes : List CodePoint
  deriving DecidableEq

namespace Text

def ofChars (cs : List Char) : Text := ⟨cs.map .char⟩

def ofString (s : String) : Text := ofChars s.toList

instance : Coe String Text := ⟨ofString⟩
instance : Append Text := ⟨fun s t => ⟨s.codes ++ t.codes⟩⟩
instance : Inhabited Text := ⟨⟨[]⟩⟩

def isEmpty (t : Text) : Bool := t.codes.isEmpty

@[simp] theorem codes_append (s t : Text) : (s ++ t).codes = s.codes ++ t.codes := rfl

theorem codes_inj {s t : Text} (h : s.codes = t.codes) : s = t := by
  cases s; cases t; exact congrArg mk h

theorem append_assoc (r s t : Text) : r ++ s ++ t = r ++ (s ++ t) :=
  codes_inj (List.append_assoc ..)

@[simp] theorem empty_append (t : Text) : ⟨[]⟩ ++ t = t := rfl

@[simp] theorem append_empty (t : Text) : t ++ ⟨[]⟩ = t := codes_inj (List.append_nil _)

/-- The texts with a separator between them. -/
def separatedBy (separator : Text) : List Text → Text
  | [] => ⟨[]⟩
  | [t] => t
  | t :: u :: rest => t ++ separator ++ separatedBy separator (u :: rest)

def commaSeparated : List Text → Text := separatedBy ", "

/-- The string of a text without surrogates. -/
def toString? (t : Text) : Option String :=
  (t.codes.mapM CodePoint.char?).map String.ofList

def utf8 (t : Text) : List UInt8 := t.codes.flatMap CodePoint.utf8

end Text

end RasterSketch
