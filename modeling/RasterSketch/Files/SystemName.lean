import RasterSketch.Number.Decimal
import RasterSketch.Text.Shown
/-!
# Names in the system

To the system a name is bytes.  A character has its bytes of UTF-8; the surrogates from U+DC80 to
U+DCFF stand each for one byte that is part of no character, and any other has no byte at all.  A
byte zero would end the name.  Texts that have the same bytes are one name (`Text.systemForm`).
-/

namespace RasterSketch

/-- The bytes that a code point stands for, if it stands for any. -/
def CodePoint.systemBytes? : CodePoint → Option (List UInt8)
  | .char c => some (String.utf8EncodeChar c)
  | .surrogate place =>
    if 0x480 ≤ place.val ∧ place.val < 0x500 then some [UInt8.ofNat (place - 0x400)] else none

def CodePoint.isSurrogate : CodePoint → Bool
  | .char _ => false
  | .surrogate _ => true

namespace Text

def systemBytes (t : Text) : List UInt8 := t.codes.flatMap fun c => c.systemBytes?.getD []

/-- The number of bytes that a text has in the system. -/
def systemSize (t : Text) : Nat := t.systemBytes.length

/-- The character that bytes begin with, if they begin with one. -/
def character? (bytes : List UInt8) : Option Char :=
  ByteArray.utf8DecodeChar? ⟨(bytes.take 4).toArray⟩ 0

/-- What bytes of the system say: characters, and a surrogate for a byte that is part of none. -/
def codesOf : List UInt8 → List CodePoint
  | [] => []
  | b :: bs => match character? (b :: bs) with
    | some c => .char c :: codesOf (bs.drop (c.utf8Size - 1))
    | none => .surrogate (Fin.ofNat 0x800 (0x400 + b.toNat)) :: codesOf bs
termination_by bytes => bytes.length

/-- The one text of all that have the same bytes that the system gives back. -/
def systemForm (t : Text) : Text := ⟨codesOf t.systemBytes⟩

end Text

/-- What keeps a text from being a name: a code point without bytes at a place, with the number of
surrogates in a row from there on, or a zero. -/
inductive NameFault where
  | noBytes (code : CodePoint) (place count : Nat)
  | zero

namespace NameFault

def message : NameFault → String
  | .noBytes code place count =>
    "'utf-8' codec can't encode character" ++
      (if count = 1 then
        " " ++ Text.shown ⟨[code]⟩ ++ " in position " ++ Decimal.intText place
      else
        "s in position " ++ Decimal.intText place ++ "-" ++ Decimal.intText (place + count - 1)) ++
      ": surrogates not allowed"
  | .zero => "embedded null byte"

/-- The first code point without bytes, counted from `place`. -/
def withoutBytes? (place : Nat) : List CodePoint → Option NameFault
  | [] => none
  | c :: cs =>
    if c.systemBytes?.isSome then withoutBytes? (place + 1) cs
    else some (.noBytes c place ((c :: cs).takeWhile CodePoint.isSurrogate).length)

/-- The first surrogate of a text, none of which belongs into text that is written out. -/
def ofSurrogate? (place : Nat) : List CodePoint → Option NameFault
  | [] => none
  | c :: cs =>
    if c.isSurrogate then
      some (.noBytes c place ((c :: cs).takeWhile CodePoint.isSurrogate).length)
    else ofSurrogate? (place + 1) cs

/-- What keeps a text from being a name; a code point without bytes is found before any zero. -/
def of? (t : Text) : Option NameFault :=
  (withoutBytes? 0 t.codes).orElse fun _ =>
    if t.codes.contains (.char '\x00') then some .zero else none

end NameFault

end RasterSketch
