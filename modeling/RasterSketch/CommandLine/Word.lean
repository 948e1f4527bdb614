import RasterSketch.CommandLine.Switch
import RasterSketch.Text.Integer
/-!
# Words of the command line

Each word before the divider `--` is a switch or plain, whatever stands before or behind it.  A long
name may be cut as long as it begins only one, and a value may be attached to it by `=`; to a letter
a value is attached with `=` or without.  Plain is what does not begin with a dash, and, unless it
is a switch, a sole dash, what looks like a negative number, and what has a space in it.
-/

namespace RasterSketch.CommandLine

/-- What is attached to a switch: to a letter, it may be more letters. -/
structure Attached where
  text : Text
  toLetter : Bool

inductive Word where
  | plain (text : Text)
  | switch (s : Switch) (attached : Option Attached)
  | unknown (text : Text)

/-- A long name that several switches begin with. -/
structure Ambiguity where
  word : Text
  matching : List Switch

/-- The text before the first `=` and the text behind it, if there is one. -/
def splitValue : List CodePoint → List CodePoint × Option (List CodePoint)
  | [] => ([], none)
  | c :: cs =>
    if c = .char '=' then ([], some cs)
    else
      let (name, value) := splitValue cs
      (c :: name, value)

/-- A dash and digits, perhaps with a point before the last of them; a line may end behind them. -/
def looksNegative : List CodePoint → Bool
  | .char '-' :: cs =>
    let cs := if cs.getLast? = some (.char '\n') then cs.dropLast else cs
    let rest := cs.dropWhile Text.isDecimalDigit
    match rest with
    | [] => !cs.isEmpty
    | .char '.' :: places => !places.isEmpty && places.all Text.isDecimalDigit
    | _ => false
  | _ => false

namespace Word

/-- A word with a dash that is no switch. -/
def other (text : Text) : Word :=
  if looksNegative text.codes || text.codes.contains (.char ' ') then .plain text else .unknown text

/-- A word that begins with two dashes. -/
def classifyLong (text : Text) : Except Ambiguity Word :=
  let (name, value) := splitValue text.codes
  let attached := value.map fun value => ⟨⟨value⟩, false⟩
  match Switch.all.find? fun s => s.long = (⟨name⟩ : Text) with
  | some s => .ok (.switch s attached)
  | none => match Switch.beginning ⟨name⟩ with
    | [] => .ok (other text)
    | [s] => .ok (.switch s attached)
    | matching => .error ⟨text, matching⟩

/-- What is attached to the letter of a switch; an equals sign before it may be left out. -/
def attachedToLetter : List CodePoint → Option Attached
  | [] => none
  | .char '=' :: value => some ⟨⟨value⟩, true⟩
  | text => some ⟨⟨text⟩, true⟩

def classify (text : Text) : Except Ambiguity Word :=
  match text.codes with
  | .char '-' :: .char '-' :: _ => classifyLong text
  | .char '-' :: letter :: rest => .ok (match Switch.ofLetter? letter with
    | none => other text
    | some s => .switch s (attachedToLetter rest))
  | _ => .ok (.plain text)

end Word

/-- The words up to the divider, and those behind it if there is one. -/
structure Words where
  before : List Word
  behind : Option (List Text)

def Words.classify : List Text → Except Ambiguity Words
  | [] => .ok ⟨[], none⟩
  | text :: texts =>
    if text = "--" then .ok ⟨[], some texts⟩
    else do
      let word ← Word.classify text
      let words ← classify texts
      return { words with before := word :: words.before }

end RasterSketch.CommandLine
