import RasterSketch.CommandLine.Word
import RasterSketch.Grid
import RasterSketch.Style.Basic
/-!
# What the command line asks for

The words are read from left to right.  A switch acts when it is read: later values replace earlier
ones, `-h` asks for help whatever follows, and a value that cannot be one ends the reading.  The
first plain word is the image; whatever else is plain, or unknown, is refused when all is read.
-/

namespace RasterSketch.CommandLine

/-! ## Usage errors -/

inductive UsageError where
  | ambiguous (cause : Ambiguity)
  | unexpectedValue (s : Switch) (value : Text)
  | valueMissing (s : Switch)
  | unknownStyle (value : Text)
  | notInteger (value : Text)
  | imageMissing
  | unrecognised (words : List Text)

def UsageError.message : UsageError → Text
  | .ambiguous a =>
    "ambiguous option: " ++ a.word ++ " could match " ++ commaSeparated (a.matching.map Switch.long)
  | .unexpectedValue s value =>
    "argument " ++ s.title ++ ": ignored explicit argument " ++ value.shown
  | .valueMissing s => "argument " ++ s.title ++ ": expected one argument"
  | .unknownStyle value =>
    "argument " ++ Switch.style.title ++ ": invalid choice: " ++ value.shown ++
      " (choose from " ++ commaSeparated (Style.all.map fun s => Text.shown s.name) ++ ")"
  | .notInteger value =>
    "argument " ++ Switch.maxSize.title ++ ": invalid int value: " ++ value.shown
  | .imageMissing => "the following arguments are required: image"
  | .unrecognised words => "unrecognized arguments: " ++ .separatedBy " " words

/-- Why no run follows. -/
inductive Stop where
  | help
  | usage (cause : UsageError)

/-! ## Settings -/

/-- What has been asked for so far.  A style or a bound for which the divider was given is none. -/
structure Settings where
  image : Option Text := none
  style : Value := .bare Style.pixels.name
  legacy : Bool := false
  bound : Option Int := some targetMax
  output : Option Text := none
  verbose : Bool := false
  extras : List Text := []

/-- A switch as it is to act, with the value it was given. -/
structure Setting where
  switch : Switch
  value : Option Text

/-- The text of a value; an attached divider is none. -/
def valueText (text : Text) : Option Text := if text = "--" then none else some text

namespace Settings

def setStyle (st : Settings) : Option Text → Except Stop Settings
  | none => .ok { st with style := .list [] }
  | some text =>
    if (Style.ofName? text).isSome then .ok { st with style := .bare text }
    else .error (.usage (.unknownStyle text))

def setBound (st : Settings) : Option Text → Except Stop Settings
  | none => .ok { st with bound := none }
  | some text => match Text.integer? text with
    | some n => .ok { st with bound := some n }
    | none => .error (.usage (.notInteger text))

def apply (st : Settings) (x : Setting) : Except Stop Settings :=
  match x.switch with
  | .help => .error .help
  | .style => st.setStyle x.value
  | .legacy => .ok { st with legacy := true }
  | .maxSize => st.setBound x.value
  | .output => .ok { st with output := x.value }
  | .verbose => .ok { st with verbose := true }

def applyAll (st : Settings) : List Setting → Except Stop Settings
  | [] => .ok st
  | x :: xs => do (← st.apply x).applyAll xs

def refuse (st : Settings) (texts : List Text) : Settings :=
  { st with extras := st.extras ++ texts }

end Settings

/-! ## Clusters -/

/-- What a word of switches amounts to: flags, and a switch at its end that has its value, takes the
next word for it, or needs none. -/
structure Cluster where
  flags : List Switch
  last : Switch
  value : Option Text

/-- A switch with what is attached to it: its value, or the letters of further switches. -/
def cluster (s : Switch) (toLetter : Bool) : List CodePoint → Except UsageError Cluster
  | [] => if s.takesValue then .ok ⟨[], s, some ""⟩ else .error (.unexpectedValue s "")
  | c :: cs =>
    let text : Text := ⟨c :: cs⟩
    if s.takesValue then .ok ⟨[], s, some text⟩
    else if toLetter then
      match Switch.ofLetter? c, cs with
      | none, _ => .error (.unexpectedValue s text)
      | some next, [] => .ok ⟨[s], next, none⟩
      | some next, d :: ds => do
        let rest ← cluster next true (d :: ds)
        return { rest with flags := s :: rest.flags }
    else .error (.unexpectedValue s text)

def clusterOf (s : Switch) : Option Attached → Except UsageError Cluster
  | none => .ok ⟨[], s, none⟩
  | some a => cluster s a.toLetter a.text.codes

namespace Cluster

/-- Whether the next word is the value. -/
def wantsValue (c : Cluster) : Bool := c.last.takesValue && c.value.isNone

/-- The settings, with the value of the last switch. -/
def settings (c : Cluster) (value : Option Text) : List Setting :=
  c.flags.map (⟨·, none⟩) ++ [⟨c.last, value⟩]

end Cluster

/-! ## Reading -/

/-- The settings after the words behind the divider, which are all plain.  The divider itself is
passed over next to the image, on either side. -/
def readBehind (st : Settings) (afterImage : Bool) (texts : List Text) : Settings :=
  match st.image, texts with
  | none, [] => st.refuse ["--"]
  | none, text :: texts => { st with image := some text }.refuse texts
  | some _, texts => st.refuse (if afterImage then texts else "--" :: texts)

/-- The settings after all words; `afterImage` tells whether the last word was the image. -/
def readWords (st : Settings) (afterImage : Bool) (behind : Option (List Text)) :
    List Word → Except Stop Settings
  | [] => .ok (match behind with
    | none => st
    | some texts => readBehind st afterImage texts)
  | .plain text :: words =>
    match st.image with
    | none => readWords { st with image := some text } true behind words
    | some _ => readWords (st.refuse [text]) false behind words
  | .unknown text :: words => readWords (st.refuse [text]) false behind words
  | .switch s attached :: words =>
    match clusterOf s attached with
    | .error e => .error (.usage e)
    | .ok c =>
      if c.wantsValue then
        match words with
        | .plain text :: words => do
          readWords (← st.applyAll (c.settings (some text))) false behind words
        | _ => .error (.usage (.valueMissing c.last))
      else do
        readWords (← st.applyAll (c.settings (c.value.bind valueText))) false behind words

/-! ## Requests -/

structure Request where
  image : Text
  style : Value
  legacy : Bool
  bound : Option Int
  output : Option Text
  verbose : Bool

/-- The request of settings that have an image and nothing else that is plain. -/
def Settings.request (st : Settings) : Except Stop Request :=
  match st.image, st.extras with
  | none, _ => .error (.usage .imageMissing)
  | some _, e :: es => .error (.usage (.unrecognised (e :: es)))
  | some image, [] => .ok { st with image }

/-- The request that the words make. -/
def Request.ofWords (texts : List Text) : Except Stop Request :=
  match Words.classify texts with
  | .error a => .error (.usage (.ambiguous a))
  | .ok words => do (← readWords {} false words.behind words.before).request

end RasterSketch.CommandLine
