import RasterSketch.Error
import RasterSketch.Number.Double
import RasterSketch.Raster.Bytes
import RasterSketch.Raster.ImageHeader
import RasterSketch.Text.Integer
/-!
# PNM

The two binary forms of PNM, with samples of one byte or two in proportion to the brightest.  The
numbers of the header stand between blanks and comments.
-/

namespace RasterSketch.Pnm

/-- The characters that a number of the header may have. -/
def tokenLimit : Nat := 10

/-- The characters of a number up to the blank that ends it, or one more than it may have, and the
bytes behind them.  Comments run from a `#` to the end of the line and may stand anywhere. -/
def token (inComment : Bool) (read : List UInt8) : List UInt8 → List UInt8 × List UInt8
  | [] => (read, [])
  | b :: bytes =>
    if inComment then token (b != 10 && b != 13) read bytes
    else if isAsciiBlank b then
      if read.isEmpty then token false read bytes else (read, bytes)
    else if b = 35 then token true read bytes
    else if read.length < tokenLimit then token false (read ++ [b]) bytes
    else (read ++ [b], bytes)

/-- The integer of a token, which is written in ASCII. -/
def integer? (token : List UInt8) : Option Int :=
  if token.all (· < 0x80) then
    Text.integer? (.ofChars (token.map fun b => Char.ofNat b.toNat))
  else none

def number (bytes : List UInt8) : Except FormatError (Int × List UInt8) :=
  let (token, rest) := token false [] bytes
  if token.isEmpty then .error .ended
  else if tokenLimit < token.length then .error (.tokenTooLong token)
  else match integer? token with
    | some n => .ok (n, rest)
    | none => .error (.notInteger token)

def mode? : List UInt8 → Option (Mode × List UInt8)
  | 0x50 :: 0x35 :: bytes => some (.grey, bytes)
  | 0x50 :: 0x36 :: bytes => some (.rgb, bytes)
  | _ => none

/-- The header, unless the data is in another format.  A mark of the format that runs on is none. -/
def header? (bytes : List UInt8) : Except FormatError (Option ImageHeader) :=
  match mode? bytes with
  | none => .ok none
  | some (mode, bytes) =>
    if !bytes.head?.all isAsciiBlank then .ok none
    else do
      let (width, bytes) ← number bytes
      let (height, bytes) ← number bytes
      let (brightest, data) ← number bytes
      if brightest < 1 ∨ 65535 < brightest then throw .brightest
      if width < 0 ∨ height < 0 then return none
      return some ⟨.pnm brightest.toNat, mode, width.toNat, height.toNat, data⟩

/-- A sample has one byte, or two if the brightest is no byte. -/
def sampleBytes (brightest : Nat) : Nat := if brightest < 256 then 1 else 2

/-- Grey of two bytes is not brought down to one byte but cut off there. -/
def isWide (h : ImageHeader) (brightest : Nat) : Bool :=
  h.mode.samples = 1 && 255 < brightest

/-- Whether the samples need no scale. -/
def isPlain (h : ImageHeader) (brightest : Nat) : Bool :=
  brightest = 255 || isWide h brightest && brightest = 65535

/-- The bytes that a pixel takes while it is decoded. -/
def pixelBytes (h : ImageHeader) (brightest : Nat) : Nat :=
  if !isWide h brightest then h.mode.samples
  else if isPlain h brightest then 2
  else 4

/-- The numbers that samples of so many bytes are. -/
def values (bytes : List UInt8) : (sampleBytes : Nat) → List Nat
  | 1 => bytes.map UInt8.toNat
  | _ => pairs bytes
where
  pairs : List UInt8 → List Nat
    | high :: low :: rest => bigEndian [high, low] :: pairs rest
    | _ => []

/-- A sample in proportion to the brightest, of which `greatest` is made. -/
def scaled (greatest : Double) (brightest value : Nat) : Nat :=
  match Double.ofRatio false value brightest * greatest with
  | .finite _ m => roundDiv m.num m.den
  | _ => 255

/-- The samples of whole rows.  Of a plain row that is cut off the bytes are left. -/
def samples (h : ImageHeader) (brightest : Nat) : Except ImageError (List UInt8) :=
  let bytes := sampleBytes brightest
  let row := h.width * h.mode.samples * bytes
  match split? (row * h.height) h.data with
  | some (samples, _) =>
    let greatest := if isWide h brightest then 65535.0 else 255.0
    let scale := if isPlain h brightest then id else scaled greatest brightest
    .ok ((values samples bytes).map fun n => UInt8.ofNat (min 255 (scale n)))
  | none =>
    if isPlain h brightest then .error (.truncated (h.data.length % row))
    else .error (.malformed .fewSamples)

end RasterSketch.Pnm
