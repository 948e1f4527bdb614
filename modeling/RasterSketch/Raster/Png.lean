import RasterSketch.Error
import RasterSketch.Raster.Bytes
import RasterSketch.Raster.Checksum
import RasterSketch.Raster.ImageHeader
/-!
# PNG

PNG with eight bits a channel, no interlacing, no row filter and its data in one stored block.  The
checksum of the header is looked at, and that of the data where the rows come to its end; a file
that is cut off is found out only if rows are missing.
-/

namespace RasterSketch.Png

def signature : List UInt8 := [0x89, 0x50, 0x4e, 0x47, 0x0d, 0x0a, 0x1a, 0x0a]

/-! ## Chunks -/

/-- The length that the start of a chunk of the given type tells, and the bytes behind the start. -/
def chunk? (type : String) (bytes : List UInt8) : Option (Nat × List UInt8) := do
  let (length, bytes) ← split? 4 bytes
  return (bigEndian length, ← after? (ascii type) bytes)

def mode? : (colourType : UInt8) → Option Mode
  | 0 => some .grey
  | 2 => some .rgb
  | 4 => some .greyAlpha
  | 6 => some .rgba
  | _ => none

/-- The bytes behind a checksum, if it is that of a chunk of the given type and content. -/
def afterChecksum? (type : String) (content bytes : List UInt8) : Option (List UInt8) := do
  let (checksum, bytes) ← split? 4 bytes
  if bigEndian checksum = remainderSum (ascii type ++ content) then return bytes else none

/-- Whether the data begins, or the file ends without any. -/
def isData (bytes : List UInt8) : Bool :=
  (chunk? "IDAT" bytes).isSome || (chunk? "IEND" bytes).isSome

/-- The header that the content of its chunk tells. -/
def ofContent? (content data : List UInt8) : Option ImageHeader := do
  let (width, content) ← split? 4 content
  let (height, content) ← split? 4 content
  match content with
  | [8, colourType, 0, 0, 0] =>
    return ⟨.png, ← mode? colourType, bigEndian width, bigEndian height, data⟩
  | _ => none

/-- The header, unless the data is in another format. -/
def header? (bytes : List UInt8) : Except ImageError (Option ImageHeader) :=
  match after? signature bytes >>= chunk? "IHDR" with
  | none => .ok none
  | some (length, bytes) =>
    match split? length bytes with
    | none => .error .headerCut
    | some (content, bytes) => .ok do
      let data ← afterChecksum? "IHDR" content bytes
      if isData data then ofContent? content data else none

/-! ## Data -/

/-- How a compressed stream goes on behind the content that there is: it ends, it is cut off, or it
is damaged. -/
inductive StreamEnd where
  | ended
  | cut
  | damaged
  deriving DecidableEq

/-- The end of a stream of the given content, from the bytes of its checksum. -/
def StreamEnd.ofChecksum (content bytes : List UInt8) : StreamEnd :=
  match split? 4 bytes with
  | none => .cut
  | some (checksum, _) => if bigEndian checksum = pairSum content then .ended else .damaged

/-- The content of one stored block from its length on. -/
def block : List UInt8 → List UInt8 × StreamEnd
  | l₀ :: l₁ :: n₀ :: n₁ :: bytes =>
    let length := bigEndian [l₁, l₀]
    if length + bigEndian [n₁, n₀] ≠ 0xffff then ([], .damaged)
    else match split? length bytes with
      | none => (bytes, .cut)
      | some (content, bytes) => (content, .ofChecksum content bytes)
  | _ => ([], .cut)

/-- The content of a compressed stream that is one stored block.  Its first two bytes are a multiple
of 31. -/
def stored? : List UInt8 → Option (List UInt8 × StreamEnd)
  | m₀ :: m₁ :: bytes =>
    if m₀ % 16 ≠ 8 ∨ 0x80 ≤ m₀ ∨ bigEndian [m₀, m₁] % 31 ≠ 0 then some ([], .damaged)
    else match bytes with
      | [] => some ([], .cut)
      | 1 :: bytes => some (block bytes)
      | _ => none
  | _ => some ([], .cut)

/-- The samples of rows of `length` bytes, each behind the mark of no filter.  A stream that ends
behind a row leaves the others zero; `missing` is what is wrong if it does not get there. -/
def rows (missing : ImageError) (ending : StreamEnd) (length : Nat) :
    (rows : Nat) → List UInt8 → Except ImageError (List UInt8)
  | 0, _ => .ok []
  | k + 1, bytes =>
    match bytes, split? (length + 1) bytes with
    | mark :: _, some (row, rest) =>
      if rest.isEmpty ∧ ending = .damaged then .error .damaged
      else if 4 < mark then .error .unrecognised
      else if mark ≠ 0 then .error .unidentified
      else if rest.isEmpty ∧ ending = .ended then
        .ok (row.drop 1 ++ List.replicate (k * length) 0)
      else do return row.drop 1 ++ (← rows missing ending length k rest)
    | _, _ => .error (if ending = .damaged then .damaged else missing)

/-- What is wrong with rows that are missing: the data, if another chunk is behind its checksum, or
the file. -/
def missingRows (length : Nat) (bytes : List UInt8) : ImageError :=
  if length ≠ 0 ∧ bytes.isEmpty then .truncated 0
  else if (chunk? "IEND" (bytes.drop (length + 4))).isSome then .truncated 0
  else .cut

def samples (h : ImageHeader) : Except ImageError (List UInt8) :=
  match chunk? "IDAT" h.data with
  | none => .error .noData
  | some (length, bytes) =>
    match stored? (bytes.take length) with
    | none => .error .unidentified
    | some (content, ending) =>
      rows (missingRows length bytes) ending (h.width * h.mode.samples) h.height content

end RasterSketch.Png
