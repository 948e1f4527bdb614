import RasterSketch.Files.SystemName
import RasterSketch.Raster.Bytes
import RasterSketch.Raster.ElementName
import RasterSketch.Sketch.Render
/-!
# What can go wrong

Every failure of the library by its cause, and its wording.  Two families are the library's own, a
picture that cannot be one (`BufferError`) and a file that cannot be decoded (`DecodeError`); the
command line reports these and no others.
-/

namespace RasterSketch

open Decimal (intText)

/-- Pixels that describe no image, or an image that no sketch can be made of. -/
inductive BufferError where
  | negativeDimensions (width height : Int)
  | shape (actual : List Nat) (height width : Int)
  | elementType (name : String)
  | valueCount (width height : Int) (actual : Nat)
  | valueRange
  | emptyImage (width height : Int)
  | canvasBound (bound : Int)

def sizeText (width height : Int) : String := intText width ++ "x" ++ intText height

def BufferError.message : BufferError → String
  | .negativeDimensions w h => "Negative dimensions: " ++ sizeText w h
  | .shape actual h w =>
    "Pixel array has shape " ++ shownSequence (actual.map fun (n : Nat) => intText n) ++
      ", expected " ++ shownSequence [intText h, intText w, "4"]
  | .elementType name => "Pixel array has dtype " ++ name ++ ", expected uint8"
  | .valueCount w h actual =>
    "Expected " ++ intText (w * h * 4) ++ " values for " ++ sizeText w h ++ " RGBA, got " ++
      intText actual
  | .valueRange => "Pixel values must be in the range 0-255"
  | .emptyImage w h => "Cannot generate from a " ++ sizeText w h ++ " image"
  | .canvasBound bound => "Canvas bound must be positive, got " ++ intText bound

/-- An integer that does not fit where it is handed over to. -/
inductive WordError where
  | noWord
  | tooBig
  | aboveHalfWord
  | belowHalfWord
  | aboveByte
  | belowByte
  deriving DecidableEq

def WordError.message : WordError → String
  | .noWord => "Python int too large to convert to C long"
  | .tooBig => "int too big to convert"
  | .aboveHalfWord => "signed integer is greater than maximum"
  | .belowHalfWord => "signed integer is less than minimum"
  | .aboveByte => "unsigned byte integer is greater than maximum"
  | .belowByte => "unsigned byte integer is less than minimum"

/-- An array that cannot be made of what is given for it. -/
inductive ArrayError where
  | elementName (cause : ElementNameError)
  | tooManyDimensions (count : Nat)
  | dimensionTooLarge
  | tooBig
  | ragged (shape : List Nat)
  | shapeMismatch (size : Nat) (shape : List Int)
  | twoUnknown
  | elementRange (value : Int) (type : String)
  | noStep
  | noDate
  | noDuration

/-- A dimension of a shape that is asked for.  One that is negative is not known. -/
def dimensionText (n : Int) : String := if n < 0 then "newaxis" else intText n

/-- A shape without blanks, from the first dimension that is known.  A sole dimension keeps a comma
behind it. -/
def shapeText (shape : List Int) : String :=
  match shape, shape.dropWhile (· < 0) with
  | [_], [n] => "(" ++ intText n ++ ",)"
  | _, known => "(" ++ ",".intercalate (known.map dimensionText) ++ ")"

def ArrayError.message : ArrayError → String
  | .elementName e => e.message
  | .tooManyDimensions count =>
    "maximum supported dimension for an ndarray is currently 64, found " ++ intText count
  | .dimensionTooLarge => "Maximum allowed dimension exceeded"
  | .tooBig =>
    "array is too big; `arr.size * arr.dtype.itemsize` is larger than the maximum possible size."
  | .ragged shape =>
    "setting an array element with a sequence. The requested array has an inhomogeneous shape " ++
      "after " ++ intText shape.length ++ " dimensions. The detected shape was " ++
      shownSequence (shape.map fun (n : Nat) => intText n) ++ " + inhomogeneous part."
  | .shapeMismatch size shape =>
    "cannot reshape array of size " ++ intText size ++ " into shape " ++ shapeText shape
  | .twoUnknown => "can only specify one unknown dimension"
  | .elementRange value type =>
    "Python integer " ++ intText value ++ " out of bounds for " ++ type
  | .noStep => "Converting an integer to a NumPy datetime requires a specified unit"
  | .noDate => "Could not convert object to NumPy datetime"
  | .noDuration => "Could not convert object to NumPy timedelta"

/-- A picture that cannot be made of the values that are given for it. -/
inductive PictureError where
  | negativeSize
  | tooManyPixels
  | nested
  | greyChannels
  | colourChannels
  | noPixel
  | paletteMode
  | paletteTooLong

def PictureError.message : PictureError → String
  | .negativeSize => "Width and height must be >= 0"
  | .tooManyPixels => "too many data entries"
  | .nested => "sequence must be flattened"
  | .greyChannels => "color must be int, or tuple of one or two elements"
  | .colourChannels => "color must be int, or tuple of one, three or four elements"
  | .noPixel => "color must be int or tuple"
  | .paletteMode => "illegal image mode"
  | .paletteTooLong => "invalid palette size"

inductive FileFault where
  | missing
  | denied
  | notDirectory
  | isDirectory
  | nameTooLong
  deriving DecidableEq

/-- A file operation that the system refuses, with the path it was given. -/
structure FileError where
  fault : FileFault
  path : Text

def FileError.message (e : FileError) : String :=
  (match e.fault with
    | .missing => "[Errno 2] No such file or directory: "
    | .denied => "[Errno 13] Permission denied: "
    | .notDirectory => "[Errno 20] Not a directory: "
    | .isDirectory => "[Errno 21] Is a directory: "
    | .nameTooLong => "[Errno 36] File name too long: ") ++ e.path.shown

/-- A fault of data in a known format: its header has something else in the place of a number, or
there are too few samples. -/
inductive FormatError where
  | ended
  | tokenTooLong (token : List UInt8)
  | notInteger (token : List UInt8)
  | brightest
  | fewSamples
  deriving DecidableEq

/-- Bytes as a message shows them: those of ASCII by their characters. -/
def shownBytes (bytes : List UInt8) : String :=
  let codes : List CodePoint := bytes.map fun b => .char (Char.ofNat b.toNat)
  let quote := Text.quoteFor codes
  String.ofList ('b' :: quote :: bytes.flatMap (shownByte quote) ++ [quote])
where
  shownByte (quote : Char) (b : UInt8) : List Char :=
    if b < 0x7f then Text.showCode quote (.char (Char.ofNat b.toNat))
    else Text.codePointEscape b.toNat

def FormatError.message : FormatError → String
  | .ended => "Reached EOF while reading header"
  | .tokenTooLong token => shownBytes (ascii "Token too long in file header: " ++ token)
  | .notInteger token => "invalid literal for int() with base 10: " ++ shownBytes token
  | .brightest => "maxval must be greater than 0 and less than 65536"
  | .fewSamples => "not enough image data"

/-- A size that is no half word, or that there is no room for. -/
inductive SizeError where
  | word (cause : WordError)
  | outOfMemory
  deriving DecidableEq

def SizeError.message : SizeError → String
  | .word e => e.message
  | .outOfMemory => ""

/-- Data that is no image, an image of more pixels than allowed, one that ends too early or is
damaged, one whose header cannot be read, or one of no possible size. -/
inductive ImageError where
  | unidentified
  | tooLarge (pixels : Nat) (limit : Int)
  | headerCut
  | noData
  | truncated (left : Nat)
  | cut
  | damaged
  | unrecognised
  | malformed (cause : FormatError)
  | size (cause : SizeError)
  deriving DecidableEq

def ImageError.message : ImageError → String
  | .unidentified => "cannot identify image file <_io.BytesIO object>"
  | .tooLarge pixels limit =>
    "Image size (" ++ intText pixels ++ " pixels) exceeds limit of " ++ intText limit ++
      " pixels, could be decompression bomb DOS attack."
  | .headerCut => "Truncated File Read"
  | .noData => "cannot load this image"
  | .truncated left => "image file is truncated (" ++ intText left ++ " bytes not processed)"
  | .cut => "image file is truncated"
  | .damaged => "broken data stream when reading image file"
  | .unrecognised => "unrecognized data stream contents when reading image file"
  | .malformed e => e.message
  | .size e => e.message

/-- A source that cannot be decoded into pixels. -/
inductive DecodeError where
  | unreadable (cause : FileError)
  | undecodable (name reason : Text)
  | rasteriserMissing (name reason : Text)
  | rasteriserFailed (name reason : Text)

def DecodeError.message : DecodeError → Text
  | .unreadable e => "Could not read " ++ e.path ++ ": " ++ e.message
  | .undecodable name reason => "Could not decode " ++ name ++ ": " ++ reason
  | .rasteriserMissing name reason => "SVG support unavailable for " ++ name ++ ": " ++ reason
  | .rasteriserFailed name reason => "Could not rasterize " ++ name ++ ": " ++ reason

/-- An argument outside the range that its operation is defined for. -/
inductive ArgumentError where
  | baseStep (given : Int)
  | step (given : Int)
  | rowsPerChunk (given : Int)
  | unknownStyle (given : Value)
  | readOnly
  | tooManyDigits
  | byteRange
  | bytesRange
  | integerText (given : Text)

def ArgumentError.message : ArgumentError → String
  | .baseStep n => "Base step must be at least 1, got " ++ intText n
  | .step n => "Step must be at least 1, got " ++ intText n
  | .rowsPerChunk n => "rows_per_chunk must be at least 1, got " ++ intText n
  | .unknownStyle v => v.shown ++ " is not a valid Style"
  | .readOnly => "assignment destination is read-only"
  | .tooManyDigits => Decimal.limitMessage
  | .byteRange => "byte must be in range(0, 256)"
  | .bytesRange => "bytes must be in range(0, 256)"
  | .integerText t => "invalid literal for int() with base 10: " ++ t.shown

/-- A look-up past the end, along an axis of an array, of glyphs, or of what a buffer was made of;
or one by a number that is too large to be an index at all. -/
inductive IndexError where
  | outside (index : Int) (axis size : Nat)
  | notIndex
  | glyph
  | listItem
  | byteItem
  | noWord

def IndexError.message : IndexError → String
  | .outside index axis size =>
    "index " ++ intText index ++ " is out of bounds for axis " ++ intText axis ++
      " with size " ++ intText size
  | .notIndex =>
    "only integers, slices (`:`), ellipsis (`...`), numpy.newaxis (`None`) and integer or " ++
      "boolean arrays are valid indices"
  | .glyph => "string index out of range"
  | .listItem => "list assignment index out of range"
  | .byteItem => "bytearray index out of range"
  | .noWord => "cannot fit 'int' into an index-sized integer"

/-- An index of an item has to fit a word. -/
def checkItemIndex (index : Int) : Except IndexError Unit :=
  if fitsWord index then .ok () else .error .noWord

/-- A value of a kind that the operation has no meaning for. -/
inductive KindError where
  | unhashable (given : Value)
  | notNumber (given : Value)
  | notInteger (given : Value)
  | notWhole (given : Value)
  | notReal (given : Value)
  | notBytes (given : Value)
  | notAnyBytes (given : Value)
  | fixedItems (kind : String)
  | readOnlyMemory
  | boundIsList

def KindError.message : KindError → String
  | .unhashable v => "unhashable type: '" ++ v.kind ++ "'"
  | .notNumber v => "must be real number, not " ++ v.kind
  | .notInteger v => "'" ++ v.kind ++ "' object cannot be interpreted as an integer"
  | .notWhole v =>
    "int() argument must be a string, a bytes-like object or a real number, not '" ++ v.kind ++ "'"
  | .notReal v => "float() argument must be a string or a real number, not '" ++ v.kind ++ "'"
  | .notBytes v => "a bytes-like object is required, not '" ++ v.kind ++ "'"
  | .notAnyBytes v => "A bytes-like object is required, not '" ++ v.kind ++ "'"
  | .fixedItems kind => "'" ++ kind ++ "' object does not support item assignment"
  | .readOnlyMemory => "cannot modify read-only memory"
  | .boundIsList => "'<=' not supported between instances of 'list' and 'int'"

inductive Error where
  | arithmetic (cause : ArithmeticError)
  | word (cause : WordError)
  | outOfMemory
  | noBuffer (asked : String)
  | array (cause : ArrayError)
  | argument (cause : ArgumentError)
  | index (cause : IndexError)
  | key (given : Value)
  | kind (cause : KindError)
  | render (cause : RenderError)
  | picture (cause : PictureError)
  | buffer (cause : BufferError)
  | format (cause : FormatError)
  | decode (cause : DecodeError)
  | name (cause : NameFault)
  | file (cause : FileError)

namespace Error

def message : Error → Text
  | .arithmetic e => e.message
  | .word e => e.message
  | .outOfMemory => ""
  | .noBuffer asked => "'NoneType' object has no attribute '" ++ asked ++ "'"
  | .array e => e.message
  | .argument e => e.message
  | .index e => e.message
  | .key v => v.shown
  | .kind e => e.message
  | .render e => e.message
  | .picture e => e.message
  | .buffer e => e.message
  | .format e => e.message
  | .decode e => e.message
  | .name e => e.message
  | .file e => e.message

/-- The error of a size, whatever has it. -/
def ofSize : SizeError → Error
  | .word e => .word e
  | .outOfMemory => .outOfMemory

/-- Whether the error is one of the library's own families. -/
def isOwn : Error → Bool
  | .buffer _ => true
  | .decode _ => true
  | _ => false

end Error

/-! ## Narrow failures in wide computations -/

instance : MonadLift (Except ArithmeticError) (Except Error) := ⟨Except.mapError .arithmetic⟩
instance : MonadLift (Except RenderError) (Except Error) := ⟨Except.mapError .render⟩

end RasterSketch
