import RasterSketch.Files.Tree
import RasterSketch.Raster.Imaging
import RasterSketch.Raster.Svg
/-!
# Loading an image

A source is data or the path of a file.  What looks like vector graphics, by its suffix or by its
data, goes to a rasteriser, whose answer is decoded like any other image.  The calls of the
rasteriser are part of the result.
-/

namespace RasterSketch

/-- What the rasteriser does with the data that it is given, unless there is none for a reason. -/
inductive Rasteriser where
  | unavailable (reason : Text)
  | yields (image : Bytes)
  | fails (reason : Text)
  | failsOnKey (key : Text)

/-- A rasteriser that is kept from being imported. -/
def Rasteriser.missing : Rasteriser :=
  .unavailable "import of cairosvg halted; None in sys.modules"

inductive ImageSource where
  | bytes (data : Bytes)
  | file (path : Path)

def ImageSource.name : ImageSource → Text
  | .bytes _ => "<bytes>"
  | .file p => p.text

structure Loaded where
  result : Except Error Buffer
  rasterised : List Bytes

def svgSuffixes : List String := [".svg", ".svgz"]

/-- Small letters, of ASCII alone: no other character has one of the letters of a suffix for its
small form. -/
def lowerAscii (text : Text) : Text :=
  ⟨text.codes.map fun
    | .char c => .char c.toLower
    | code => code⟩

def ImageSource.isSvg (source : ImageSource) (data : Bytes) : Bool :=
  match source with
  | .bytes _ => Svg.looksLikeSvg data
  | .file p => svgSuffixes.any (lowerAscii p.suffix = ·) || Svg.looksLikeSvg data

/-- A file that cannot be read is one that cannot be decoded. -/
def asUndecodable : Except Error Bytes → Except Error Bytes
  | .error (.file e) => .error (.decode (.unreadable e))
  | data => data

/-- The buffer of vector graphics, and what the rasteriser was given. -/
def Rasteriser.load (r : Rasteriser) (imaging : Imaging) (name : Text) (data : Bytes) : Loaded :=
  match r with
  | .unavailable reason => ⟨.error (.decode (.rasteriserMissing name reason)), []⟩
  | .yields image => ⟨Buffer.decode imaging name image, [data]⟩
  | .fails reason => ⟨.error (.decode (.rasteriserFailed name reason)), [data]⟩
  | .failsOnKey key => ⟨.error (.decode (.rasteriserFailed name key.shown)), [data]⟩

namespace ImageSource

/-- Decodes the data of a source, which may be rasterised first. -/
def decode (source : ImageSource) (data : Bytes) (r : Rasteriser) (imaging : Imaging) : Loaded :=
  if source.isSvg data then r.load imaging source.name data
  else ⟨Buffer.decode imaging source.name data, []⟩

/-- Decodes what was read of a source. -/
def decodeRead (source : ImageSource) (read : Except Error Bytes) (r : Rasteriser)
    (imaging : Imaging) : Loaded :=
  match asUndecodable read with
  | .ok data => source.decode data r imaging
  | .error e => ⟨.error e, []⟩

def read (files : Files) : ImageSource → Except Error Bytes
  | .bytes data => .ok data
  | .file p => files.read p

/-- Reads a source and decodes it. -/
def load (source : ImageSource) (files : Files) (r : Rasteriser) (imaging : Imaging) : Loaded :=
  source.decodeRead (source.read files) r imaging

end ImageSource

end RasterSketch
