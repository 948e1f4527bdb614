import RasterSketch.Generate
import RasterSketch.Session.Named
/-!
# Scanning by parts

A session of scans of one buffer.  A scan is opened under a name and hands out its items when it is
asked; its arguments are not looked at before.  A closed scan and one that failed have no more.
-/

namespace RasterSketch

/-- A scan that is not yet at its end. -/
inductive OpenScan where
  | samples (rest : Delivery Error Sample)
  | bands (rest : Delivery Error Band)

namespace OpenScan

/-- What a request was given: samples or bands. -/
inductive Items where
  | samples (items : List Sample)
  | bands (items : List Band)

def Items.notes : Items → List Note
  | .samples _ => []
  | .bands items => items.map Band.toNote

structure Part where
  items : Items
  ending : Delivery.Ending Error

/-- Up to `count` items, or all that are left. -/
def takePart {α : Type} (count : Option Nat) (d : Delivery Error α) : Delivery.Taken Error α :=
  match count with
  | some n => d.take n
  | none => d.takeAll

def next (s : OpenScan) (count : Option Nat) : OpenScan × Part :=
  match s with
  | .samples d =>
    let t := takePart count d
    (.samples t.rest, ⟨.samples t.items, t.ending⟩)
  | .bands d =>
    let t := takePart count d
    (.bands t.rest, ⟨.bands t.items, t.ending⟩)

/-- What a request to a scan that is not open is given: it fails at the first item. -/
def unknown (name : Text) (count : Option Nat) : Part :=
  ⟨.samples [], if count = some 0 then .served else .failed (.key (.bare name))⟩

/-- The scan of the same kind with nothing left. -/
def closed : OpenScan → OpenScan
  | .samples _ => .samples .finished
  | .bands _ => .bands .finished

end OpenScan

/-- The scan that a request for one opens. -/
inductive ScanRequest where
  | samples (step : Int) (scale : Number) (startRow : Int)
  | bands (step : Int) (scale : Number) (perBand : Int)

def ScanRequest.scan (b : Buffer) : ScanRequest → OpenScan
  | .samples step scale startRow => .samples (b.scan step scale startRow)
  | .bands step scale perBand => .bands (b.bands step scale perBand)

inductive ScanningStep where
  | begin (name : Text) (request : ScanRequest)
  | next (name : Text) (count : Option Nat)
  | close (name : Text)

inductive ScanningAnswer where
  | opened (name : Text)
  | part (part : OpenScan.Part)
  | closed (name : Text)

def ScanningAnswer.notes : ScanningAnswer → List Note
  | .part p => p.items.notes
  | _ => []

/-- The open scans after a step, and the answer. -/
def scanningStep (b : Buffer) (scans : Named OpenScan) :
    ScanningStep → Named OpenScan × Except Error ScanningAnswer
  | .begin name request => (scans.set name (request.scan b), .ok (.opened name))
  | .next name count => match scans.find? name with
    | none => (scans, .ok (.part (OpenScan.unknown name count)))
    | some s =>
      let (rest, part) := s.next count
      (scans.set name rest, .ok (.part part))
  | .close name => match scans.find? name with
    | none => (scans, .error (.key (.bare name)))
    | some s => (scans.set name s.closed, .ok (.closed name))

end RasterSketch
