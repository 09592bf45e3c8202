import PenRail.Pen.Report

/-!
# Pen events

A frame is what changed since the last synchronisation, as key and axis events closed by one `sync`. `Event.raw?` gives
the numbers that the input layer knows them by.
-/

namespace PenRail.Pen

inductive Key
  /-- Tip or eraser touches the surface. -/
  | touch
  | toolPen
  | toolRubber
  | stylus
  | stylus2
  deriving DecidableEq, Repr

inductive Axis
  | x
  | y
  | pressure
  | distance
  | tiltX
  | tiltY
  deriving DecidableEq, Repr

inductive Event
  | key (k : Key) (pressed : Bool)
  | axis (a : Axis) (value : Int32)
  /-- Ends a frame: all since the last one is a single snapshot. -/
  | sync
  deriving DecidableEq, Repr

abbrev Frame := List Event

/-- The input layer's number for a key. -/
def Key.code : Key → UInt16
  | .touch => 330
  | .toolPen => 320
  | .toolRubber => 321
  | .stylus => 331
  | .stylus2 => 332

/-- The input layer's number for an axis. -/
def Axis.code : Axis → UInt16
  | .x => 0
  | .y => 1
  | .pressure => 24
  | .distance => 25
  | .tiltX => 26
  | .tiltY => 27

/-- An event as the input layer takes it. -/
structure RawEvent where
  type : UInt16
  code : UInt16
  value : Int32
  deriving DecidableEq, Repr

/-- The event in numbers. A `sync` has none of its own: it is written when the frame is finished. -/
def Event.raw? : Event → Option RawEvent
  | .key k pressed => some ⟨1, k.code, if pressed then 1 else 0⟩
  | .axis a value => some ⟨3, a.code, value⟩
  | .sync => none

/-- The key that stands for a tool. -/
def Tool.key : Tool → Key
  | .pen => .toolPen
  | .eraser => .toolRubber

/-- What an axis can report. -/
structure AxisRange where
  axis : Axis
  min : Int32
  max : Int32
  deriving DecidableEq, Repr

/-- The ranges advertised for a digitizer: from zero up, tilt the same to either side. -/
def Capabilities.axisRanges (caps : Capabilities) : List AxisRange :=
  let wide (limit : UInt16) : Int32 := Int32.ofNat limit.toNat
  [⟨.x, 0, wide caps.xMax⟩,
    ⟨.y, 0, wide caps.yMax⟩,
    ⟨.pressure, 0, wide caps.pressureMax⟩,
    ⟨.distance, 0, Int32.ofNat caps.distanceMax.toNat⟩,
    ⟨.tiltX, -wide caps.tiltXMax, wide caps.tiltXMax⟩,
    ⟨.tiltY, -wide caps.tiltYMax, wide caps.tiltYMax⟩]

end PenRail.Pen
