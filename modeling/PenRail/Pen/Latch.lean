import PenRail.Pen.Event

/-!
# The tool latch

The digitizer's tool bits are noisy in the middle of a stroke. So the tool is taken from the first sample of a proximity
session and held until the pen has left; also the release of its key goes out on the tool that was held.
-/

namespace PenRail.Pen

/-- What is remembered from one sample to the next. -/
structure Latch where
  inProximity : Bool := false
  tool : Tool := .pen
  deriving DecidableEq, Repr

namespace Latch

/-- The latch after a sample. -/
def next (l : Latch) (s : Sample) : Latch :=
  { inProximity := s.inProximity
    tool := if !l.inProximity && s.inProximity then s.tool else l.tool }

/-- The frame of a sample while `tool` is held. Axis values go through as reported, inside their range or not. -/
def frameOf (tool : Tool) (s : Sample) : Frame :=
  [.key .touch (s.touch || s.eraser),
    .key tool.key s.inProximity,
    .key .stylus s.button1,
    .key .stylus2 s.button2,
    .axis .x (Int32.ofNat s.x.toNat),
    .axis .y (Int32.ofNat s.y.toNat),
    .axis .pressure (Int32.ofNat s.pressure.toNat),
    .axis .distance (Int32.ofNat s.distance.toNat),
    .axis .tiltX s.tiltX.toInt32,
    .axis .tiltY s.tiltY.toInt32,
    .sync]

/-- The frame that a sample gives. -/
def frame (l : Latch) (s : Sample) : Frame :=
  frameOf (l.next s).tool s

/-- The frames of a list of samples, each with the latch as it then is. -/
def frames (l : Latch) : List Sample → List (Frame × Latch)
  | [] => []
  | s :: rest => (l.frame s, l.next s) :: (l.next s).frames rest

end Latch

end PenRail.Pen
