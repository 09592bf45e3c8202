import PenRail.Bus.Basic
import PenRail.Malformed

/-!
# What the digitizer sends

Two payloads, both little-endian and unaligned: the reply to the feature query, sent once, and the pen report, sent for
every data-ready notification. Bytes past the fields are ignored; too few bytes are an error.
-/

namespace PenRail.Pen

/-- The feature-report request for the pen query data, report 3. -/
def queryCommand : Bytes :=
  [0x04, 0x00, 0x33, 0x02, 0x05, 0x00]

/-- How many bytes the query is answered with. -/
def queryLength : Nat := 21

/-- How many bytes are fetched per pen report. -/
def reportLength : Nat := 22

/-- How many bytes of a pen report carry data. -/
def reportMinimum : Nat := 15

/-- The limits of the digitizer's axes. Tilt runs as far to either side. -/
structure Capabilities where
  xMax : UInt16
  yMax : UInt16
  pressureMax : UInt16
  distanceMax : UInt8
  distancePhysicalMax : UInt8
  tiltXMax : UInt16
  tiltYMax : UInt16
  /-- The low byte of the firmware number. -/
  firmware : UInt8
  deriving DecidableEq, Repr

/-- Which end of the pen the digitizer sees. -/
inductive Tool
  | pen
  | eraser
  deriving DecidableEq, Repr, Inhabited

/-- One pen report, decoded. -/
structure Sample where
  touch : Bool := false
  eraser : Bool := false
  button1 : Bool := false
  button2 : Bool := false
  x : UInt16 := 0
  y : UInt16 := 0
  pressure : UInt16 := 0
  distance : UInt8 := 0
  tiltX : Int16 := 0
  tiltY : Int16 := 0
  inProximity : Bool := false
  /-- The tool that the status bits point at right now; it can be trusted only where a proximity session begins. -/
  tool : Tool := .pen
  deriving DecidableEq, Repr

/-- Two bytes as a number, low byte first. -/
def word (low high : UInt8) : UInt16 :=
  low.toUInt16 ||| (high.toUInt16 <<< 8)

/-- Whether a bit of `mask` is set. -/
def anyBit (status mask : UInt8) : Bool :=
  status &&& mask != 0

/-- Reads the reply to the feature query. -/
def Capabilities.decode (bytes : Bytes) : Except Malformed Capabilities :=
  if h : bytes.length < queryLength then
    .error (.short queryLength bytes.length)
  else
    have h : 21 ≤ bytes.length := Nat.le_of_not_lt h
    .ok {
      xMax := word bytes[3] bytes[4]
      yMax := word bytes[5] bytes[6]
      pressureMax := word bytes[11] bytes[12]
      firmware := (word bytes[13] bytes[14]).toUInt8
      distanceMax := bytes[15]
      distancePhysicalMax := bytes[16]
      tiltXMax := word bytes[17] bytes[18]
      tiltYMax := word bytes[19] bytes[20] }

namespace Status

def tip : UInt8 := 0x01

def barrel1 : UInt8 := 0x02

def eraser : UInt8 := 0x04

/-- Either bit makes the tool an eraser, though only one of them is the eraser switch. -/
def tool : UInt8 := 0x0c

def barrel2 : UInt8 := 0x10

def inRange : UInt8 := 0x20

end Status

/-- Reads a pen report. -/
def Sample.decode (bytes : Bytes) : Except Malformed Sample :=
  if h : bytes.length < reportMinimum then
    .error (.short reportMinimum bytes.length)
  else
    have h : 15 ≤ bytes.length := Nat.le_of_not_lt h
    .ok {
      touch := anyBit bytes[3] Status.tip
      eraser := anyBit bytes[3] Status.eraser
      button1 := anyBit bytes[3] Status.barrel1
      button2 := anyBit bytes[3] Status.barrel2
      x := word bytes[4] bytes[5]
      y := word bytes[6] bytes[7]
      pressure := word bytes[8] bytes[9]
      distance := bytes[10]
      tiltX := (word bytes[11] bytes[12]).toInt16
      tiltY := (word bytes[13] bytes[14]).toInt16
      inProximity := anyBit bytes[3] Status.inRange
      tool := if anyBit bytes[3] Status.tool then .eraser else .pen }

end PenRail.Pen
