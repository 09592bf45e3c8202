/-!
# Register map of the rail regulator

The chip is addressed by byte registers. VCOM is a magnitude of nine bits in steps of 10 mV, its low byte in one register
and its top bit in the next.
-/

namespace PenRail.Rail.Register

/-- Mode bits; only `onOff` is ever driven. -/
def operationMode : UInt8 := 0x00

/-- Set while the rail is switched on. -/
def onOff : UInt8 := 0x80

def vcomLow : UInt8 := 0x01

def vcomHigh : UInt8 := 0x02

/-- The nine bits of VCOM that mean anything. -/
def vcomMask : UInt16 := 0x01ff

def powerOnDelay : UInt8 := 0x06

/-- Power good in bit 0, the number of a fault above it. -/
def faultFlag : UInt8 := 0x07

def powerGood : UInt8 := 0x01

/-- Signed degrees Celsius. -/
def thermistor : UInt8 := 0x08

/-- Where the chip answers unless it was configured otherwise. -/
def defaultAddress : UInt8 := 0x62

end PenRail.Rail.Register
