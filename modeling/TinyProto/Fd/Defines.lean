import Mathlib.Data.Int.Notation
import Mathlib.Data.Nat.Notation

namespace TinyProto

def fdPrimaryAddr : UInt8 := 0

inductive FdMode
  | abm
  | nrm
  deriving DecidableEq, Repr

inductive FdState
  | idle
  | disconnected
  | connecting
  | connected
  | disconnecting
  deriving DecidableEq, Repr

def hdlcIFrameBits : UInt8 := 0x00
def hdlcIFrameMask : UInt8 := 0x01
def hdlcSFrameBits : UInt8 := 0x01
def hdlcSFrameMask : UInt8 := 0x03
def hdlcSFrameTypeRr : UInt8 := 0x00
def hdlcSFrameTypeRej : UInt8 := 0x08
def hdlcSFrameTypeSrej : UInt8 := 0x0C
def hdlcSFrameTypeMask : UInt8 := 0x0C
def hdlcUFrameBits : UInt8 := 0x03
def hdlcUFrameMask : UInt8 := 0x03
def hdlcUFrameTypeUa : UInt8 := 0x60
def hdlcUFrameTypeDm : UInt8 := 0x0C
def hdlcUFrameTypeSabm : UInt8 := 0x2C
def hdlcUFrameTypeSnrm : UInt8 := 0x80
def hdlcUFrameTypeDisc : UInt8 := 0x40
def hdlcUFrameTypeMask : UInt8 := 0xEC
def hdlcPBit : UInt8 := 0x10
def hdlcFBit : UInt8 := 0x10
def hdlcCrBit : UInt8 := 0x02
def hdlcEBit : UInt8 := 0x01
def hdlcPrimaryAddr : UInt8 := fdPrimaryAddr <<< 2
def hdlcInvalidPeerIndex : ℕ := 0xFF
def seqBitsMask : UInt8 := 0x07

def fdEventTxDataAvailable : UInt8 := 0x02
def fdEventQueueHasFreeSlots : UInt8 := 0x04
def fdEventCanAcceptIFrames : UInt8 := 0x08

def uQueueMaxSize : ℕ := 4

/-- A point of the monotonic clock, in nanoseconds. -/
abbrev Instant := ℤ

/-- `ts.elapsed()` read at `now`: a difference that saturates at zero. -/
def elapsed (now ts : Instant) : ℕ := (now - ts).toNat

def durationFromMillis (ms : ℕ) : ℕ := ms * 1000000

end TinyProto
