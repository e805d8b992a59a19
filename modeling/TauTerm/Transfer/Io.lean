import Mathlib

/-!
# What the serial transfer protocols share

Control bytes, the cancel sequence and the result of a file, from `transfer/io.rs` and
`transfer/types.rs`. `read_byte_with_timeout` is an input of the machines: a byte, or
`none` when the time is up. The progress and event callbacks, which only report, are left out.
So are an error of the port and a cancel by the user: each ends a transfer with `Err` on the spot.
-/

namespace TauTerm.Transfer

@[match_pattern] def soh : UInt8 := 0x01
@[match_pattern] def stx : UInt8 := 0x02
@[match_pattern] def eot : UInt8 := 0x04
@[match_pattern] def ack : UInt8 := 0x06
@[match_pattern] def nak : UInt8 := 0x15
@[match_pattern] def can : UInt8 := 0x18
/-- `C`, the request for CRC-16. -/
@[match_pattern] def wantCrc : UInt8 := 0x43

/-- `send_cancel`: ten CAN and eight backspaces. -/
def cancelSequence : List UInt8 := List.replicate 10 can ++ List.replicate 8 0x08

/-- `detect_cancel`: whether this is the second `CAN` in a row, and the new `last_can`. -/
def detectCancel (byte : UInt8) (lastCan : Bool) : Bool × Bool :=
  if byte = can then (lastCan, true) else (false, false)

/-- The padding of a last block. -/
def cpmeof : UInt8 := 0x1A

inductive BatchFileStatus where
  | completed
  | failed
  | skipped
  deriving DecidableEq

structure BatchFileResult where
  fileName : List Char
  status : BatchFileStatus
  size : Nat
  error : Option String
  deriving DecidableEq

end TauTerm.Transfer
