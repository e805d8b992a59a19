import Mathlib
import TauTerm.Lib.Decoder
import TauTerm.Lib.Pump
import TauTerm.Lib.Utf8

/-!
# The SystemView decoder

`SystemViewDecoder::push` of `plugins/rtt/systemview.rs` and the packet formats it
reads. Inside a packet the code moves a cursor through the buffer; here the
decoders of the parts are chained, and each says how many bytes it took.

The loop of `push` is a pump. What it returns in two variables, the packets and
the number of errors, is one list here, and `push` takes it apart.
-/

namespace TauTerm.Rtt

open Lib

def MAX_DECODER_BUFFER : Nat := 64 * 1024

structure ParsedPacket where
  eventId : UInt32
  fields : List UInt32 := []
  text : Option (List Char) := none
  deltaCycles : UInt32 := 0
  syncBoundary : Bool := false
  deriving DecidableEq

/-- A decoder of `Result<Option<_>, ()>`: malformed, incomplete or read. -/
abbrev Decode (β : Type) := Decoder UInt8 Unit β

/-! ## Integers and strings -/

/-- The loop of `decode_varint`. -/
def decodeVarintFrom (index : Nat) (value : UInt32) : List UInt8 → Option (UInt32 × Nat)
  | [] => none
  | byte :: data =>
    let value := value ||| ((byte &&& 0x7f).toUInt32 <<< UInt32.ofNat (index * 7))
    if byte &&& 0x80 = 0 then some (value, index + 1) else decodeVarintFrom (index + 1) value data

def decodeVarint : Decode UInt32 := fun data =>
  match decodeVarintFrom 0 0 (data.take 5) with
  | some r => .ok (some r)
  | none => if data.length < 5 then .ok none else .error ()

/-- The length of a string and the number of bytes that announce it. -/
def stringLength : List UInt8 → Option (Nat × Nat)
  | [] => none
  | first :: data =>
    if first = 255 then
      match data with
      | high :: low :: _ => some (high.toNat * 256 + low.toNat, 3)
      | _ => none
    else some (first.toNat, 1)

def decodeString : Decode (List Char) := fun data =>
  match stringLength data with
  | none => .ok none
  | some (length, start) =>
    if data.length < start + length then .ok none
    else .ok (some (fromUtf8Lossy ((data.drop start).take length), start + length))

/-! ## Packets -/

def fieldCount (eventId : UInt32) : Option Nat :=
  if eventId ∈ [0, 3, 5, 10, 11, 17, 18, 20] then some 0
  else if eventId ∈ [1, 2, 4, 6, 8, 12, 15, 16, 19] then some 1
  else if eventId ∈ [7, 13, 23] then some 2
  else if eventId ∈ [21] then some 4
  else if eventId ∈ [9, 14, 22] then some 0
  else none

/-- What some packets carry behind their first fields. -/
def decodeText (eventId : UInt32) : Decode (List UInt32 × Option (List Char)) :=
  if eventId = 9 ∨ eventId = 22 then do
    let fields ← Decoder.replicate decodeVarint 2
    let text ← decodeString
    pure (fields, some text)
  else if eventId = 14 then do
    let text ← decodeString
    pure ([], some text)
  else pure ([], none)

/-- `decode_standard_packet`, on the input behind the event id. -/
def decodeStandardPacket (eventId : UInt32) : Decode ParsedPacket :=
  match fieldCount eventId with
  | none => .fail ()
  | some count => do
    let fields ← Decoder.replicate decodeVarint count
    let more ← decodeText eventId
    let deltaCycles ← decodeVarint
    pure { eventId, fields := fields ++ more.1, text := more.2, deltaCycles }

/-- `take_payload_varint`; the cursor is the rest of the payload. -/
def takePayloadVarint (payload : List UInt8) : Option (UInt32 × List UInt8) :=
  match decodeVarint payload with
  | .ok (some (value, consumed)) => some (value, payload.drop consumed)
  | _ => none

/-- At most `n` integers, as far as the payload has them. -/
def takePayloadVarints : Nat → List UInt8 → List UInt32 × List UInt8
  | 0, payload => ([], payload)
  | n + 1, payload =>
    match takePayloadVarint payload with
    | some (value, rest) =>
      (value :: (takePayloadVarints n rest).1, (takePayloadVarints n rest).2)
    | none => ([], payload)

def payloadText (payload : List UInt8) : Option (List Char) :=
  match decodeString payload with
  | .ok (some (value, _)) => some value
  | _ => none

def decodeLengthDelimitedPayload (eventId : UInt32) (payload : List UInt8) :
    List UInt32 × Option (List Char) :=
  if eventId = 24 then ((takePayloadVarints 4 payload).1, none)
  else if eventId = 25 then
    let first := takePayloadVarints 1 payload
    (first.1, payloadText first.2)
  else if eventId = 27 ∨ eventId = 29 then ((takePayloadVarints 1 payload).1, none)
  else if eventId = 31 then
    let first := takePayloadVarints 1 payload
    if first.1 = [1] then
      let second := takePayloadVarints 1 first.2
      (first.1 ++ second.1, payloadText second.2)
    else (first.1, none)
  else ((takePayloadVarints 4 payload).1, none)

def decodePacket : Decode ParsedPacket := do
  let eventId ← decodeVarint
  if eventId < 24 then decodeStandardPacket eventId
  else do
    let payloadLen ← decodeVarint
    if MAX_DECODER_BUFFER < payloadLen.toNat then .fail ()
    else do
      let payload ← Decoder.take payloadLen.toNat
      let deltaCycles ← decodeVarint
      let (fields, text) := decodeLengthDelimitedPayload eventId payload
      pure { eventId, fields, text, deltaCycles }

/-! ## `push` -/

structure SystemViewDecoder where
  buffer : List UInt8 := []
  synchronized : Bool := false
  markNextSyncBoundary : Bool := false
  deriving DecidableEq

/-- What the loop of `push` returns, in the order in which it comes. -/
inductive Decoded where
  | packet (packet : ParsedPacket)
  | error
  deriving DecidableEq

def isSyncMarker (window : List UInt8) : Bool :=
  window.length == 10 && window.all (· == 0)

def findSyncMarker : List UInt8 → Option Nat
  | [] => none
  | byte :: data =>
    if isSyncMarker ((byte :: data).take 10) then some 0 else (findSyncMarker data).map (· + 1)

/-- The number of zeros at the end of `data`. -/
def trailingZeros (data : List UInt8) : Nat := (data.reverse.takeWhile (· == 0)).length

namespace SystemViewDecoder

def resetAfterGap : SystemViewDecoder := {}

/-- One turn of the loop. -/
def turn (d : SystemViewDecoder) : PumpTurn SystemViewDecoder Decoded :=
  if d.buffer.isEmpty then .stop d
  else if !d.synchronized then
    match findSyncMarker d.buffer with
    | some syncOffset =>
      .go [] { buffer := d.buffer.drop (syncOffset + 10), synchronized := true,
               markNextSyncBoundary := true }
    | none =>
      let discard := d.buffer.length - min (trailingZeros d.buffer) 9
      .stop { d with buffer := d.buffer.drop discard }
  else if isSyncMarker (d.buffer.take 10) then
    .go [] { d with buffer := d.buffer.drop 10, markNextSyncBoundary := true }
  else
    match decodePacket d.buffer with
    | .ok (some (packet, consumed)) =>
      .go [.packet { packet with syncBoundary := d.markNextSyncBoundary }]
        { d with buffer := d.buffer.drop consumed, markNextSyncBoundary := false }
    | .ok none => .stop d
    | .error () => .go [.error] { d with buffer := d.buffer.tail }

/-- `buffer.extend_from_slice`. -/
def feed (d : SystemViewDecoder) (bytes : List UInt8) : SystemViewDecoder :=
  { d with buffer := d.buffer ++ bytes }

@[simp] theorem feed_buffer (d : SystemViewDecoder) (bytes : List UInt8) :
    (d.feed bytes).buffer = d.buffer ++ bytes := rfl

end SystemViewDecoder

end TauTerm.Rtt
