import Mathlib
import TauTerm.Trdp.CaptureReaders

/-!
# The packets of a frame

`TrdpStreamDecoder`: a captured frame is taken apart down to the TRDP telegrams in it, those of UDP
at once and those of TCP from what has been collected of a flow. The sums, indices and ranges are
those of the source, with the panic they can end in.
-/

namespace TauTerm.Trdp.Capture

open Lib Lib.Checked

/-- A function that does not fail. -/
abbrev Op (α : Type) : Type := Checked Empty α

def LINKTYPE_NULL : UInt32 := 0

def LINKTYPE_RAW : UInt32 := 101

def LINKTYPE_LINUX_SLL : UInt32 := 113

def LINKTYPE_LINUX_SLL2 : UInt32 := 276

def TCP_FLOW_LIMIT : Nat := 64

def TCP_BUFFER_CAP : Nat := 131072

def BRIDGE_MAX_CAPTURE_PAYLOAD : Nat := 65536

/-! ## Bytes -/

def be16 (data : List UInt8) (offset : Nat) : Op (Option UInt16) := do
  .ok ((← readWord 2 data offset false).map UInt16.ofNat)

def be32 (data : List UInt8) (offset : Nat) : Op (Option UInt32) := do
  .ok ((← readWord 4 data offset false).map UInt32.ofNat)

/-- `data.get(start..stop)`. -/
def getRange (data : List UInt8) (start stop : Nat) : Option (List UInt8) :=
  if start ≤ stop ∧ stop ≤ data.length then some ((data.take stop).drop start) else none

def UPPER_DIGITS : List Char := "0123456789ABCDEF".toList

def hex : List UInt8 → Op (List Char)
  | [] => .ok []
  | byte :: data => do
    let high ← index UPPER_DIGITS (byte >>> 4).toNat
    let low ← index UPPER_DIGITS (byte &&& 0x0F).toNat
    .ok (high :: low :: (← hex data))

/-- `{:02x}`. -/
def lowerHex (byte : UInt8) : List Char :=
  [Nat.digitChar (byte.toNat / 16), Nat.digitChar (byte.toNat % 16)]

def ipv4 (data : List UInt8) : Op String := do
  let a ← index data 0
  let b ← index data 1
  let c ← index data 2
  let d ← index data 3
  .ok s!"{a}.{b}.{c}.{d}"

/-- The bytes at indices that are in range. -/
def indices (data : List UInt8) : List Nat → Op (List UInt8)
  | [] => .ok []
  | i :: is => do
    let byte ← index data i
    .ok (byte :: (← indices data is))

def uuidText (data : List UInt8) : Op (Option (List Char)) :=
  letSome (.ok (getRange data 0 16)) none fun bytes => do
    let bytes ← indices bytes (List.range 16)
    let part := fun start stop => ((bytes.take stop).drop start).flatMap lowerHex
    .ok (some (part 0 4 ++ '-' :: part 4 6 ++ '-' :: part 6 8 ++ '-' :: part 8 10 ++ '-' :: part 10 16))

def fixedText (data : List UInt8) : Op (Option (List Char)) := do
  let stop := data.findIdx (· == 0)
  let value := Rust.trim (fromUtf8Lossy (← slice data 0 stop))
  .ok (if value = [] then none else some value)

/-- One bit of the checksum. -/
def crcBit (crc : UInt32) : UInt32 := (crc >>> 1) ^^^ (0xEDB88320 &&& (0 - (crc &&& 1)))

def trdpCrc32 (data : List UInt8) : UInt32 :=
  ~~~ data.foldl (fun crc byte => crcBit^[8] (crc ^^^ byte.toUInt32)) 0xFFFFFFFF

/-! ## Telegrams -/

structure TrdpPacket where
  event : String
  link : List Char
  timestampUs : UInt64
  srcIp : String
  destIp : String
  srcPort : UInt16
  destPort : UInt16
  transport : String
  msgType : List Char
  comId : UInt32
  seqCount : UInt32
  protocolVersion : UInt16
  etbTopoCount : UInt32
  opTrnTopoCount : UInt32
  dataLen : UInt32
  payloadHex : List Char
  linkType : Option UInt32
  crcValid : Option Bool
  protocolValid : Option Bool
  replyStatus : Option Int
  userStatus : Option UInt16
  replyTimeoutUs : Option UInt32
  mdSessionId : Option (List Char)
  srcUri : Option (List Char)
  destUri : Option (List Char)
  sdtDetected : Bool
  deriving DecidableEq

structure PacketOrigin where
  link : List Char
  timestampUs : UInt64
  sourceIp : String
  destinationIp : String
  sourcePort : UInt16
  destinationPort : UInt16
  transport : String
  linktype : UInt32

/-- The kind of a telegram in its bytes 6 and 7. -/
def validType (first : UInt8) (second : List UInt8) (data : List UInt8) : Op Bool :=
  if data.length ≥ 24 then do
    if (← index data 6) = first then
      let kind ← index data 7
      .ok (second.contains kind)
    else .ok false
  else .ok false

def validMdType (data : List UInt8) : Op Bool :=
  validType 0x4D [0x6E, 0x72, 0x70, 0x71, 0x63, 0x65] data

def validPdType (data : List UInt8) : Op Bool := validType 0x50 [0x64, 0x70, 0x72, 0x65] data

/-- What message data says beyond process data. -/
structure MdFields where
  replyStatus : Option Int
  userStatus : Option UInt16
  replyTimeoutUs : Option UInt32
  mdSessionId : Option (List Char)
  srcUri : Option (List Char)
  destUri : Option (List Char)

def noMdFields : MdFields := ⟨none, none, none, none, none, none⟩

/-- `as i32`. -/
def asInt32 (n : UInt32) : Int := if n.toNat < 2 ^ 31 then n.toNat else (n.toNat : Int) - 2 ^ 32

def mdFields (trdp : List UInt8) : Op (Option MdFields) :=
  letSome (be32 trdp 24) none fun status => do
    let rawReplyStatus := asInt32 status
    let (replyStatus, userStatus) : Int × UInt16 :=
      if rawReplyStatus ≥ 0 then (0, UInt16.ofNat status.toNat) else (rawReplyStatus, 0)
    let replyTimeoutUs ← be32 trdp 44
    letSome (.ok (getRange trdp 28 44)) none fun session => do
      let mdSessionId ← uuidText session
      letSome (.ok (getRange trdp 48 80)) none fun source => do
        let srcUri ← fixedText source
        letSome (.ok (getRange trdp 80 112)) none fun destination => do
          let destUri ← fixedText destination
          .ok (some
            { replyStatus := some replyStatus
              userStatus := some userStatus
              replyTimeoutUs
              mdSessionId
              srcUri
              destUri })

/-- The length of the header of a telegram of either kind. -/
def trdpHeaderLength (trdp : List UInt8) : Op (Option Nat) := do
  if ← validMdType trdp then .ok (some 116)
  else if ← validPdType trdp then .ok (some 40)
  else .ok none

def decodeTrdpPayload (trdp : List UInt8) (origin : PacketOrigin) (allowTruncatedData : Bool) :
    Op (Option TrdpPacket) :=
  letSome (trdpHeaderLength trdp) none fun headerLength =>
    if trdp.length < headerLength then .ok none
    else
      letSome (be32 trdp 0) none fun seqCount =>
      letSome (be16 trdp 4) none fun protocolVersion =>
      letSome (.ok (getRange trdp 6 8)) none fun kind =>
      letSome (be32 trdp 8) none fun comId =>
      letSome (be32 trdp 12) none fun etbTopoCount =>
      letSome (be32 trdp 16) none fun opTrnTopoCount =>
      letSome (be32 trdp 20) none fun dataLen => do
        let msgType := fromUtf8Lossy kind
        let fcsOffset ← sub headerLength 4
        let fcsEnd ← add fcsOffset 4
        letSome (.ok (getRange trdp fcsOffset fcsEnd)) none fun fcs =>
          letSome (.ok (getRange trdp 0 fcsOffset)) none fun covered => do
            let crcValid := UInt32.ofNat (ofLeBytes fcs) = trdpCrc32 covered
            -- `checked_add`
            let declaredEnd :=
              if headerLength + dataLen.toNat < WORD then some (headerLength + dataLen.toNat) else none
            let dataComplete := declaredEnd.any (· ≤ trdp.length)
            if !allowTruncatedData && !dataComplete then .ok none
            else
              let dataEnd := min (declaredEnd.getD trdp.length) trdp.length
              let payload := (getRange trdp headerLength dataEnd).getD []
              let protocolValid := protocolVersion &&& 0xFF00 = 0x0100 && dataComplete
              letSome (if msgType.head? = some 'M' then mdFields trdp else .ok (some noMdFields)) none
                fun md => do
                  let payloadHex ← hex payload
                  .ok (some
                    { event := "packet"
                      link := origin.link
                      timestampUs := origin.timestampUs
                      srcIp := origin.sourceIp
                      destIp := origin.destinationIp
                      srcPort := origin.sourcePort
                      destPort := origin.destinationPort
                      transport := origin.transport
                      msgType
                      comId
                      seqCount
                      protocolVersion
                      etbTopoCount
                      opTrnTopoCount
                      dataLen
                      payloadHex
                      linkType := some origin.linktype
                      crcValid := some crcValid
                      protocolValid := some protocolValid
                      replyStatus := md.replyStatus
                      userStatus := md.userStatus
                      replyTimeoutUs := md.replyTimeoutUs
                      mdSessionId := md.mdSessionId
                      srcUri := md.srcUri
                      destUri := md.destUri
                      sdtDetected := false })

/-! ## Frames -/

/-- One turn over the VLAN tags of an Ethernet frame. -/
def vlanTurn (frame : List UInt8) (state : UInt16 × Nat) : Op ((UInt16 × Nat) ⊕ Option Nat) := do
  let (etherType, offset) := state
  if [0x8100, 0x88A8, 0x9100].contains etherType then
    letSome (be16 frame (← add offset 2)) (.inr none) fun etherType => do
      .ok (.inl (etherType, ← add offset 4))
  else .ok (.inr (if etherType = 0x0800 then some offset else none))

/-- Where the header of IPv4 begins behind a cooked header of so many bytes. -/
def cookedOffset (frame : List UInt8) (length typeOffset : Nat) : Op (Option Nat) :=
  if frame.length ≥ length then
    letSome (be16 frame typeOffset) none fun protocol =>
      .ok (if protocol = 0x0800 then some length else none)
  else .ok none

def networkOffset (frame : List UInt8) (linktype : UInt32) : Op (Option Nat) :=
  if linktype = linktypeEthernet then
    letSome (be16 frame 12) none fun etherType =>
      loop (vlanTurn frame) (frame.length + 1) (etherType, 14)
  else if linktype = LINKTYPE_LINUX_SLL then cookedOffset frame 16 14
  else if linktype = LINKTYPE_LINUX_SLL2 then cookedOffset frame 20 0
  else if linktype = LINKTYPE_NULL then
    .ok (if frame.length ≥ 5 && frame[4]?.any (fun byte : UInt8 => byte >>> 4 == 4) then some 4 else none)
  else if linktype = LINKTYPE_RAW then
    .ok (if frame.head?.any (fun byte : UInt8 => byte >>> 4 == 4) then some 0 else none)
  else .ok none

structure CapturePorts where
  pd : List UInt16
  md : List UInt16

def CapturePorts.accepts (ports : CapturePorts) (source destination : UInt16) : Bool :=
  ports.pd.contains source || ports.pd.contains destination || ports.md.contains source ||
    ports.md.contains destination

structure TcpFlowKey where
  link : List Char
  sourceIp : UInt32
  destinationIp : UInt32
  sourcePort : UInt16
  destinationPort : UInt16
  deriving DecidableEq

structure TcpFlow where
  expectedSequence : UInt32
  initialized : Bool
  buffer : List UInt8

structure IpFrame where
  frame : List UInt8
  linktype : UInt32
  timestampUs : UInt64
  link : List Char
  sourceIp : UInt32
  destinationIp : UInt32
  sourceText : String
  destinationText : String
  transportOffset : Nat
  ipEnd : Nat

/-- The flows are in the order in which the map gives its keys. -/
structure TrdpStreamDecoder where
  ports : CapturePorts
  tcpFlows : List (TcpFlowKey × TcpFlow)

def IpFrame.origin (context : IpFrame) (sourcePort destinationPort : UInt16) (transport : String) :
    PacketOrigin where
  link := context.link
  timestampUs := context.timestampUs
  sourceIp := context.sourceText
  destinationIp := context.destinationText
  sourcePort
  destinationPort
  transport
  linktype := context.linktype

def feedUdp (ports : CapturePorts) (context : IpFrame) : Op (List TrdpPacket) := do
  if (← add context.transportOffset 8) > context.ipEnd then .ok []
  else
    letSome (be16 context.frame context.transportOffset) [] fun sourcePort => do
      letSome (be16 context.frame (← add context.transportOffset 2)) [] fun destinationPort => do
        letSome (be16 context.frame (← add context.transportOffset 4)) [] fun udpLength => do
          if !ports.accepts sourcePort destinationPort then .ok []
          else if udpLength.toNat < 8 then .ok []
          else if (← add context.transportOffset udpLength.toNat) > context.ipEnd then .ok []
          else
            let payloadStart ← add context.transportOffset 8
            let payloadEnd ← add context.transportOffset udpLength.toNat
            let payload ← slice context.frame payloadStart payloadEnd
            letSome (decodeTrdpPayload payload (context.origin sourcePort destinationPort "udp") true) []
              fun packet => .ok [packet]

/-! ### TCP -/

structure Segment where
  sourcePort : UInt16
  destinationPort : UInt16
  sequence : UInt32
  flags : UInt8
  payload : List UInt8

/-- The segment in a frame, if it is one of the ports' and lies in its packet. -/
def tcpSegment (ports : CapturePorts) (context : IpFrame) : Op (Option Segment) := do
  if (← add context.transportOffset 20) > context.ipEnd then .ok none
  else
    letSome (be16 context.frame context.transportOffset) none fun sourcePort => do
      letSome (be16 context.frame (← add context.transportOffset 2)) none fun destinationPort => do
        if !ports.accepts sourcePort destinationPort then .ok none
        else
          let offsetByte ← index context.frame (← add context.transportOffset 12)
          let headerLength ← mul (offsetByte >>> 4).toNat 4
          if headerLength < 20 then .ok none
          else if (← add context.transportOffset headerLength) > context.ipEnd then .ok none
          else
            letSome (be32 context.frame (← add context.transportOffset 4)) none fun sequence => do
              let flags ← index context.frame (← add context.transportOffset 13)
              let payload ←
                slice context.frame (← add context.transportOffset headerLength) context.ipEnd
              .ok (some { sourcePort, destinationPort, sequence, flags, payload })

/-- What of a segment is behind the bytes that the flow has. A gap clears the buffer. -/
def TcpFlow.trim (flow : TcpFlow) (payloadSequence : UInt32) (length : Nat) : TcpFlow × Nat :=
  let delta := asInt32 (payloadSequence - flow.expectedSequence)
  if delta > 0 then ({ flow with buffer := [], expectedSequence := payloadSequence }, 0)
  else if delta < 0 then
    let overlap := (flow.expectedSequence - payloadSequence).toNat
    (flow, if overlap ≥ length then length else overlap)
  else (flow, 0)

/-- The last bytes, as many as there is room for. -/
def lastBytes (append : List UInt8) (remaining : Nat) : Op (List UInt8) := do
  if append.length > remaining then slice append (← sub append.length remaining) append.length
  else .ok append

def TcpFlow.append (flow : TcpFlow) (payloadSequence : UInt32) (payload : List UInt8) : Op TcpFlow :=
  if payload = [] then .ok flow
  else do
    let (flow, trim) := flow.trim payloadSequence payload.length
    if trim < payload.length then
      let append ← slice payload trim payload.length
      let buffer := if saturate (flow.buffer.length + append.length) > TCP_BUFFER_CAP then []
        else flow.buffer
      let remaining := TCP_BUFFER_CAP - buffer.length
      let append ← lastBytes append remaining
      .ok { flow with
        buffer := buffer ++ append
        expectedSequence := flow.expectedSequence + UInt32.ofNat append.length }
    else .ok flow

/-- The first offset at which message data may begin. -/
def findMd (buffer : List UInt8) : List Nat → Op (Option Nat)
  | [] => .ok none
  | offset :: offsets => do
    if ← validMdType (← slice buffer offset buffer.length) then .ok (some offset)
    else findMd buffer offsets

/-- One turn over the telegrams in a buffer, with the packets found so far. -/
def mdTurn (origin : PacketOrigin) (state : List UInt8 × List TrdpPacket) :
    Op ((List UInt8 × List TrdpPacket) ⊕ (List UInt8 × List TrdpPacket)) := do
  let (buffer, packets) := state
  match ← findMd buffer (List.range (buffer.length - 24 + 1)) with
  | none =>
    if buffer.length > 23 then
      let keep ← slice buffer (← sub buffer.length 23) buffer.length
      .ok (.inr (keep, packets))
    else .ok (.inr (buffer, packets))
  | some start =>
    let buffer ← slice buffer start buffer.length
    if buffer.length < 116 then .ok (.inr (buffer, packets))
    else
      letSome (be32 buffer 20) (.inr (buffer, packets)) fun dataLength => do
        if dataLength.toNat > BRIDGE_MAX_CAPTURE_PAYLOAD then .ok (.inr ([], packets))
        else
          let total := saturate (116 + dataLength.toNat)
          if buffer.length < total then .ok (.inr (buffer, packets))
          else
            let telegram ← slice buffer 0 total
            let buffer ← slice buffer total buffer.length
            let packet ← decodeTrdpPayload telegram origin true
            .ok (.inl (buffer, packets ++ packet.toList))

namespace TrdpStreamDecoder

variable (decoder : TrdpStreamDecoder)

def flow (key : TcpFlowKey) : Option TcpFlow :=
  (decoder.tcpFlows.find? fun entry => entry.1 = key).map Prod.snd

/-- Room for a new flow is made by leaving out the first one. -/
def evict (key : TcpFlowKey) : TrdpStreamDecoder :=
  if decoder.tcpFlows.length ≥ TCP_FLOW_LIMIT ∧ decoder.flow key = none then
    { decoder with tcpFlows := decoder.tcpFlows.tail }
  else decoder

def setFlow (key : TcpFlowKey) (flow : TcpFlow) : TrdpStreamDecoder :=
  if decoder.flow key = none then { decoder with tcpFlows := decoder.tcpFlows ++ [(key, flow)] }
  else
    { decoder with
      tcpFlows := decoder.tcpFlows.map fun entry => if entry.1 = key then (key, flow) else entry }

def removeFlow (key : TcpFlowKey) : TrdpStreamDecoder :=
  { decoder with tcpFlows := decoder.tcpFlows.filter fun entry => entry.1 ≠ key }

/-- The flow from which a segment goes on: a new one, or one that SYN or RST reset, begins with it. -/
def started (key : TcpFlowKey) (flags : UInt8) (payloadSequence : UInt32) : TcpFlow :=
  let flow := (decoder.flow key).getD ⟨0, false, []⟩
  let flow := if flags &&& 0x06 ≠ 0 then ⟨payloadSequence, true, []⟩ else flow
  if flow.initialized then flow else { flow with expectedSequence := payloadSequence, initialized := true }

def feedTcp (context : IpFrame) : Op (TrdpStreamDecoder × List TrdpPacket) :=
  letSome (tcpSegment decoder.ports context) (decoder, []) fun segment => do
    let payloadSequence := segment.sequence + (if segment.flags &&& 0x02 ≠ 0 then 1 else 0)
    let key : TcpFlowKey :=
      { link := context.link
        sourceIp := context.sourceIp
        destinationIp := context.destinationIp
        sourcePort := segment.sourcePort
        destinationPort := segment.destinationPort }
    let decoder := decoder.evict key
    let flow ← (decoder.started key segment.flags payloadSequence).append payloadSequence segment.payload
    let (buffer, packets) ←
      loop (mdTurn (context.origin segment.sourcePort segment.destinationPort "tcp"))
        (flow.buffer.length + 1) (flow.buffer, [])
    let decoder := decoder.setFlow key { flow with buffer }
    .ok (if segment.flags &&& 0x05 ≠ 0 then decoder.removeFlow key else decoder, packets)

def feedFrame (frame : List UInt8) (linktype : UInt32) (timestampUs : UInt64) (link : List Char) :
    Op (TrdpStreamDecoder × List TrdpPacket) :=
  letSome (networkOffset frame linktype) (decoder, []) fun ip => do
    if (frame[ip]?.getD 0) >>> 4 ≠ 4 then .ok (decoder, [])
    else
      let ipHeaderLength ← mul ((← index frame ip) &&& 0x0F).toNat 4
      letSome (be16 frame (← add ip 2)) (decoder, []) fun totalLength => do
        let ipTotalLength := totalLength.toNat
        if ipHeaderLength < 20 then .ok (decoder, [])
        else if ipTotalLength < ipHeaderLength then .ok (decoder, [])
        else if frame.length < (← add ip ipTotalLength) then .ok (decoder, [])
        else
          letSome (be16 frame (← add ip 6)) (decoder, []) fun fragment => do
            if fragment &&& 0x3FFF ≠ 0 then .ok (decoder, [])
            else
              let ipEnd ← add ip ipTotalLength
              letSome (.ok (getRange frame (← add ip 12) (← add ip 16))) (decoder, [])
                fun sourceBytes => do
              letSome (.ok (getRange frame (← add ip 16) (← add ip 20))) (decoder, [])
                fun destinationBytes => do
              letSome (be32 frame (← add ip 12)) (decoder, []) fun sourceIp => do
              letSome (be32 frame (← add ip 16)) (decoder, []) fun destinationIp => do
                let context : IpFrame :=
                  { frame
                    linktype
                    timestampUs
                    link
                    sourceIp
                    destinationIp
                    sourceText := ← ipv4 sourceBytes
                    destinationText := ← ipv4 destinationBytes
                    transportOffset := ← add ip ipHeaderLength
                    ipEnd }
                match frame[← add ip 9]? with
                | some 17 => do .ok (decoder, ← feedUdp decoder.ports context)
                | some 6 => decoder.feedTcp context
                | _ => .ok (decoder, [])

end TrdpStreamDecoder

end TauTerm.Trdp.Capture
