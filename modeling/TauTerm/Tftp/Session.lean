import Mathlib
import TauTerm.Lib.Blocks
import TauTerm.Lib.Run
import TauTerm.Tftp.Transfer

/-!
# A TFTP exchange

Client and server of one transfer over two channels that lose and reorder nothing:
`tftp_client_get` against `handle_rrq`, and `tftp_client_put` against `handle_wrq`,
from the moment the request has arrived. A non-blocking `recv` may find nothing
although a packet is under way. Timers do not expire.
-/

namespace TauTerm.Tftp

open Lib

/-! ## What is known of the windows -/

/-- `WindowRead` yields the file cut into blocks, the last one short. -/
structure WindowRead.Lawful {R : Type} (read : WindowRead R) where
  size : R → Nat
  /-- The blocks that are not in the window yet. -/
  rest : R → List (List UInt8)
  new_elements : ∀ windowSize blockSize content,
    read.elements (read.new windowSize blockSize content) = []
  new_size : ∀ windowSize blockSize content, size (read.new windowSize blockSize content) = windowSize
  new_rest : ∀ windowSize blockSize content, 0 < blockSize →
    rest (read.new windowSize blockSize content) = cut blockSize content
  /-- It answers whether the last block is still to come. -/
  fill : ∀ r, rest r ≠ [] → ∃ r', read.fill r = some (!(rest r').isEmpty, r') ∧
    read.elements r' = read.elements r ++ (rest r).take (size r - (read.elements r).length) ∧
    rest r' = (rest r).drop (size r - (read.elements r).length) ∧ size r' = size r
  prefill : ∀ r, ∃ r', read.prefill r = some r' ∧ read.elements r' = read.elements r ∧
    rest r' = rest r ∧ size r' = size r
  remove : ∀ n r, n ≤ (read.elements r).length → ∃ r', read.remove n r = some r' ∧
    read.elements r' = (read.elements r).drop n ∧ rest r' = rest r ∧ size r' = size r

/-- `WindowWrite` appends the blocks that were added, in order. -/
structure WindowWrite.Lawful {W : Type} (write : WindowWrite W) where
  size : W → Nat
  /-- The blocks that are not in the file yet. -/
  blocks : W → List (List UInt8)
  new_blocks : ∀ windowSize existing, blocks (write.new windowSize existing) = []
  new_size : ∀ windowSize existing, size (write.new windowSize existing) = windowSize
  new_file : ∀ windowSize existing, write.file (write.new windowSize existing) = existing
  add : ∀ data w, (blocks w).length < size w → ∃ w', write.add data w = some w' ∧
    blocks w' = blocks w ++ [data] ∧ write.file w' = write.file w ∧ size w' = size w
  isFull : ∀ w, write.isFull w = decide ((blocks w).length = size w)
  empty : ∀ w, ∃ w', write.empty w = some w' ∧ blocks w' = [] ∧
    write.file w' = write.file w ++ (blocks w).flatten ∧ size w' = size w

/-! ### Windows over lists -/

structure ListRead where
  size : Nat
  elements : List (List UInt8)
  rest : List (List UInt8)

/-- A `WindowRead` of a file in memory. -/
def listRead : WindowRead ListRead where
  new windowSize blockSize content := ⟨windowSize, [], cut blockSize content⟩
  fill r :=
    let space := r.size - r.elements.length
    some (!(r.rest.drop space).isEmpty, ⟨r.size, r.elements ++ r.rest.take space, r.rest.drop space⟩)
  prefill := some
  elements := ListRead.elements
  remove n r :=
    if n ≤ r.elements.length then some { r with elements := r.elements.drop n } else none

def listRead_lawful : listRead.Lawful where
  size := ListRead.size
  rest := ListRead.rest
  new_elements _ _ _ := rfl
  new_size _ _ _ := rfl
  new_rest _ _ _ _ := rfl
  fill r _ :=
    let space := r.size - r.elements.length
    ⟨⟨r.size, r.elements ++ r.rest.take space, r.rest.drop space⟩, rfl, rfl, rfl, rfl⟩
  prefill r := ⟨r, rfl, rfl, rfl, rfl⟩
  remove _ _ h := ⟨_, if_pos h, rfl, rfl, rfl⟩

structure ListWrite where
  size : Nat
  blocks : List (List UInt8)
  file : List UInt8

/-- A `WindowWrite` to a file in memory. -/
def listWrite : WindowWrite ListWrite where
  new windowSize existing := ⟨windowSize, [], existing⟩
  add data w := if w.blocks.length < w.size then some { w with blocks := w.blocks ++ [data] } else none
  isFull w := w.blocks.length = w.size
  empty w := some { w with blocks := [], file := w.file ++ w.blocks.flatten }
  file := ListWrite.file

def listWrite_lawful : listWrite.Lawful where
  size := ListWrite.size
  blocks := ListWrite.blocks
  new_blocks _ _ := rfl
  new_size _ _ := rfl
  new_file _ _ := rfl
  add _ _ h := ⟨_, if_pos h, rfl, rfl, rfl⟩
  isFull _ := rfl
  empty _ := ⟨_, rfl, rfl, rfl, rfl⟩

/-! ## Options -/

def findOption (option : OptionType) (options : List TransferOption) : Option Nat :=
  (options.find? (·.option = option)).map (·.value)

def applyOackWindowOptions (options : List TransferOption) (params : TftpDynamicParams) :
    TftpDynamicParams :=
  { params with
    windowsize := ((findOption .windowSize options).map UInt16.ofNat).getD params.windowsize
    windowWait := (findOption .windowWait options).getD params.windowWait }

def buildOackOptions (params : TftpDynamicParams) (transferSize : Option Nat) :
    List TransferOption :=
  [⟨.blockSize, params.blksize.toNat⟩, ⟨.timeout, params.timeoutSecs.toNat⟩,
    ⟨.windowSize, params.windowsize.toNat⟩] ++
    transferSize.toList.map (⟨.transferSize, ·⟩) ++
    if params.windowWait > 0 then [⟨.windowWait, params.windowWait⟩] else []

/-- The block size that the client takes from an OACK. -/
def negotiatedBlksize (options : List TransferOption) (params : TftpDynamicParams) : UInt16 :=
  ((findOption .blockSize options).map UInt16.ofNat).getD params.blksize

/-! ## The two sides -/

/-- The side with the file: `handle_rrq` from its answer on, or `tftp_client_put`
from its wait for the reply on. -/
inductive SendSide (R : Type) where
  | answering
  | awaitingAck
  | awaitingReply
  | transferring (params : TftpDynamicParams) (s : Sender R)
  | failed

/-- The side without: `tftp_client_get` from its wait for the first packet on, or
`handle_wrq` from its answer on. -/
inductive ReceiveSide (W : Type) where
  | answering
  | awaitingFirst
  | awaitingData (blksize : UInt16) (params : TftpDynamicParams)
  | firstBlock (blksize : UInt16) (params : TftpDynamicParams) (data : List UInt8)
  | transferring (blksize : UInt16) (params : TftpDynamicParams) (r : Receiver W)
  | failed

structure Exchange (R W : Type) where
  sender : SendSide R
  receiver : ReceiveSide W
  toReceiver : List Packet
  toSender : List Packet

/-- What is given: the file, the parameters of the two sides, and whether the
request carries options. -/
structure Request where
  content : List UInt8
  client : TftpDynamicParams
  server : TftpDynamicParams
  hasOptions : Bool

/-- One of the sides takes a step. If it receives, `arrived` says whether the next
packet is there. -/
inductive Action where
  | sender (arrived : Bool)
  | receiver (arrived : Bool)
  deriving DecidableEq

def recv (nonblocking arrived : Bool) (channel : List Packet) : Option (Received × List Packet) :=
  if arrived then
    match channel with
    | [] => none
    | packet :: channel => some (.packet packet, channel)
  else if nonblocking then some (.wouldBlock, channel)
  else none

section Step

variable {R W : Type} (read : WindowRead R) (write : WindowWrite W) (q : Request)

def Exchange.senderStep (e : Exchange R W) (arrived : Bool) : Option (Exchange R W) :=
  match e.sender with
  | .answering =>
    if q.hasOptions then
      let oack := buildOackOptions q.server (some q.content.length)
      some { e with sender := .awaitingAck, toReceiver := e.toReceiver ++ [.oack oack] }
    else
      some { e with
        sender := .transferring q.server (sendFile read q.server q.server.blksize.toNat q.content) }
  | .awaitingAck =>
    (recv false arrived e.toSender).map fun (received, toSender) =>
      match received with
      | .packet (.ack 0) =>
        let s := sendFile read q.server q.server.blksize.toNat q.content
        { e with sender := .transferring q.server s, toSender }
      | _ => { e with sender := .failed, toSender }
  | .awaitingReply =>
    (recv false arrived e.toSender).map fun (received, toSender) =>
      match received with
      | .packet (.ack 0) =>
        let s := sendFile read q.client q.client.blksize.toNat q.content
        { e with sender := .transferring q.client s, toSender }
      | .packet (.oack options) =>
        let params := applyOackWindowOptions options q.client
        let s := sendFile read params (negotiatedBlksize options q.client).toNat q.content
        { e with sender := .transferring params s, toSender }
      | _ => { e with sender := .failed, toSender }
  | .transferring params s =>
    match s.phase with
    | .sending =>
      let (s, packets) := s.sendStep read params false
      some { e with sender := .transferring params s, toReceiver := e.toReceiver ++ packets }
    | .collecting lastAck =>
      (recv s.nonblocking arrived e.toSender).map fun (received, toSender) =>
        { e with
          sender := .transferring params (s.collectStep read params false false lastAck received)
          toSender }
    | .finished _ => none
  | .failed => none

def Exchange.receiverStep (e : Exchange R W) (arrived : Bool) : Option (Exchange R W) :=
  match e.receiver with
  | .answering =>
    let reply := if q.hasOptions then Packet.oack (buildOackOptions q.server none) else .ack 0
    some { e with
      receiver := .transferring q.server.blksize q.server (receiveFile write q.server [] 1)
      toSender := e.toSender ++ [reply] }
  | .awaitingFirst =>
    (recv false arrived e.toReceiver).map fun (received, toReceiver) =>
      match received with
      | .packet (.oack options) =>
        let params := applyOackWindowOptions options q.client
        { e with
          receiver := .awaitingData (negotiatedBlksize options q.client) params
          toReceiver, toSender := e.toSender ++ [.ack 0] }
      | .packet (.data 1 data) =>
        { e with receiver := .firstBlock q.client.blksize q.client data, toReceiver }
      | _ => { e with receiver := .failed, toReceiver }
  | .awaitingData blksize params =>
    (recv false arrived e.toReceiver).map fun (received, toReceiver) =>
      match received with
      | .packet (.data 1 data) => { e with receiver := .firstBlock blksize params data, toReceiver }
      | _ => { e with receiver := .failed, toReceiver }
  | .firstBlock blksize params data =>
    some { e with
      receiver := .transferring blksize params (receiveFile write params data 2)
      toSender := e.toSender ++ [.ack 1] }
  | .transferring blksize params r =>
    match r.phase with
    | .receiving =>
      (recv r.nonblocking arrived e.toReceiver).map fun (received, toReceiver) =>
        let (r, packets) := r.receiveStep write params blksize.toNat false received
        { e with
          receiver := .transferring blksize params r
          toReceiver, toSender := e.toSender ++ packets }
    | .acking =>
      let (r, packets) := r.ackStep write params
      some { e with
        receiver := .transferring blksize params r, toSender := e.toSender ++ packets }
    | .finished _ => none
  | .failed => none

def Exchange.step (e : Exchange R W) : Action → Option (Exchange R W)
  | .sender arrived => e.senderStep read q arrived
  | .receiver arrived => e.receiverStep write q arrived

/-- A step that happened. -/
def Steps (e : Exchange R W) (action : Action) (e' : Exchange R W) : Prop :=
  e.step read write q action = some e'

end Step

variable {R W : Type}

/-- `tftp_client_get` has sent its request, and the server answers it. -/
def Exchange.get : Exchange R W := ⟨.answering, .awaitingFirst, [], []⟩

/-- `tftp_client_put` has sent its request, and the server answers it. -/
def Exchange.put : Exchange R W := ⟨.awaitingReply, .answering, [], []⟩

/-- Both sides returned `Ok`, and the file has arrived. -/
def Exchange.Succeeded (write : WindowWrite W) (content : List UInt8) (e : Exchange R W) : Prop :=
  (∃ params s result, e.sender = .transferring params s ∧ s.phase = .finished (.ok result)) ∧
  ∃ blksize params r result, e.receiver = .transferring blksize params r ∧
    r.phase = .finished (.ok result) ∧ write.file r.window = content

end TauTerm.Tftp
