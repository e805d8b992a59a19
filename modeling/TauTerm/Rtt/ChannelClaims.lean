import Mathlib
import TauTerm.Rtt.Worker

/-!
# Claims on channels

Which Down channel the user sends to, which channels observers have claimed, and what the snapshot says
of both. Each of the three has a lock of its own; a step of a call is one lock section. The selection
for automation, which is about Up channels, and the rest of the snapshot are left out.
-/

namespace TauTerm.Rtt.Claims

open Writes

structure RttChannelDirectionInfo where
  usable : Bool
  issue : Option String
  deriving DecidableEq

structure RttChannelInfo where
  index : Nat
  up : Option RttChannelDirectionInfo
  down : Option RttChannelDirectionInfo
  deriving DecidableEq

def RttChannelInfo.hasUsableDown (c : RttChannelInfo) : Bool :=
  c.down.any RttChannelDirectionInfo.usable

def validateChannelDirection (channels : List RttChannelInfo) (channelIndex : Nat) (requireUp : Bool) :
    Except RttError Unit :=
  match channels.find? fun channel => channel.index = channelIndex with
  | none => .error ⟨.rttChannelNotFound, s!"RTT Channel {channelIndex} 不存在"⟩
  | some channel =>
    let directionName := if requireUp then "Up" else "Down"
    match if requireUp then channel.up else channel.down with
    | none => .error ⟨.rttChannelNotFound, s!"RTT Channel {channelIndex} 没有 {directionName} 方向"⟩
    | some direction =>
      let issue := direction.issue.getD "descriptor 无效"
      if direction.usable then .ok ()
      else
        .error ⟨.rttInvalidControlBlock, s!"RTT Channel {channelIndex} {directionName} 方向不可用: {issue}"⟩

/-- The owners of the channels that are claimed. -/
abbrev ClaimTable := Nat → Option String

def keys (claims : ClaimTable) (channel : Nat) : Bool := (claims channel).isSome

def validateUserWrite (claims : ClaimTable) (channelIndex : Nat) : Except RttError Unit :=
  match claims channelIndex with
  | some owner =>
    .error ⟨.rttWriteFailed, s!"RTT Down Channel {channelIndex} 正由 {owner} 使用，不能作为通用发送目标"⟩
  | none => .ok ()

def isWritable (claimed : Nat → Bool) (channel : RttChannelInfo) : Bool :=
  channel.hasUsableDown && !claimed channel.index

/-- The channel with index 0, else the first one, of those that can be written. -/
def replacement (channels : List RttChannelInfo) (claimed : Nat → Bool) : Option Nat :=
  ((channels.find? fun channel => channel.index = 0 && isWritable claimed channel).or
    (channels.find? (isWritable claimed))).map RttChannelInfo.index

/-- Where a call is: what its next lock section is about, and what it has read. -/
inductive Phase where
  | returned (result : Except RttError Unit)
  | running (channels : List RttChannelInfo)
  | runningSend (channels : List RttChannelInfo) (claimed : Nat → Bool)
  | runningSnapshot (channels : List RttChannelInfo) (claimed : Nat → Bool) (sendChannel : Option Nat)
  /-- `select` tells `set_send_channel` from the check of a user's write. -/
  | checkDirection (channelIndex : Nat) (select : Bool)
  | checkClaims (channelIndex : Nat) (select : Bool)
  | sendingStore (channelIndex : Nat)
  | sendingSnapshot (channelIndex : Nat)
  | claimCheck (channelIndex : Nat) (owner : String)
  | claimInsert (channelIndex : Nat) (owner : String)
  | claimChannels (channelIndex : Nat)
  | claimKeys (channelIndex : Nat) (channels : List RttChannelInfo)
  | claimSend (channelIndex : Nat) (channels : List RttChannelInfo) (claimed : Nat → Bool)
  /-- `found` is the selection that the section before has found. -/
  | claimSnapshot (channelIndex : Nat) (replacement found : Option Nat)
  | releaseRemove (channelIndex : Nat) (owner : String)
  | releaseChannels
  | releaseKeys (channels : List RttChannelInfo)
  | releaseSend (channels : List RttChannelInfo) (claimed : Nat → Bool)
  | releaseSnapshot (selected : Option Nat)
  | stopSend
  | stopSnapshot

inductive Operation where
  | setRunning (channels : List RttChannelInfo)
  | setSendChannel (channelIndex : Nat)
  | claimDownChannel (channelIndex : Nat) (owner : String)
  | releaseDownChannel (channelIndex : Nat) (owner : String)
  | setStopped
  | write (channelIndex : Nat)

def Operation.start : Operation → Phase
  | .setRunning channels => .running channels
  | .setSendChannel channelIndex => .checkDirection channelIndex true
  | .claimDownChannel channelIndex owner => .claimCheck channelIndex owner
  | .releaseDownChannel channelIndex owner => .releaseRemove channelIndex owner
  | .setStopped => .stopSend
  | .write channelIndex => .checkDirection channelIndex false

structure RttSnapshot where
  channels : List RttChannelInfo
  sendChannel : Option Nat
  channelClaims : ClaimTable

structure RttShared where
  channelClaims : ClaimTable
  sendChannel : Option Nat
  snapshot : RttSnapshot
  calls : Nat → Phase

/-- A thread begins a call, or takes the next section of its call. -/
inductive Action where
  | call (thread : Nat) (operation : Operation)
  | next (thread : Nat)

namespace RttShared

def new : RttShared :=
  ⟨fun _ => none, none, ⟨[], none, fun _ => none⟩, fun _ => .returned (.ok ())⟩

def goOn (s : RttShared) (thread : Nat) (phase : Phase) : RttShared :=
  { s with calls := Function.update s.calls thread phase }

/-- The next section of a call. A section in which another lock is taken is one step. -/
def lockSection (s : RttShared) (thread : Nat) : Phase → RttShared
  | .returned _ => s
  | .running channels => s.goOn thread (.runningSend channels (keys s.channelClaims))
  | .runningSend channels claimed =>
    let stillWritable := s.sendChannel.any fun index =>
      channels.any fun channel => channel.index = index && isWritable claimed channel
    let selected := if stillWritable then s.sendChannel else replacement channels claimed
    { s with sendChannel := selected }.goOn thread (.runningSnapshot channels claimed selected)
  | .runningSnapshot channels _ sendChannel =>
    { s with snapshot := ⟨channels, sendChannel, s.channelClaims⟩ }.goOn thread (.returned (.ok ()))
  | .checkDirection channelIndex select =>
    match validateChannelDirection s.snapshot.channels channelIndex false with
    | .error error => s.goOn thread (.returned (.error error))
    | .ok () => s.goOn thread (.checkClaims channelIndex select)
  | .checkClaims channelIndex select =>
    match validateUserWrite s.channelClaims channelIndex with
    | .error error => s.goOn thread (.returned (.error error))
    | .ok () => s.goOn thread (if select then .sendingStore channelIndex else .returned (.ok ()))
  | .sendingStore channelIndex =>
    { s with sendChannel := some channelIndex }.goOn thread (.sendingSnapshot channelIndex)
  | .sendingSnapshot channelIndex =>
    { s with snapshot := { s.snapshot with sendChannel := some channelIndex } }.goOn thread
      (.returned (.ok ()))
  | .claimCheck channelIndex owner =>
    match validateChannelDirection s.snapshot.channels channelIndex false with
    | .error error => s.goOn thread (.returned (.error error))
    | .ok () => s.goOn thread (.claimInsert channelIndex owner)
  | .claimInsert channelIndex owner =>
    match s.channelClaims channelIndex with
    | some existing =>
      if existing ≠ owner then
        s.goOn thread (.returned (.error ⟨.rttWriteFailed,
          s!"RTT Down Channel {channelIndex} 已由 {existing} 占用，无法交给 {owner}"⟩))
      else s.goOn thread (.returned (.ok ()))
    | none =>
      { s with channelClaims := Function.update s.channelClaims channelIndex (some owner) }.goOn thread
        (.claimChannels channelIndex)
  | .claimChannels channelIndex => s.goOn thread (.claimKeys channelIndex s.snapshot.channels)
  | .claimKeys channelIndex channels =>
    s.goOn thread (.claimSend channelIndex channels (keys s.channelClaims))
  | .claimSend channelIndex channels claimed =>
    let replacement := replacement channels claimed
    { s with
      sendChannel := if s.sendChannel = some channelIndex then replacement else s.sendChannel }.goOn
        thread (.claimSnapshot channelIndex replacement s.sendChannel)
  | .claimSnapshot channelIndex replacement _ =>
    { s with
      snapshot := { s.snapshot with
        sendChannel :=
          if s.snapshot.sendChannel = some channelIndex then replacement else s.snapshot.sendChannel
        channelClaims := s.channelClaims } }.goOn thread (.returned (.ok ()))
  | .releaseRemove channelIndex owner =>
    if s.channelClaims channelIndex = some owner then
      { s with channelClaims := Function.update s.channelClaims channelIndex none }.goOn thread
        .releaseChannels
    else s.goOn thread (.returned (.ok ()))
  | .releaseChannels => s.goOn thread (.releaseKeys s.snapshot.channels)
  | .releaseKeys channels => s.goOn thread (.releaseSend channels (keys s.channelClaims))
  | .releaseSend channels claimed =>
    let selected := if s.sendChannel = none then replacement channels claimed else s.sendChannel
    { s with sendChannel := selected }.goOn thread (.releaseSnapshot selected)
  | .releaseSnapshot selected =>
    { s with
      snapshot := { s.snapshot with
        sendChannel := selected
        channelClaims := s.channelClaims } }.goOn thread (.returned (.ok ()))
  | .stopSend => { s with sendChannel := none }.goOn thread .stopSnapshot
  | .stopSnapshot =>
    { s with
      snapshot := { s.snapshot with
        sendChannel := none
        channelClaims := fun _ => none } }.goOn thread (.returned (.ok ()))

def step (s : RttShared) : Action → RttShared
  | .call thread operation =>
    match s.calls thread with
    | .returned _ => s.goOn thread operation.start
    | _ => s
  | .next thread => s.lockSection thread (s.calls thread)

end RttShared

end TauTerm.Rtt.Claims
