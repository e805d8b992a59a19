import Mathlib
import TauTerm.VirtualPort.Bridge

/-!
# What a lease does to the ingress

The loop sends first and asks for the lease afterwards. Where the answer comes too
late, where a poll overtakes the chunk that waits, or where a cancelled read had its
data already, the bytes are lost. `Orderly` names these steps; in a run without them
every byte is written once, in order and outside of leases, and no lease stops the
loop (`ingress_survives`).
-/

namespace TauTerm.VirtualPort

open Lib (Run execute stepWhere run_of_execute run_of_executeWhere)
open Transport (System DriverAnswer TransportErrorKind Result Related related_spawn)

/-- What the loop has written to the device. -/
def Endpoint.forwarded (e : Endpoint) : List UInt8 := e.writes.flatMap Prod.fst

/-- The chunk of the send that the loop is at. -/
def Position.inHand : Position → List UInt8
  | .sending data _ => data
  | .inCall _ data _ => data
  | .asking _ data _ => data
  | _ => []

/-- The chunks that wait for their send. -/
def Endpoint.waiting (e : Endpoint) : List UInt8 := e.pendingWriteback.getD [] ++ e.read.data

/-- The loop has given up a chunk that the data plane would not take. -/
def Position.gaveUp : Position → Bool
  | .stopped (some (.writebackFailed _)) => true
  | _ => false

/-- The ingress has come to no harm. -/
structure Endpoint.Sound (e : Endpoint) : Prop where
  /-- Only a data plane that has ended is a reason to give up. -/
  fatal : e.position.gaveUp = true → e.plane.actor.left = true
  order : e.forwarded <+: e.received
  /-- What is not written is in the hands of the loop, or of its send. -/
  kept : e.position.gaveUp = false →
    e.received = e.forwarded ++ e.position.inHand ++ e.waiting ∨
      e.position.client.isSome ∧ e.received = e.forwarded ++ e.waiting
  unleased : ∀ write ∈ e.writes, write.2 = none

/-- A step at which a lease does no harm: an error is asked about while the flag is still set, no
poll hands over a chunk before the one that waits, and a cancelled read has no data yet. -/
def Endpoint.Orderly (e : Endpoint) (action : Action) : Prop :=
  match action, e.position with
  | .ask, .asking .busy _ _ => e.plane.isExclusive = true ∨ e.plane.actor.left = true
  | .egress .cancelsRead, _ => e.read.data = []
  | .checkLease, _ => e.plane.isExclusive = true → e.read.data = []
  | .settle cancels, _ => cancels = true → e.read.data = []
  | .poll true, _ => e.pendingWriteback = none ∨ e.read = .idle ∨ e.read = .pending
  | .poll false, _ => e.read.data = []
  | _, _ => True

instance (e : Endpoint) (action : Action) : Decidable (e.Orderly action) := by
  unfold Endpoint.Orderly
  split <;> infer_instance

/-! ## The invariant -/

/-- Where the bytes are that have been read and not written. -/
def Endpoint.Kept (e : Endpoint) : Prop :=
  match e.position with
  | .sending data _ =>
    e.pendingWriteback = none ∧ e.received = e.forwarded ++ data ++ e.read.data
  | .inCall client data _ =>
    client ∈ e.sends ∧ e.pendingWriteback = none ∧ ∃ done, e.plane.InFlight client data done ∧
      e.received = e.forwarded ++ (if done then [] else data) ++ e.read.data
  | .asking kind data _ =>
    e.pendingWriteback = none ∧ (kind = .busy ∨ e.plane.actor.left = true) ∧
      e.received = e.forwarded ++ data ++ e.read.data
  | .stopped (some (.writebackFailed _)) =>
    e.plane.actor.left = true ∧ e.forwarded <+: e.received
  | _ => e.received = e.forwarded ++ e.waiting

structure Endpoint.Inv (platform : Platform) (e : Endpoint) : Prop where
  related : ∃ phase, Related 0 e.plane phase
  /-- Every send but the one under way is over. -/
  ended : ∀ i ∈ e.sends, e.position.client ≠ some i →
    ∃ result, e.plane.clients i = .finished result
  posix : platform = .posix →
    e.read = .idle ∧ (e.position = .reading → e.pendingWriteback = none)
  unleased : ∀ write ∈ e.writes, write.2 = none
  kept : e.Kept

variable {platform : Platform} {e e' : Endpoint}

theorem Endpoint.inv_start (platform : Platform) (terminalControl : Bool) :
    (Endpoint.start terminalControl).Inv platform where
  related := ⟨_, related_spawn 0 terminalControl⟩
  ended := nofun
  posix _ := ⟨rfl, nofun⟩
  unleased := nofun
  kept := rfl

theorem Endpoint.Kept.sound (h : e.Kept) :
    (e.position.gaveUp = true → e.plane.actor.left = true) ∧ e.forwarded <+: e.received ∧
      (e.position.gaveUp = false →
        e.received = e.forwarded ++ e.position.inHand ++ e.waiting ∨
          e.position.client.isSome ∧ e.received = e.forwarded ++ e.waiting) := by
  have hrest (hposition : e.position.inHand = []) (hgave : e.position.gaveUp = false)
      (hreceived : e.received = e.forwarded ++ e.waiting) :
      (e.position.gaveUp = true → e.plane.actor.left = true) ∧ e.forwarded <+: e.received ∧
        (e.position.gaveUp = false →
          e.received = e.forwarded ++ e.position.inHand ++ e.waiting ∨
            e.position.client.isSome ∧ e.received = e.forwarded ++ e.waiting) := by
    refine ⟨fun hg => ?_, hreceived ▸ List.prefix_append _ _, fun _ => .inl ?_⟩
    · rw [hgave] at hg; cases hg
    · rw [hposition, List.append_nil, hreceived]
  have hwaiting (hp : e.pendingWriteback = none) : e.waiting = e.read.data := by
    rw [Endpoint.waiting, hp]; rfl
  unfold Endpoint.Kept at h
  cases hposition : e.position with
  | sending data retry =>
    rw [hposition] at h
    obtain ⟨hp, hreceived⟩ := h
    refine ⟨nofun, ?_, fun _ => .inl (by rw [hreceived, hwaiting hp]; rfl)⟩
    rw [hreceived, List.append_assoc]
    exact List.prefix_append _ _
  | inCall client data retry =>
    rw [hposition] at h
    obtain ⟨-, hp, done, -, hreceived⟩ := h
    refine ⟨nofun, ?_, fun _ => ?_⟩
    · rw [hreceived, List.append_assoc]
      exact List.prefix_append _ _
    · rw [hreceived, hwaiting hp]
      cases done with
      | true => exact .inr ⟨rfl, by simp⟩
      | false => exact .inl rfl
  | asking kind data retry =>
    rw [hposition] at h
    obtain ⟨hp, -, hreceived⟩ := h
    refine ⟨nofun, ?_, fun _ => .inl (by rw [hreceived, hwaiting hp]; rfl)⟩
    rw [hreceived, List.append_assoc]
    exact List.prefix_append _ _
  | stopped error =>
    match error with
    | none => rw [hposition] at h hrest; exact hrest rfl rfl h
    | some .queueDisconnected => rw [hposition] at h hrest; exact hrest rfl rfl h
    | some .port => rw [hposition] at h hrest; exact hrest rfl rfl h
    | some (.writebackFailed kind) =>
      rw [hposition] at h
      exact ⟨fun _ => h.1, h.2, nofun⟩
  | _ => rw [hposition] at h hrest; exact hrest rfl rfl h

theorem Endpoint.Inv.sound (h : e.Inv platform) : e.Sound :=
  have ⟨hfatal, horder, hkept⟩ := h.kept.sound
  ⟨hfatal, horder, hkept, h.unleased⟩

/-! ## The loop's own steps -/

/-- The loop is between two sends. -/
def Position.rests : Position → Bool
  | .top => true
  | .leaseCheck => true
  | .readCheck => true
  | .reading => true
  | .polled => true
  | _ => false

theorem Position.client_of_rests {position : Position} (h : position.rests = true) :
    position.client = none := by
  cases position <;> first | rfl | cases h

theorem Endpoint.Inv.received (h : e.Inv platform) (hp : e.position.rests = true) :
    e.received = e.forwarded ++ e.waiting := by
  have hkept := h.kept
  unfold Endpoint.Kept at hkept
  cases hposition : e.position <;> rw [hposition] at hkept hp <;> first
    | exact hkept
    | cases hp

/-- A step that leaves the data plane alone. -/
theorem Endpoint.Inv.local (h : e.Inv platform) (hclient : e.position.client = none)
    (hplane : e'.plane = e.plane) (hsends : e'.sends = e.sends) (hwrites : e'.writes = e.writes)
    (hposix : platform = .posix →
      e'.read = .idle ∧ (e'.position = .reading → e'.pendingWriteback = none))
    (hkept : e'.Kept) : e'.Inv platform where
  related := hplane ▸ h.related
  ended i hi _ := by
    rw [hplane]
    exact h.ended i (hsends ▸ hi) (by rw [hclient]; nofun)
  posix := hposix
  unleased := hwrites ▸ h.unleased
  kept := hkept

theorem Endpoint.Inv.egressStep (h : e.Inv platform) (hp : e.position = .top) {outcome : Egress}
    (ho : e.Orderly (.egress outcome)) (hs : e.egressStep platform outcome = some e') :
    e'.Inv platform := by
  have hreceived := h.received (by rw [hp]; rfl)
  have hclient : e.position.client = none := by rw [hp]; rfl
  cases outcome with
  | proceeds =>
    obtain rfl := Option.some.inj hs
    exact h.local hclient rfl rfl rfl (fun hx => ⟨(h.posix hx).1, nofun⟩) hreceived
  | cancelsRead =>
    cases platform with
    | posix => cases hs
    | windows =>
      obtain rfl := Option.some.inj hs
      refine h.local hclient rfl rfl rfl nofun ?_
      have hdata : e.read.data = [] := ho
      rw [Endpoint.waiting, hdata] at hreceived
      exact hreceived
  | backpressured =>
    cases platform with
    | windows => cases hs
    | posix => exact Option.some.inj hs ▸ h
  | cancelled =>
    obtain rfl := Option.some.inj hs
    exact h.local hclient rfl rfl rfl (fun hx => ⟨(h.posix hx).1, nofun⟩) hreceived
  | fails error =>
    cases error with
    | writebackFailed kind => cases hs
    | queueDisconnected =>
      obtain rfl := Option.some.inj hs
      exact h.local hclient rfl rfl rfl (fun hx => ⟨(h.posix hx).1, nofun⟩) hreceived
    | port =>
      obtain rfl := Option.some.inj hs
      exact h.local hclient rfl rfl rfl (fun hx => ⟨(h.posix hx).1, nofun⟩) hreceived

/-- The writeback's chunk is the first that waits. -/
theorem Endpoint.waiting_of_pending {data : List UInt8} (hp : e.pendingWriteback = some data) :
    e.waiting = data ++ e.read.data := by
  rw [Endpoint.waiting, hp]
  rfl

theorem Endpoint.waiting_of_none (hp : e.pendingWriteback = none) : e.waiting = e.read.data := by
  rw [Endpoint.waiting, hp]
  rfl

theorem Endpoint.Inv.checkLease (h : e.Inv platform) (hp : e.position = .leaseCheck)
    (ho : e.Orderly .checkLease) : (e.checkLease platform).Inv platform := by
  have hreceived := h.received (by rw [hp]; rfl)
  have hclient : e.position.client = none := by rw [hp]; rfl
  have hdiscard : e.plane.isExclusive = true → e.read.data = [] := ho
  unfold Endpoint.checkLease
  cases platform with
  | windows =>
    dsimp only
    split_ifs with hflag
    · refine h.local hclient rfl rfl rfl nofun ?_
      rw [Endpoint.waiting, hdiscard hflag] at hreceived
      exact hreceived
    · split
      · rename_i data hpending
        refine h.local hclient rfl rfl rfl nofun ⟨rfl, ?_⟩
        rw [Endpoint.waiting_of_pending hpending, ← List.append_assoc] at hreceived
        exact hreceived
      · exact h.local hclient rfl rfl rfl nofun hreceived
  | posix =>
    have hidle := (h.posix rfl).1
    dsimp only
    split_ifs with hflag
    · exact h.local hclient rfl rfl rfl (fun _ => ⟨hidle, nofun⟩) hreceived
    · split
      · rename_i data hpending
        refine h.local hclient rfl rfl rfl (fun _ => ⟨hidle, nofun⟩) ⟨rfl, ?_⟩
        rw [Endpoint.waiting_of_pending hpending, ← List.append_assoc] at hreceived
        exact hreceived
      · rename_i hpending
        exact h.local hclient rfl rfl rfl (fun _ => ⟨hidle, fun _ => hpending⟩) hreceived

theorem Endpoint.Inv.checkRead (h : e.Inv .windows) (hp : e.position = .readCheck)
    (starts : Bool) : (e.checkRead starts).Inv .windows := by
  have hreceived := h.received (by rw [hp]; rfl)
  have hclient : e.position.client = none := by rw [hp]; rfl
  unfold Endpoint.checkRead
  split_ifs with hstarts
  · refine h.local hclient rfl rfl rfl nofun ?_
    rw [Endpoint.waiting, hstarts.2.2] at hreceived
    exact hreceived
  · exact h.local hclient rfl rfl rfl nofun hreceived

theorem Endpoint.Inv.poll (h : e.Inv .windows) (hp : e.position = .reading) {succeeds : Bool}
    (ho : e.Orderly (.poll succeeds)) : (e.poll succeeds).Inv .windows := by
  have hreceived := h.received (by rw [hp]; rfl)
  have hclient : e.position.client = none := by rw [hp]; rfl
  cases succeeds with
  | true =>
    have horder : e.pendingWriteback = none ∨ e.read = .idle ∨ e.read = .pending := ho
    unfold Endpoint.poll
    rw [if_pos rfl]
    split
    · rename_i data hread
      have hpending : e.pendingWriteback = none := by
        refine horder.resolve_right fun hnot => ?_
        rw [hread] at hnot
        rcases hnot with hnot | hnot <;> cases hnot
      refine h.local hclient rfl rfl rfl nofun ⟨hpending, ?_⟩
      rw [Endpoint.waiting_of_none hpending, hread] at hreceived
      exact hreceived.trans (List.append_nil _).symm
    · exact h.local hclient rfl rfl rfl nofun hreceived
  | false =>
    have hdata : e.read.data = [] := ho
    refine h.local hclient rfl rfl rfl nofun ?_
    rw [Endpoint.waiting, hdata] at hreceived
    exact hreceived

theorem Endpoint.Inv.portFails (h : e.Inv .windows) (hs : e.portFails = some e') :
    e'.Inv .windows := by
  have hstop (hrests : e.position.rests = true)
      (hs : some { e with position := .stopped (some .port) } = some e') : e'.Inv .windows := by
    obtain rfl := Option.some.inj hs
    exact h.local (Position.client_of_rests hrests) rfl rfl rfl nofun (h.received hrests)
  unfold Endpoint.portFails at hs
  dsimp only at hs
  split at hs
  · rename_i hp
    split_ifs at hs
    exact hstop (by rw [hp]; rfl) hs
  · rename_i hp
    split_ifs at hs
    exact hstop (by rw [hp]; rfl) hs
  · rename_i hp
    split_ifs at hs
    exact hstop (by rw [hp]; rfl) hs
  · cases hs

/-- The kernel hands over what it has read from the peer. -/
theorem Endpoint.Inv.complete (h : e.Inv .windows) (hread : e.read = .pending)
    (data : List UInt8) :
    ({ e with read := .completed data, received := e.received ++ data } : Endpoint).Inv
      .windows := by
  have hkept := h.kept
  have hnone : e.read.data = [] := by rw [hread]; rfl
  refine ⟨h.related, h.ended, nofun, h.unleased, ?_⟩
  unfold Endpoint.Kept at hkept ⊢
  have hbehind {front : List UInt8} (hreceived : e.received = front ++ e.read.data) :
      e.received ++ data = front ++ data := by
    rw [hreceived, hnone, List.append_nil]
  have hrest (hreceived : e.received = e.forwarded ++ e.waiting) :
      e.received ++ data = e.forwarded ++ (e.pendingWriteback.getD [] ++ data) := by
    rw [← List.append_assoc]
    exact hbehind (hreceived.trans (List.append_assoc _ _ _).symm)
  dsimp only
  cases hposition : e.position with
  | sending chunk retry =>
    rw [hposition] at hkept
    exact ⟨hkept.1, hbehind hkept.2⟩
  | inCall client chunk retry =>
    rw [hposition] at hkept
    obtain ⟨hmem, hp, done, hflight, hreceived⟩ := hkept
    exact ⟨hmem, hp, done, hflight, hbehind hreceived⟩
  | asking kind chunk retry =>
    rw [hposition] at hkept
    exact ⟨hkept.1, hkept.2.1, hbehind hkept.2.2⟩
  | stopped error =>
    match error with
    | none => rw [hposition] at hkept; exact hrest hkept
    | some .queueDisconnected => rw [hposition] at hkept; exact hrest hkept
    | some .port => rw [hposition] at hkept; exact hrest hkept
    | some (.writebackFailed kind) =>
      rw [hposition] at hkept
      exact ⟨hkept.1, hkept.2.trans (List.prefix_append _ _)⟩
  | _ => rw [hposition] at hkept; exact hrest hkept

/-! ## The sends -/

theorem Position.rests_after (platform : Platform) (retry sent : Bool) :
    (Position.after platform retry sent).rests = true := by
  unfold Position.after
  split
  · rfl
  · split_ifs <;> rfl
  · rfl

theorem Endpoint.kept_of_rests (hp : e.position.rests = true)
    (h : e.received = e.forwarded ++ e.waiting) : e.Kept := by
  unfold Endpoint.Kept
  cases hposition : e.position <;> rw [hposition] at hp <;> first
    | exact h
    | cases hp

theorem Endpoint.Inv.returned (h : e.Inv platform) (hs : e.returned platform = some e') :
    e'.Inv platform := by
  unfold Endpoint.returned at hs
  split at hs
  · rename_i client data retry hp
    have hkept := h.kept
    unfold Endpoint.Kept at hkept
    rw [hp] at hkept
    obtain ⟨hmem, hpending, done, hflight, hreceived⟩ := hkept
    -- the call is over, so all of them are
    have hended {result : Result} (hc : e.plane.clients client = .finished result) (i : Nat)
        (hi : i ∈ e.sends) : ∃ result, e.plane.clients i = .finished result := by
      by_cases hown : client = i
      · exact ⟨result, hown ▸ hc⟩
      · exact h.ended i hi (by rw [hp]; exact fun heq => hown (Option.some.inj heq))
    split at hs
    · rename_i hc
      obtain rfl := Option.some.inj hs
      obtain ⟨rfl, -⟩ := hflight.of_finished hc
      refine ⟨h.related, fun i hi _ => hended hc i hi, fun hx => ⟨(h.posix hx).1, fun _ => hpending⟩,
        h.unleased, Endpoint.kept_of_rests (Position.rests_after platform retry true) ?_⟩
      show e.received = e.forwarded ++ e.waiting
      rw [Endpoint.waiting_of_none hpending]
      exact hreceived.trans (congrArg (· ++ e.read.data) (List.append_nil _))
    · rename_i kind hc
      obtain rfl := Option.some.inj hs
      obtain ⟨rfl, hsettled⟩ := hflight.of_finished hc
      refine ⟨h.related, fun i hi _ => hended hc i hi, fun hx => ⟨(h.posix hx).1, nofun⟩, h.unleased,
        hpending, ?_, hreceived⟩
      rcases hsettled with hok | hbusy | hleft
      · cases hok
      · exact .inl (Except.error.inj hbusy)
      · exact .inr hleft
    · cases hs
  · cases hs

theorem Endpoint.Inv.ask (h : e.Inv platform) (ho : e.Orderly .ask)
    (hs : e.ask platform = some e') : e'.Inv platform := by
  unfold Endpoint.ask at hs
  split at hs
  · rename_i kind data retry hp
    have hkept := h.kept
    unfold Endpoint.Kept at hkept
    rw [hp] at hkept
    obtain ⟨hpending, hkind, hreceived⟩ := hkept
    have hclient : e.position.client = none := by rw [hp]; rfl
    split_ifs at hs with hflag
    · obtain rfl := Option.some.inj hs
      refine h.local hclient rfl rfl rfl (fun hx => ⟨(h.posix hx).1, fun hreading => ?_⟩)
        (Endpoint.kept_of_rests (Position.rests_after platform retry false) ?_)
      · subst hx
        cases retry <;> cases hreading
      · rw [List.append_assoc] at hreceived
        exact hreceived
    · obtain rfl := Option.some.inj hs
      refine h.local hclient rfl rfl rfl (fun hx => ⟨(h.posix hx).1, nofun⟩) ⟨?_, ?_⟩
      · rcases hkind with rfl | hleft
        · have hheld : e.plane.isExclusive = true ∨ e.plane.actor.left = true := by
            unfold Endpoint.Orderly at ho
            rwa [hp] at ho
          exact hheld.resolve_left hflag
        · exact hleft
      · show e.forwarded <+: e.received
        rw [hreceived, List.append_assoc]
        exact List.prefix_append _ _
  · cases hs

/-- A step of the data plane that leaves the sends of the loop as they are and writes nothing
for it. -/
theorem Endpoint.Kept.plane (h : e.Kept) {plane : System}
    (hleft : e.plane.actor.left = true → plane.actor.left = true)
    (hflight : ∀ client data retry done, e.position = .inCall client data retry →
      e.plane.InFlight client data done → plane.InFlight client data done) :
    ({ e with plane } : Endpoint).Kept := by
  unfold Endpoint.Kept at h ⊢
  dsimp only
  cases hposition : e.position with
  | inCall client data retry =>
    rw [hposition] at h
    obtain ⟨hmem, hp, done, hf, hreceived⟩ := h
    exact ⟨hmem, hp, done, hflight client data retry done hposition hf, hreceived⟩
  | asking kind data retry =>
    rw [hposition] at h
    exact ⟨h.1, h.2.1.imp_right hleft, h.2.2⟩
  | stopped error =>
    match error with
    | none => rw [hposition] at h; exact h
    | some .queueDisconnected => rw [hposition] at h; exact h
    | some .port => rw [hposition] at h; exact h
    | some (.writebackFailed kind) => rw [hposition] at h; exact ⟨hleft h.1, h.2⟩
  | _ => rw [hposition] at h; exact h

/-- Nothing is written for a send that is over. -/
theorem Endpoint.Inv.writesOf_eq_nil (h : e.Inv platform) {answer : DriverAnswer}
    (hno : ∀ client, e.position.client = some client →
      ∀ bytes, e.plane.wrote answer ≠ some (client, bytes)) : e.writesOf answer = [] := by
  unfold Endpoint.writesOf
  split
  · rename_i client data hwrote
    refine if_neg fun hmem => ?_
    by_cases hown : e.position.client = some client
    · exact hno client hown data hwrote
    · obtain ⟨_, hrelated⟩ := h.related
      obtain ⟨result, hc⟩ := h.ended client hmem hown
      exact hrelated.not_wrote_of_finished hc data hwrote
  · rfl

theorem Position.inCall_of_client {position : Position} {client : Nat}
    (h : position.client = some client) : ∃ data retry, position = .inCall client data retry := by
  cases position <;> cases h
  exact ⟨_, _, rfl⟩

theorem Endpoint.Inv.actor (h : e.Inv platform) {answer : DriverAnswer} {plane : System}
    (ht : e.plane.actorStep answer = some plane) :
    ({ e with plane, writes := e.writes ++ e.writesOf answer } : Endpoint).Inv platform := by
  obtain ⟨phase, hrelated⟩ := h.related
  have hclients := System.actorStep_clients ht
  have hleft := System.actorStep_left ht
  have hnext : ∃ phase, Related 0 plane phase := by
    obtain ⟨-, phase', -, h', -⟩ := @hrelated.step _ _ _ _ (.actor answer) ht
    exact ⟨phase', h'⟩
  have hended (i : Nat) (hi : i ∈ e.sends) (hne : e.position.client ≠ some i) :
      ∃ result, plane.clients i = .finished result := hclients ▸ h.ended i hi hne
  -- the step writes nothing for the loop
  have hidle (hno : ∀ client, e.position.client = some client →
      ∀ bytes, e.plane.wrote answer ≠ some (client, bytes)) (hkept : ({ e with plane } : Endpoint).Kept) :
      ({ e with plane, writes := e.writes ++ e.writesOf answer } : Endpoint).Inv platform := by
    rw [h.writesOf_eq_nil hno, List.append_nil]
    exact ⟨hnext, hended, h.posix, h.unleased, hkept⟩
  cases hclient : e.position.client with
  | none =>
    refine hidle (fun client hc => ?_) (h.kept.plane hleft fun client data retry done hp _ => ?_)
    · rw [hclient] at hc; cases hc
    · rw [hp] at hclient; cases hclient
  | some client =>
    obtain ⟨data, retry, hp⟩ := Position.inCall_of_client hclient
    have hkept := h.kept
    unfold Endpoint.Kept at hkept
    rw [hp] at hkept
    obtain ⟨hmem, hpending, done, hflight, hreceived⟩ := hkept
    rcases hrelated.inFlight_actor hflight ht with ⟨hwrote, rfl, hdone⟩ | ⟨hno, hstill⟩
    · -- the device takes the chunk
      have hwrites : e.writesOf answer = [(data, none)] := by
        unfold Endpoint.writesOf
        rw [hwrote]
        dsimp only
        rw [if_pos hmem, System.exclusive_of_wrote hwrote]
      rw [hwrites]
      refine ⟨hnext, hended, h.posix, fun write hw => ?_, ?_⟩
      · rcases List.mem_append.mp hw with hw | hw
        · exact h.unleased write hw
        · rw [List.mem_singleton.mp hw]
      · have hforwarded : (e.writes ++ [(data, none)]).flatMap Prod.fst = e.forwarded ++ data := by
          simp [Endpoint.forwarded]
        unfold Endpoint.Kept
        dsimp only
        rw [hp]
        refine ⟨hmem, hpending, true, hdone, ?_⟩
        show e.received = (e.writes ++ [(data, none)]).flatMap Prod.fst ++ [] ++ e.read.data
        rw [hforwarded, List.append_nil]
        exact hreceived
    · refine hidle (fun client' hc => ?_) ?_
      · rw [hclient] at hc
        exact Option.some.inj hc ▸ hno
      · unfold Endpoint.Kept
        dsimp only
        rw [hp]
        exact ⟨hmem, hpending, done, hstill, hreceived⟩

/-- A step of another client of the data plane. -/
theorem Endpoint.Inv.client (h : e.Inv platform) {i : Nat} {action : Transport.ClientAction}
    {plane : System} (hi : e.position.client ≠ some i)
    (ht : e.plane.clientStep i action = some plane) :
    ({ e with plane } : Endpoint).Inv platform := by
  obtain ⟨phase, hrelated⟩ := h.related
  have hleaves := hrelated.clientStep_leaves ht
  refine ⟨?_, fun j hj hne => ?_, h.posix, h.unleased, h.kept.plane (fun hleft => ?_) ?_⟩
  · obtain ⟨-, phase', -, h', -⟩ := @hrelated.step _ _ _ _ (.client i action) ht
    exact ⟨phase', h'⟩
  · obtain ⟨result, hc⟩ := h.ended j hj hne
    have hji : j ≠ i := by
      rintro rfl
      rw [System.clientStep_finished hc] at ht
      cases ht
    exact ⟨result, (System.clientStep_others ht hji).1.trans hc⟩
  · rw [hleaves.actor]
    exact hleft
  · intro client data retry done hp hflight
    exact hrelated.inFlight_other hflight ht fun heq => hi (by rw [hp, ← heq]; rfl)

/-- A step of the send that is under way. -/
theorem Endpoint.Inv.own (h : e.Inv platform) {client : Nat} {data : List UInt8} {retry : Bool}
    (hp : e.position = .inCall client data retry) {action : Transport.ClientAction} {plane : System}
    (ht : e.plane.clientStep client action = some plane)
    (hflight : ∀ phase done, Related 0 e.plane phase → e.plane.InFlight client data done →
      plane.InFlight client data done) :
    ({ e with plane } : Endpoint).Inv platform := by
  obtain ⟨phase, hrelated⟩ := h.related
  have hleaves := hrelated.clientStep_leaves ht
  refine ⟨?_, fun j hj hne => ?_, h.posix, h.unleased, h.kept.plane (fun hleft => ?_) ?_⟩
  · obtain ⟨-, phase', -, h', -⟩ := @hrelated.step _ _ _ _ (.client client action) ht
    exact ⟨phase', h'⟩
  · have hji : j ≠ client := by
      rintro rfl
      exact hne (by rw [hp]; rfl)
    obtain ⟨result, hc⟩ := h.ended j hj hne
    exact ⟨result, (System.clientStep_others ht hji).1.trans hc⟩
  · rw [hleaves.actor]
    exact hleft
  · intro client' data' retry' done hp' hf
    obtain ⟨rfl, rfl, rfl⟩ := Position.inCall.inj (hp.symm.trans hp')
    exact hflight phase done hrelated hf

/-- The call of a send, up to its admission check. -/
theorem Endpoint.Inv.call (h : e.Inv platform) {client : Nat} {data : List UInt8} {retry : Bool}
    (hp : e.position = .sending data retry) (hc : e.plane.clients client = .idle) {plane : System}
    (ht : e.plane.clientStep client (.request (.write data)) = some plane) :
    ({ e with plane, sends := client :: e.sends, position := .inCall client data retry } :
      Endpoint).Inv platform := by
  obtain ⟨phase, hrelated⟩ := h.related
  have hkept := h.kept
  unfold Endpoint.Kept at hkept
  rw [hp] at hkept
  refine ⟨?_, fun j hj hne => ?_, fun hx => ⟨(h.posix hx).1, nofun⟩, h.unleased,
    List.mem_cons_self, hkept.1, false, System.inFlight_call hc ht, hkept.2⟩
  · obtain ⟨-, phase', -, h', -⟩ :=
      @hrelated.step _ _ _ _ (.client client (.request (.write data))) ht
    exact ⟨phase', h'⟩
  · have hji : j ≠ client := by
      rintro rfl
      exact hne rfl
    have hmem := (List.mem_cons.mp hj).resolve_left hji
    obtain ⟨result, hfinished⟩ := h.ended j hmem (by rw [hp]; nofun)
    exact ⟨result, (System.clientStep_others ht hji).1.trans hfinished⟩

/-! ## Runs -/

theorem Endpoint.Inv.step (h : e.Inv platform) {action : Action} (ho : e.Orderly action)
    (hs : e.step platform action = some e') : e'.Inv platform := by
  unfold Endpoint.step at hs
  split at hs
  · rename_i action
    cases action with
    | actor answer =>
      obtain ⟨plane, ht, rfl⟩ := Option.map_eq_some_iff.mp hs
      exact h.actor ht
    | client i action =>
      simp only [Endpoint.planeStep] at hs
      split_ifs at hs with hi
      obtain ⟨plane, ht, rfl⟩ := Option.map_eq_some_iff.mp hs
      exact h.client hi ht
  · rename_i hp
    exact h.egressStep hp ho hs
  · rename_i hp
    exact Option.some.inj hs ▸ h.checkLease hp ho
  · rename_i hp
    exact Option.some.inj hs ▸ h.checkRead hp _
  · split_ifs at hs with hcomplete
    exact Option.some.inj hs ▸ h.complete hcomplete.1 _
  · rename_i data hp
    have hreceived := h.received (by rw [hp]; rfl)
    have hclient : e.position.client = none := by rw [hp]; rfl
    obtain ⟨hidle, hnone⟩ := h.posix rfl
    split_ifs at hs with hnothing hlength
    · obtain rfl := Option.some.inj hs
      exact h.local hclient rfl rfl rfl (fun _ => ⟨hidle, nofun⟩) hreceived
    · obtain rfl := Option.some.inj hs
      refine h.local hclient rfl rfl rfl (fun _ => ⟨hidle, nofun⟩) ⟨hnone hp, ?_⟩
      show e.received ++ data = e.forwarded ++ data ++ e.read.data
      rw [hreceived, Endpoint.waiting_of_none (hnone hp), hidle]
      simp [OverlappedRead.data]
  · rename_i hp
    exact Option.some.inj hs ▸ h.poll hp ho
  · rename_i cancels hp
    have hreceived := h.received (by rw [hp]; rfl)
    have hclient : e.position.client = none := by rw [hp]; rfl
    obtain rfl := Option.some.inj hs
    cases cancels with
    | false => exact h.local hclient rfl rfl rfl nofun hreceived
    | true =>
      have hdata : e.read.data = [] := ho rfl
      refine h.local hclient rfl rfl rfl nofun ?_
      rw [Endpoint.waiting, hdata] at hreceived
      exact hreceived
  · exact h.portFails hs
  · rename_i hp
    split at hs
    · rename_i hc
      obtain ⟨plane, ht, rfl⟩ := Option.map_eq_some_iff.mp hs
      exact h.call hp hc ht
    · cases hs
  · rename_i hp
    obtain ⟨plane, ht, rfl⟩ := Option.map_eq_some_iff.mp hs
    exact h.own hp ht fun phase done _ hflight => System.inFlight_send hflight ht
  · rename_i hp
    obtain ⟨plane, ht, rfl⟩ := Option.map_eq_some_iff.mp hs
    exact h.own hp ht fun phase done hrelated hflight => hrelated.inFlight_receive hflight ht
  · exact h.returned hs
  · exact h.ask ho hs
  · cases hs

/-- A step of the endpoint that meets `Orderly`. -/
def StepsOrderly (platform : Platform) (e : Endpoint) (action : Action) (e' : Endpoint) : Prop :=
  e.step platform action = some e' ∧ e.Orderly action

/-- **The ingress survives leases**, in every run whose steps are orderly. -/
theorem ingress_survives {terminalControl : Bool} {as : List Action}
    (hrun : Run (StepsOrderly platform) (Endpoint.start terminalControl) as e) : e.Sound :=
  (@hrun.invariant _ _ _ _ _ _ (Endpoint.Inv platform) (fun _ _ _ h hs => h.step hs.2 hs.1)
      (Endpoint.inv_start platform terminalControl)).sound

/-- Client 0 announces a lease between the read of a chunk and its send. -/
def refused : List Action :=
  [.egress .proceeds, .checkLease, .read [65], .plane (.client 0 .compareExchange), .call 1, .returned]

/-- It takes the lease and returns it. -/
def leaseAndReturn : List Action :=
  [.client 0 .send, .actor .done, .actor .done, .actor .done, .client 0 .receive, .actor .done,
    .client 0 .release, .actor .done, .actor .done, .actor .done, .client 0 .receive,
    .client 0 .clearFlag].map .plane

def retried : List Action :=
  [.egress .proceeds, .checkLease, .call 2, .send, .plane (.actor .done), .plane (.actor .done),
    .plane (.actor .done), .receive, .returned]

theorem ingress_survives_refused :
    ∃ e : Endpoint, e.received = [65] ∧ e.writes = [([65], none)] ∧ e.Sound := by
  have hdone : (execute (stepWhere (Endpoint.step .posix) fun e action _ => e.Orderly action)
      (Endpoint.start true) (refused ++ [.ask] ++ leaseAndReturn ++ retried)).map
        (fun e => (e.received, e.writes)) = some ([65], [([65], none)]) := by decide
  obtain ⟨e, he, heq⟩ := Option.map_eq_some_iff.mp hdone
  obtain ⟨hreceived, hwrites⟩ := Prod.mk.inj heq
  exact ⟨e, hreceived, hwrites, ingress_survives (run_of_executeWhere he)⟩

/-- On Windows a read may start and end while a refused chunk waits. -/
def overtaken : List Action :=
  ([.egress .proceeds, .checkLease, .checkRead true, .complete [65], .poll true,
    .plane (.client 0 .compareExchange), .call 1, .returned, .ask, .egress .proceeds,
    .checkLease] : List Action) ++ leaseAndReturn ++
    ([.checkRead true, .complete [66], .poll true, .call 2, .send, .plane (.actor .done),
      .plane (.actor .done)] : List Action)

/-- The lease is back before the loop asks for it; the later byte is written first. -/
theorem ingress_harmed :
    (¬ ∀ (as : List Action) (e : Endpoint),
      Run (fun e a e' => e.step .posix a = some e') (Endpoint.start true) as e → e.Sound) ∧
    ¬ ∀ (as : List Action) (e : Endpoint),
      Run (fun e a e' => e.step .windows a = some e') (Endpoint.start true) as e → e.Sound := by
  constructor
  · intro hall
    have hstopped : ((execute (Endpoint.step .posix) (Endpoint.start true)
        (refused ++ leaseAndReturn ++ [.ask])).map fun e => (e.position, e.plane.actor.left)) =
        some (.stopped (some (.writebackFailed .busy)), false) := by decide
    obtain ⟨e, he, heq⟩ := Option.map_eq_some_iff.mp hstopped
    obtain ⟨hposition, hleft⟩ := Prod.mk.inj heq
    have hgave := (hall _ e (run_of_execute he)).fatal (by rw [hposition]; rfl)
    rw [hleft] at hgave
    cases hgave
  · intro hall
    have hwritten : ((execute (Endpoint.step .windows) (Endpoint.start true) overtaken).map fun e =>
        (e.received, e.forwarded)) = some ([65, 66], [66]) := by decide
    obtain ⟨e, he, heq⟩ := Option.map_eq_some_iff.mp hwritten
    obtain ⟨hreceived, hforwarded⟩ := Prod.mk.inj heq
    have horder := (hall _ e (run_of_execute he)).order
    rw [hreceived, hforwarded] at horder
    exact absurd horder (by decide)

end TauTerm.VirtualPort
