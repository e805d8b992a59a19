import Mathlib
import TauTerm.Transport.Handover

/-!
# The driver object

Results on every run of the runtime, about the driver rather than its bytes: it has
one holder, the actor does not touch what it has lent, a shutdown that comes in the
meantime is carried out when the driver is back, and there is one shutdown
(`driver_owned_and_shut_once`).
-/

namespace TauTerm.Transport

open Lib Protocol

variable {s₀ i : Nat} {terminalControl : Bool} {phase : Nat → Phase} {s t : System}
  {as : List Action}

theorem related_of_run (hrun : Run Steps (System.spawn terminalControl) as t) :
    ∃ phase, Related 0 t phase := (related_spawn 0 terminalControl).follows hrun

/-! ## The holder -/

/-- Who has the driver object. -/
inductive Holder where
  | actor
  | message (client : Nat)
  | lease (client : Nat)
  deriving DecidableEq

def Message.CarriesDriver : Message → Prop
  | .giveBack _ => True
  | .grant _ => True
  | .lease _ => True
  | _ => False

def System.Holds (s : System) : Holder → Prop
  | .actor => s.driver = true
  | .message i => ∃ message, s.messages i = [message] ∧ message.CarriesDriver
  | .lease i => ∃ prefetched, s.clients i = .leased prefetched

/-- A client in a phase with the driver has its lease, or the driver is on its way. -/
theorem Stands.holder {joined : Bool} {client : Client} {messages : List Message} {φ : Phase}
    (h : Stands joined client messages φ) :
    (φ.held.isSome ↔ (∃ message, messages = [message] ∧ message.CarriesDriver) ∨
      ∃ prefetched, client = .leased prefetched) ∧
    ¬ ((∃ message, messages = [message] ∧ message.CarriesDriver) ∧
      ∃ prefetched, client = .leased prefetched) := by
  cases h <;> simp [Phase.held, Message.CarriesDriver]

theorem Related.holder (h : Related s₀ s phase) : ∃! holder, s.Holds holder := by
  have haway (i : Nat) : s.Holds (.message i) ∨ s.Holds (.lease i) ↔ s.state.exclusive = some i := by
    rw [← show (phase i).held.isSome = true ↔ s.state.exclusive = some i from ?_]
    · exact (h.stands i).holder.1.symm
    · constructor
      · intro hheld
        obtain ⟨bytes, hbytes⟩ := Option.isSome_iff_exists.mp hheld
        exact h.owned.held i bytes hbytes
      · exact fun he => (h.owned.owner i he).1
  cases he : s.state.exclusive with
  | none =>
    refine ⟨.actor, h.owned.driver he, fun holder hholder => ?_⟩
    cases holder with
    | actor => rfl
    | message i => exact absurd ((haway i).mp (.inl hholder)) (by rw [he]; nofun)
    | lease i => exact absurd ((haway i).mp (.inr hholder)) (by rw [he]; nofun)
  | some i =>
    have hdriver : s.driver = false := (h.owned.owner i he).2.1
    have hone {j : Nat} (hj : s.Holds (.message j) ∨ s.Holds (.lease j)) : j = i := by
      have hj' := (haway j).mp hj
      rw [he] at hj'
      exact (Option.some.inj hj').symm
    have hboth : ¬ (s.Holds (.message i) ∧ s.Holds (.lease i)) := (h.stands i).holder.2
    rcases (haway i).mpr he with hmessage | hlease
    · refine ⟨.message i, hmessage, fun holder hholder => ?_⟩
      cases holder with
      | actor => rw [System.Holds, hdriver] at hholder; cases hholder
      | message j => rw [hone (.inl hholder)]
      | lease j =>
        obtain rfl := hone (.inr hholder)
        exact absurd ⟨hmessage, hholder⟩ hboth
    · refine ⟨.lease i, hlease, fun holder hholder => ?_⟩
      cases holder with
      | actor => rw [System.Holds, hdriver] at hholder; cases hholder
      | message j =>
        obtain rfl := hone (.inl hholder)
        exact absurd ⟨hholder, hlease⟩ hboth
      | lease j => rw [hone (.inr hholder)]

/-- The actor is without the driver exactly while a client owns it. -/
theorem Related.away_iff (h : Related s₀ s phase) : s.driver = false ↔ s.state.exclusive.isSome := by
  constructor
  · intro hd
    by_contra hnone
    have hdriver : s.driver = true := h.owned.driver (Option.not_isSome_iff_eq_none.mp hnone)
    rw [hd] at hdriver
    cases hdriver
  · intro he
    obtain ⟨i, hi⟩ := Option.isSome_iff_exists.mp he
    exact (h.owned.owner i hi).2.1

/-! ## While it is away -/

/-- A step of the actor that does not touch the driver it has lent: it leaves the
commands alone, or takes one that is no return and notes a shutdown. -/
structure System.Waits (s t : System) : Prop where
  driver : t.driver = false
  driverShutdown : t.driverShutdown = s.driverShutdown
  pending : s.state.shutdownPending = true → t.state.shutdownPending = true
  queue : t.queue = s.queue ∨ ∃ command, s.queue = command :: t.queue ∧
    (∀ i prefetched, command ≠ .returnExclusive i prefetched) ∧
    ∀ client, command = .shutdown client → t.state.shutdownPending = true

/-- The step that takes the driver back. -/
structure System.TakesBack (s t : System) : Prop where
  driver : t.driver = true
  driverShutdown : t.driverShutdown = s.driverShutdown
  pending : t.state.shutdownPending = s.state.shutdownPending
  queue : ∃ i prefetched receive,
    s.queue = .returnExclusive i prefetched :: t.queue ∧ t.actor = .returnClearing i receive

theorem System.resume_driver (s : System) (receive : Receive) :
    (s.resume receive).driver = s.driver ∧ (s.resume receive).driverShutdown = s.driverShutdown ∧
      (s.resume receive).state = s.state ∧ (s.resume receive).queue = s.queue ∧
      (s.resume receive).written = s.written ∧ (s.resume receive).shutdowns = s.shutdowns := by
  cases receive <;> exact ⟨rfl, rfl, rfl, rfl, rfl, rfl⟩

theorem System.waits_resume {t : System} {receive : Receive} (h : s.Waits t) :
    s.Waits (t.resume receive) := by
  obtain ⟨hdriver, hshutdown, hstate, hqueue, -, -⟩ := t.resume_driver receive
  exact ⟨hdriver ▸ h.driver, hshutdown ▸ h.driverShutdown, hstate ▸ h.pending, by rw [hqueue, hstate]; exact h.queue⟩

/-- Handling a command while the driver is lent. -/
theorem Related.handleCommand_away (h : Related s₀ s phase) (hd : s.driver = false) {receive : Receive}
    {command : RuntimeCommand} {queue : List RuntimeCommand} (hs : s.actor = receive.actor)
    (hq : s.queue = command :: queue) (answer : DriverAnswer) :
    let t := { s with queue }.handleCommand receive answer command
    (∀ answer', { s with queue }.handleCommand receive answer' command = t) ∧
      t.written = s.written ∧ t.shutdowns = s.shutdowns ∧ (s.Waits t ∨ s.TakesBack t) := by
  have he : s.state.exclusive.isSome := h.away_iff.mp hd
  have htaken {t : System} (hdriver : t.driver = s.driver)
      (hshutdown : t.driverShutdown = s.driverShutdown)
      (hpending : t.state.shutdownPending = s.state.shutdownPending) (hqueue : t.queue = queue)
      (hreturn : ∀ i prefetched, command ≠ .returnExclusive i prefetched)
      (hother : ∀ client, command ≠ .shutdown client) : s.Waits t :=
    ⟨hdriver.trans hd, hshutdown, fun hp => hpending.trans hp, .inr ⟨command, by rw [hqueue, hq], hreturn,
      fun client heq => absurd heq (hother client)⟩⟩
  cases command with
  | request client request =>
    simp only [System.handleCommand, System.handleRequest, he, if_true]
    exact ⟨fun _ => trivial, trivial, trivial, .inl (htaken rfl rfl rfl rfl nofun nofun)⟩
  | subscribe id capacityMessages =>
    simp only [System.handleCommand]
    refine ⟨fun _ => trivial, ?_⟩
    unfold System.handleSubscribe
    split_ifs
    · obtain ⟨-, -, -, -, hwritten, hshutdowns⟩ := System.resume_driver _ receive
      exact ⟨hwritten, hshutdowns, .inl (System.waits_resume (htaken rfl rfl rfl rfl nofun nofun))⟩
    · dsimp only
      split <;>
      · obtain ⟨-, -, -, -, hwritten, hshutdowns⟩ := System.resume_driver _ receive
        exact ⟨hwritten, hshutdowns, .inl (System.waits_resume (htaken rfl rfl rfl rfl nofun nofun))⟩
  | unsubscribe id =>
    obtain ⟨-, -, -, -, hwritten, hshutdowns⟩ := System.resume_driver _ receive
    exact ⟨fun _ => rfl, hwritten, hshutdowns,
      .inl (System.waits_resume (htaken rfl rfl rfl rfl nofun nofun))⟩
  | acquireExclusive ownerId =>
    simp only [System.handleCommand, System.handleAcquire, he, if_true]
    exact ⟨fun _ => trivial, trivial, trivial, .inl (htaken rfl rfl rfl rfl nofun nofun)⟩
  | returnExclusive ownerId prefetched =>
    -- nobody but the owner has the driver to return
    obtain ⟨-, -, hp⟩ := (h.command (i := ownerId) (hs ▸ receive.idle) hq fun j => rfl).1.of_giveBack
    have hi : s.state.exclusive = some ownerId := h.owned.held ownerId prefetched (by
      rw [show (s.protocol s₀ phase).phase ownerId = _ from hp]; rfl)
    simp only [System.handleCommand, System.handleReturn, hi, ne_eq, not_true_eq_false, if_false, hd,
      Bool.false_eq_true]
    exact ⟨fun _ => trivial, trivial, trivial, .inr ⟨rfl, rfl, rfl, ownerId, prefetched, receive, hq, rfl⟩⟩
  | shutdown client =>
    simp only [System.handleCommand, System.handleShutdown, he, if_true]
    exact ⟨fun _ => trivial, trivial, trivial, .inl ⟨hd, rfl, fun _ => rfl, .inr ⟨_, hq, nofun, fun _ _ => rfl⟩⟩⟩

/-- The actor's steps while the driver is lent. None of them asks the driver. -/
theorem Related.actorStep_away (h : Related s₀ s phase) (hd : s.driver = false) {answer : DriverAnswer}
    (ht : s.actorStep answer = some t) :
    (∀ answer', s.actorStep answer' = some t) ∧ t.written = s.written ∧ t.shutdowns = s.shutdowns ∧
      (s.Waits t ∨ s.TakesBack t) := by
  have he : s.state.exclusive.isSome := h.away_iff.mp hd
  have hok := h.actor
  have hlent (hnone : s.state.exclusive = none) : False := by rw [hnone] at he; cases he
  cases hs : s.actor with
  | top =>
    simp only [System.actorStep, hs, he, true_or, if_true, Option.some.injEq] at ht
    subst ht
    exact ⟨fun _ => by simp [System.actorStep, hs, he], rfl, rfl, .inl ⟨hd, rfl, id, .inl rfl⟩⟩
  | waiting =>
    simp only [System.actorStep, hs] at ht ⊢
    cases hq : s.queue with
    | nil => rw [hq] at ht; cases ht
    | cons command queue =>
      rw [hq] at ht
      obtain rfl := Option.some.inj ht
      obtain ⟨hall, hrest⟩ := @h.handleCommand_away _ _ _ hd .blocking _ _ hs hq answer
      exact ⟨fun answer' => congrArg some (hall answer'), hrest⟩
  | draining => rw [hs] at hok; exact (hlent hok.1).elim
  | drained =>
    simp only [System.actorStep, hs, he, true_or, if_true, Option.some.injEq] at ht
    subst ht
    exact ⟨fun _ => by simp [System.actorStep, hs, he], rfl, rfl, .inl ⟨hd, rfl, id, .inl rfl⟩⟩
  | reading => rw [hs] at hok; exact (hlent hok.1).elim
  | gotData data => rw [hs] at hok; exact (hlent hok.1).elim
  | granting ownerId prefetched receive =>
    have hm : ∀ j, s.actor.messages j = (Message.grant prefetched).only ownerId j := fun j => by
      rw [hs]; rfl
    obtain ⟨hi, -⟩ := h.inActor (i := ownerId) (by rw [hs]; nofun) (by rw [hm, Message.only_self])
    have hc := hi.of_grant.1
    simp only [System.actorStep, hs, System.sendLease, hc, Option.some.injEq] at ht ⊢
    subst ht
    obtain ⟨-, -, -, -, hwritten, hshutdowns⟩ :=
      System.resume_driver (s.reply ownerId (.lease prefetched)) receive
    exact ⟨fun _ => rfl, hwritten, hshutdowns, .inl (System.waits_resume ⟨hd, rfl, id, .inl rfl⟩)⟩
  | rejecting ownerId kind receive =>
    simp only [System.actorStep, hs, Option.some.injEq] at ht ⊢
    subst ht
    exact ⟨fun _ => rfl, rfl, rfl, .inl ⟨hd, rfl, id, .inl rfl⟩⟩
  | rejectClearing receive =>
    simp only [System.actorStep, hs, Option.some.injEq] at ht ⊢
    subst ht
    obtain ⟨-, -, -, -, hwritten, hshutdowns⟩ :=
      System.resume_driver { s with exclusiveActive := false } receive
    exact ⟨fun _ => rfl, hwritten, hshutdowns, .inl (System.waits_resume ⟨hd, rfl, id, .inl rfl⟩)⟩
  | returnClearing ownerId receive => rw [hs] at hok; exact (hlent hok.2).elim
  | acking client result outcome receive =>
    have houtcome : outcome = .continue := by
      by_contra hne
      rw [hs] at hok
      exact hlent (hok.2 hne)
    subst houtcome
    simp only [System.actorStep, hs, Option.some.injEq, System.applyCommandOutcome] at ht ⊢
    subst ht
    obtain ⟨-, -, -, -, hwritten, hshutdowns⟩ := System.resume_driver (s.reply client (.result result)) receive
    exact ⟨fun _ => rfl, hwritten, hshutdowns, .inl (System.waits_resume ⟨hd, rfl, id, .inl rfl⟩)⟩
  | closing => rw [hs] at hok; exact (hlent hok).elim
  | shuttingDown => rw [hs] at hok; exact (hlent hok).elim
  | guarding => rw [hs] at hok; exact (hlent hok).elim
  | dropping => rw [hs] at hok; exact (hlent hok).elim
  | stopped => rw [hs] at hok; exact (hlent hok).elim

/-! ## The shutdown -/

/-- How often the driver has been shut down where the actor stands. -/
def Actor.shutdowns (driverShutdown : Bool) : Actor → Nat
  | .acking _ _ .shutdown _ => 1
  | .closing => driverShutdown.toNat
  | .shuttingDown => driverShutdown.toNat
  | .guarding => 1
  | .dropping => 1
  | .stopped => 1
  | _ => 0

/-- The actor has left its loop. -/
def Actor.left : Actor → Bool
  | .closing => true
  | .shuttingDown => true
  | .guarding => true
  | .dropping => true
  | .stopped => true
  | _ => false

structure System.ShutOnce (s : System) : Prop where
  shutdowns : s.shutdowns = s.actor.shutdowns s.driverShutdown
  serving : s.actor.left = false → s.driverShutdown = false
  /-- A shutdown that was put off is carried out as soon as the driver is back. -/
  pending : s.state.shutdownPending = true →
    s.driver = false ∨ (∃ i receive, s.actor = .returnClearing i receive) ∨ s.shutdowns = 1

/-- A step that neither takes nor shuts down the driver, from a position in the loop to one
in the loop or at its end. -/
theorem System.ShutOnce.keep (h : s.ShutOnce) (hs : s.actor.left = false)
    (hactor : t.actor.shutdowns false = s.actor.shutdowns false)
    (hreturn : ∀ i receive, s.actor ≠ .returnClearing i receive) (hdriver : t.driver = s.driver)
    (hshutdown : t.driverShutdown = s.driverShutdown) (hshutdowns : t.shutdowns = s.shutdowns)
    (hpending : t.state.shutdownPending = s.state.shutdownPending) : t.ShutOnce := by
  have hfalse := h.serving hs
  refine ⟨?_, fun _ => hshutdown.trans hfalse, fun hp => ?_⟩
  · rw [hshutdowns, hshutdown, hfalse, hactor, h.shutdowns, hfalse]
  · rw [hpending] at hp
    rw [hdriver, hshutdowns]
    rcases h.pending hp with haway | ⟨i, receive, hreturning⟩ | hdone
    · exact .inl haway
    · exact absurd hreturning (hreturn i receive)
    · exact .inr (.inr hdone)

theorem System.ShutOnce.keep_resume (h : s.ShutOnce) {receive : Receive} (hs : s.actor.left = false)
    (hactor : s.actor.shutdowns false = 0)
    (hreturn : ∀ i receive, s.actor ≠ .returnClearing i receive) (hdriver : t.driver = s.driver)
    (hshutdown : t.driverShutdown = s.driverShutdown) (hshutdowns : t.shutdowns = s.shutdowns)
    (hpending : t.state.shutdownPending = s.state.shutdownPending) :
    (t.resume receive).ShutOnce := by
  obtain ⟨hdriver', hshutdown', hstate', -, -, hshutdowns'⟩ := t.resume_driver receive
  refine h.keep hs ?_ hreturn (hdriver'.trans hdriver) (hshutdown'.trans hshutdown)
    (hshutdowns'.trans hshutdowns) (by rw [hstate']; exact hpending)
  rw [hactor]
  cases receive with
  | blocking => rfl
  | drain =>
    unfold System.resume
    dsimp only
    split_ifs <;> rfl

theorem System.publishSharedData_driver (s : System) (data : List UInt8) :
    (s.publishSharedData data).driver = s.driver ∧
      (s.publishSharedData data).driverShutdown = s.driverShutdown ∧
      (s.publishSharedData data).shutdowns = s.shutdowns ∧
      (s.publishSharedData data).state.shutdownPending = s.state.shutdownPending := by
  unfold System.publishSharedData
  split_ifs <;> exact ⟨rfl, rfl, rfl, rfl⟩

theorem Receive.left_actor (receive : Receive) : receive.actor.left = false := by
  cases receive <;> rfl

theorem Receive.shutdowns_actor (receive : Receive) (driverShutdown : Bool) :
    receive.actor.shutdowns driverShutdown = 0 := by
  cases receive <;> rfl

theorem Receive.actor_ne (receive receive' : Receive) (i : Nat) :
    receive.actor ≠ .returnClearing i receive' := by
  cases receive <;> nofun

/-- Handling a command with the driver at hand. -/
theorem Related.handleCommand_shutOnce (h : Related s₀ s phase) (hd : s.driver = true)
    (hshut : s.ShutOnce) {receive : Receive} {command : RuntimeCommand} {queue : List RuntimeCommand}
    (hs : s.actor = receive.actor) (hq : s.queue = command :: queue) (answer : DriverAnswer) :
    ({ s with queue }.handleCommand receive answer command).ShutOnce := by
  have hnone : s.state.exclusive = none := by
    cases he : s.state.exclusive with
    | none => rfl
    | some i => rw [h.away_iff.mpr (by rw [he]; rfl)] at hd; cases hd
  have hleft : s.actor.left = false := hs ▸ receive.left_actor
  have hzero (driverShutdown : Bool) : s.actor.shutdowns driverShutdown = 0 :=
    hs ▸ receive.shutdowns_actor driverShutdown
  have hreturn (i : Nat) (receive' : Receive) : s.actor ≠ .returnClearing i receive' :=
    hs ▸ receive.actor_ne receive' i
  cases command with
  | request client request =>
    simp only [System.handleCommand, System.handleRequest, hnone, hd, Option.isSome_none,
      Bool.false_eq_true, if_false, not_true_eq_false]
    split
    · exact hshut.keep hleft (hzero false).symm hreturn hd.symm rfl rfl rfl
    · split <;> exact hshut.keep hleft (hzero false).symm hreturn hd.symm rfl rfl rfl
  | subscribe id capacityMessages =>
    simp only [System.handleCommand, System.handleSubscribe]
    split_ifs
    · exact hshut.keep_resume hleft (hzero false) hreturn rfl rfl rfl rfl
    · split <;> exact hshut.keep_resume hleft (hzero false) hreturn rfl rfl rfl rfl
  | unsubscribe id => exact hshut.keep_resume hleft (hzero false) hreturn rfl rfl rfl rfl
  | acquireExclusive ownerId =>
    simp only [System.handleCommand, System.handleAcquire, hnone, hd, Option.isSome_none,
      Bool.false_eq_true, if_false, not_true_eq_false]
    have hfalse := hshut.serving hleft
    exact ⟨by rw [show Actor.shutdowns _ (.granting _ _ _) = 0 from rfl]; exact
      hshut.shutdowns.trans (hzero _), fun _ => hfalse, fun _ => .inl rfl⟩
  | returnExclusive ownerId prefetched =>
    obtain ⟨-, -, hp⟩ := (h.command (i := ownerId) (hs ▸ receive.idle) hq fun j => rfl).1.of_giveBack
    have hi : s.state.exclusive = some ownerId := h.owned.held ownerId prefetched (by
      rw [show (s.protocol s₀ phase).phase ownerId = _ from hp]; rfl)
    rw [hnone] at hi
    cases hi
  | shutdown client =>
    simp only [System.handleCommand, System.handleShutdown, hnone, hd, Option.isSome_none,
      Bool.false_eq_true, if_false, if_true]
    have hone : s.shutdowns + 1 = 1 := by rw [hshut.shutdowns, hzero]
    exact ⟨hone, fun _ => hshut.serving hleft, fun _ => .inr (.inr hone)⟩

/-- The actor's steps with the driver at hand. -/
theorem Related.actorStep_shutOnce (h : Related s₀ s phase) (hd : s.driver = true)
    (hshut : s.ShutOnce) {answer : DriverAnswer} (ht : s.actorStep answer = some t) : t.ShutOnce := by
  cases hs : s.actor with
  | top =>
    simp only [System.actorStep, hs] at ht
    split_ifs at ht
    · obtain rfl := Option.some.inj ht
      exact hshut.keep (by rw [hs]; rfl) (by rw [hs]; rfl) (by rw [hs]; nofun) rfl rfl rfl rfl
    · obtain rfl := Option.some.inj ht
      obtain ⟨hdriver, hshutdown, hshutdowns, hpending⟩ := System.publishSharedData_driver
        { s with state := { s.state with handoffBuffer := [] } } s.state.handoffBuffer
      exact hshut.keep (by rw [hs]; rfl) (by rw [hs]; rfl) (by rw [hs]; nofun) hdriver hshutdown
        hshutdowns hpending
  | waiting =>
    simp only [System.actorStep, hs] at ht
    cases hq : s.queue with
    | nil => rw [hq] at ht; cases ht
    | cons command queue =>
      rw [hq] at ht
      obtain rfl := Option.some.inj ht
      exact @h.handleCommand_shutOnce _ _ _ hd hshut .blocking _ _ hs hq answer
  | draining =>
    simp only [System.actorStep, hs] at ht
    cases hq : s.queue with
    | nil =>
      rw [hq] at ht
      obtain rfl := Option.some.inj ht
      exact hshut.keep (by rw [hs]; rfl) (by rw [hs]; rfl) (by rw [hs]; nofun) rfl rfl rfl rfl
    | cons command queue =>
      rw [hq] at ht
      obtain rfl := Option.some.inj ht
      exact @h.handleCommand_shutOnce _ _ _ hd hshut .drain _ _ hs hq answer
  | drained =>
    simp only [System.actorStep, hs, hd, if_true] at ht
    split_ifs at ht <;> obtain rfl := Option.some.inj ht <;>
      exact hshut.keep (by rw [hs]; rfl) (by rw [hs]; rfl) (by rw [hs]; nofun) hd.symm rfl rfl rfl
  | reading =>
    simp only [System.actorStep, hs, System.readDriver] at ht
    cases answer with
    | data bytes =>
      dsimp only at ht
      split_ifs at ht
      obtain rfl := Option.some.inj ht
      exact hshut.keep (by rw [hs]; rfl) (by rw [hs]; rfl) (by rw [hs]; nofun) rfl rfl rfl rfl
    | done => cases ht
    | idle =>
      obtain rfl := Option.some.inj ht
      exact hshut.keep (by rw [hs]; rfl) (by rw [hs]; rfl) (by rw [hs]; nofun) rfl rfl rfl rfl
    | eof =>
      obtain rfl := Option.some.inj ht
      exact hshut.keep (by rw [hs]; rfl) (by rw [hs]; rfl) (by rw [hs]; nofun) rfl rfl rfl rfl
    | error kind =>
      obtain rfl := Option.some.inj ht
      exact hshut.keep (by rw [hs]; rfl) (by rw [hs]; rfl) (by rw [hs]; nofun) rfl rfl rfl rfl
  | gotData data =>
    simp only [System.actorStep, hs] at ht
    split_ifs at ht
    · obtain rfl := Option.some.inj ht
      exact hshut.keep (by rw [hs]; rfl) (by rw [hs]; rfl) (by rw [hs]; nofun) rfl rfl rfl rfl
    · obtain rfl := Option.some.inj ht
      obtain ⟨hdriver, hshutdown, hshutdowns, hpending⟩ := s.publishSharedData_driver data
      exact hshut.keep (by rw [hs]; rfl) (by rw [hs]; rfl) (by rw [hs]; nofun) hdriver hshutdown
        hshutdowns hpending
  | granting ownerId prefetched receive =>
    have hm : ∀ j, s.actor.messages j = (Message.grant prefetched).only ownerId j := fun j => by
      rw [hs]; rfl
    obtain ⟨hi, -⟩ := h.inActor (i := ownerId) (by rw [hs]; nofun) (by rw [hm, Message.only_self])
    simp only [System.actorStep, hs, System.sendLease, hi.of_grant.1, Option.some.injEq] at ht
    subst ht
    exact hshut.keep_resume (by rw [hs]; rfl) (by rw [hs]; rfl) (by rw [hs]; nofun) rfl rfl rfl rfl
  | rejecting ownerId kind receive =>
    simp only [System.actorStep, hs, Option.some.injEq] at ht
    subst ht
    exact hshut.keep (by rw [hs]; rfl) (by rw [hs]; rfl) (by rw [hs]; nofun) rfl rfl rfl rfl
  | rejectClearing receive =>
    simp only [System.actorStep, hs, Option.some.injEq] at ht
    subst ht
    exact hshut.keep_resume (by rw [hs]; rfl) (by rw [hs]; rfl) (by rw [hs]; nofun) rfl rfl rfl rfl
  | returnClearing ownerId receive =>
    have hfalse := hshut.serving (by rw [hs]; rfl)
    have hzero : s.shutdowns = 0 := hshut.shutdowns.trans (by rw [hs]; rfl)
    simp only [System.actorStep, hs, System.clearReturned, Option.some.injEq] at ht
    split_ifs at ht with hp
    · subst ht
      exact ⟨by show s.shutdowns + 1 = 1; omega, fun _ => hfalse,
        fun _ => .inr (.inr (by show s.shutdowns + 1 = 1; omega))⟩
    · subst ht
      exact ⟨hzero, fun _ => hfalse, fun hp' => absurd hp' hp⟩
  | acking client result outcome receive =>
    simp only [System.actorStep, hs, Option.some.injEq] at ht
    subst ht
    cases outcome with
    | «continue» =>
      exact hshut.keep_resume (by rw [hs]; rfl) (by rw [hs]; rfl) (by rw [hs]; nofun) rfl rfl rfl rfl
    | shutdown =>
      have hone : s.shutdowns = 1 := hshut.shutdowns.trans (by rw [hs]; rfl)
      exact ⟨hone, nofun, fun _ => .inr (.inr hone)⟩
    | close kind =>
      exact hshut.keep (by rw [hs]; rfl) (by rw [hs]; rfl) (by rw [hs]; nofun) rfl rfl rfl rfl
  | closing =>
    simp only [System.actorStep, hs, Option.some.injEq] at ht
    subst ht
    have hsame : s.shutdowns = s.driverShutdown.toNat := hshut.shutdowns.trans (by rw [hs]; rfl)
    refine ⟨hsame, nofun, fun hp => ?_⟩
    rcases hshut.pending hp with haway | ⟨i, receive, hreturning⟩ | hdone
    · exact .inl haway
    · rw [hs] at hreturning; cases hreturning
    · exact .inr (.inr hdone)
  | shuttingDown =>
    simp only [System.actorStep, hs, hd, Option.some.injEq] at ht
    subst ht
    have hone : (if ¬ s.driverShutdown = true ∧ True then s.shutdowns + 1 else s.shutdowns) = 1 := by
      rw [show s.shutdowns = s.driverShutdown.toNat from hshut.shutdowns.trans (by rw [hs]; rfl)]
      cases s.driverShutdown <;> rfl
    exact ⟨hone, nofun, fun _ => .inr (.inr hone)⟩
  | guarding =>
    simp only [System.actorStep, hs, Option.some.injEq] at ht
    subst ht
    have hone : s.shutdowns = 1 := hshut.shutdowns.trans (by rw [hs]; rfl)
    exact ⟨hone, nofun, fun _ => .inr (.inr hone)⟩
  | dropping =>
    simp only [System.actorStep, hs, Option.some.injEq] at ht
    subst ht
    have hone : s.shutdowns = 1 := hshut.shutdowns.trans (by rw [hs]; rfl)
    exact ⟨hone, nofun, fun _ => .inr (.inr hone)⟩
  | stopped => simp [System.actorStep, hs] at ht

/-! ### The clients -/

/-- What a client's step leaves as it was. -/
structure System.Leaves (s t : System) : Prop where
  actor : t.actor = s.actor
  state : t.state = s.state
  driver : t.driver = s.driver
  driverShutdown : t.driverShutdown = s.driverShutdown
  written : t.written = s.written
  shutdowns : t.shutdowns = s.shutdowns
  queue : ∃ commands, t.queue = s.queue ++ commands

theorem System.leaves_refl (s : System) : s.Leaves s :=
  ⟨rfl, rfl, rfl, rfl, rfl, rfl, [], (List.append_nil _).symm⟩

theorem System.Leaves.setClient (h : s.Leaves t) (i : Nat) (client : Client) :
    s.Leaves (t.setClient i client) :=
  ⟨h.actor, h.state, h.driver, h.driverShutdown, h.written, h.shutdowns, h.queue⟩

theorem System.leaves_enqueue (s : System) (command : RuntimeCommand) :
    s.Leaves { s with queue := s.queue ++ [command] } :=
  ⟨rfl, rfl, rfl, rfl, rfl, rfl, [command], rfl⟩

theorem System.leaves_sendCommand {command : RuntimeCommand} {onClosed : System} {client : Client}
    (h : s.sendCommand command onClosed (·.setClient i client) = some t)
    (hclosed : s.actor = .stopped → s.Leaves onClosed) : s.Leaves t := by
  rcases System.sendCommand_some h with ⟨hstopped, rfl⟩ | ⟨-, rfl⟩
  · exact hclosed hstopped
  · exact (s.leaves_enqueue command).setClient i client

theorem Related.clientStep_leaves (h : Related s₀ s phase) {action : ClientAction}
    (ht : s.clientStep i action = some t) : s.Leaves t := by
  have hset (client : Client) : s.Leaves (s.setClient i client) := s.leaves_refl.setClient i client
  have hsend {t : System} (ht : s.sendStep i = some t) : s.Leaves t := by
    unfold System.sendStep at ht
    split at ht
    · exact System.leaves_sendCommand ht fun _ => hset _
    · exact System.leaves_sendCommand ht fun _ => hset _
    · cases ht
  unfold System.clientStep at ht
  split at ht
  · split_ifs at ht
    · exact Option.some.inj ht ▸ hset _
    · obtain rfl := Option.some.inj ht
      exact ⟨rfl, rfl, rfl, rfl, rfl, rfl, [], (List.append_nil _).symm⟩
  · split at ht <;> exact Option.some.inj ht ▸ hset _
  · exact System.leaves_sendCommand ht fun _ => hset _
  · unfold System.subscribeStep at ht
    split_ifs at ht
    · exact Option.some.inj ht ▸ hset _
    · rcases System.sendCommand_some ht with ⟨-, rfl⟩ | ⟨-, rfl⟩
      · exact hset _
      · exact ⟨rfl, rfl, rfl, rfl, rfl, rfl, _, rfl⟩
  · exact hsend ht
  · unfold System.trySendStep at ht
    split at ht
    · split_ifs at ht
      · exact hsend ht
      · exact Option.some.inj ht ▸ hset _
    · cases ht
  · unfold System.receiveStep at ht
    dsimp only at ht
    split at ht <;> first
      | cases ht; done
      | (obtain rfl := Option.some.inj ht
         exact ⟨rfl, rfl, rfl, rfl, rfl, rfl, [], (List.append_nil _).symm⟩)
  · obtain rfl := Option.some.inj ht
    exact ⟨rfl, rfl, rfl, rfl, rfl, rfl, [], (List.append_nil _).symm⟩
  · unfold System.readStep at ht
    split at ht
    · split_ifs at ht
      · exact Option.some.inj ht ▸ s.leaves_refl
      · obtain rfl := Option.some.inj ht
        exact ⟨rfl, rfl, rfl, rfl, rfl, rfl, [], (List.append_nil _).symm⟩
      · split at ht
        · split_ifs at ht
          obtain rfl := Option.some.inj ht
          exact ⟨rfl, rfl, rfl, rfl, rfl, rfl, [], (List.append_nil _).symm⟩
        · cases ht
        · exact Option.some.inj ht ▸ s.leaves_refl
    · cases ht
  · unfold System.releaseStep at ht
    split at ht
    · rename_i prefetched hc
      refine System.leaves_sendCommand ht fun hstopped => ?_
      obtain ⟨-, -, hp⟩ := h.quiet hc trivial
      exact absurd hstopped (h.not_stopped (i := i) (by rw [hp]; rfl))
    · cases ht
  · unfold System.consumeStep at ht
    dsimp only at ht
    split_ifs at ht
    obtain rfl := Option.some.inj ht
    exact ⟨rfl, rfl, rfl, rfl, rfl, rfl, [], (List.append_nil _).symm⟩
  · obtain rfl := Option.some.inj ht
    refine ⟨rfl, rfl, rfl, rfl, rfl, rfl, ?_⟩
    unfold System.unsubscribeStep
    dsimp only
    split
    · exact ⟨[], (List.append_nil _).symm⟩
    · split_ifs
      · exact ⟨_, rfl⟩
      · exact ⟨[], (List.append_nil _).symm⟩
  · cases ht

theorem System.ShutOnce.leaves (h : s.ShutOnce) (hst : s.Leaves t) : t.ShutOnce := by
  refine ⟨?_, ?_, ?_⟩
  · rw [hst.shutdowns, hst.actor, hst.driverShutdown]; exact h.shutdowns
  · rw [hst.actor, hst.driverShutdown]; exact h.serving
  · rw [hst.state, hst.driver, hst.actor, hst.shutdowns]; exact h.pending

/-! ### Every step -/

/-- A runtime that has lent its driver stands in its loop, and has not shut it down. -/
theorem Related.shutdowns_away (h : Related s₀ s phase) (hd : s.driver = false)
    (driverShutdown : Bool) : s.actor.shutdowns driverShutdown = 0 ∧ s.actor.left = false := by
  have he : s.state.exclusive.isSome := h.away_iff.mp hd
  have hlent (hnone : s.state.exclusive = none) : False := by rw [hnone] at he; cases he
  have hok := h.actor
  cases hs : s.actor with
  | acking client result outcome receive =>
    rw [hs] at hok
    cases outcome with
    | «continue» => exact ⟨rfl, rfl⟩
    | shutdown => exact (hlent (hok.2 nofun)).elim
    | close kind => exact ⟨rfl, rfl⟩
  | closing => rw [hs] at hok; exact (hlent hok).elim
  | shuttingDown => rw [hs] at hok; exact (hlent hok).elim
  | guarding => rw [hs] at hok; exact (hlent hok).elim
  | dropping => rw [hs] at hok; exact (hlent hok).elim
  | stopped => rw [hs] at hok; exact (hlent hok).elim
  | _ => exact ⟨rfl, rfl⟩

theorem Related.step_shutOnce (h : Related s₀ s phase) (hshut : s.ShutOnce) {action : Action}
    (ht : s.step action = some t) : t.ShutOnce := by
  cases action with
  | client i action => exact hshut.leaves (h.clientStep_leaves ht)
  | actor answer =>
    cases hd : s.driver with
    | true => exact h.actorStep_shutOnce hd hshut ht
    | false =>
      obtain ⟨-, -, hshutdowns, hwaits | hback⟩ := h.actorStep_away hd ht
      · obtain ⟨-, phase', -, h', -⟩ := @h.step _ _ _ _ (.actor answer) ht
        have hfalse := hshut.serving (h.shutdowns_away hd false).2
        have hzero : s.shutdowns = 0 := hshut.shutdowns.trans (h.shutdowns_away hd _).1
        exact ⟨by rw [hshutdowns, hzero, (h'.shutdowns_away hwaits.driver _).1],
          fun _ => hwaits.driverShutdown.trans hfalse, fun _ => .inl hwaits.driver⟩
      · obtain ⟨i, prefetched, receive, -, hactor⟩ := hback.queue
        have hfalse := hshut.serving (h.shutdowns_away hd false).2
        have hzero : s.shutdowns = 0 := hshut.shutdowns.trans (h.shutdowns_away hd _).1
        exact ⟨by rw [hshutdowns, hzero, hactor]; rfl, fun _ => hback.driverShutdown.trans hfalse,
          fun _ => .inr (.inl ⟨i, receive, hactor⟩)⟩

theorem shutOnce_of_run (hrun : Run Steps (System.spawn terminalControl) as t) : t.ShutOnce := by
  have hinv := @hrun.invariant _ _ _ _ _ _ (fun s => (∃ phase, Related 0 s phase) ∧ s.ShutOnce) ?_
      ⟨⟨_, related_spawn 0 terminalControl⟩, ⟨rfl, fun _ => rfl, nofun⟩⟩
  · exact hinv.2
  · rintro s action s' ⟨⟨phase, h⟩, hshut⟩ hstep
    obtain ⟨-, phase', -, h', -⟩ := h.step hstep
    exact ⟨⟨phase', h'⟩, h.step_shutOnce hshut hstep⟩

/-! ## A shutdown during a lease -/

/-- The driver is lent, and a shutdown is noted or will be seen before the return. -/
def System.Deferred (s : System) : Prop :=
  s.driver = false ∧ (s.state.shutdownPending = true ∨ ∃ front client back,
    s.queue = front ++ .shutdown client :: back ∧ ∀ i prefetched, .returnExclusive i prefetched ∉ front)

/-- The shutdown has been called, or comes with the actor's next step. -/
def System.CarriedOut (s : System) : Prop :=
  s.shutdowns = 1 ∨ ((∃ i receive, s.actor = .returnClearing i receive) ∧
    s.state.shutdownPending = true ∧ s.driver = true)

theorem System.Deferred.leaves (h : s.Deferred) (hst : s.Leaves t) : t.Deferred := by
  refine ⟨hst.driver.trans h.1, h.2.imp (fun hp => by rw [hst.state]; exact hp) ?_⟩
  rintro ⟨front, client, back, hqueue, hfront⟩
  obtain ⟨commands, hcommands⟩ := hst.queue
  exact ⟨front, client, back ++ commands, by rw [hcommands, hqueue]; simp, hfront⟩

theorem Related.step_deferred (h : Related s₀ s phase) (hdeferred : s.Deferred) {action : Action}
    (ht : s.step action = some t) : t.Deferred ∨ t.CarriedOut := by
  cases action with
  | client i action => exact .inl (hdeferred.leaves (h.clientStep_leaves ht))
  | actor answer =>
    obtain ⟨hd, hpending⟩ := hdeferred
    obtain ⟨-, -, -, hwaits | hback⟩ := h.actorStep_away hd ht
    · refine .inl ⟨hwaits.driver, ?_⟩
      rcases hpending with hp | ⟨front, client, back, hqueue, hfront⟩
      · exact .inl (hwaits.pending hp)
      · rcases hwaits.queue with hsame | ⟨command, hpop, -, hnoted⟩
        · exact .inr ⟨front, client, back, hsame.trans hqueue, hfront⟩
        · -- the command taken is the shutdown, or stands in front of it
          cases front with
          | nil =>
            rw [hqueue, List.nil_append] at hpop
            exact .inl (hnoted client (List.cons.inj hpop).1.symm)
          | cons first front =>
            rw [hqueue, List.cons_append] at hpop
            exact .inr ⟨front, client, back, (List.cons.inj hpop).2.symm,
              fun i prefetched hmem => hfront i prefetched (List.mem_cons_of_mem _ hmem)⟩
    · obtain ⟨i, prefetched, receive, hreturn, hactor⟩ := hback.queue
      refine .inr (.inr ⟨⟨i, receive, hactor⟩, ?_, hback.driver⟩)
      rcases hpending with hp | ⟨front, client, back, hqueue, hfront⟩
      · exact hback.pending.trans hp
      · -- a return cannot be taken before the shutdown
        exfalso
        rw [hqueue] at hreturn
        cases front with
        | nil => cases hreturn
        | cons first front =>
          obtain rfl := (List.cons.inj hreturn).1
          exact hfront i prefetched List.mem_cons_self

theorem Related.actorStep_carriedOut (h : Related s₀ s phase) (hshut : s.ShutOnce)
    (hcarried : s.CarriedOut) {answer : DriverAnswer} (ht : s.actorStep answer = some t) :
    t.shutdowns = 1 := by
  rcases hcarried with hone | ⟨⟨i, receive, hs⟩, hp, -⟩
  · -- the shutdown was the last thing in the loop, and the steps behind it do not repeat it
    have hd : s.driver = true := by
      by_contra hd
      have hzero := hshut.shutdowns.trans (h.shutdowns_away (Bool.eq_false_iff.mpr hd) _).1
      rw [hone] at hzero
      cases hzero
    have hshut' := h.actorStep_shutOnce hd hshut ht
    rw [hshut.shutdowns] at hone
    cases hs : s.actor with
    | acking client result outcome receive =>
      cases outcome with
      | shutdown =>
        simp only [System.actorStep, hs, Option.some.injEq] at ht
        subst ht
        exact hshut'.shutdowns
      | _ => rw [hs] at hone; cases hone
    | closing =>
      simp only [System.actorStep, hs, Option.some.injEq] at ht
      subst ht
      rw [hs] at hone
      exact hshut'.shutdowns.trans hone
    | shuttingDown =>
      simp only [System.actorStep, hs, Option.some.injEq] at ht
      subst ht
      exact hshut'.shutdowns
    | guarding =>
      simp only [System.actorStep, hs, Option.some.injEq] at ht
      subst ht
      exact hshut'.shutdowns
    | dropping =>
      simp only [System.actorStep, hs, Option.some.injEq] at ht
      subst ht
      exact hshut'.shutdowns
    | stopped => simp [System.actorStep, hs] at ht
    | _ => rw [hs] at hone; cases hone
  · have hzero : s.shutdowns = 0 := hshut.shutdowns.trans (by rw [hs]; rfl)
    simp only [System.actorStep, hs, System.clearReturned, hp, if_true, Option.some.injEq] at ht
    subst ht
    show s.shutdowns + 1 = 1
    omega

/-- What was called stays called. -/
theorem Related.step_carriedOut (h : Related s₀ s phase) (hshut : s.ShutOnce)
    (hcarried : s.CarriedOut) {action : Action} (ht : s.step action = some t) : t.CarriedOut := by
  cases action with
  | client i action =>
    have hst := h.clientStep_leaves ht
    unfold System.CarriedOut
    rw [hst.shutdowns, hst.actor, hst.state, hst.driver]
    exact hcarried
  | actor answer => exact .inl (h.actorStep_carriedOut hshut hcarried ht)

/-- Whatever happens after a shutdown was requested during a lease. -/
theorem Related.run_deferred (h : Related s₀ s phase) (hshut : s.ShutOnce) (hdeferred : s.Deferred)
    (hrun : Run Steps s as t) : t.Deferred ∨ t.CarriedOut := by
  have hinv := @hrun.invariant _ _ _ _ _ _ (fun s => (∃ phase, Related s₀ s phase) ∧ s.ShutOnce ∧
    (s.Deferred ∨ s.CarriedOut)) ?_ ⟨⟨phase, h⟩, hshut, .inl hdeferred⟩
  · exact hinv.2.2
  · rintro s action s' ⟨⟨phase, h⟩, hshut, hcase⟩ hstep
    obtain ⟨-, phase', -, h', -⟩ := h.step hstep
    refine ⟨⟨phase', h'⟩, h.step_shutOnce hshut hstep, ?_⟩
    rcases hcase with hdeferred | hcarried
    · exact h.step_deferred hdeferred hstep
    · exact .inr (h.step_carriedOut hshut hcarried hstep)

/-! ## The driver in every run -/

/-- **One owner, one shutdown.** In every reachable state
* one holder has the driver: the actor, one message on its way, or one lease;
* while the actor is without it, none of the actor's steps asks or writes to it;
* if a shutdown is requested then, it is called once the driver is back, at the latest
  with the actor's next step;
* once the actor's thread is through, the driver has been shut down exactly once. -/
theorem driver_owned_and_shut_once (hrun : Run Steps (System.spawn terminalControl) as s) :
    (∃! holder, s.Holds holder) ∧
    (¬ s.Holds .actor → ∀ answer t, s.actorStep answer = some t →
      (∀ answer', s.actorStep answer' = some t) ∧ t.written = s.written ∧ t.shutdowns = s.shutdowns) ∧
    (s.Deferred → ∀ later t, Run Steps s later t → t.Deferred ∨ t.CarriedOut) ∧
    (s.CarriedOut → ∀ answer t, s.actorStep answer = some t → t.shutdowns = 1) ∧
    (s.actor = .guarding ∨ s.actor = .dropping ∨ s.actor = .stopped → s.shutdowns = 1) := by
  obtain ⟨phase, h⟩ := related_of_run hrun
  have hshut := shutOnce_of_run hrun
  refine ⟨h.holder, fun hd answer t ht => ?_, fun hdeferred later t hlater =>
    h.run_deferred hshut hdeferred hlater, fun hcarried answer t ht =>
    h.actorStep_carriedOut hshut hcarried ht, fun hend => ?_⟩
  · obtain ⟨hall, hwritten, hshutdowns, -⟩ := h.actorStep_away (Bool.eq_false_iff.mpr hd) ht
    exact ⟨hall, hwritten, hshutdowns⟩
  · rw [hshut.shutdowns]
    rcases hend with hs | hs | hs <;> rw [hs] <;> rfl

/-- Client 1 asks for a shutdown while client 0 has its lease, and client 0 returns it. -/
def shutdownDuringLease : List Action :=
  ([.client 0 .compareExchange, .client 0 .send, .actor .done, .actor .done, .actor .done,
    .client 0 .receive, .client 1 .shutdown, .client 0 .release] : List Action) ++
    List.replicate 11 (.actor .done)

theorem driver_shut_once_during_lease :
    ∃ t : System, t.actor = .stopped ∧ t.shutdowns = 1 ∧ ∃! holder, t.Holds holder := by
  obtain ⟨t, ht, hactor⟩ : ∃ t, execute System.step (System.spawn true) shutdownDuringLease = some t ∧
      t.actor = .stopped := ⟨_, rfl, rfl⟩
  obtain ⟨hone, -, -, -, hend⟩ := driver_owned_and_shut_once (run_of_execute ht)
  exact ⟨t, hactor, hend (.inr (.inr hactor)), hone⟩

end TauTerm.Transport
