import Mathlib
import TauTerm.Transport.ActorSteps

/-!
# The hand-over of the driver

Results on every run of the runtime. Whatever the interleaving, the bytes that the
driver returns reach a subscriber that stays, or a lease, once and in order
(`handover_lossless`). The flag announces every owner as long as no caller's own
store hits it while it is set (`flag_set_while_exclusive`), which
`acquire_exclusive` and `release_inner` do not guarantee (`flag_cleared_under_owner`).
-/

namespace TauTerm.Transport

open Lib Protocol

variable {s₀ : Nat} {terminalControl : Bool} {s t : System} {as : List Action}

/-- A step that happened. -/
def Steps (s : System) (action : Action) (s' : System) : Prop := s.step action = some s'

/-! ## Conservation -/

/-- The bytes that travel with the driver. -/
def Message.bytes : Message → List UInt8
  | .giveBack bytes => bytes
  | .grant bytes => bytes
  | .lease bytes => bytes
  | _ => []

def Client.prefetched : Client → List UInt8
  | .leased prefetched => prefetched
  | _ => []

/-- What goes with the lease of client `i`, in its hands or on the way. -/
def System.heldBy (s : System) (i : Nat) : List UInt8 :=
  (s.messages i).flatMap Message.bytes ++ (s.clients i).prefetched

/-- The bytes read and not delivered yet: with the owner, in the two buffers of the
actor, and in its hands. -/
def System.pending (s : System) : List UInt8 :=
  (s.state.exclusive.map s.heldBy).getD [] ++ (s.state.unconsumedBytes ++ s.actor.inHand)

theorem Stands.held {joined : Bool} {client : Client} {messages : List Message} {φ : Phase}
    (h : Stands joined client messages φ) :
    φ.held.getD [] = messages.flatMap Message.bytes ++ client.prefetched := by
  cases h <;> simp [Phase.held, Message.bytes, Client.prefetched]

theorem Related.pending {phase : Nat → Phase} (h : Related s₀ s phase) :
    (s.protocol s₀ phase).pending = s.pending := by
  have hexclusive : (s.protocol s₀ phase).exclusive = s.state.exclusive := rfl
  rw [Protocol.pending, System.pending, hexclusive]
  congr 1
  cases s.state.exclusive with
  | none => rfl
  | some i => exact (h.stands i).held

/-- A step with subscriber `s₀` there before and after. -/
def StepsWatched (s₀ : Nat) (s : System) (action : Action) (s' : System) : Prop :=
  Steps s action s' ∧ s₀ ∈ s.state.subscribers ∧ s₀ ∈ s'.state.subscribers

theorem Related.follows {phase : Nat → Phase} (h : Related s₀ s phase) (hrun : Run Steps s as t) :
    ∃ phase', Related s₀ t phase' := by
  refine @hrun.invariant _ _ _ _ _ _ (fun s => ∃ phase, Related s₀ s phase) ?_ ⟨phase, h⟩
  rintro s action s' ⟨phase, h⟩ hstep
  obtain ⟨-, phase', -, h', -⟩ := h.step hstep
  exact ⟨phase', h'⟩

theorem Related.carries {phase : Nat → Phase} (h : Related s₀ s phase)
    (hrun : Run (StepsWatched s₀) s as t) :
    ∃ phase', Related s₀ t phase' ∧ Carries (s.protocol s₀ phase) (t.protocol s₀ phase') := by
  induction hrun generalizing phase with
  | nil s => exact ⟨phase, h, .refl _⟩
  | cons hstep _ ih =>
    obtain ⟨hstep, hbefore, hafter⟩ := hstep
    obtain ⟨l, phase', hl, h', -, hlose⟩ := h.step hstep
    have hkeeps : l ≠ .lose := fun hl => (hlose hl).elim (· hbefore) (· hafter)
    obtain ⟨phase'', h'', hcarries⟩ := ih h'
    exact ⟨phase'', h'', (hl.carries h.owned hkeeps).trans hcarries⟩

/-- Nothing is left behind when the driver is asked for more, by the actor or by an owner. -/
theorem Related.pending_of_asking {phase : Nat → Phase} (h : Related s₀ s phase)
    (hsub : s₀ ∈ s.state.subscribers)
    (hask : s.actor = .reading ∨ ∃ i, s.clients i = .leased []) : s.pending = [] := by
  rw [← h.pending]
  rcases hask with hs | ⟨i, hc⟩
  · have hok : s.state.exclusive = none ∧ s.state.handoffBuffer = [] := by
      have := h.actor; rwa [hs] at this
    have hstartup : s.state.startupBuffer = [] := h.startup.resolve_left (List.ne_nil_of_mem hsub)
    rw [Protocol.pending_of_none hok.1]
    simp [System.protocol, RuntimeLoopState.unconsumedBytes, hstartup, hok.2, hs, Actor.inHand]
  · obtain ⟨-, -, hp⟩ := h.quiet hc trivial
    exact Protocol.pending_of_held h.owned (i := i) (by
      rw [show (s.protocol s₀ phase).phase i = _ from hp]; rfl)

/-- **The hand-over loses nothing.** From any reachable state, in any run in which
`s₀` stays subscribed (a subscriber whose queue fills leaves the list): what was
pending and what the driver returned since, in that order, is what `s₀` and the
leases got since, and what is pending now. Nothing is pending when the driver is
asked for more. -/
theorem handover_lossless {before : List Action}
    (hbefore : Run Steps (System.spawn terminalControl) before s)
    (hrun : Run (StepsWatched s₀) s as t) :
    (∃ fresh released, t.reads = s.reads ++ fresh ∧
      t.deliveredTo s₀ = s.deliveredTo s₀ ++ released ∧
      released ++ t.pending = s.pending ++ fresh) ∧
    (s₀ ∈ t.state.subscribers → t.actor = .reading ∨ (∃ i, t.clients i = .leased []) →
      t.pending = []) := by
  obtain ⟨phase, h⟩ := (related_spawn s₀ terminalControl).follows hbefore
  obtain ⟨phase', h', fresh, released, hreads, hdelivered, hpending⟩ := h.carries hrun
  rw [h.pending, h'.pending] at hpending
  exact ⟨⟨fresh, released, hreads, hdelivered, hpending⟩, fun hsub hask => h'.pending_of_asking hsub hask⟩

/-- Subscriber 0 joins. -/
def join : List Action := [.client 0 (.subscribe 8), .actor .done, .actor .done]

/-- A byte is read while client 1 acquires the driver: it goes to the lease. -/
def readIntoLease : List Action :=
  [.actor .done, .actor .done, .client 1 .compareExchange, .actor (.data [67]), .actor .done,
    .client 1 .send, .actor .done, .actor .done, .actor .done, .client 1 .receive,
    .client 1 (.read 8 .done)]

theorem handover_lossless_readIntoLease :
    ∃ s t : System, t.reads = [67] ∧ t.delivered = [(.lease 1, [67])] ∧
      ∃ fresh released, t.reads = s.reads ++ fresh ∧
        t.deliveredTo 0 = s.deliveredTo 0 ++ released ∧
        released ++ t.pending = s.pending ++ fresh := by
  have hjoin : ((execute System.step (System.spawn true) join).bind fun s =>
      execute (stepWhere System.step fun s _ s' => 0 ∈ s.state.subscribers ∧
        0 ∈ s'.state.subscribers) s readIntoLease).map (fun t => (t.reads, t.delivered)) =
      some ([67], [(.lease 1, [67])]) := by decide
  obtain ⟨t, ht, heq⟩ := Option.map_eq_some_iff.mp hjoin
  obtain ⟨s, hs, ht⟩ := Option.bind_eq_some_iff.mp ht
  obtain ⟨hreads, hdelivered⟩ := Prod.mk.inj heq
  exact ⟨s, t, hreads, hdelivered,
    (@handover_lossless 0 _ _ _ _ _ (run_of_execute hs) (run_of_executeWhere ht)).1⟩

/-! ## The flag -/

/-- A step in which no caller's own store clears a flag that is set, as long as the
actor serves. -/
def StepsPolitely (s : System) (action : Action) (s' : System) : Prop :=
  Steps s action s' ∧ (action.ClearsFlag → s.actor.running = true → s.exclusiveActive = false)

/-- While the driver is lent, the flag is set, and admission refuses everybody. -/
def System.Announced (s : System) : Prop :=
  s.state.exclusive.isSome → s.exclusiveActive = true ∧ s.isExclusive = true ∧
    (∀ i s', s.clientStep i .compareExchange = some s' → s'.clients i = .finished (.error .busy)) ∧
    (∀ data, s.admission (.write data) = .error .busy) ∧
    (s.admission .resizeTerminal = .error .busy ∨ s.admission .resizeTerminal = .error .unsupported)

theorem System.announced_of_flag (h : s.state.exclusive.isSome → s.exclusiveActive = true) :
    s.Announced := by
  intro he
  have hflag := h he
  refine ⟨hflag, hflag, fun i s' hs => ?_, fun data => by simp [System.admission, hflag], ?_⟩
  · cases hc : s.clients i <;> simp [System.clientStep, hc, hflag] at hs
    rw [← hs, System.setClient_clients_self]
  · by_cases hcontrol : s.terminalControl
    · exact .inl (by simp [System.admission, hflag, hcontrol])
    · exact .inr (by simp [System.admission, hcontrol])

theorem Related.running_of_exclusive {phase : Nat → Phase} (h : Related s₀ s phase)
    (he : s.state.exclusive.isSome) : s.actor.running = true := by
  by_contra hstopped
  have hok := h.actor
  have hnone : s.state.exclusive = none := by
    cases hs : s.actor <;> rw [hs] at hok hstopped <;> first
      | exact hok
      | exact absurd rfl hstopped
  rw [hnone] at he
  cases he

theorem Related.announced {phase : Nat → Phase} (h : Related s₀ s phase)
    (ha : (s.protocol s₀ phase).Announced) (hrun : Run StepsPolitely s as t) :
    ∃ phase', Related s₀ t phase' ∧ (t.protocol s₀ phase').Announced := by
  refine @hrun.invariant _ _ _ _ _ _ (fun s => ∃ phase, Related s₀ s phase ∧
    (s.protocol s₀ phase).Announced) ?_ ⟨phase, h, ha⟩
  rintro s action s' ⟨phase, h, ha⟩ ⟨hstep, hpolite⟩
  obtain ⟨l, phase', hl, h', hclear, -⟩ := h.step hstep
  exact ⟨phase', h', ha.step h.owned hl fun heq hrunning => hpolite (hclear heq) hrunning⟩

/-- **The flag announces every owner**, in every run whose steps are polite. -/
theorem flag_set_while_exclusive (hrun : Run StepsPolitely (System.spawn terminalControl) as t) :
    t.Announced := by
  have hannounced : ((System.spawn terminalControl).protocol 0 fun _ => .outside).Announced :=
    ⟨fun _ _ _ h => absurd rfl h, fun _ _ h => absurd rfl h, fun _ => rfl⟩
  obtain ⟨phase, h, ha⟩ := (related_spawn 0 terminalControl).announced hannounced hrun
  refine System.announced_of_flag fun he => ?_
  obtain ⟨i, hi⟩ := Option.isSome_iff_exists.mp he
  exact ha.flag_of_exclusive h.owned (h.running_of_exclusive he) hi

/-- Client 0 acquires the driver, returns it and clears the flag before client 1 acquires it. -/
def clearInTime : List Action :=
  [.client 0 .compareExchange, .client 0 .send, .actor .done, .actor .done, .actor .done,
    .client 0 .receive, .actor .done, .client 0 .release, .actor .done, .actor .done, .actor .done,
    .client 0 .receive, .client 0 .clearFlag, .client 1 .compareExchange, .client 1 .send,
    .actor .done, .actor .done, .actor .done, .client 1 .receive]

theorem flag_set_while_exclusive_granted :
    ∃ t : System, Run StepsPolitely (System.spawn true) clearInTime t ∧
      t.state.exclusive = some 1 ∧ t.exclusiveActive = true ∧
      ∀ data, t.admission (.write data) = .error .busy := by
  have hgranted : (execute (stepWhere System.step fun s action _ => action.ClearsFlag →
      s.actor.running = true → s.exclusiveActive = false) (System.spawn true) clearInTime).map
        (fun t => t.state.exclusive) = some (some 1) := by decide
  obtain ⟨t, ht, he⟩ := Option.map_eq_some_iff.mp hgranted
  have hrun := run_of_executeWhere ht
  obtain ⟨hflag, -, -, hwrite, -⟩ := flag_set_while_exclusive hrun (by rw [he]; rfl)
  exact ⟨t, hrun, he, hflag, hwrite⟩

/-- Client 0 returns its lease and is slow to take the acknowledgement. Client 1
acquires the driver, and then client 0 clears the flag once more. -/
def lateClear : List Action :=
  [.client 0 .compareExchange, .client 0 .send, .actor .done, .actor .done, .actor .done,
    .client 0 .receive, .actor .done, .client 0 .release, .actor .done, .actor .done, .actor .done,
    .client 1 .compareExchange, .client 1 .send, .actor .done, .actor .done, .actor .done,
    .client 1 .receive, .client 0 .receive, .client 0 .clearFlag]

theorem flag_cleared_under_owner :
    ¬ ∀ (as : List Action) (t : System), Run Steps (System.spawn true) as t → t.Announced := by
  intro hall
  have hflag : ((execute System.step (System.spawn true) lateClear).map fun t =>
      (t.state.exclusive, t.exclusiveActive)) = some (some 1, false) := by decide
  obtain ⟨t, ht, heq⟩ := Option.map_eq_some_iff.mp hflag
  obtain ⟨he, hcleared⟩ := Prod.mk.inj heq
  have hset := (hall lateClear t (run_of_execute ht) (by rw [he]; rfl)).1
  rw [hcleared] at hset
  cases hset

end TauTerm.Transport
