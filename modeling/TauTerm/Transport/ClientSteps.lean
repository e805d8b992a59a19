import Mathlib
import TauTerm.Transport.Refinement

/-!
# The clients follow the ownership protocol

Each step of a client moves the phase of that client, or nothing. The only step
outside the protocol is the store with which a caller clears the flag by itself.
-/

namespace TauTerm.Transport

open Protocol (Step Label)

variable {s s' : System} {i j s₀ : Nat} {clears : Prop} {phase : Nat → Phase}

@[simp] theorem System.setClient_clients_self (s : System) (i : Nat) (client : Client) :
    (s.setClient i client).clients i = client := by simp [System.setClient]

theorem System.setClient_clients_other (s : System) {i j : Nat} (client : Client) (h : j ≠ i) :
    (s.setClient i client).clients j = s.clients j := by simp [System.setClient, h]

@[simp] theorem System.setClient_messages (s : System) (i j : Nat) (client : Client) :
    (s.setClient i client).messages j = s.messages j := rfl

theorem Related.quiet (h : Related s₀ s phase) {client : Client} (hc : s.clients i = client)
    (hq : client.Quiet) :
    decide (i ∈ s.state.subscribers) = false ∧ s.messages i = [] ∧ phase i = client.phase := by
  have hs := h.stands i
  rw [System.Stands, hc] at hs
  exact hs.quiet hq

/-- A quiet client's local step. -/
theorem Related.setClientStays (h : Related s₀ s phase) {client client' : Client}
    (hc : s.clients i = client) (hq : client.Quiet) (hphase : client.phase = .outside)
    (hc' : Stands false client' [] .outside) :
    Follows s₀ s phase clears (s.setClient i client') := by
  obtain ⟨hsub, hm, hp⟩ := h.quiet hc hq
  refine h.clientStays (i := i) rfl ?_
    (fun j hj => ⟨s.setClient_clients_other client' hj, rfl⟩) rfl rfl
  rw [System.setClient_clients_self, System.setClient_messages, hsub, hm, hp, hphase]
  exact hc'

theorem System.sendCommand_some {command : RuntimeCommand} {onClosed : System}
    {onSent : System → System} (h : s.sendCommand command onClosed onSent = some s') :
    (s.actor = .stopped ∧ s' = onClosed) ∨
      (s.actor ≠ .stopped ∧ s' = onSent { s with queue := s.queue ++ [command] }) := by
  unfold System.sendCommand at h
  split at h
  · rename_i hstopped
    exact .inl ⟨hstopped, (Option.some.inj h).symm⟩
  · rename_i hrunning
    split_ifs at h
    exact .inr ⟨hrunning, (Option.some.inj h).symm⟩

theorem System.enqueue_messages (hactor : s.actor ≠ .stopped) (command : RuntimeCommand) (j : Nat) :
    { s with queue := s.queue ++ [command] }.messages j =
      s.queue.flatMap (·.messages j) ++ command.messages j ++ s.actor.messages j ++
        ((s.replies j).map Reply.message).toList := by
  have hpending : { s with queue := s.queue ++ [command] }.pendingCommands = s.queue ++ [command] :=
    System.pendingCommands_eq hactor
  rw [System.messages, hpending]
  simp

theorem System.enqueue_messages_other (hactor : s.actor ≠ .stopped) {command : RuntimeCommand}
    (hj : command.messages j = []) :
    { s with queue := s.queue ++ [command] }.messages j = s.messages j := by
  rw [System.enqueue_messages hactor, hj, System.messages, System.pendingCommands_eq hactor]
  simp

theorem System.enqueue_messages_self (hactor : s.actor ≠ .stopped) {command : RuntimeCommand}
    (hi : s.messages i = []) :
    { s with queue := s.queue ++ [command] }.messages i = command.messages i := by
  rw [System.messages, System.pendingCommands_eq hactor] at hi
  simp only [List.append_eq_nil_iff] at hi
  obtain ⟨⟨hq, ha⟩, hr⟩ := hi
  rw [System.enqueue_messages hactor, hq, ha, hr]
  simp

/-- A send by client `i`, after which it waits as `client'`. -/
theorem Related.send (h : Related s₀ s phase) {client client' : Client} {φ : Phase}
    {command : RuntimeCommand} {message : Message}
    (hactor : s.actor ≠ .stopped) (hc : s.clients i = client) (hq : client.Quiet)
    (hcommand : ∀ j, command.messages j = message.only i j)
    (hstep : Step (s.protocol s₀ phase) .plain
      (({ s with queue := s.queue ++ [command] }.setClient i client').protocol s₀
        (Function.update phase i φ)))
    (hc' : Stands false client' [message] φ) :
    Follows s₀ s phase clears
      ({ s with queue := s.queue ++ [command] }.setClient i client') := by
  obtain ⟨hsub, hm, -⟩ := h.quiet hc hq
  refine h.client hstep ?_ (fun j hj => ⟨System.setClient_clients_other _ client' hj, ?_⟩) rfl rfl
  · rw [System.setClient_clients_self, System.setClient_messages,
      System.enqueue_messages_self hactor hm, hcommand, Message.only_self, hsub]
    exact hc'
  · rw [System.setClient_messages]
    exact System.enqueue_messages_other hactor (by rw [hcommand, Message.only_other hj])

/-- A send whose client stays outside. -/
theorem Related.sendStays (h : Related s₀ s phase) {client client' : Client}
    {command : RuntimeCommand} {message : Message}
    (hactor : s.actor ≠ .stopped) (hc : s.clients i = client) (hq : client.Quiet)
    (hphase : client.phase = .outside) (hcommand : ∀ j, command.messages j = message.only i j)
    (hc' : Stands false client' [message] .outside) :
    Follows s₀ s phase clears
      ({ s with queue := s.queue ++ [command] }.setClient i client') := by
  obtain ⟨-, -, hp⟩ := h.quiet hc hq
  refine h.send (φ := .outside) hactor hc hq hcommand ?_ hc'
  rw [← hphase, ← hp, Function.update_eq_self]
  exact .stay

theorem Related.sendStep (h : Related s₀ s phase) (hs : s.sendStep i = some s') :
    Follows s₀ s phase clears s' := by
  unfold System.sendStep at hs
  split at hs
  · -- the acquisition is requested, or nobody is there to serve it
    rename_i hc
    obtain ⟨hsub, hm, hp⟩ := h.quiet hc trivial
    obtain ⟨hstopped, rfl⟩ | ⟨hrunning, rfl⟩ := System.sendCommand_some hs
    · refine h.client (φ := .outside) (.withdraw (.inl hp)) ?_
        (fun j hj => ⟨s.setClient_clients_other _ hj, rfl⟩) rfl rfl
      rw [System.setClient_clients_self, System.setClient_messages, hsub, hm]
      exact .clearing _
    · exact h.send hrunning hc trivial (fun j => rfl) (.request hp) .acquire
  · rename_i request hc
    obtain ⟨hstopped, rfl⟩ | ⟨hrunning, rfl⟩ := System.sendCommand_some hs
    · exact h.setClientStays hc trivial rfl (.finished _ _)
    · exact h.sendStays hrunning hc trivial rfl (fun j => rfl) (.request _)
  · cases hs

theorem Related.trySendStep (h : Related s₀ s phase) (hs : s.trySendStep i = some s') :
    Follows s₀ s phase clears s' := by
  unfold System.trySendStep at hs
  split at hs
  · rename_i request hc
    split_ifs at hs
    · exact h.sendStep hs
    · obtain rfl := Option.some.inj hs
      exact h.setClientStays hc trivial rfl (.finished _ _)
  · cases hs

/-- The reply that a client takes is all that was on its way. -/
theorem Related.taken (h : Related s₀ s phase) {reply : Reply} (hr : s.replies i = some reply) :
    s.messages i = [reply.message] ∧
      { s with replies := Function.update s.replies i none }.messages i = [] := by
  have hlen : (s.messages i).length ≤ 1 := (h.stands i).length_le
  simp only [System.messages, hr, Option.map_some, Option.toList_some, List.length_append,
    List.length_singleton] at hlen
  have hq : s.pendingCommands.flatMap (·.messages i) = [] := List.length_eq_zero_iff.mp (by omega)
  have ha : s.actor.messages i = [] := List.length_eq_zero_iff.mp (by omega)
  refine ⟨by simp [System.messages, hr, hq, ha], ?_⟩
  have hpending : { s with replies := Function.update s.replies i none }.pendingCommands =
      s.pendingCommands := rfl
  simp [System.messages, hpending, hq, ha]

theorem System.take_messages_other (s : System) (h : j ≠ i) :
    { s with replies := Function.update s.replies i none }.messages j = s.messages j := by
  have hpending : { s with replies := Function.update s.replies i none }.pendingCommands =
      s.pendingCommands := rfl
  simp [System.messages, hpending, h]

/-- Client `i` takes its reply and goes on as `client'`. -/
theorem Related.receive (h : Related s₀ s phase) {client' : Client} {reply : Reply} {φ : Phase}
    (hr : s.replies i = some reply) (hsub : decide (i ∈ s.state.subscribers) = false)
    (hstep : Step (s.protocol s₀ phase) .plain (s.protocol s₀ (Function.update phase i φ)))
    (hc' : Stands false client' [] φ) :
    Follows s₀ s phase clears
      ({ s with replies := Function.update s.replies i none }.setClient i client') := by
  refine h.client hstep ?_
    (fun j hj => ⟨System.setClient_clients_other _ client' hj, s.take_messages_other hj⟩) rfl rfl
  rw [System.setClient_clients_self, System.setClient_messages, (h.taken hr).2, hsub]
  exact hc'

/-- A result brings the client nothing of the driver. -/
theorem Related.receiveResult (h : Related s₀ s phase) {client' : Client} {result : Result}
    (hr : s.replies i = some (.result result)) (hc' : Stands false client' [] .outside) :
    Follows s₀ s phase clears
      ({ s with replies := Function.update s.replies i none }.setClient i client') := by
  have hs := h.stands i
  rw [System.Stands, (h.taken hr).1] at hs
  obtain ⟨hsub, hp⟩ := hs.of_result
  refine h.receive (φ := .outside) hr hsub ?_ hc'
  rw [← hp, Function.update_eq_self]
  exact .stay

theorem System.messages_stopped (hactor : s.actor = .stopped) (hr : s.replies i = none) :
    s.messages i = [] := by
  simp [System.messages, System.pendingCommands, hactor, Actor.messages, hr]

theorem Related.receiveStep (h : Related s₀ s phase) (hs : s.receiveStep i = some s') :
    Follows s₀ s phase clears s' := by
  have hi := h.stands i
  unfold System.Stands at hi
  unfold System.receiveStep at hs
  split at hs
  · rename_i prefetched hc hr
    obtain rfl := Option.some.inj hs
    rw [hc, (h.taken hr).1] at hi
    obtain ⟨hsub, hp⟩ := hi.of_lease
    exact h.receive hr hsub (.receive hp) (.leased prefetched)
  · rename_i result hc hr
    obtain rfl := Option.some.inj hs
    exact h.receiveResult hr (.clearing result)
  · -- the actor stopped with the request still in its queue
    rename_i hc hr hstopped
    obtain rfl := Option.some.inj hs
    have hm : s.messages i = [] := System.messages_stopped hstopped hr
    rw [hc, hm] at hi
    obtain ⟨hsub, hp⟩ := hi.of_lost.1 rfl
    refine h.client (φ := .outside) (.withdraw (.inr hp)) ?_
      (fun j hj => ⟨s.setClient_clients_other _ hj, rfl⟩) rfl rfl
    rw [System.setClient_clients_self, System.setClient_messages, hsub, hm]
    exact .clearing _
  · rename_i result hc hr
    obtain rfl := Option.some.inj hs
    exact h.receiveResult hr (.clearing result)
  · rename_i hc hr hstopped
    obtain rfl := Option.some.inj hs
    have hm : s.messages i = [] := System.messages_stopped hstopped hr
    rw [hc, hm] at hi
    obtain ⟨hsub, hp⟩ := hi.of_lost.2.1 rfl
    refine h.clientStays rfl ?_ (fun j hj => ⟨s.setClient_clients_other _ hj, rfl⟩) rfl rfl
    rw [System.setClient_clients_self, System.setClient_messages, hsub, hm, hp]
    exact .finished _ _
  · rename_i result hc hr
    obtain rfl := Option.some.inj hs
    exact h.receiveResult hr (.finished _ result)
  · rename_i onClosed hc hr hstopped
    obtain rfl := Option.some.inj hs
    have hm : s.messages i = [] := System.messages_stopped hstopped hr
    rw [hc, hm] at hi
    obtain ⟨hsub, hp⟩ := hi.of_lost.2.2 onClosed rfl
    refine h.clientStays rfl ?_ (fun j hj => ⟨s.setClient_clients_other _ hj, rfl⟩) rfl rfl
    rw [System.setClient_clients_self, System.setClient_messages, hsub, hm, hp]
    exact .finished _ _
  · cases hs

/-! ### The lease -/

theorem Related.stays (h : Related s₀ s phase) : Follows s₀ s phase clears s :=
  ⟨.plain, phase, .stay, h, nofun, nofun⟩

theorem Related.readStep (h : Related s₀ s phase) {len : Nat} {answer : DriverAnswer}
    (hs : s.readStep i len answer = some s') : Follows s₀ s phase clears s' := by
  unfold System.readStep at hs
  split at hs
  · rename_i prefetched hc
    obtain ⟨hsub, hm, hp⟩ := h.quiet hc trivial
    split_ifs at hs with hlen hprefetched
    · obtain rfl := Option.some.inj hs
      exact h.stays
    · obtain rfl := Option.some.inj hs
      have hstep := Step.take (p := s.protocol s₀ phase) len hp
      rw [Protocol.setPhase] at hstep
      refine h.client (φ := .leased (prefetched.drop len)) ?_ ?_
        (fun j hj => ⟨System.setClient_clients_other _ _ hj, rfl⟩) rfl rfl
      · convert hstep using 1
        simp [System.protocol, System.setClient, System.deliveredTo, deliveryTo]
      · rw [System.setClient_clients_self, System.setClient_messages, hsub]
        exact hm ▸ .leased _
    · -- nothing is prefetched: the driver is asked
      obtain rfl : prefetched = [] := not_not.mp hprefetched
      split at hs
      · rename_i bytes
        split_ifs at hs
        obtain rfl := Option.some.inj hs
        refine h.client (φ := phase i) ?_ (h.stands i) (fun j hj => ⟨rfl, rfl⟩) rfl rfl
        rw [Function.update_eq_self]
        convert Step.fetch (p := s.protocol s₀ phase) bytes hp using 1
        simp [System.protocol, System.deliveredTo, deliveryTo]
      · cases hs
      · obtain rfl := Option.some.inj hs
        exact h.stays
  · cases hs

/-- A runtime that has lent its driver is not stopping. -/
theorem Related.not_stopped (h : Related s₀ s phase) {bytes : List UInt8}
    (hi : (phase i).held = some bytes) : s.actor ≠ .stopped := by
  intro hstopped
  have he : s.state.exclusive = some i := h.owned.held i bytes hi
  have hok := h.actor
  rw [hstopped] at hok
  exact absurd he (by rw [show s.state.exclusive = none from hok]; nofun)

theorem Related.releaseStep (h : Related s₀ s phase) (hs : s.releaseStep i = some s') :
    Follows s₀ s phase clears s' := by
  unfold System.releaseStep at hs
  split at hs
  · rename_i prefetched hc
    obtain ⟨hsub, hm, hp⟩ := h.quiet hc trivial
    obtain ⟨hstopped, -⟩ | ⟨hrunning, rfl⟩ := System.sendCommand_some hs
    · exact absurd hstopped (h.not_stopped (i := i) (by rw [hp]; rfl))
    · exact h.send hrunning hc trivial (fun j => rfl) (.release hp) (.giveBack prefetched)
  · cases hs

/-! ### Subscriptions -/

/-- The channels of the subscriptions play no part in the protocol. -/
theorem Follows.subscriptions (h : Follows s₀ s phase clears s')
    (subscriptions : Nat → Subscription) :
    Follows s₀ s phase clears { s' with subscriptions } := by
  obtain ⟨l, phase', hstep, hr, hclear, hlose⟩ := h
  exact ⟨l, phase', hstep, ⟨hr.stands, hr.owned, hr.nodup, hr.startup, hr.actor⟩, hclear, hlose⟩

theorem Related.subscribeStep (h : Related s₀ s phase) (hc : s.clients i = .idle)
    {capacityMessages : Nat} (hs : s.subscribeStep i capacityMessages = some s') :
    Follows s₀ s phase clears s' := by
  unfold System.subscribeStep at hs
  split_ifs at hs
  · obtain rfl := Option.some.inj hs
    exact h.setClientStays hc trivial rfl (.finished _ _)
  · obtain ⟨-, rfl⟩ | ⟨hrunning, rfl⟩ := System.sendCommand_some hs
    · exact h.setClientStays hc trivial rfl (.finished _ _)
    · exact (h.sendStays hrunning hc trivial rfl (fun j => rfl) .subscribe).subscriptions _

theorem Related.unsubscribeStep (h : Related s₀ s phase) (hc : s.clients i = .subscribed) :
    Follows s₀ s phase clears (s.unsubscribeStep i) := by
  have hi := h.stands i
  rw [System.Stands, hc] at hi
  have hmessages : ∀ j, (s.unsubscribeStep i).messages j = s.messages j := by
    intro j
    unfold System.unsubscribeStep
    split
    · rfl
    · rename_i hrunning
      split_ifs
      · exact System.enqueue_messages_other hrunning rfl
      · rfl
  refine h.clientStays (i := i) rfl ?_ (fun j hj => ⟨?_, hmessages j⟩) rfl rfl
  · rw [hmessages]
    convert hi.drop (.ok ()) using 1
    exact System.setClient_clients_self _ _ _
  · exact System.setClient_clients_other _ _ hj

theorem Related.consumeStep (h : Related s₀ s phase) (hs : s.consumeStep i = some s') :
    Follows s₀ s phase clears s' := by
  simp only [System.consumeStep] at hs
  split_ifs at hs
  obtain rfl := Option.some.inj hs
  exact h.stays.subscriptions _

/-! ### All together -/

theorem Related.announce (h : Related s₀ s phase) (hc : s.clients i = .idle)
    (hflag : s.exclusiveActive = false) :
    Follows s₀ s phase clears ({ s with exclusiveActive := true }.setClient i .swapped) := by
  obtain ⟨hsub, hm, hp⟩ := h.quiet hc trivial
  refine h.client (φ := .announced) (.announce hp hflag) ?_
    (fun j hj => ⟨System.setClient_clients_other _ _ hj, rfl⟩) rfl rfl
  rw [System.setClient_clients_self, System.setClient_messages, hsub]
  exact hm ▸ .swapped

theorem Related.clearFlag (h : Related s₀ s phase) {result : Result}
    (hc : s.clients i = .clearing result) (hclears : clears) :
    Follows s₀ s phase clears
      ({ s with exclusiveActive := false }.setClient i (.finished result)) := by
  obtain ⟨hsub, hm, hp⟩ := h.quiet hc trivial
  refine h.follow (l := .clear) (φ := phase i) ?_ ?_
    (fun j hj hs => hs.frame id (System.setClient_clients_other _ _ hj) rfl) h.nodup h.startup h.actor
    (fun _ => hclears) nofun
  · rw [Function.update_eq_self]
    exact .clear
  · rw [System.Stands, System.setClient_clients_self, System.setClient_messages, hp]
    exact hm ▸ hsub ▸ .finished _ _

theorem Related.clientStep (h : Related s₀ s phase) {action : ClientAction}
    (hs : s.clientStep i action = some s') :
    Follows s₀ s phase (action = .clearFlag) s' := by
  unfold System.clientStep at hs
  split at hs
  · rename_i hc
    split_ifs at hs with hflag
    · obtain rfl := Option.some.inj hs
      exact h.setClientStays hc trivial rfl (.finished _ _)
    · obtain rfl := Option.some.inj hs
      exact h.announce hc (Bool.eq_false_iff.mpr hflag)
  · rename_i hc
    split at hs
    · obtain rfl := Option.some.inj hs
      exact h.setClientStays hc trivial rfl (.admitted _)
    · obtain rfl := Option.some.inj hs
      exact h.setClientStays hc trivial rfl (.finished _ _)
  · rename_i hc
    obtain ⟨-, rfl⟩ | ⟨hrunning, rfl⟩ := System.sendCommand_some hs
    · exact h.setClientStays hc trivial rfl (.finished _ _)
    · exact h.sendStays hrunning hc trivial rfl (fun j => rfl) (.request _)
  · rename_i hc
    exact h.subscribeStep hc hs
  · exact h.sendStep hs
  · exact h.trySendStep hs
  · exact h.receiveStep hs
  · rename_i hc
    obtain rfl := Option.some.inj hs
    exact h.clearFlag hc rfl
  · exact h.readStep hs
  · exact h.releaseStep hs
  · exact h.consumeStep hs
  · rename_i hc
    obtain rfl := Option.some.inj hs
    exact h.unsubscribeStep hc
  · cases hs

end TauTerm.Transport
