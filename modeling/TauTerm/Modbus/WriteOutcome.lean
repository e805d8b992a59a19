import Mathlib
import TauTerm.Modbus.Client

/-!
# Writes whose effect is unknown

How an attempt ends, as far as the server is concerned (`Ending`), and which call flags the
effect of a write as unknown. A response that cannot be used leaves the effect as unknown as
none at all, but is not flagged, and a client closed between two attempts forgets the first.
-/

namespace TauTerm.Modbus

/-- The frame never left, no response came, one came that is of no use, or one was accepted. -/
inductive Ending where
  | unsent
  | lost
  | garbled
  | answered
  deriving DecidableEq

variable (config : ClientConfig) (unitId : UInt8) (request : ModbusRequest)

/-- How an attempt at a request that is not broadcast ends. -/
def Situation.ending (s : Situation) : Ending :=
  let transactionId := s.client.transactionId config
  match prepare config unitId request transactionId with
  | .error _ => .unsent
  | .ok _ =>
    if s.world.closed then .unsent
    else
      match if s.client.subscribed then .ok () else s.world.subscribe with
      | .error _ => .unsent
      | .ok () =>
        match s.world.write with
        | .error _ => .lost
        | .ok () =>
          match receive config.mode (transactionId.getD 0) unitId s.world.waits with
          | .error .timeout | .error (.transport _) => .lost
          | .error (.malformed _ _) | .error (.protocol _ _) => .garbled
          | .ok (_, responsePdu) =>
            match validateResponse request responsePdu with
            | .ok _ => .answered
            | .error _ => .garbled

/-- What an attempt reports of its ending. -/
structure Reports (done : Executed) (ending : Ending) : Prop where
  handed : done.handed = true ↔ ending ≠ .unsent
  accepted : done.accepted = true ↔ ending = .answered
  unknown : done.result.writeOutcomeUnknown = true ↔ ending = .lost
  retryable : done.result.status.retryable = true → ending = .lost ∨ ending = .unsent

variable {config unitId request}

theorem numbered_subscribed (client : ModbusClient) :
    (client.numbered config).subscribed = client.subscribed := by
  unfold ModbusClient.numbered
  split_ifs <;> rfl

theorem Situation.reports (s : Situation) (hwrite : request.isWrite = true)
    (hunit : ¬ (unitId = 0 ∧ config.mode ≠ .tcp)) :
    Reports (s.run config unitId request) (s.ending config unitId request) := by
  unfold Situation.run Situation.ending executeOnce
  simp only [numbered_subscribed]
  cases prepare config unitId request (s.client.transactionId config) with
  | error message => constructor <;> simp [TransactionStatus.retryable]
  | ok tx =>
    dsimp only
    by_cases hclosed : s.world.closed = true
    · rw [if_pos hclosed, if_pos hclosed]
      constructor <;> simp [TransactionStatus.retryable]
    rw [if_neg hclosed, if_neg hclosed]
    cases (if s.client.subscribed then .ok () else s.world.subscribe : Except String Unit) with
    | error error => constructor <;> simp [TransactionStatus.retryable]
    | ok subscribed =>
      dsimp only
      cases s.world.write with
      | error error => constructor <;> simp [hwrite]
      | ok written =>
        dsimp only
        rw [if_neg hunit]
        cases receive config.mode ((s.client.transactionId config).getD 0) unitId s.world.waits with
        | error error =>
          cases error with
          | timeout => constructor <;> simp [hwrite]
          | transport message => constructor <;> simp [hwrite]
          | malformed message raw => constructor <;> simp [TransactionStatus.retryable]
          | protocol message raw => constructor <;> simp [TransactionStatus.retryable]
        | ok frame =>
          obtain ⟨rawRx, responsePdu⟩ := frame
          dsimp only
          cases validateResponse request responsePdu with
          | error message => constructor <;> simp [TransactionStatus.retryable]
          | ok response =>
            constructor <;> simp only [ne_eq, reduceCtorEq, not_false_eq_true, Bool.false_eq_true]
            split_ifs <;> simp [TransactionStatus.retryable]

/-! ## Attempts -/

variable (config unitId request) in
/-- All attempts but the last were worth another one. -/
theorem attempts_eq (worlds : Nat → World) (attempt retries : Nat) (client : ModbusClient) :
    ∃ before last, attempts config unitId request worlds attempt retries client = before ++ [last] ∧
      (∀ s ∈ before, (s.run config unitId request).result.status.retryable = true) ∧
      before.length ≤ retries := by
  induction retries generalizing attempt client with
  | zero => exact ⟨[], _, rfl, nofun, le_rfl⟩
  | succ retries ih =>
    let situation : Situation := ⟨attempt, client, worlds attempt⟩
    by_cases hretry : (situation.run config unitId request).result.status.retryable = true
    · obtain ⟨before, last, hattempts, hbefore, hlen⟩ :=
        ih (attempt + 1) (situation.run config unitId request).client
      refine ⟨situation :: before, last, ?_, ?_, Nat.succ_le_succ hlen⟩
      · rw [attempts, if_pos hretry, hattempts]
        rfl
      · exact List.forall_mem_cons.mpr ⟨hretry, hbefore⟩
    · exact ⟨[], situation, by rw [attempts, if_neg hretry]; rfl, nofun, Nat.zero_le _⟩

variable (config unitId request) in
/-- If the frame was handed over and no response accepted, the result says so. -/
def UnknownFlagged (worlds : Nat → World) (client : ModbusClient) : Prop :=
  (∃ done ∈ executeAttempts config unitId request worlds client, done.handed = true) →
  (∀ done ∈ executeAttempts config unitId request worlds client, done.accepted = false) →
  ∃ result client', client.execute config unitId request worlds = some (result, client') ∧
    result.writeOutcomeUnknown = true

variable (config unitId request) in
/-- The attempt that is the last one leaves no response behind that is of no use, and does not
find the client closed behind a frame that left. -/
def EndsWell (situations : List Situation) : Prop :=
  ∀ last, situations.getLast? = some last →
    last.ending config unitId request ≠ .garbled ∧
    (last.ending config unitId request = .unsent →
      ∀ s ∈ situations, s.ending config unitId request = .unsent)

/-- What a flag says in terms of the endings. -/
theorem unknownFlagged_endings {worlds : Nat → World} {client : ModbusClient}
    (hwrite : request.isWrite = true) (hunit : ¬ (unitId = 0 ∧ config.mode ≠ .tcp))
    {before : List Situation} {last : Situation}
    (hattempts : attempts config unitId request worlds 0 (maxRetries config request) client =
      before ++ [last])
    (hbefore : ∀ s ∈ before, (s.run config unitId request).result.status.retryable = true) :
    UnknownFlagged config unitId request worlds client ↔
      ((∃ s ∈ before ++ [last], s.ending config unitId request ≠ .unsent) →
        last.ending config unitId request ≠ .answered →
          last.ending config unitId request = .lost) := by
  have hreports := fun s : Situation => s.reports hwrite hunit
  have hdone : executeAttempts config unitId request worlds client =
      (before ++ [last]).map (·.run config unitId request) := by rw [executeAttempts, hattempts]
  have hexecute : ∃ client', client.execute config unitId request worlds =
      some ((last.run config unitId request).result, client') := by
    rw [ModbusClient.execute, hdone, List.map_append, List.map_singleton, List.getLast?_concat]
    exact ⟨_, rfl⟩
  -- an attempt before the last was not accepted, or it would be the last
  have hopen : ∀ s ∈ before, s.ending config unitId request ≠ .answered := fun s hs => by
    rcases (hreports s).retryable (hbefore s hs) with h | h <;> rw [h] <;> nofun
  have hhanded : (∃ done ∈ executeAttempts config unitId request worlds client,
      done.handed = true) ↔ ∃ s ∈ before ++ [last], s.ending config unitId request ≠ .unsent := by
    rw [hdone]
    simp only [List.mem_map, exists_exists_and_eq_and, (hreports _).handed]
  have haccepted : (∀ done ∈ executeAttempts config unitId request worlds client,
      done.accepted = false) ↔ last.ending config unitId request ≠ .answered := by
    rw [hdone]
    simp only [List.forall_mem_map, ← Bool.not_eq_true, (hreports _).accepted,
      List.forall_mem_append, List.forall_mem_singleton]
    exact and_iff_right hopen
  have hunknown : (∃ result client', client.execute config unitId request worlds =
      some (result, client') ∧ result.writeOutcomeUnknown = true) ↔
        last.ending config unitId request = .lost := by
    obtain ⟨client', hlast⟩ := hexecute
    rw [← (hreports last).unknown, hlast]
    constructor
    · rintro ⟨result, client'', heq, hflag⟩
      cases heq
      exact hflag
    · exact fun hflag => ⟨_, _, rfl, hflag⟩
  rw [UnknownFlagged, hhanded, haccepted, hunknown]

variable (config unitId request) in
/-- When a call flags the unknown effect of a write; without retries the frame leaves once. -/
theorem unknownFlagged_iff (worlds : Nat → World) (client : ModbusClient)
    (hwrite : request.isWrite = true) (hunit : ¬ (unitId = 0 ∧ config.mode ≠ .tcp)) :
    (UnknownFlagged config unitId request worlds client ↔
      EndsWell config unitId request
        (attempts config unitId request worlds 0 (maxRetries config request) client)) ∧
    (config.retryWrites = false →
      ((executeAttempts config unitId request worlds client).filter (·.handed)).length ≤ 1) := by
  obtain ⟨before, last, hattempts, hbefore, hlen⟩ := attempts_eq config unitId request
    worlds 0 (maxRetries config request) client
  constructor
  · rw [unknownFlagged_endings hwrite hunit hattempts hbefore, hattempts]
    have hends : EndsWell config unitId request (before ++ [last]) ↔
        last.ending config unitId request ≠ .garbled ∧
        (last.ending config unitId request = .unsent →
          ∀ s ∈ before ++ [last], s.ending config unitId request = .unsent) := by
      simp only [EndsWell, List.getLast?_concat, Option.some.injEq, forall_eq']
    have hmem : last ∈ before ++ [last] := List.mem_append_right _ (List.mem_singleton_self _)
    rw [hends]
    cases hending : last.ending config unitId request with
    | unsent =>
      refine ⟨fun h => ⟨nofun, fun _ s hs => by_contra fun hne => ?_⟩, fun h hsent => ?_⟩
      · cases h ⟨s, hs, hne⟩ nofun
      · obtain ⟨s, hs, hne⟩ := hsent
        exact absurd (h.2 rfl s hs) hne
    | lost => exact iff_of_true (fun _ _ => rfl) ⟨nofun, nofun⟩
    | garbled =>
      refine iff_of_false (fun h => ?_) fun h => h.1 rfl
      cases h ⟨last, hmem, by rw [hending]; nofun⟩ nofun
    | answered => exact iff_of_true (fun _ h => absurd rfl h) ⟨nofun, nofun⟩
  · intro honce
    have hzero : maxRetries config request = 0 := if_pos ⟨hwrite, by simp [honce]⟩
    rw [executeAttempts, hattempts]
    refine (List.length_filter_le _ _).trans ?_
    rw [List.length_map, List.length_append, List.length_singleton]
    omega

def tcpClient : ClientConfig := ⟨.tcp, 3, false⟩

def writeRegister : ModbusRequest := .writeSingleRegister 7 42

/-- No answer comes. -/
def silentWorld : World := { waits := [{ expired := false, answer := .timeout }] }

theorem unknownFlagged_silent :
    UnknownFlagged tcpClient 2 writeRegister (fun _ => silentWorld) {} ∧
      ((executeAttempts tcpClient 2 writeRegister (fun _ => silentWorld) {}).filter
        (·.handed)).length ≤ 1 := by
  have hiff := unknownFlagged_iff tcpClient 2 writeRegister (fun _ => silentWorld) {} rfl (by decide)
  refine ⟨hiff.1.mpr fun last hlast => ?_, hiff.2 rfl⟩
  have hendings : (attempts tcpClient 2 writeRegister (fun _ => silentWorld) 0
      (maxRetries tcpClient writeRegister) {}).map (·.ending tcpClient 2 writeRegister) =
        [.lost] := by decide
  have hmem := List.mem_map_of_mem (f := (·.ending tcpClient 2 writeRegister))
    (List.mem_of_getLast? hlast)
  rw [hendings] at hmem
  rw [List.mem_singleton.mp hmem]
  exact ⟨nofun, nofun⟩

/-- The register is written, and the answer carries another unit. -/
def otherUnit : World :=
  { waits := [{ expired := false, answer := .data [0, 1, 0, 0, 0, 6, 9, 6, 0, 7, 0, 42] }] }

set_option maxRecDepth 20000 in
theorem otherUnit_not_flagged :
    ¬ UnknownFlagged tcpClient 2 writeRegister (fun _ => otherUnit) {} := by
  intro hflagged
  have hhanded : ∃ done ∈ executeAttempts tcpClient 2 writeRegister (fun _ => otherUnit) {},
      done.handed = true := by with_unfolding_all decide
  have haccepted : ∀ done ∈ executeAttempts tcpClient 2 writeRegister (fun _ => otherUnit) {},
      done.accepted = false := by with_unfolding_all decide
  have hunknown : (ModbusClient.execute tcpClient {} 2 writeRegister fun _ => otherUnit).map
      (·.1.writeOutcomeUnknown) = some false := by with_unfolding_all decide
  obtain ⟨result, client, hexecute, hflag⟩ := hflagged hhanded haccepted
  rw [hexecute, Option.map_some, Option.some.injEq] at hunknown
  exact Bool.false_ne_true (hunknown.symm.trans hflag)

end TauTerm.Modbus
