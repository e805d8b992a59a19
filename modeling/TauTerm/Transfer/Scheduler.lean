import Mathlib
import TauTerm.Lib.Run

/-!
# The transfer scheduler

`TransferScheduler` of `transfer/scheduler.rs`: the active transfers of a session by
id, under reservations, cancellations and endings. A cancel token is an address in
`flags`, and `Arc::new` takes the next one; the clones that are out keep it from
being used again.
-/

namespace TauTerm.Transfer

inductive TransferTaskKind where
  | inline
  | auxiliary
  deriving DecidableEq

abbrev Token := Nat

structure ScheduledTransfer where
  kind : TransferTaskKind
  cancel : Token
  deriving DecidableEq

structure TransferScheduler where
  maxActive : Nat
  active : AList fun _ : String => ScheduledTransfer
  flags : List Bool

namespace TransferScheduler

def withMaxActive (maxActive : Nat) : TransferScheduler where
  maxActive
  active := ∅
  flags := []

def activeCount (s : TransferScheduler) : Nat := s.active.keys.length

def ensureNewId (s : TransferScheduler) (transferId : String) : Except String Unit :=
  if (s.active.lookup transferId).isSome then .error "传输任务 ID 已存在" else .ok ()

def hasInlineTransfer (s : TransferScheduler) : Bool :=
  s.active.entries.any fun transfer => transfer.2.kind = .inline

def ensureAuxiliaryCapacity (s : TransferScheduler) : Except String Unit :=
  if s.hasInlineTransfer then .error "该会话正在执行独占式串口传输，暂不能启动侧通道传输"
  else if s.maxActive = 0 ∨ s.activeCount ≥ s.maxActive then
    .error s!"该会话已有传输进行中（当前并发上限 {s.maxActive}），请等待完成或取消后再试"
  else .ok ()

/-- `Arc::new(AtomicBool::new(false))`, entered into the map. -/
def enter (s : TransferScheduler) (transferId : String) (kind : TransferTaskKind) :
    TransferScheduler × Except String Token :=
  ({ s with
      active := s.active.insert transferId { kind, cancel := s.flags.length }
      flags := s.flags ++ [false] },
    .ok s.flags.length)

def reserveInline (s : TransferScheduler) (transferId : String) :
    TransferScheduler × Except String Token :=
  match s.ensureNewId transferId with
  | .error text => (s, .error text)
  | .ok () =>
    if s.maxActive = 0 then (s, .error "该会话已禁用文件传输任务")
    else if s.activeCount ≠ 0 then
      (s, .error "串口传输需要独占会话 I/O，请等待其他传输完成或取消后再试")
    else s.enter transferId .inline

def reserveAuxiliary (s : TransferScheduler) (transferId : String) :
    TransferScheduler × Except String Token :=
  match s.ensureNewId transferId with
  | .error text => (s, .error text)
  | .ok () =>
    match s.ensureAuxiliaryCapacity with
    | .error text => (s, .error text)
    | .ok () => s.enter transferId .auxiliary

/-- `cancel.store(true)`. -/
def store (s : TransferScheduler) (token : Token) : TransferScheduler :=
  { s with flags := s.flags.set token true }

/-- The transfer that a cancellation means. -/
def cancelId (s : TransferScheduler) : Option String → Except String String
  | some id => .ok id
  | none =>
    match s.active.keys with
    | [] => .error "没有正在进行的传输"
    | [id] => .ok id
    | _ => .error "存在多个传输任务，请指定 transfer_id"

def cancel (s : TransferScheduler) (expectedId : Option String) :
    TransferScheduler × Except String Unit :=
  match s.cancelId expectedId with
  | .error text => (s, .error text)
  | .ok transferId =>
    match s.active.lookup transferId with
    | none => (s, .error "传输任务已变化，拒绝取消非当前任务")
    | some transfer => (s.store transfer.cancel, .ok ())

def remove (s : TransferScheduler) (transferId : String) : TransferScheduler × Bool :=
  ({ s with active := s.active.erase transferId }, (s.active.lookup transferId).isSome)

def finish (s : TransferScheduler) (expectedId : Option String) : TransferScheduler × Bool :=
  match expectedId with
  | some id => s.remove id
  | none =>
    match s.active.keys with
    | [id] => s.remove id
    | _ => (s, false)

def cancelForShutdown (s : TransferScheduler) : TransferScheduler :=
  s.active.entries.foldl (fun s transfer => s.store transfer.2.cancel) s

end TransferScheduler

inductive Call where
  | reserveInline (transferId : String)
  | reserveAuxiliary (transferId : String)
  | cancel (expectedId : Option String)
  | finish (expectedId : Option String)
  | cancelForShutdown
  deriving DecidableEq

inductive Answer where
  | reserved (token : Except String Token)
  | cancelled (result : Except String Unit)
  | finished (found : Bool)
  | shutDown

def TransferScheduler.call (s : TransferScheduler) : Call → TransferScheduler × Answer
  | .reserveInline id => ((s.reserveInline id).1, .reserved (s.reserveInline id).2)
  | .reserveAuxiliary id => ((s.reserveAuxiliary id).1, .reserved (s.reserveAuxiliary id).2)
  | .cancel id => ((s.cancel id).1, .cancelled (s.cancel id).2)
  | .finish id => ((s.finish id).1, .finished (s.finish id).2)
  | .cancelForShutdown => (s.cancelForShutdown, .shutDown)

/-! ## Runs -/

/-- A scheduler, and the tokens it has handed out with the id each was reserved under. -/
structure SchedulerRun where
  scheduler : TransferScheduler
  handed : List (String × Token)

/-- The id that a call reserves. -/
def Call.reserves : Call → Option String
  | .reserveInline id => some id
  | .reserveAuxiliary id => some id
  | _ => none

/-- The token that a call hands out, with its id. -/
def handsOut (call : Call) (answer : Answer) : List (String × Token) :=
  match call.reserves, answer with
  | some id, .reserved (.ok token) => [(id, token)]
  | _, _ => []

def SchedulerRun.step (r : SchedulerRun) (call : Call) : SchedulerRun where
  scheduler := (r.scheduler.call call).1
  handed := r.handed ++ handsOut call (r.scheduler.call call).2

def SchedulerRun.run (maxActive : Nat) (calls : List Call) : SchedulerRun :=
  calls.foldl SchedulerRun.step ⟨.withMaxActive maxActive, []⟩

/-- An answer that reports an error. -/
def Answer.failed : Answer → Bool
  | .reserved (.error _) => true
  | .cancelled (.error _) => true
  | _ => false

def TransferScheduler.isSet (s : TransferScheduler) (token : Token) : Prop :=
  s.flags[token]? = some true

/-- The calls that mean the active transfer `id`: a cancellation that names it or, if it is the only
one, none, and the shutdown. -/
def TransferScheduler.Cancels (s : TransferScheduler) (call : Call) (id : String) : Prop :=
  call = .cancel (some id) ∨ (call = .cancel none ∧ s.active.keys = [id]) ∨ call = .cancelForShutdown

/-- What the slots promise, in a state and for every call in it. -/
structure SchedulerRun.Sound (r : SchedulerRun) : Prop where
  bounded : r.scheduler.activeCount ≤ r.scheduler.maxActive
  exclusive : ∀ id transfer, r.scheduler.active.lookup id = some transfer →
    transfer.kind = .inline → r.scheduler.active.keys = [id]
  unchanged : ∀ call, (r.scheduler.call call).2.failed = true → r.step call = r
  /-- A token is set by a call that means its transfer, as long as that is active. -/
  set : ∀ call id token, (id, token) ∈ r.handed → ¬ r.scheduler.isSet token →
    (r.step call).scheduler.isSet token →
    r.scheduler.Cancels call id ∧
      ∃ transfer, r.scheduler.active.lookup id = some transfer ∧ transfer.cancel = token
  /-- A reservation hands out a token that nobody has had before, not yet set. -/
  fresh : ∀ call id token, (id, token) ∈ handsOut call (r.scheduler.call call).2 →
    (∀ other ∈ r.handed, other.2 ≠ token) ∧ ¬ (r.step call).scheduler.isSet token

/-! ## What keeps the promise -/

variable {s : TransferScheduler} {r : SchedulerRun} {id : String} {token : Token}

namespace TransferScheduler

theorem isSet_store {token' : Token} :
    (s.store token').isSet token ↔ s.isSet token ∨ token = token' ∧ token < s.flags.length := by
  unfold isSet store
  rw [List.getElem?_set]
  split_ifs with h h'
  · subst h
    exact iff_of_true rfl (.inr ⟨rfl, h'⟩)
  · subst h
    rw [List.getElem?_eq_none (Nat.le_of_not_lt h')]
    exact iff_of_false nofun fun hor => hor.elim nofun fun hlt => h' hlt.2
  · exact (or_iff_left fun heq => h heq.1.symm).symm

/-- The stores of a shutdown. -/
theorem foldl_store (entries : List (Sigma fun _ : String => ScheduledTransfer))
    (s : TransferScheduler) :
    let t := entries.foldl (fun s transfer => s.store transfer.2.cancel) s
    t.active = s.active ∧ t.maxActive = s.maxActive ∧ t.flags.length = s.flags.length ∧
      ∀ token, t.isSet token ↔
        s.isSet token ∨ (∃ entry ∈ entries, entry.2.cancel = token) ∧ token < s.flags.length := by
  induction entries generalizing s with
  | nil => simp
  | cons entry entries ih =>
    obtain ⟨hactive, hmax, hlength, hset⟩ := ih (s.store entry.2.cancel)
    have hflags : (s.store entry.2.cancel).flags.length = s.flags.length := List.length_set
    refine ⟨hactive, hmax, hlength.trans hflags, fun token => ?_⟩
    rw [List.foldl_cons, hset, isSet_store, hflags]
    simp only [List.mem_cons, exists_eq_or_imp]
    tauto

end TransferScheduler

/-- What every step keeps. -/
structure SchedulerRun.Inv (r : SchedulerRun) : Prop where
  bounded : r.scheduler.activeCount ≤ r.scheduler.maxActive
  exclusive : ∀ id transfer, r.scheduler.active.lookup id = some transfer →
    transfer.kind = .inline → r.scheduler.active.keys = [id]
  issued : ∀ id transfer, r.scheduler.active.lookup id = some transfer →
    (id, transfer.cancel) ∈ r.handed
  /-- The tokens were handed out in the order of their addresses. -/
  addresses : r.handed.map Prod.snd = List.range r.scheduler.flags.length

/-- What a call can do. -/
inductive TransferScheduler.Does (s : TransferScheduler) (call : Call) :
    TransferScheduler × Answer → Prop
  | nothing (answer : Answer) (hout : handsOut call answer = []) : s.Does call (s, answer)
  | enters (id : String) (kind : TransferTaskKind) (hcall : call.reserves = some id)
      (hnew : s.active.lookup id = none) (hroom : s.activeCount < s.maxActive)
      (hinline : kind = .inline → s.active.keys = [])
      (hauxiliary : kind = .auxiliary → ∀ id transfer, s.active.lookup id = some transfer →
        transfer.kind ≠ .inline) :
      s.Does call ((s.enter id kind).1, .reserved (.ok s.flags.length))
  | stores (id : String) (transfer : ScheduledTransfer) (answer : Answer)
      (hout : handsOut call answer = []) (hok : answer.failed = false)
      (hactive : s.active.lookup id = some transfer) (hcancels : s.Cancels call id) :
      s.Does call (s.store transfer.cancel, answer)
  | removes (id : String) (answer : Answer) (hout : handsOut call answer = [])
      (hok : answer.failed = false) : s.Does call ((s.remove id).1, answer)
  | shutsDown (hcall : call = .cancelForShutdown) : s.Does call (s.cancelForShutdown, .shutDown)

namespace TransferScheduler

theorem lookup_of_ensureNewId (h : s.ensureNewId id = .ok ()) : s.active.lookup id = none := by
  unfold ensureNewId at h
  split_ifs at h with hsome
  exact Option.not_isSome_iff_eq_none.mp hsome

theorem not_inline_of_not_hasInline (h : s.hasInlineTransfer = false) {transfer : ScheduledTransfer}
    (hactive : s.active.lookup id = some transfer) : transfer.kind ≠ .inline := by
  intro hkind
  have hmem : ⟨id, transfer⟩ ∈ s.active.entries := AList.mem_lookup_iff.mp hactive
  rw [hasInlineTransfer, List.any_eq_false] at h
  exact h _ hmem (decide_eq_true hkind)

theorem does_call (s : TransferScheduler) (call : Call) : s.Does call (s.call call) := by
  cases call with
  | reserveInline id =>
    simp only [TransferScheduler.call, reserveInline]
    split
    · exact .nothing _ rfl
    · rename_i hnew
      split_ifs with hmax hbusy
      · exact .nothing _ rfl
      · exact .nothing _ rfl
      · have hempty : s.activeCount = 0 := not_not.mp hbusy
        exact .enters id .inline rfl (lookup_of_ensureNewId hnew) (by omega)
          (fun _ => List.eq_nil_of_length_eq_zero hempty) nofun
  | reserveAuxiliary id =>
    simp only [TransferScheduler.call, reserveAuxiliary]
    split
    · exact .nothing _ rfl
    · rename_i hnew
      split
      · exact .nothing _ rfl
      · rename_i hcapacity
        unfold ensureAuxiliaryCapacity at hcapacity
        split_ifs at hcapacity with hinline hfull
        push Not at hfull
        exact .enters id .auxiliary rfl (lookup_of_ensureNewId hnew) hfull.2 nofun
          fun _ _ _ hactive => not_inline_of_not_hasInline (Bool.eq_false_iff.mpr hinline) hactive
  | cancel expectedId =>
    simp only [TransferScheduler.call, cancel]
    split
    · exact .nothing _ rfl
    · rename_i transferId hid
      split
      · exact .nothing _ rfl
      · rename_i transfer hactive
        refine .stores transferId transfer _ rfl rfl hactive ?_
        unfold cancelId at hid
        split at hid
        · obtain rfl := Except.ok.inj hid
          exact .inl rfl
        · split at hid
          · cases hid
          · rename_i only hkeys
            obtain rfl := Except.ok.inj hid
            exact .inr (.inl ⟨rfl, hkeys⟩)
          · cases hid
  | finish expectedId =>
    simp only [TransferScheduler.call, finish]
    split
    · exact .removes _ _ rfl rfl
    · split
      · exact .removes _ _ rfl rfl
      · exact .nothing _ rfl
  | cancelForShutdown => exact .shutsDown rfl

end TransferScheduler

namespace SchedulerRun

theorem Inv.token_lt (h : r.Inv) {id : String} {token : Token} (hmem : (id, token) ∈ r.handed) :
    token < r.scheduler.flags.length := by
  have hrange : token ∈ r.handed.map Prod.snd := List.mem_map_of_mem hmem
  rw [h.addresses] at hrange
  exact List.mem_range.mp hrange

/-- A token belongs to one id. -/
theorem Inv.id_of_token (h : r.Inv) {id id' : String} {token : Token}
    (hmem : (id, token) ∈ r.handed) (hmem' : (id', token) ∈ r.handed) : id = id' := by
  have hnodup : (r.handed.map Prod.snd).Nodup := h.addresses ▸ List.nodup_range
  exact congrArg Prod.fst (List.inj_on_of_nodup_map hnodup hmem hmem' rfl)

theorem inv_start (maxActive : Nat) : (run maxActive []).Inv where
  bounded := Nat.zero_le _
  exclusive _ _ h := nomatch h
  issued _ _ h := nomatch h
  addresses := rfl

/-- A state with the same active transfers and as many tokens. -/
theorem Inv.same (h : r.Inv) {scheduler : TransferScheduler}
    (hmax : scheduler.maxActive = r.scheduler.maxActive)
    (hactive : scheduler.active = r.scheduler.active)
    (hflags : scheduler.flags.length = r.scheduler.flags.length) :
    Inv ⟨scheduler, r.handed⟩ where
  bounded := by
    show scheduler.active.keys.length ≤ scheduler.maxActive
    rw [hmax, hactive]
    exact h.bounded
  exclusive := hactive ▸ h.exclusive
  issued := hactive ▸ h.issued
  addresses := hflags ▸ h.addresses

theorem Inv.step (h : r.Inv) (call : Call) : (r.step call).Inv := by
  have hdoes := r.scheduler.does_call call
  unfold SchedulerRun.step
  generalize r.scheduler.call call = after at hdoes ⊢
  cases hdoes with
  | nothing answer hout => rw [hout, List.append_nil]; exact h
  | enters id kind hcall hnew hroom hinline hauxiliary =>
    have hout : handsOut call (.reserved (.ok r.scheduler.flags.length)) =
        [(id, r.scheduler.flags.length)] := by
      unfold handsOut
      rw [hcall]
    have hkeys : (r.scheduler.active.insert id ⟨kind, r.scheduler.flags.length⟩).keys =
        id :: r.scheduler.active.keys := by
      rw [AList.keys_insert, List.erase_of_not_mem fun hmem => AList.lookup_eq_none.mp hnew hmem]
    dsimp only
    rw [hout]
    refine ⟨?_, fun id' transfer hactive hkind => ?_, fun id' transfer hactive => ?_, ?_⟩
    · show (r.scheduler.active.insert id ⟨kind, _⟩).keys.length ≤ _
      rw [hkeys]
      exact hroom
    · show (r.scheduler.active.insert id ⟨kind, _⟩).keys = _
      rw [hkeys]
      by_cases hid : id' = id
      · subst hid
        have htransfer := (AList.lookup_insert r.scheduler.active).symm.trans hactive
        obtain rfl := Option.some.inj htransfer
        rw [hinline hkind]
      · have hold := (AList.lookup_insert_ne hid).symm.trans hactive
        cases kind with
        | inline =>
          have hmem := AList.lookup_isSome.mp (by rw [hold]; rfl : (AList.lookup id' _).isSome)
          rw [AList.mem_keys, hinline rfl] at hmem
          cases hmem
        | auxiliary => exact absurd hkind (hauxiliary rfl id' transfer hold)
    · by_cases hid : id' = id
      · subst hid
        have htransfer := (AList.lookup_insert r.scheduler.active).symm.trans hactive
        obtain rfl := Option.some.inj htransfer
        exact List.mem_append_right _ (List.mem_singleton_self _)
      · exact List.mem_append_left _ (h.issued id' transfer
          ((AList.lookup_insert_ne hid).symm.trans hactive))
    · show (r.handed ++ [(id, r.scheduler.flags.length)]).map Prod.snd =
        List.range (r.scheduler.flags ++ [false]).length
      rw [List.map_append, h.addresses, List.length_append, List.length_singleton, List.range_succ]
      rfl
  | stores id transfer answer hout hok hactive hcancels =>
    rw [hout, List.append_nil]
    exact h.same rfl rfl List.length_set
  | removes id answer hout hok =>
    rw [hout, List.append_nil]
    have hlookup {id' : String} {transfer : ScheduledTransfer}
        (hactive : (r.scheduler.active.erase id).lookup id' = some transfer) :
        id' ≠ id ∧ r.scheduler.active.lookup id' = some transfer := by
      have hne : id' ≠ id := by
        rintro rfl
        rw [AList.lookup_erase] at hactive
        cases hactive
      exact ⟨hne, (AList.lookup_erase_ne hne).symm.trans hactive⟩
    refine ⟨?_, fun id' transfer hactive hkind => ?_, fun id' transfer hactive => ?_, h.addresses⟩
    · show (r.scheduler.active.erase id).keys.length ≤ _
      rw [AList.keys_erase]
      exact (List.length_erase_le).trans h.bounded
    · obtain ⟨hne, hold⟩ := hlookup hactive
      show (r.scheduler.active.erase id).keys = _
      rw [AList.keys_erase, h.exclusive id' transfer hold hkind]
      exact List.erase_of_not_mem fun hmem => hne (List.mem_singleton.mp hmem).symm
    · exact h.issued id' transfer (hlookup hactive).2
  | shutsDown hcall =>
    obtain ⟨hactive, hmax, hlength, -⟩ :=
      TransferScheduler.foldl_store r.scheduler.active.entries r.scheduler
    have hout : handsOut call .shutDown = [] := by rw [hcall]; rfl
    rw [hout, List.append_nil]
    exact h.same hmax hactive hlength

theorem inv_run (maxActive : Nat) (calls : List Call) : (run maxActive calls).Inv := by
  unfold run
  induction calls using List.reverseRecOn with
  | nil => exact inv_start maxActive
  | append_singleton calls call ih =>
    rw [List.foldl_append]
    exact ih.step call

theorem unchanged (r : SchedulerRun) (call : Call) (hfailed : (r.scheduler.call call).2.failed = true) :
    r.step call = r := by
  have hdoes := r.scheduler.does_call call
  unfold SchedulerRun.step
  generalize r.scheduler.call call = after at hdoes hfailed ⊢
  cases hdoes with
  | nothing answer hout => rw [hout, List.append_nil]
  | enters => cases hfailed
  | stores _ _ _ _ hok => rw [hok] at hfailed; cases hfailed
  | removes _ _ _ hok => rw [hok] at hfailed; cases hfailed
  | shutsDown => cases hfailed

theorem Inv.set (h : r.Inv) {call : Call} {id : String} {token : Token}
    (hmem : (id, token) ∈ r.handed) (hbefore : ¬ r.scheduler.isSet token)
    (hafter : (r.step call).scheduler.isSet token) :
    r.scheduler.Cancels call id ∧
      ∃ transfer, r.scheduler.active.lookup id = some transfer ∧ transfer.cancel = token := by
  have hdoes := r.scheduler.does_call call
  unfold SchedulerRun.step at hafter
  generalize r.scheduler.call call = after at hdoes hafter
  cases hdoes with
  | nothing answer hout => exact absurd hafter hbefore
  | enters id' kind =>
    refine absurd ?_ hbefore
    unfold TransferScheduler.isSet at hafter ⊢
    rwa [← List.getElem?_append_left (h.token_lt hmem)]
  | stores id' transfer answer hout hok hactive hcancels =>
    obtain ⟨rfl, -⟩ := (TransferScheduler.isSet_store.mp hafter).resolve_left hbefore
    obtain rfl := h.id_of_token hmem (h.issued id' transfer hactive)
    exact ⟨hcancels, transfer, hactive, rfl⟩
  | removes => exact absurd hafter hbefore
  | shutsDown hcall =>
    obtain ⟨-, -, -, hset⟩ := TransferScheduler.foldl_store r.scheduler.active.entries r.scheduler
    obtain ⟨⟨⟨id', transfer⟩, hentry, rfl⟩, -⟩ := ((hset token).mp hafter).resolve_left hbefore
    have hactive := AList.mem_lookup_iff.mpr hentry
    obtain rfl := h.id_of_token hmem (h.issued id' transfer hactive)
    exact ⟨.inr (.inr hcall), transfer, hactive, rfl⟩

theorem Inv.fresh (h : r.Inv) {call : Call} {id : String} {token : Token}
    (hout : (id, token) ∈ handsOut call (r.scheduler.call call).2) :
    (∀ other ∈ r.handed, other.2 ≠ token) ∧ ¬ (r.step call).scheduler.isSet token := by
  have hdoes := r.scheduler.does_call call
  unfold SchedulerRun.step
  generalize r.scheduler.call call = after at hdoes hout ⊢
  cases hdoes with
  | nothing answer hnone => rw [hnone] at hout; cases hout
  | enters id' kind hcall =>
    unfold handsOut at hout
    rw [hcall] at hout
    obtain ⟨-, rfl⟩ := Prod.mk.inj (List.mem_singleton.mp hout)
    refine ⟨fun other hmem heq => ?_, fun hset => ?_⟩
    · have hlt : other.2 < r.scheduler.flags.length := h.token_lt hmem
      exact hlt.ne heq
    · unfold TransferScheduler.isSet at hset
      rw [show (r.scheduler.enter id' kind).1.flags = r.scheduler.flags ++ [false] from rfl,
        List.getElem?_concat_length] at hset
      cases hset
  | stores _ _ _ hnone => rw [hnone] at hout; cases hout
  | removes _ _ hnone => rw [hnone] at hout; cases hout
  | shutsDown hcall => rw [hcall] at hout; cases hout

/-- **Transfer slots.** In every reachable state the slots are bounded, an inline transfer is alone,
failures change nothing, and every token stays with the one transfer it was handed out for. -/
theorem sound_run (maxActive : Nat) (calls : List Call) : (run maxActive calls).Sound :=
  have h := inv_run maxActive calls
  ⟨h.bounded, h.exclusive, unchanged _, fun _ _ _ => h.set, fun _ _ _ => h.fresh⟩

end SchedulerRun

end TauTerm.Transfer
