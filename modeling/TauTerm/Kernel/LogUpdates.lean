import Mathlib
import TauTerm.Kernel.LogEngine

/-!
# Updates of the log configuration

An undisturbed call writes what its update makes of the configuration at hand, so that the
configuration is the initial one with the updates applied in the order of the writes. The invariant
has one part for each thing a call leaves behind: the writes, the flag and the writers.
-/

namespace TauTerm.Kernel

open Lib

variable {initial config previous next : LogConfig} {s s' : LogEngine} {i j : Nat}
  {call other : UpdateCall} {update : LogConfigUpdate} {phase : CallPhase} {value : Bool}

namespace LogEngine

theorem getElem?_setPhase (hcall : s.calls[i]? = some call) (j : Nat) :
    (s.setPhase i phase).calls[j]? = if j = i then some { call with phase } else s.calls[j]? := by
  rw [setPhase, List.getElem?_modify]
  split_ifs with hij hji hji
  · rw [hji, hcall]
    rfl
  · exact absurd hij.symm hji
  · exact absurd hji.symm hij
  · exact id_map (s.calls[j]?)

@[simp] theorem length_calls_setPhase : (s.setPhase i phase).calls.length = s.calls.length :=
  List.length_modify _ _ _

theorem enabledWithout_store : (s.store i value).enabledWithout initial j =
    if i = j then s.enabledWithout initial j else value := by
  unfold enabledWithout store
  split_ifs with hij
  · rw [List.find?_cons_of_neg (by simp [hij])]
  · rw [List.find?_cons_of_pos (by simp [hij])]
    rfl

/-- All that the next step of call `i` can do, by where the call stands. -/
inductive CallSteps (s : LogEngine) (i : Nat) (update : LogConfigUpdate) :
    CallPhase → LogEngine → Prop
  | refuse (error : String) : CallSteps s i update .reading (s.setPhase i (.returned (.error error)))
  | stop (henabled : s.config.sessionEnabled = true) (hnew : update.sessionEnabled = some false) :
    CallSteps s i update .reading (s.setPhase i (.disabling s.config (update.applyTo s.config)))
  | go (hnext : s.config.sessionEnabled = true → (update.applyTo s.config).sessionEnabled = true) :
    CallSteps s i update .reading (s.setPhase i (.writing s.config (update.applyTo s.config)))
  | disable (previous next : LogConfig) :
    CallSteps s i update (.disabling previous next)
      ((s.store i false).setPhase i (.sending previous next))
  | sent (previous next : LogConfig) :
    CallSteps s i update (.sending previous next)
      ({ s with queue := s.queue ++ [LogEntry.command .stopAllSessions] }.setPhase i
        (.writing previous next))
  | unsent (previous next : LogConfig) :
    CallSteps s i update (.sending previous next) (s.setPhase i (.restoring previous))
  | restore (previous : LogConfig) (error : String) :
    CallSteps s i update (.restoring previous)
      ((s.store i previous.sessionEnabled).setPhase i (.returned (.error error)))
  | write (previous next : LogConfig) :
    CallSteps s i update (.writing previous next)
      ({ s with config := next, writes := (i, update) :: s.writes }.setPhase i (.storing next))
  | finish (next : LogConfig) :
    CallSteps s i update (.storing next)
      ((s.store i next.sessionEnabled).setPhase i (.returned (.ok ())))
  | idle (result : Except String Unit) : CallSteps s i update (.returned result) s

theorem callStep_cases (s : LogEngine) (i : Nat) (call : UpdateCall) :
    CallSteps s i call.update call.phase (s.callStep i call) := by
  obtain ⟨update, phase⟩ := call
  cases phase with
  | reading =>
    simp only [callStep]
    split
    · exact .refuse _
    · split_ifs with hstop
      · obtain ⟨henabled, hnext⟩ := Bool.and_eq_true_iff.mp hstop
        refine .stop henabled ?_
        cases hnew : update.sessionEnabled with
        | none => simp [LogConfigUpdate.applyTo, hnew, henabled] at hnext
        | some value => simpa [LogConfigUpdate.applyTo, hnew] using hnext
      · refine .go fun henabled => ?_
        simpa [henabled] using hstop
  | disabling previous next => exact .disable previous next
  | sending previous next =>
    simp only [callStep, trySend]
    split_ifs with hroom
    · exact .sent previous next
    · exact .unsent previous next
  | restoring previous => exact .restore previous _
  | writing previous next => exact .write previous next
  | storing next => exact .finish next
  | returned result => exact .idle result

/-- What the calls work with is as it was. -/
structure SameCalls (s s' : LogEngine) : Prop where
  config : s'.config = s.config
  enabled : s'.enabled = s.enabled
  calls : s'.calls = s.calls
  stores : s'.stores = s.stores
  writes : s'.writes = s.writes

theorem sameCalls_receive (s : LogEngine) (config : LogConfig) (outcome : WriterOutcome) :
    SameCalls s (s.receive config outcome) := by
  unfold receive
  split
  · exact ⟨rfl, rfl, rfl, rfl, rfl⟩
  · split
    · simp only
      split_ifs <;> exact ⟨rfl, rfl, rfl, rfl, rfl⟩
    · exact ⟨rfl, rfl, rfl, rfl, rfl⟩
    · exact ⟨rfl, rfl, rfl, rfl, rfl⟩

/-! ## The writes -/

/-- The updates, applied in the order of their writes. -/
def replay (writes : List (Nat × LogConfigUpdate)) (initial : LogConfig) : LogConfig :=
  writes.foldr (fun w config => w.2.applyTo config) initial

end LogEngine

def CallPhase.Written : CallPhase → Bool
  | .storing _ | .returned (.ok ()) => true
  | _ => false

namespace LogEngine

structure History (initial : LogConfig) (s : LogEngine) : Prop where
  config_eq : s.config = replay s.writes initial
  mem_writes : ∀ i update, (i, update) ∈ s.writes ↔
    ∃ call, s.calls[i]? = some call ∧ call.phase.Written ∧ call.update = update

theorem History.setPhase (h : History initial s) (hcall : s.calls[i]? = some call)
    (hphase : phase.Written = call.phase.Written) : History initial (s.setPhase i phase) where
  config_eq := h.config_eq
  mem_writes j update := by
    refine (h.mem_writes j update).trans ?_
    rw [getElem?_setPhase hcall]
    by_cases hji : j = i
    · simp [hji, hcall, hphase]
    · rw [if_neg hji]

theorem History.callStep (h : History initial s) (hcall : s.calls[i]? = some call)
    (hstep : CallSteps s i call.update call.phase s')
    (hwrite : ∀ previous next, call.phase = .writing previous next →
      call.update.applyTo s.config = next) : History initial s' := by
  generalize hupdate : call.update = update at hstep
  generalize hphase : call.phase = phase at hstep
  have hstore : ∀ value, History initial (s.store i value) := fun _ => ⟨h.config_eq, h.mem_writes⟩
  cases hstep with
  | refuse | stop | go | unsent => exact h.setPhase hcall (by rw [hphase]; rfl)
  | disable | restore | finish =>
    exact (hstore _).setPhase hcall (by rw [hphase]; rfl)
  | sent =>
    have hqueue : History initial { s with queue := s.queue ++ [.command .stopAllSessions] } :=
      ⟨h.config_eq, h.mem_writes⟩
    exact hqueue.setPhase hcall (by rw [hphase]; rfl)
  | write previous next =>
    refine ⟨?_, fun j u => ?_⟩
    · change next = update.applyTo (replay s.writes initial)
      rw [← h.config_eq, ← hupdate, hwrite previous next hphase]
    · change (j, u) ∈ (i, update) :: s.writes ↔ _
      rw [List.mem_cons, h.mem_writes,
        getElem?_setPhase (s := { s with config := next, writes := (i, update) :: s.writes }) hcall]
      by_cases hji : j = i
      · simp only [hji, hcall, if_true, Prod.mk.injEq, true_and, Option.some.injEq, exists_eq_left',
          hphase, hupdate, CallPhase.Written]
        simp [eq_comm]
      · simp [hji]
  | idle => exact h

theorem History.same (h : History initial s) (hsame : SameCalls s s') : History initial s' := by
  refine ⟨?_, fun i update => ?_⟩
  · rw [hsame.config, hsame.writes, h.config_eq]
  · rw [hsame.writes, hsame.calls, h.mem_writes]

theorem getElem?_calls_concat (s : LogEngine) (update : LogConfigUpdate) (j : Nat) :
    (s.calls ++ [({ update } : UpdateCall)])[j]? =
      if j = s.calls.length then some { update } else s.calls[j]? := by
  rcases lt_trichotomy j s.calls.length with hj | hj | hj
  · rw [List.getElem?_append_left hj, if_neg hj.ne]
  · rw [hj, List.getElem?_concat_length, if_pos rfl]
  · rw [if_neg hj.ne', List.getElem?_eq_none (by simp; omega), List.getElem?_eq_none hj.le]

theorem History.addCall (h : History initial s) (update : LogConfigUpdate) :
    History initial (s.step (.update update)) := by
  refine ⟨h.config_eq, fun j u => (h.mem_writes j u).trans ?_⟩
  change _ ↔ ∃ call, (s.calls ++ [({ update } : UpdateCall)])[j]? = some call ∧ _
  rw [getElem?_calls_concat]
  by_cases hj : j = s.calls.length
  · simp [hj, CallPhase.Written]
  · rw [if_neg hj]

/-- The last of the writes that set a field decides on it. -/
theorem get_replay {α : Type} (field : ConfigField α) (writes : List (Nat × LogConfigUpdate)) :
    field.get (replay writes initial) =
      (writes.findSome? fun w => field.new w.2).getD (field.get initial) := by
  induction writes with
  | nil => rfl
  | cons w writes ih =>
    change field.get (w.2.applyTo (replay writes initial)) = _
    rw [field.get_applyTo, ih, List.findSome?_cons]
    cases field.new w.2 with
    | none => rfl
    | some v => rfl

theorem History.merged {α : Type} (h : History initial s) (field : ConfigField α)
    (hdone : ∀ call ∈ s.calls, call.phase = .returned (.ok ())) : field.Merged initial s := by
  have hget := @get_replay initial _ field s.writes
  rw [← h.config_eq] at hget
  have hwritten : ∀ {i : Nat} {call : UpdateCall}, s.calls[i]? = some call →
      (i, call.update) ∈ s.writes :=
    fun hcall => (h.mem_writes _ _).mpr
      ⟨_, hcall, by rw [hdone _ (List.mem_of_getElem? hcall)]; rfl, rfl⟩
  cases hlast : s.writes.findSome? fun w => field.new w.2 with
  | none =>
    rw [hlast, Option.getD_none] at hget
    have hnone : ∀ {i : Nat} {call : UpdateCall}, s.calls[i]? = some call →
        field.new call.update = none :=
      fun hcall => List.findSome?_eq_none_iff.mp hlast _ (hwritten hcall)
    refine ⟨fun ⟨call, hmem, hnew⟩ => ?_, fun i call v hcall hnew _ => ?_, fun _ => hget⟩
    · obtain ⟨i, hcall⟩ := List.getElem?_of_mem hmem
      exact absurd (hnone hcall) hnew
    · rw [hnone hcall] at hnew
      cases hnew
  | some v =>
    rw [hlast, Option.getD_some] at hget
    obtain ⟨⟨i, update⟩, hmem, hnew⟩ := List.exists_of_findSome?_eq_some hlast
    obtain ⟨call, hcall, -, rfl⟩ := (h.mem_writes i update).mp hmem
    refine ⟨fun _ => ⟨call, List.mem_of_getElem? hcall, by rw [hget]; exact hnew⟩,
      fun j other w hother hw honly => ?_, fun hall => ?_⟩
    · by_cases hij : i = j
      · subst hij
        obtain rfl := Option.some.inj (hcall.symm.trans hother)
        rw [hget]
        exact Option.some.inj (hnew.symm.trans hw)
      · have habsent := honly i call hcall hij
        rw [habsent] at hnew
        cases hnew
    · rw [hall call (List.mem_of_getElem? hcall)] at hnew
      cases hnew

/-- After a write that turns logging off, only one that turns it on can change that. -/
theorem sessionEnabled_replay {later earlier : List (Nat × LogConfigUpdate)}
    (hoff : update.sessionEnabled = some false)
    (hlater : ∀ w ∈ later, w.2.sessionEnabled ≠ some true) :
    (replay (later ++ (i, update) :: earlier) initial).sessionEnabled = false := by
  induction later with
  | nil =>
    change update.sessionEnabled.getD _ = false
    rw [hoff]
    rfl
  | cons w later ih =>
    change w.2.sessionEnabled.getD _ = false
    have hw := hlater w List.mem_cons_self
    have hrest := ih fun w hw => hlater w (List.mem_cons_of_mem _ hw)
    cases hnew : w.2.sessionEnabled with
    | none => exact hrest
    | some value =>
      cases value with
      | false => rfl
      | true => exact absurd hnew hw

/-! ## The flag -/

/-- What a call that is about to turn logging off, or has tried to, has read. -/
def CallOk (call : UpdateCall) : Prop :=
  match call.phase with
  | .disabling previous next | .sending previous next =>
    previous.sessionEnabled = true ∧ next.sessionEnabled = false ∧
      call.update.sessionEnabled = some false
  | .restoring previous =>
    previous.sessionEnabled = true ∧ call.update.sessionEnabled = some false
  | .writing previous next =>
    previous.sessionEnabled = true → next.sessionEnabled = false →
      call.update.sessionEnabled = some false
  | _ => True

theorem callOk_setPhase (h : ∀ call ∈ s.calls, CallOk call) (hcall : s.calls[i]? = some call)
    (hok : CallOk { call with phase }) : ∀ other ∈ (s.setPhase i phase).calls, CallOk other := by
  intro other hmem
  obtain ⟨j, hj⟩ := List.getElem?_of_mem hmem
  rw [getElem?_setPhase hcall] at hj
  split_ifs at hj
  · exact Option.some.inj hj ▸ hok
  · exact h other (List.mem_of_getElem? hj)

theorem callOk_callStep (h : ∀ call ∈ s.calls, CallOk call) (hcall : s.calls[i]? = some call)
    (hstep : CallSteps s i call.update call.phase s') : ∀ call ∈ s'.calls, CallOk call := by
  have hok := h call (List.mem_of_getElem? hcall)
  generalize hupdate : call.update = update at hstep
  generalize hphase : call.phase = phase at hstep
  unfold CallOk at hok
  rw [hphase] at hok
  cases hstep with
  | refuse => exact callOk_setPhase h hcall trivial
  | stop henabled hnew =>
    have hnext : (update.applyTo s.config).sessionEnabled = false := by
      rw [LogConfigUpdate.applyTo, hnew]
      rfl
    exact callOk_setPhase h hcall ⟨henabled, hnext, hupdate ▸ hnew⟩
  | go hnext =>
    refine callOk_setPhase h hcall fun henabled hnext' => ?_
    rw [hnext henabled] at hnext'
    cases hnext'
  | disable => exact callOk_setPhase (s := s.store i false) h hcall hok
  | sent => exact callOk_setPhase (s := { s with queue := _ }) h hcall fun _ _ => hok.2.2
  | unsent => exact callOk_setPhase h hcall ⟨hok.1, hok.2.2⟩
  | restore => exact callOk_setPhase (s := s.store i _) h hcall trivial
  | write => exact callOk_setPhase (s := { s with config := _, writes := _ }) h hcall trivial
  | finish => exact callOk_setPhase (s := s.store i _) h hcall trivial
  | idle => exact h

/-- Without the stores of a call that is not at its end, the flag is as configured, unless somebody
else is switching. -/
structure Flag (initial : LogConfig) (s : LogEngine) : Prop where
  enabled_eq : s.enabled = (s.stores.head?.map Prod.snd).getD initial.sessionEnabled
  stores_lt : ∀ p ∈ s.stores, p.1 < s.calls.length
  fresh : ∀ (i : Nat) call, s.calls[i]? = some call → call.phase = .reading →
    ∀ p ∈ s.stores, p.1 ≠ i
  failed : ∀ (i : Nat) call error, s.calls[i]? = some call →
    call.phase = .returned (.error error) → s.enabled = s.enabledWithout initial i
  settled : ∀ i : Nat, (∀ call, s.calls[i]? = some call → call.phase.Written = false) →
    (∀ (j : Nat) other, j ≠ i → s.calls[j]? = some other → other.Switching = false) →
    s.enabledWithout initial i = s.config.sessionEnabled

theorem Flag.enabledWithout_of_fresh (h : Flag initial s) (hfresh : ∀ p ∈ s.stores, p.1 ≠ i) :
    s.enabledWithout initial i = s.enabled := by
  rw [h.enabled_eq, enabledWithout]
  cases hstores : s.stores with
  | nil => rfl
  | cons p stores =>
    rw [hstores] at hfresh
    rw [List.find?_cons_of_pos (by simpa using hfresh p List.mem_cons_self)]
    rfl

/-- The step of a call that stores nothing. -/
theorem Flag.quiet (h : Flag initial s) (config : LogConfig) (queue : List LogEntry)
    (writes : List (Nat × LogConfigUpdate)) (hcall : s.calls[i]? = some call)
    (hphase : phase ≠ .reading)
    (hfailed : ∀ error, phase = .returned (.error error) → s.enabled = s.enabledWithout initial i)
    (hsettled : ∀ j : Nat,
      (∀ other, (s.setPhase i phase).calls[j]? = some other → other.phase.Written = false) →
      (∀ (k : Nat) other, k ≠ j → (s.setPhase i phase).calls[k]? = some other →
        other.Switching = false) →
      s.enabledWithout initial j = config.sessionEnabled) :
    Flag initial ({ s with config, queue, writes }.setPhase i phase) where
  enabled_eq := h.enabled_eq
  stores_lt p hp := by
    change p.1 < (s.setPhase i phase).calls.length
    rw [length_calls_setPhase]
    exact h.stores_lt p hp
  fresh j other hother hreading := by
    change (s.setPhase i phase).calls[j]? = some other at hother
    rw [getElem?_setPhase hcall] at hother
    split_ifs at hother with hji
    · obtain rfl := Option.some.inj hother
      exact absurd hreading hphase
    · exact h.fresh j other hother hreading
  failed j other error hother herror := by
    change (s.setPhase i phase).calls[j]? = some other at hother
    rw [getElem?_setPhase hcall] at hother
    split_ifs at hother with hji
    · obtain rfl := Option.some.inj hother
      exact hji ▸ hfailed error herror
    · exact h.failed j other error hother herror
  settled := hsettled

/-- The step of a call that stores. -/
theorem Flag.store (h : Flag initial s) (hcall : s.calls[i]? = some call)
    (hphase : phase ≠ .reading)
    (hfailed : ∀ error, phase = .returned (.error error) → value = s.enabledWithout initial i)
    (hsettled : ∀ j : Nat,
      (∀ other, (s.setPhase i phase).calls[j]? = some other → other.phase.Written = false) →
      (∀ (k : Nat) other, k ≠ j → (s.setPhase i phase).calls[k]? = some other →
        other.Switching = false) →
      (if i = j then s.enabledWithout initial j else value) = s.config.sessionEnabled) :
    Flag initial ((s.store i value).setPhase i phase) where
  enabled_eq := rfl
  stores_lt p hp := by
    rw [length_calls_setPhase]
    rcases List.mem_cons.mp hp with rfl | hp
    · exact (List.getElem?_eq_some_iff.mp hcall).1
    · exact h.stores_lt p hp
  fresh j other hother hreading p hp := by
    rw [getElem?_setPhase (s := s.store i value) hcall] at hother
    split_ifs at hother with hji
    · obtain rfl := Option.some.inj hother
      exact absurd hreading hphase
    · rcases List.mem_cons.mp hp with rfl | hp
      · exact Ne.symm hji
      · exact h.fresh j other hother hreading p hp
  failed j other error hother herror := by
    rw [getElem?_setPhase (s := s.store i value) hcall] at hother
    change value = (s.store i value).enabledWithout initial j
    rw [enabledWithout_store]
    split_ifs at hother ⊢ with hji hij hij
    · obtain rfl := Option.some.inj hother
      exact hji ▸ hfailed error herror
    · exact absurd hji.symm hij
    · exact absurd hij.symm hji
    · rfl
  settled j hwritten hother := by
    change (s.store i value).enabledWithout initial j = _
    rw [enabledWithout_store]
    exact hsettled j hwritten hother

/-- What `settled` says before a step, for a call `j` that meets its conditions after it. -/
theorem Flag.settled_of (h : Flag initial s) (hcall : s.calls[i]? = some call)
    (hwritten : phase.Written = false → call.phase.Written = false)
    (hswitching : i ≠ j → UpdateCall.Switching { call with phase } = false →
      call.Switching = false)
    (hj : ∀ other, (s.setPhase i phase).calls[j]? = some other → other.phase.Written = false)
    (hothers : ∀ (k : Nat) other, k ≠ j → (s.setPhase i phase).calls[k]? = some other →
      other.Switching = false) :
    s.enabledWithout initial j = s.config.sessionEnabled := by
  refine h.settled j (fun other hother => ?_) (fun k other hkj hother => ?_)
  · by_cases hji : j = i
    · have hnew := hj { call with phase } (by rw [getElem?_setPhase hcall, if_pos hji])
      rw [hji, hcall] at hother
      exact Option.some.inj hother ▸ hwritten hnew
    · exact hj other (by rw [getElem?_setPhase hcall, if_neg hji, hother])
  · by_cases hki : k = i
    · have hnew := hothers k { call with phase } hkj (by rw [getElem?_setPhase hcall, if_pos hki])
      rw [hki, hcall] at hother
      exact Option.some.inj hother ▸ hswitching (hki ▸ hkj) hnew
    · exact hothers k other hkj (by rw [getElem?_setPhase hcall, if_neg hki, hother])

theorem Flag.callStep (h : Flag initial s) (hcall : s.calls[i]? = some call) (hok : CallOk call)
    (hstep : CallSteps s i call.update call.phase s') (hundisturbed : Undisturbed s (.call i)) :
    Flag initial s' := by
  have hnow := hundisturbed call hcall
  obtain ⟨update, phase⟩ := call
  -- nobody else is switching, so call `i` is not, unless `j` is that call
  have hself : ∀ {phase' : CallPhase} {j : Nat}, i ≠ j →
      (∀ (k : Nat) other, k ≠ j → (s.setPhase i phase').calls[k]? = some other →
        other.Switching = false) → UpdateCall.Switching ⟨update, phase'⟩ = false :=
    fun hij hothers => hothers i _ hij (by rw [getElem?_setPhase hcall, if_pos rfl])
  cases hstep with
  | refuse error =>
    refine h.quiet s.config s.queue s.writes hcall (by simp) (fun _ _ => ?_) fun j hj hothers => ?_
    · exact (h.enabledWithout_of_fresh (h.fresh i _ hcall rfl)).symm
    · exact h.settled_of hcall (fun _ => rfl) (fun _ _ => by simp [UpdateCall.Switching,
        CallPhase.StopSent]) hj hothers
  | stop | go =>
    refine h.quiet s.config s.queue s.writes hcall (by simp) (by simp) fun j hj hothers => ?_
    exact h.settled_of hcall (fun _ => rfl) (fun _ _ => by simp [UpdateCall.Switching,
      CallPhase.StopSent]) hj hothers
  | disable previous next =>
    have hset : update.sessionEnabled = some false := hok.2.2
    refine h.store hcall (by simp) (by simp) fun j hj hothers => ?_
    split_ifs with hij
    · exact h.settled_of hcall (fun _ => rfl) (fun hij' => absurd hij hij') hj hothers
    · have hnew := hself hij hothers
      simp [UpdateCall.Switching, hset] at hnew
  | sent previous next =>
    obtain ⟨hprevious, hnext, hset⟩ : previous.sessionEnabled = true ∧
      next.sessionEnabled = false ∧ update.sessionEnabled = some false := hok
    refine h.quiet s.config _ s.writes hcall (by simp) (by simp) fun j hj hothers => ?_
    exact h.settled_of hcall (fun _ => rfl) (fun hij hnew => by
      simp [UpdateCall.Switching, CallPhase.StopSent, hprevious, hnext, hset] at hnew) hj hothers
  | unsent previous next =>
    have hset : update.sessionEnabled = some false := hok.2.2
    refine h.quiet s.config s.queue s.writes hcall (by simp) (by simp) fun j hj hothers => ?_
    exact h.settled_of hcall (fun _ => rfl) (fun hij hnew => by
      simp [UpdateCall.Switching, hset] at hnew) hj hothers
  | restore previous error =>
    obtain ⟨henabled, hcalm⟩ := hnow
    have hprevious : previous.sessionEnabled = true := hok.1
    refine h.store hcall (by simp) (fun _ _ => ?_) fun j hj hothers => ?_
    · rw [hprevious, ← henabled]
      refine (h.settled i (fun other hother => ?_) (fun j other hji hother => ?_)).symm
      · rw [hcall] at hother
        obtain rfl := Option.some.inj hother
        rfl
      · have hlt := (List.getElem?_eq_some_iff.mp hother).1
        simpa using hcalm j hlt hji other hother
    · split_ifs with hij
      · exact h.settled_of hcall (fun _ => rfl) (fun hij' => absurd hij hij') hj hothers
      · rw [hprevious, henabled]
  | write previous next =>
    refine h.quiet next s.queue _ hcall (by simp) (by simp) fun j hj hothers => ?_
    by_cases hij : i = j
    · have hnew := hj ⟨update, .storing next⟩ (by rw [getElem?_setPhase hcall, if_pos hij.symm])
      cases hnew
    · -- the update leaves `session_enabled` alone
      have hnone : update.sessionEnabled = none := by
        simpa [UpdateCall.Switching] using hself hij hothers
      have hnext : next.sessionEnabled = s.config.sessionEnabled := by
        rw [← hnow.1, LogConfigUpdate.applyTo, hnone]
        rfl
      rw [hnext]
      exact h.settled_of hcall (fun _ => rfl) (fun _ _ => by
        simp [UpdateCall.Switching, hnone]) hj hothers
  | finish next =>
    refine h.store hcall (by simp) (by simp) fun j hj hothers => ?_
    split_ifs with hij
    · have hnew := hj ⟨update, .returned (.ok ())⟩ (by rw [getElem?_setPhase hcall, if_pos hij.symm])
      cases hnew
    · exact hnow
  | idle => exact h

theorem SameCalls.enabledWithout (hsame : SameCalls s s') (i : Nat) :
    s'.enabledWithout initial i = s.enabledWithout initial i := by
  rw [LogEngine.enabledWithout, hsame.stores, LogEngine.enabledWithout]

theorem Flag.same (h : Flag initial s) (hsame : SameCalls s s') : Flag initial s' where
  enabled_eq := by rw [hsame.enabled, hsame.stores, h.enabled_eq]
  stores_lt := by
    rw [hsame.stores, hsame.calls]
    exact h.stores_lt
  fresh := by
    rw [hsame.stores, hsame.calls]
    exact h.fresh
  failed i call error hcall herror := by
    rw [hsame.calls] at hcall
    rw [hsame.enabled, hsame.enabledWithout, h.failed i call error hcall herror]
  settled i := by
    rw [hsame.calls, hsame.enabledWithout, hsame.config]
    exact h.settled i

theorem Flag.addCall (h : Flag initial s) (update : LogConfigUpdate) :
    Flag initial (s.step (.update update)) where
  enabled_eq := h.enabled_eq
  stores_lt p hp := by
    have hlt := h.stores_lt p hp
    change p.1 < (s.calls ++ [({ update } : UpdateCall)]).length
    rw [List.length_append, List.length_singleton]
    omega
  fresh i call hcall hreading p hp := by
    change (s.calls ++ [({ update } : UpdateCall)])[i]? = some call at hcall
    rw [getElem?_calls_concat] at hcall
    split_ifs at hcall with hi
    · have hlt := h.stores_lt p hp
      omega
    · exact h.fresh i call hcall hreading p hp
  failed i call error hcall herror := by
    change (s.calls ++ [({ update } : UpdateCall)])[i]? = some call at hcall
    rw [getElem?_calls_concat] at hcall
    split_ifs at hcall with hi
    · obtain rfl := Option.some.inj hcall
      cases herror
    · exact h.failed i call error hcall herror
  settled i hi hothers := by
    have hold : ∀ (j : Nat) call, s.calls[j]? = some call →
        (s.calls ++ [({ update } : UpdateCall)])[j]? = some call := fun j call hcall =>
      (List.getElem?_append_left (List.getElem?_eq_some_iff.mp hcall).1).trans hcall
    exact h.settled i (fun call hcall => hi call (hold i call hcall))
      fun j other hji hother => hothers j other hji (hold j other hother)

/-! ## The writers -/

/-- No session has a writer, or all will be stopped. -/
def Stopping (s : LogEngine) : Prop :=
  s.writers.writers = ∅ ∨ .command .stopAllSessions ∈ s.queue

structure Writers (s : LogEngine) : Prop where
  disabled : s.config.sessionEnabled = false → s.Stopping
  sent : ∀ call ∈ s.calls, call.phase.StopSent = true → s.Stopping

theorem Writers.setPhase (h : Writers s) (hphase : phase.StopSent = true → s.Stopping) :
    Writers (s.setPhase i phase) where
  disabled := h.disabled
  sent other hmem hsent := by
    obtain ⟨j, hj⟩ := List.getElem?_of_mem hmem
    rw [LogEngine.setPhase, List.getElem?_modify] at hj
    obtain ⟨call, hcall, rfl⟩ := Option.map_eq_some_iff.mp hj
    split_ifs at hsent with hij
    · exact hphase hsent
    · exact h.sent call (List.mem_of_getElem? hcall) hsent

theorem Writers.callStep (h : Writers s) (hcall : s.calls[i]? = some call)
    (hstep : CallSteps s i call.update call.phase s') (hundisturbed : Undisturbed s (.call i)) :
    Writers s' := by
  have hnow := hundisturbed call hcall
  have hsent := h.sent call (List.mem_of_getElem? hcall)
  obtain ⟨update, phase⟩ := call
  have hstore : ∀ value, Writers (s.store i value) := fun _ => ⟨h.disabled, h.sent⟩
  cases hstep with
  | refuse | stop | unsent => exact h.setPhase fun hnew => nomatch hnew
  | disable | restore | finish => exact (hstore _).setPhase fun hnew => nomatch hnew
  | go hnext =>
    refine h.setPhase fun hnew => ?_
    obtain ⟨henabled, hdisabled⟩ := Bool.and_eq_true_iff.mp hnew
    rw [hnext henabled] at hdisabled
    cases hdisabled
  | sent previous next =>
    have hqueued : Stopping { s with queue := s.queue ++ [.command .stopAllSessions] } :=
      .inr (List.mem_append_right _ (List.mem_singleton_self _))
    exact Writers.setPhase ⟨fun _ => hqueued, fun _ _ _ => hqueued⟩ fun _ => hqueued
  | write previous next =>
    refine Writers.setPhase ⟨fun hdisabled => ?_, h.sent⟩ fun hnew => nomatch hnew
    have hdisabled : next.sessionEnabled = false := hdisabled
    change s.Stopping
    cases henabled : s.config.sessionEnabled with
    | false => exact h.disabled henabled
    | true =>
      have hprevious := hnow.2 henabled (by rw [hdisabled]; rfl)
      exact hsent (by simp [CallPhase.StopSent, hprevious, hdisabled])
  | idle => exact h

theorem Writers.addCall (h : Writers s) (update : LogConfigUpdate) :
    Writers (s.step (.update update)) where
  disabled := h.disabled
  sent call hmem hsent := by
    rcases List.mem_append.mp hmem with hmem | hmem
    · exact h.sent call hmem hsent
    · obtain rfl := List.mem_singleton.mp hmem
      cases hsent

theorem Writers.of_stopping (h : Writers s) (hsame : SameCalls s s')
    (hstopping : s.Stopping → s'.Stopping) : Writers s' where
  disabled hdisabled := hstopping (h.disabled (hsame.config ▸ hdisabled))
  sent call hmem hsent := hstopping (h.sent call (hsame.calls ▸ hmem) hsent)

/-- Only `StartSession` makes a writer, and only with a snapshot that has logging enabled. -/
theorem handleCommand_subset (w : LogWriters) (outcome : WriterOutcome) {command : LogCommand}
    (h : ∀ sessionId, command = .startSession sessionId → config.sessionEnabled = false) :
    (w.handleCommand config outcome command).1.writers ⊆ w.writers := by
  cases command with
  | startSession sessionId => simp [LogWriters.handleCommand, h sessionId rfl]
  | stopSession => exact Finset.sdiff_subset
  | stopAllSessions => exact Finset.empty_subset _
  | shutdown => exact Finset.Subset.refl _
  | clearAll => exact Finset.sdiff_subset

theorem startSession_continues (w : LogWriters) (config : LogConfig) (outcome : WriterOutcome)
    (sessionId : String) : (w.handleCommand config outcome (.startSession sessionId)).2.2 = false := by
  simp only [LogWriters.handleCommand]
  split_ifs
  · rfl
  · rfl
  · split <;> rfl
  · split <;> rfl

theorem handleData_subset (w : LogWriters) (config : LogConfig) (outcome : WriterOutcome)
    (sessionId : String) : (w.handleData config outcome sessionId).writers ⊆ w.writers := by
  unfold LogWriters.handleData
  split_ifs
  · exact Finset.Subset.refl _
  · exact Finset.sdiff_subset
  · exact Finset.Subset.refl _

theorem Stopping.take {entry : LogEntry} {queue : List LogEntry} {w : LogWriters}
    (h : s.Stopping) (hqueue : s.queue = entry :: queue)
    (hentry : entry ≠ .command .stopAllSessions) (hw : w.writers ⊆ s.writers.writers) :
    Stopping { s with queue, snapshot := none, writers := w } := by
  rcases h with hempty | hmem
  · exact .inl (Finset.subset_empty.mp (hempty ▸ hw))
  · rw [hqueue] at hmem
    exact .inr ((List.mem_cons.mp hmem).resolve_left hentry.symm)

theorem Writers.receive (h : Writers s) (hsnapshot : s.snapshot = some config)
    (outcome : WriterOutcome) (hundisturbed : Undisturbed s (.receive outcome)) :
    Writers (s.receive config outcome) := by
  have hsame := sameCalls_receive s config outcome
  have hnow := hundisturbed config hsnapshot
  cases hqueue : s.queue with
  | nil =>
    simp only [LogEngine.receive, hqueue]
    exact h
  | cons entry queue =>
    simp only [LogEngine.receive, hqueue] at hsame hnow ⊢
    cases entry with
    | command command =>
      cases command with
      | startSession sessionId =>
        have hstop := startSession_continues s.writers config outcome sessionId
        simp only [hstop, Bool.false_eq_true, if_false] at hsame ⊢
        cases henabled : config.sessionEnabled with
        | false =>
          refine h.of_stopping hsame fun hs => hs.take hqueue (by simp) ?_
          exact handleCommand_subset s.writers outcome fun _ _ => henabled
        | true =>
          rcases hnow henabled with hmem | ⟨hconfig, hnone⟩
          · exact h.of_stopping hsame fun _ => .inr hmem
          · refine ⟨fun hdisabled => ?_, fun call hcall hsent => absurd hsent (hnone call hcall)⟩
            exact absurd (hconfig.symm.trans hdisabled) (by simp)
      | stopAllSessions => exact h.of_stopping hsame fun _ => .inl rfl
      | shutdown => exact h.of_stopping hsame fun _ => .inl rfl
      | stopSession sessionId =>
        exact h.of_stopping hsame fun hs => hs.take hqueue (by simp) Finset.sdiff_subset
      | clearAll =>
        exact h.of_stopping hsame fun hs => hs.take hqueue (by simp) Finset.sdiff_subset
    | sessionData sessionId =>
      exact h.of_stopping hsame fun hs => hs.take hqueue (by simp)
        (handleData_subset s.writers config outcome sessionId)
    | systemEvent =>
      exact h.of_stopping hsame fun hs => hs.take hqueue (by simp) (Finset.Subset.refl _)

/-! ## Runs -/

structure Inv (initial : LogConfig) (s : LogEngine) : Prop where
  history : History initial s
  calls_ok : ∀ call ∈ s.calls, CallOk call
  flag : Flag initial s
  writers : Writers s

theorem inv_new (initial : LogConfig) : Inv initial (new initial) where
  history := ⟨rfl, by simp [new]⟩
  calls_ok := by simp [new]
  flag := ⟨rfl, by simp [new], by simp [new], by simp [new], fun _ _ _ => rfl⟩
  writers := ⟨fun _ => .inl rfl, fun _ _ _ => .inl rfl⟩

theorem Inv.same (h : Inv initial s) (hsame : SameCalls s s') (hwriters : Writers s') :
    Inv initial s' :=
  ⟨h.history.same hsame, hsame.calls ▸ h.calls_ok, h.flag.same hsame, hwriters⟩

theorem inv_step (s : LogEngine) (action : LogAction) (h : Inv initial s)
    (hundisturbed : Undisturbed s action) : Inv initial (s.step action) := by
  cases action with
  | update update =>
    refine ⟨h.history.addCall update, fun call hmem => ?_, h.flag.addCall update,
      h.writers.addCall update⟩
    rcases List.mem_append.mp hmem with hmem | hmem
    · exact h.calls_ok call hmem
    · obtain rfl := List.mem_singleton.mp hmem
      trivial
  | call i =>
    cases hcall : s.calls[i]? with
    | none =>
      simp only [step, hcall]
      exact h
    | some call =>
      simp only [step, hcall]
      have hsteps := callStep_cases s i call
      have hok := h.calls_ok call (List.mem_of_getElem? hcall)
      have hwrite : ∀ previous next, call.phase = .writing previous next →
          call.update.applyTo s.config = next := fun previous next hphase => by
        have hnow := hundisturbed call hcall
        rw [hphase] at hnow
        exact hnow.1
      exact ⟨h.history.callStep hcall hsteps hwrite, callOk_callStep h.calls_ok hcall hsteps,
        h.flag.callStep hcall hok hsteps hundisturbed, h.writers.callStep hcall hsteps hundisturbed⟩
  | send entry =>
    simp only [step, trySend]
    split_ifs
    · refine h.same ⟨rfl, rfl, rfl, rfl, rfl⟩ (h.writers.of_stopping ⟨rfl, rfl, rfl, rfl, rfl⟩ ?_)
      exact fun hs => hs.imp id (List.mem_append_left _)
    · exact h
  | readConfig =>
    simp only [step]
    split_ifs
    · exact h.same ⟨rfl, rfl, rfl, rfl, rfl⟩ ⟨h.writers.disabled, h.writers.sent⟩
    · exact h
  | receive outcome =>
    cases hsnapshot : s.snapshot with
    | none =>
      simp only [step, hsnapshot]
      exact h
    | some config =>
      simp only [step, hsnapshot]
      exact h.same (sameCalls_receive s config outcome)
        (h.writers.receive hsnapshot outcome hundisturbed)
  | timeout => exact h.same ⟨rfl, rfl, rfl, rfl, rfl⟩ ⟨h.writers.disabled, h.writers.sent⟩

theorem Inv.serialised (h : Inv initial s) : Serialised initial s where
  merged hdone := ⟨h.history.merged _ hdone, h.history.merged _ hdone, h.history.merged _ hdone,
    h.history.merged _ hdone, h.history.merged _ hdone⟩
  failed i call error hcall herror := by
    refine ⟨fun w hw hwi => ?_, h.flag.failed i call error hcall herror⟩
    obtain ⟨other, hother, hwritten, -⟩ := (h.history.mem_writes w.1 w.2).mp hw
    rw [hwi, hcall] at hother
    obtain rfl := Option.some.inj hother
    rw [herror] at hwritten
    cases hwritten
  stopped i call hcall hdone hoff := by
    have hmem : (i, call.update) ∈ s.writes :=
      (h.history.mem_writes _ _).mpr ⟨call, hcall, by rw [hdone]; rfl, rfl⟩
    obtain ⟨later, earlier, hwrites⟩ := List.append_of_mem hmem
    refine ⟨later, earlier, hwrites, fun hlater hqueue => ?_⟩
    have hdisabled : s.config.sessionEnabled = false := by
      rw [h.history.config_eq, hwrites]
      exact sessionEnabled_replay hoff hlater
    exact (h.writers.disabled hdisabled).resolve_right (hqueue _)

/-- Runs in which no call is disturbed keep updates serialised, in every order of the steps. -/
theorem updates_serialised (initial : LogConfig) (actions : List LogAction)
    (h : EachStep step Undisturbed (new initial) actions) :
    Always step (Serialised initial) (new initial) actions :=
  h.always (fun _ => Inv.serialised) inv_step (inv_new initial)

/-- A change of the buffer size, a session that starts, and logging turned off. -/
def stopRun : List LogAction :=
  [.update { bufferSize := some 8192 }, .call 0, .call 0, .call 0, .send (.command (.startSession "a")),
    .readConfig, .receive {}, .update { sessionEnabled := some false }, .call 1, .call 1, .call 1,
    .readConfig, .receive {}, .call 1, .readConfig, .call 1]

theorem updates_serialised_stop : Always step (Serialised {}) (new {}) stopRun :=
  updates_serialised {} stopRun (by decide)

/-! ## Runs that go wrong -/

/-- A session starts with the old snapshot, after the others have been stopped. -/
def lateStart : List LogAction :=
  [.update { sessionEnabled := some false }, .call 0, .call 0, .call 0, .readConfig, .receive {},
    .readConfig, .send (.command (.startSession "a")), .receive {}, .call 0, .call 0]

/-- Both calls read before one of them writes. -/
def lostUpdate : List LogAction :=
  [.update { bufferSize := some 8192 }, .update { retentionDays := some 30 }, .call 0, .call 1,
    .call 0, .call 1, .call 0, .call 1]

/-- Both calls turn logging off; the second finds the queue full when the first has returned. -/
def flagRestored : List LogAction :=
  ([.update { sessionEnabled := some false }, .update { sessionEnabled := some false }, .call 0,
    .call 1, .call 0, .call 0, .call 0, .call 0] : List LogAction) ++
    List.replicate 255 (.send .systemEvent) ++ ([.call 1, .call 1, .call 1] : List LogAction)

set_option maxRecDepth 20000 in
/-- An update lost, the flag out of step, and a session left open. -/
theorem updates_not_serialised :
    ¬ Always step (Serialised {}) (new {}) lateStart ∧
    ¬ Always step (Serialised {}) (new {}) lostUpdate ∧
    ¬ Always step (Serialised {}) (new {}) flagRestored := by
  refine ⟨fun h => ?_, fun h => ?_, fun h => ?_⟩
  · obtain ⟨later, earlier, hwrites, hstopped⟩ := h.last.stopped 0
      ⟨{ sessionEnabled := some false }, .returned (.ok ())⟩ rfl rfl rfl
    have hwrites : [(0, ({ sessionEnabled := some false } : LogConfigUpdate))] =
      later ++ (0, { sessionEnabled := some false }) :: earlier := hwrites
    cases later with
    | nil =>
      have hempty := hstopped nofun (fun c hc => nomatch hc)
      revert hempty
      decide
    | cons w later => simp at hwrites
  · have hcalls : (lostUpdate.foldl step (new {})).calls =
        [⟨{ bufferSize := some 8192 }, .returned (.ok ())⟩,
          ⟨{ retentionDays := some 30 }, .returned (.ok ())⟩] := rfl
    have hmerged := h.last.merged (by rw [hcalls]; simp)
    have hlost := hmerged.2.2.1.only_update 0 _ 8192 rfl rfl (by
      rw [hcalls]
      rintro (_ | _ | j) other hother hj
      · exact absurd rfl hj
      · exact Option.some.inj hother ▸ rfl
      · cases hother)
    revert hlost
    decide
  · have hflag := (h.last.failed 1 ⟨{ sessionEnabled := some false }, .returned (.error
      "log consumer is unavailable while disabling Session Data Log")⟩ _ (by decide)
      rfl).2
    revert hflag
    decide

end LogEngine

end TauTerm.Kernel
