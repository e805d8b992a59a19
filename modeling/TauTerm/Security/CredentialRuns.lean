import Mathlib
import TauTerm.Lib.Run
import TauTerm.Security.CredentialStore

/-!
# No credential is lost to another call

What a call has read of the index, or of the vault, must still be so when it writes it back; and no call
may read the credential of an account while another one is changing it. As long as that is so, and a
rollback can put a credential back, the store holds what the last successful calls have left.
-/

namespace TauTerm.Security

open Lib

/-! ## What the calls have left -/

def Returned.succeeded (call : Returned) : Bool :=
  match call.result with
  | .ok () => true
  | .error _ => false

def lastSuccessful (log : List Returned) (account : String) : Option Operation :=
  (log.reverse.find? fun call => call.succeeded && call.operation.account = account).map
    Returned.operation

/-- What the account is to hold. -/
def kept (log : List Returned) (account : String) : Option Stored :=
  (lastSuccessful log account).bind Operation.wanted

section Kept

variable {log : List Returned} {operation : Operation} {error : CredentialStoreError} {account : String}

@[simp] theorem kept_nil : kept [] account = none := rfl

@[simp] theorem kept_error : kept (log ++ [⟨operation, .error error⟩]) account = kept log account := by
  simp [kept, lastSuccessful, Returned.succeeded]

theorem kept_ok : kept (log ++ [⟨operation, .ok ()⟩]) account =
    if operation.account = account then operation.wanted else kept log account := by
  by_cases h : operation.account = account <;>
    simp [kept, lastSuccessful, Returned.succeeded, h]

end Kept

/-! ## The operations -/

namespace Operation

variable {operation : Operation} {original : Index} {vault : Vault} {account : String}

theorem mem_nextIndex : account ∈ operation.nextIndex original ↔
    if operation.account = account then operation.wanted.isSome = true else account ∈ original := by
  cases operation with
  | store name _ _ _ =>
    by_cases h : name = account <;>
      simp [nextIndex, Operation.account, wanted, Std.ExtTreeSet.mem_insert, h]
  | delete name =>
    by_cases h : name = account <;>
      simp [nextIndex, Operation.account, wanted, Std.ExtTreeSet.mem_erase, h]

/-- An index that the operation does not change fits what it leaves. -/
theorem mem_of_changesIndex (h : operation.changesIndex original = false) :
    operation.account ∈ original ↔ operation.wanted.isSome := by
  cases operation with
  | store name _ _ _ =>
    rw [changesIndex, Bool.not_eq_false', Std.ExtTreeSet.contains_iff_mem] at h
    simp only [Operation.account, wanted, Option.isSome_some, h]
  | delete name =>
    have habsent : name ∉ original := by
      rw [← Std.ExtTreeSet.contains_iff_mem, ← changesIndex, h]
      exact Bool.false_ne_true
    simp only [Operation.account, wanted, Option.isSome_none, habsent, Bool.false_eq_true]

theorem getElem?_change : (operation.change vault)[account]? =
    if operation.account = account then operation.wanted else vault[account]? := by
  cases operation with
  | store name _ _ _ =>
    by_cases h : name = account <;>
      simp [change, Operation.account, wanted, Std.ExtTreeMap.getElem?_insert, h]
  | delete name =>
    by_cases h : name = account <;>
      simp [change, Operation.account, wanted, Std.ExtTreeMap.getElem?_erase, h]

theorem wanted_account {stored : Stored} (h : operation.wanted = some stored) :
    stored.entry.account = operation.account := by
  cases operation with
  | store account credentialType value description =>
    obtain rfl := Option.some.inj h
    rfl
  | delete => cases h

end Operation

theorem kept_account {log : List Returned} {account : String} {stored : Stored}
    (h : kept log account = some stored) : stored.entry.account = account := by
  obtain ⟨operation, hlast, hwanted⟩ := Option.bind_eq_some_iff.mp h
  obtain ⟨call, hfind, rfl⟩ := Option.map_eq_some_iff.mp hlast
  have hcall := List.find?_some hfind
  rw [Bool.and_eq_true, decide_eq_true_iff] at hcall
  rw [call.operation.wanted_account hwanted, hcall.2]

/-! ## Calls that have read -/

/-- The account whose credential the call has read and may still change. -/
def Phase.account? : Phase → Option String
  | .readIndex operation _ | .writeSecret operation _ _ | .writeIndex operation _ _
  | .restoreSecret operation _ _ _ | .restoreIndex operation _ _ _ => some operation.account
  | _ => none

/-- The call has written the credential of the account, and the index does not yet say so. -/
def Phase.Rewrites (account : String) : Phase → Prop
  | .writeIndex operation _ _ | .restoreSecret operation _ _ _ => operation.account = account
  | _ => False

theorem Phase.Rewrites.account? {account : String} {phase : Phase} (h : phase.Rewrites account) :
    phase.account? = some account := by
  cases phase with
  | writeIndex | restoreSecret => exact congrArg some h
  | _ => cases h

namespace CredentialStore

variable {s s' : CredentialStore} {thread : Nat} {phase : Phase} {account : String}

def Quiet (s : CredentialStore) : Prop := ∀ thread, s.calls thread = .idle

/-- What readers are told is what the last successful call on each account has left: a call that failed
has changed nothing. -/
def KeepsCredentials (s : CredentialStore) : Prop :=
  s.Quiet → ∀ account,
    (∀ value, s.getCredential account = .ok value ↔
      ((lastSuccessful s.log account).bind Operation.wanted).map Stored.value = some value) ∧
    ∀ entry, (entry ∈ s.listCredentials ∧ entry.account = account) ↔
      ((lastSuccessful s.log account).bind Operation.wanted).map Stored.entry = some entry

/-- The index or the vault is written only while it is what the call has read, the credential of an account
is read only while no other call may change it, and a rollback can put it back. -/
def Orderly (s : CredentialStore) : Action → Prop
  | .call _ _ => True
  | .next thread fault =>
    match s.calls thread, fault with
    | .readSecret operation, none => ∀ other, (s.calls other).account? ≠ some operation.account
    | .writeIndex _ _ original, none => original = s.index
    | .restoreSecret _ _ _ _, some _ => False
    | .restoreIndex _ original _ _, none => original = s.index
    | .writeVault _ map, none => map = s.vault
    | _, _ => True

/-- What a call relies on. -/
def Relies (s : CredentialStore) : Phase → Prop
  | .idle => True
  | .readSecret operation => s.backend = .native ∧ validAccount operation.account = .ok ()
  | .readIndex operation previous =>
    (s.backend = .native ∧ validAccount operation.account = .ok ()) ∧
      previous = kept s.log operation.account
  | .writeSecret operation previous original =>
    (s.backend = .native ∧ validAccount operation.account = .ok ()) ∧
      previous = kept s.log operation.account ∧
        (operation.account ∈ original ↔ (kept s.log operation.account).isSome)
  | .writeIndex operation previous original | .restoreSecret operation previous original _ =>
    (s.backend = .native ∧ validAccount operation.account = .ok ()) ∧
      previous = kept s.log operation.account ∧
        (operation.account ∈ original ↔ (kept s.log operation.account).isSome) ∧
          s.secrets operation.account = operation.wanted
  | .restoreIndex operation original _ _ =>
    (s.backend = .native ∧ validAccount operation.account = .ok ()) ∧
      (operation.account ∈ original ↔ (kept s.log operation.account).isSome)
  | .readVault operation | .writeVault operation _ =>
    s.backend = .vault ∧ validAccount operation.account = .ok ()

structure Keeps (s : CredentialStore) : Prop where
  filed : s.backend = .native → ∀ account, account ∈ s.index ↔ (kept s.log account).isSome
  secret : s.backend = .native → ∀ account,
    s.secrets account = kept s.log account ∨ ∃ thread, (s.calls thread).Rewrites account
  vault : s.backend = .vault → ∀ account, s.vault[account]? = kept s.log account
  valid : ∀ account, (kept s.log account).isSome → validAccount account = .ok ()
  alone : ∀ thread other account, (s.calls thread).account? = some account →
    (s.calls other).account? = some account → thread = other
  relies : ∀ thread, s.Relies (s.calls thread)

theorem new_keeps (backend : Backend) : (new backend).Keeps where
  filed _ account := by simp [new]
  secret _ account := .inl rfl
  vault _ account := by simp [new]
  valid account h := by simp [new] at h
  alone thread other account h := by cases h
  relies thread := trivial

/-! ## One step -/

/-- A call relies on nothing but its own account. -/
theorem Relies.transfer (h : s.Relies phase) (hbackend : s'.backend = s.backend)
    (hsame : ∀ account, phase.account? = some account →
      s'.secrets account = s.secrets account ∧ kept s'.log account = kept s.log account) :
    s'.Relies phase := by
  cases phase with
  | idle => trivial
  | readSecret | readVault | writeVault => rw [Relies, hbackend]; exact h
  | readIndex operation | restoreIndex operation =>
    rw [Relies, hbackend, (hsame operation.account rfl).2]
    exact h
  | writeSecret operation =>
    rw [Relies, hbackend, (hsame operation.account rfl).2]
    exact h
  | writeIndex operation | restoreSecret operation =>
    rw [Relies, hbackend, (hsame operation.account rfl).1, (hsame operation.account rfl).2]
    exact h

/-- Where a call holds an account, the backend is the keyring. -/
theorem Relies.native (h : s.Relies phase) (haccount : phase.account? = some account) :
    s.backend = .native := by
  cases phase with
  | readIndex | writeSecret | writeIndex | restoreSecret | restoreIndex => exact h.1.1
  | _ => cases haccount

/-- What a step of one call has to show. -/
theorem Keeps.advance (h : s.Keeps) (hcalls : s'.calls = Function.update s.calls thread phase)
    (hbackend : s'.backend = s.backend)
    (hothers : ∀ other, other ≠ thread → ∀ account, (s.calls other).account? = some account →
      s'.secrets account = s.secrets account ∧ kept s'.log account = kept s.log account)
    (halone : ∀ account, phase.account? = some account → ∀ other, other ≠ thread →
      (s.calls other).account? ≠ some account)
    (hrelies : s'.Relies phase)
    (hfiled : s.backend = .native → ∀ account, account ∈ s'.index ↔ (kept s'.log account).isSome)
    (hsecret : s.backend = .native → ∀ account, s'.secrets account = kept s'.log account ∨
      phase.Rewrites account ∨ ∃ other, other ≠ thread ∧ (s.calls other).Rewrites account)
    (hvault : s.backend = .vault → ∀ account, s'.vault[account]? = kept s'.log account)
    (hvalid : ∀ account, (kept s'.log account).isSome → validAccount account = .ok ()) :
    s'.Keeps where
  filed hnative := hfiled (hbackend ▸ hnative)
  secret hnative account := by
    obtain hheld | hphase | ⟨other, hne, hother⟩ := hsecret (hbackend ▸ hnative) account
    · exact .inl hheld
    · exact .inr ⟨thread, by rwa [hcalls, Function.update_self]⟩
    · exact .inr ⟨other, by rwa [hcalls, Function.update_of_ne hne]⟩
  vault hvaulted := hvault (hbackend ▸ hvaulted)
  valid := hvalid
  alone one other account hone hother := by
    rw [hcalls] at hone hother
    by_cases h₁ : one = thread <;> by_cases h₂ : other = thread
    · rw [h₁, h₂]
    · subst h₁
      rw [Function.update_self] at hone
      rw [Function.update_of_ne h₂] at hother
      exact absurd hother (halone account hone other h₂)
    · subst h₂
      rw [Function.update_self] at hother
      rw [Function.update_of_ne h₁] at hone
      exact absurd hone (halone account hother one h₁)
    · rw [Function.update_of_ne h₁] at hone
      rw [Function.update_of_ne h₂] at hother
      exact h.alone one other account hone hother
  relies other := by
    rw [hcalls]
    by_cases hother : other = thread
    · rw [hother, Function.update_self]
      exact hrelies
    · rw [Function.update_of_ne hother]
      exact (h.relies other).transfer hbackend (hothers other hother)

/-- A call that does not rewrite its account leaves the others' reasons as they are. -/
theorem Keeps.secret_of_ne (h : s.Keeps) (hnative : s.backend = .native) (account : String)
    (hphase : ¬(s.calls thread).Rewrites account) :
    s.secrets account = kept s.log account ∨
      ∃ other, other ≠ thread ∧ (s.calls other).Rewrites account := by
  obtain hheld | ⟨other, hother⟩ := h.secret hnative account
  · exact .inl hheld
  · refine .inr ⟨other, ?_, hother⟩
    rintro rfl
    exact hphase hother

/-- A step that changes nothing but the phase of its call. -/
theorem Keeps.wait (h : s.Keeps)
    (halone : ∀ account, phase.account? = some account → ∀ other, other ≠ thread →
      (s.calls other).account? ≠ some account)
    (hrelies : s.Relies phase)
    (hrewrites : ∀ account, (s.calls thread).Rewrites account → phase.Rewrites account) :
    (s.goOn thread phase).Keeps := by
  refine h.advance rfl rfl (fun _ _ _ _ => ⟨rfl, rfl⟩) halone hrelies h.filed (fun hnative account => ?_)
    h.vault h.valid
  by_cases hphase : (s.calls thread).Rewrites account
  · exact .inr (.inl (hrewrites account hphase))
  · exact (h.secret_of_ne hnative account hphase).imp_right .inr

/-- A call that fails before it has changed anything. -/
theorem Keeps.finish_error (h : s.Keeps) {operation : Operation} {error : CredentialStoreError}
    (hrewrites : ∀ account, ¬(s.calls thread).Rewrites account) :
    (s.finish thread operation (.error error)).Keeps := by
  refine h.advance rfl rfl (fun _ _ _ _ => ⟨rfl, kept_error⟩) (fun _ haccount => by cases haccount) trivial
    (fun hnative account => ?_) (fun hnative account => ?_) (fun hvault account => ?_)
    (fun account hsome => ?_)
  · exact (h.filed hnative account).trans (by rw [finish, goOn, kept_error])
  · rw [finish, goOn, kept_error]
    exact (h.secret_of_ne hnative account (hrewrites account)).imp_right .inr
  · rw [finish, goOn, kept_error]
    exact h.vault hvault account
  · rw [finish, goOn, kept_error] at hsome
    exact h.valid account hsome

/-- A call on the keyring that succeeds. -/
theorem Keeps.finish_ok (h : s.Keeps) {operation : Operation} (hcalls : s'.calls = s.calls)
    (hbackend : s'.backend = s.backend) (hlog : s'.log = s.log) (hnative : s.backend = .native)
    (hvalid : validAccount operation.account = .ok ())
    (hholds : (s.calls thread).account? = some operation.account)
    (hsecrets : ∀ account, s'.secrets account =
      if operation.account = account then operation.wanted else s.secrets account)
    (hindex : ∀ account, account ∈ s'.index ↔
      if operation.account = account then operation.wanted.isSome = true else account ∈ s.index) :
    (s'.finish thread operation (.ok ())).Keeps := by
  have hkept : ∀ account, kept (s'.finish thread operation (.ok ())).log account =
      if operation.account = account then operation.wanted else kept s.log account := fun account => by
    rw [finish, goOn, kept_ok, hlog]
  refine h.advance (show _ = Function.update s.calls thread .idle by rw [← hcalls]; rfl) hbackend
    (fun other hne account hother => ?_) (fun _ haccount => by cases haccount) trivial
    (fun _ account => ?_) (fun _ account => ?_)
    (fun hvault => absurd (hnative.symm.trans hvault) (by decide)) (fun account hsome => ?_)
  · have hdiffers : operation.account ≠ account := by
      rintro rfl
      exact hne (h.alone other thread _ hother hholds)
    rw [hkept, if_neg hdiffers]
    exact ⟨(hsecrets account).trans (if_neg hdiffers), rfl⟩
  · rw [hkept]
    refine (hindex account).trans ?_
    by_cases hsame : operation.account = account
    · rw [if_pos hsame, if_pos hsame]
    · rw [if_neg hsame, if_neg hsame]
      exact h.filed hnative account
  · rw [hkept]
    by_cases hsame : operation.account = account
    · rw [if_pos hsame]
      exact .inl ((hsecrets account).trans (if_pos hsame))
    · rw [if_neg hsame]
      have hphase : ¬(s.calls thread).Rewrites account := fun hrewrites =>
        hsame (Option.some.inj (hholds.symm.trans hrewrites.account?))
      refine (h.secret_of_ne hnative account hphase).imp ?_ .inr
      exact fun hheld => ((hsecrets account).trans (if_neg hsame)).trans hheld
  · rw [hkept] at hsome
    by_cases hsame : operation.account = account
    · exact hsame ▸ hvalid
    · rw [if_neg hsame] at hsome
      exact h.valid account hsome

/-- A call on the vault that succeeds. -/
theorem Keeps.finish_vault (h : s.Keeps) {operation : Operation} (hvault : s.backend = .vault)
    (hvalid : validAccount operation.account = .ok ()) :
    ((s.setVault (operation.change s.vault)).finish thread operation (.ok ())).Keeps := by
  have hkept : ∀ account,
      kept ((s.setVault (operation.change s.vault)).finish thread operation (.ok ())).log account =
        if operation.account = account then operation.wanted else kept s.log account :=
    fun account => kept_ok
  have hnative : s.backend ≠ .native := fun hnative => absurd (hvault.symm.trans hnative) (by decide)
  refine h.advance rfl rfl (fun other _ account hother => ?_) (fun _ haccount => by cases haccount) trivial
    (fun hb => absurd hb hnative) (fun hb => absurd hb hnative) (fun _ account => ?_)
    (fun account hsome => ?_)
  · exact absurd ((h.relies other).native hother) hnative
  · rw [hkept]
    refine Operation.getElem?_change.trans ?_
    rw [h.vault hvault account]
  · rw [hkept] at hsome
    by_cases hsame : operation.account = account
    · exact hsame ▸ hvalid
    · rw [if_neg hsame] at hsome
      exact h.valid account hsome

/-- A call that writes the credential of its account, and not yet the index. -/
theorem Keeps.setSecret (h : s.Keeps) {stored : Option Stored}
    (hholds : (s.calls thread).account? = some account) (hphase : phase.account? = some account)
    (hrelies : ((s.setSecret account stored).goOn thread phase).Relies phase)
    (hsecret : stored = kept s.log account ∨ phase.Rewrites account) :
    ((s.setSecret account stored).goOn thread phase).Keeps := by
  refine h.advance rfl rfl (fun other hne name hother => ⟨?_, rfl⟩)
    (fun name hname other hne hother => ?_) hrelies h.filed (fun hnative name => ?_) h.vault h.valid
  · have hdiffers : name ≠ account := by
      rintro rfl
      exact hne (h.alone other thread _ hother hholds)
    exact Function.update_of_ne hdiffers _ _
  · obtain rfl := Option.some.inj (hphase.symm.trans hname)
    exact hne (h.alone other thread _ hother hholds)
  · by_cases hsame : name = account
    · subst hsame
      refine hsecret.imp (fun hstored => ?_) .inl
      exact (Function.update_self _ _ _).trans hstored
    · have hrewrites : ¬(s.calls thread).Rewrites name := fun hrewrites =>
        hsame (Option.some.inj (hrewrites.account?.symm.trans hholds))
      refine (h.secret_of_ne hnative name hrewrites).imp (fun hheld => ?_) .inr
      exact (Function.update_of_ne hsame _ _).trans hheld

theorem Keeps.begin (h : s.Keeps) {operation : Operation} (hidle : s.calls thread = .idle) :
    (s.begin thread operation).Keeps := by
  have hrewrites : ∀ account, ¬(s.calls thread).Rewrites account := by
    rw [hidle]
    exact fun _ => id
  unfold CredentialStore.begin
  split
  · exact h.finish_error hrewrites
  · rename_i hvalid
    split
    · rename_i hnative
      exact h.wait (fun _ haccount => by cases haccount) ⟨hnative, hvalid⟩
        fun account hr => absurd hr (hrewrites account)
    · rename_i hvault
      exact h.wait (fun _ haccount => by cases haccount) ⟨hvault, hvalid⟩
        fun account hr => absurd hr (hrewrites account)

theorem Keeps.callStep (h : s.Keeps) {fault : Option CredentialStoreError}
    (horderly : s.Orderly (.next thread fault)) :
    (s.callStep thread fault (s.calls thread)).Keeps := by
  have hrelies := h.relies thread
  unfold Orderly at horderly
  dsimp only at horderly
  have hothers : ∀ account, (s.calls thread).account? = some account → ∀ other, other ≠ thread →
      (s.calls other).account? ≠ some account :=
    fun account hholds other hne hother => hne (h.alone other thread account hother hholds)
  cases hphase : s.calls thread with
  | idle => exact h
  | readSecret operation =>
    rw [hphase] at hrelies horderly hothers
    cases fault with
    | some error => exact h.finish_error (by rw [hphase]; exact fun _ => id)
    | none =>
      refine h.wait (fun account hholds other _ => ?_) ⟨hrelies, ?_⟩ (by rw [hphase]; exact fun _ => id)
      · exact Option.some.inj hholds ▸ horderly other
      · -- whoever has written the credential and not the index holds the account
        refine (h.secret hrelies.1 operation.account).resolve_right fun ⟨other, hrewrites⟩ => ?_
        exact horderly other hrewrites.account?
  | readIndex operation previous =>
    rw [hphase] at hrelies hothers
    cases fault with
    | some error => exact h.finish_error (by rw [hphase]; exact fun _ => id)
    | none =>
      refine h.wait hothers ⟨hrelies.1, hrelies.2, h.filed hrelies.1.1 operation.account⟩ ?_
      rw [hphase]
      exact fun _ => id
  | writeSecret operation previous original =>
    rw [hphase] at hrelies
    have hholds : (s.calls thread).account? = some operation.account := by rw [hphase]; rfl
    cases fault with
    | some error => exact h.finish_error (by rw [hphase]; exact fun _ => id)
    | none =>
      obtain ⟨⟨hnative, hvalid⟩, hprevious, horiginal⟩ := hrelies
      rw [CredentialStore.callStep]
      cases hchanges : operation.changesIndex original with
      | true =>
        rw [if_pos rfl]
        refine h.setSecret hholds rfl ⟨⟨hnative, hvalid⟩, hprevious, horiginal, ?_⟩ (.inr rfl)
        exact Function.update_self _ _ _
      | false =>
        rw [if_neg Bool.false_ne_true]
        refine h.finish_ok rfl rfl rfl hnative hvalid hholds (fun account => ?_) fun account => ?_
        · exact (Function.update_apply _ _ _ _).trans (by simp only [eq_comm])
        · by_cases hsame : operation.account = account
          · rw [if_pos hsame, ← hsame, ← Operation.mem_of_changesIndex hchanges, horiginal]
            exact h.filed hnative operation.account
          · rw [if_neg hsame]
            exact Iff.rfl
  | writeIndex operation previous original =>
    rw [hphase] at hrelies horderly hothers
    have hholds : (s.calls thread).account? = some operation.account := by rw [hphase]; rfl
    cases fault with
    | some error => exact h.wait hothers hrelies (by rw [hphase]; exact fun _ => id)
    | none =>
      obtain ⟨⟨hnative, hvalid⟩, -, -, hwritten⟩ := hrelies
      refine h.finish_ok rfl rfl rfl hnative hvalid hholds (fun account => ?_) fun account => ?_
      · by_cases hsame : operation.account = account
        · rw [if_pos hsame, ← hsame]
          exact hwritten
        · rw [if_neg hsame]
          rfl
      · rw [← (horderly : original = s.index)]
        exact Operation.mem_nextIndex
  | restoreSecret operation previous original error =>
    rw [hphase] at hrelies horderly
    have hholds : (s.calls thread).account? = some operation.account := by rw [hphase]; rfl
    cases fault with
    | some error => exact horderly.elim
    | none =>
      obtain ⟨hstart, hprevious, horiginal, -⟩ := hrelies
      rw [CredentialStore.callStep, if_pos rfl]
      exact h.setSecret hholds rfl ⟨hstart, horiginal⟩ (.inl hprevious)
  | restoreIndex operation original error secretResult =>
    rw [hphase] at horderly
    have hrewrites : ∀ account, ¬(s.calls thread).Rewrites account := by
      rw [hphase]
      exact fun _ => id
    cases fault with
    | some error => exact h.finish_error hrewrites
    | none =>
      rw [CredentialStore.callStep, if_pos rfl, (horderly : original = s.index)]
      exact h.finish_error hrewrites
  | readVault operation =>
    rw [hphase] at hrelies
    cases fault with
    | some error => exact h.finish_error (by rw [hphase]; exact fun _ => id)
    | none =>
      exact h.wait (fun _ haccount => by cases haccount) hrelies (by rw [hphase]; exact fun _ => id)
  | writeVault operation map =>
    rw [hphase] at hrelies horderly
    cases fault with
    | some error => exact h.finish_error (by rw [hphase]; exact fun _ => id)
    | none =>
      rw [CredentialStore.callStep, (horderly : map = s.vault)]
      exact h.finish_vault hrelies.1 hrelies.2

theorem Keeps.step (h : s.Keeps) {action : Action} (horderly : s.Orderly action) :
    (s.step action).Keeps := by
  cases action with
  | call thread operation =>
    unfold CredentialStore.step
    dsimp only
    split
    · rename_i hidle
      exact h.begin hidle
    · exact h
  | next thread fault => exact h.callStep horderly

/-! ## What readers are told -/

/-- A quiet store holds what the last successful calls have left. -/
theorem Keeps.found (h : s.Keeps) (hquiet : s.Quiet) (account : String) :
    s.found account = kept s.log account := by
  unfold CredentialStore.found
  split
  · rename_i hnative
    refine (h.secret hnative account).resolve_right fun ⟨thread, hrewrites⟩ => ?_
    rw [hquiet thread] at hrewrites
    exact hrewrites
  · rename_i hvault
    exact h.vault hvault account

theorem Keeps.getCredential (h : s.Keeps) (hquiet : s.Quiet) (account : String)
    (value : CredentialValue) : s.getCredential account = .ok value ↔
      (kept s.log account).map Stored.value = some value := by
  unfold CredentialStore.getCredential
  rw [h.found hquiet account]
  cases hkept : kept s.log account with
  | none => cases validAccount account <;> simp
  | some stored => simp [h.valid account (by rw [hkept]; rfl)]

theorem Keeps.listCredentials (h : s.Keeps) (hquiet : s.Quiet) (account : String)
    (entry : CredentialEntry) : (entry ∈ s.listCredentials ∧ entry.account = account) ↔
      (kept s.log account).map Stored.entry = some entry := by
  have hlist : entry ∈ s.listCredentials ↔
      ∃ name, (kept s.log name).map Stored.entry = some entry := by
    have hfound := h.found hquiet
    unfold CredentialStore.found at hfound
    unfold CredentialStore.listCredentials
    split
    · rename_i hnative
      simp only [hnative] at hfound
      simp only [List.mem_filterMap, Std.ExtTreeSet.mem_toList, hfound]
      refine exists_congr fun name => and_iff_right_of_imp fun hname => ?_
      rw [h.filed hnative, ← Option.isSome_map, hname]
      rfl
    · rename_i hvault
      simp only [hvault] at hfound
      simp only [List.mem_map, Prod.exists, Std.ExtTreeMap.mem_toList_iff_getElem?_eq_some, hfound,
        Option.map_eq_some_iff]
  rw [hlist]
  constructor
  · rintro ⟨⟨name, hname⟩, rfl⟩
    obtain ⟨stored, hstored, rfl⟩ := Option.map_eq_some_iff.mp hname
    rw [kept_account hstored]
    exact hname
  · intro haccount
    refine ⟨⟨account, haccount⟩, ?_⟩
    obtain ⟨stored, hstored, rfl⟩ := Option.map_eq_some_iff.mp haccount
    exact kept_account hstored

theorem Keeps.keepsCredentials (h : s.Keeps) : s.KeepsCredentials := fun hquiet account =>
  ⟨h.getCredential hquiet account, h.listCredentials hquiet account⟩

/-! ## Every run -/

/-- In a run whose steps are all orderly, no credential is lost. -/
theorem keepsCredentials_of_orderly (backend : Backend) (actions : List Action)
    (h : EachStep step Orderly (new backend) actions) :
    Always step KeepsCredentials (new backend) actions :=
  h.always (fun _ hkeeps => hkeeps.keepsCredentials) (fun _ _ hkeeps horderly => hkeeps.step horderly)
    (new_keeps backend)

def storing (thread : Nat) (account : String) : Action :=
  .call thread (.store account .password (.password "secret") "")

/-- Two calls on two accounts, the second of which begins before the first one has done; then the
credential of one account is stored again while the deletion of the other one fails at the index and
is rolled back. -/
def overlapping : List Action :=
  [storing 0 "alpha", .next 0 none, storing 1 "beta", .next 1 none, .next 0 none, .next 0 none,
    .next 0 none, .next 1 none, .next 1 none, .next 1 none, .call 0 (.delete "alpha"), .next 0 none,
    .next 0 none, storing 1 "beta", .next 1 none, .next 1 none, .next 0 none, .next 1 none,
    .next 0 (some .lockError), .next 0 none, .next 0 none]

theorem quiet_overlapping : Quiet (overlapping.foldl step (new .native)) := by
  intro thread
  rcases thread with _ | _ | thread
  · rfl
  · rfl
  · rfl

theorem keepsCredentials_overlapping : Always step KeepsCredentials (new .native) overlapping ∧
    ∀ account ∈ ["alpha", "beta"], (overlapping.foldl step (new .native)).getCredential account =
      .ok (.password "secret") := by
  have horderly : EachStep step Orderly (new .native) overlapping := by
    refine ⟨trivial, fun thread => ?_, trivial, fun thread => ?_, trivial, trivial, rfl, trivial,
      trivial, rfl, trivial, fun thread => ?_, trivial, trivial, fun thread => ?_, trivial, trivial,
      trivial, trivial, trivial, rfl, trivial⟩
    -- No other call has read the credential that is read.
    all_goals rcases thread with _ | _ | thread
    all_goals first
      | decide
      | exact (Option.some_ne_none _).symm
  have hkeeps := keepsCredentials_of_orderly .native overlapping horderly
  refine ⟨hkeeps, fun account haccount => ?_⟩
  refine ((hkeeps.last quiet_overlapping account).1 _).mpr ?_
  revert account
  decide

/-- Two calls read before either of them writes. -/
def crossing (reads writes : Nat) : List Action :=
  storing 0 "alpha" :: storing 1 "beta" :: (List.replicate reads (.next 0 none) ++
    List.replicate reads (.next 1 none) ++ List.replicate writes (.next 0 none) ++
      List.replicate writes (.next 1 none))

theorem credential_lost : ¬ Always step KeepsCredentials (new .native) (crossing 2 2) ∧
    ¬ Always step KeepsCredentials (new .vault) (crossing 1 1) := by
  refine ⟨fun h => ?_, fun h => ?_⟩
  · have hquiet : Quiet ((crossing 2 2).foldl step (new .native)) := fun
      | 0 => rfl
      | 1 => rfl
      | _ + 2 => rfl
    have := (((h.last hquiet "alpha").2 ⟨"alpha", .password, ""⟩).mpr (by decide)).1
    revert this
    decide
  · have hquiet : Quiet ((crossing 1 1).foldl step (new .vault)) := fun
      | 0 => rfl
      | 1 => rfl
      | _ + 2 => rfl
    have := (((h.last hquiet "alpha").2 ⟨"alpha", .password, ""⟩).mpr (by decide)).1
    revert this
    decide

end CredentialStore

end TauTerm.Security
