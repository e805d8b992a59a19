import Mathlib
import TauTerm.Lib.RustText

/-!
# The credential store

Credentials lie in the system's keyring, one entry each, with one more entry that lists the accounts; or,
where there is no keyring, in one encrypted file. A call takes a step for each entry or file that it
reads or writes, and any step may fail. The file's key and its cipher are left out: a file that cannot be
decrypted is a step that fails.
-/

namespace TauTerm.Security

def INDEX : String := "__tauterm_index_v1"

inductive CredentialType where
  | password | sshKey | certificate | token
  deriving DecidableEq

structure CredentialEntry where
  account : String
  credentialType : CredentialType
  description : String
  deriving DecidableEq

inductive CredentialValue where
  | password (secret : String)
  | sshKey (privateKey : String) (passphrase : Option String)
  | certificate (certData keyData : List UInt8)
  | token (secret : String)
  deriving DecidableEq

structure Stored where
  entry : CredentialEntry
  value : CredentialValue
  deriving DecidableEq

inductive CredentialStoreError where
  | notFound (account : String)
  | typeMismatch
  | lockError
  | vaultLocked
  | invalidMasterPassword
  | backend (message : String)
  deriving DecidableEq

def CredentialStoreError.text : CredentialStoreError → String
  | .notFound account => s!"凭据 '{account}' 不存在"
  | .typeMismatch => "类型不匹配"
  | .lockError => "内部锁错误"
  | .vaultLocked => "加密凭据 vault 尚未解锁"
  | .invalidMasterPassword => "主密码错误或 vault 被篡改"
  | .backend message => s!"凭据存储错误: {message}"

def validAccount (account : String) : Except CredentialStoreError Unit :=
  if Lib.Rust.trim account.toList = [] ∨ 512 < account.utf8ByteSize ∨ Char.ofNat 0 ∈ account.toList ∨
      account = INDEX then
    .error (.backend "invalid credential account")
  else .ok ()

inductive Operation where
  | store (account : String) (credentialType : CredentialType) (value : CredentialValue)
      (description : String)
  | delete (account : String)
  deriving DecidableEq

abbrev Index := Std.ExtTreeSet String

abbrev Vault := Std.ExtTreeMap String Stored

namespace Operation

def account : Operation → String
  | .store account _ _ _ | .delete account => account

/-- What the account holds if the call succeeds. -/
def wanted : Operation → Option Stored
  | .store account credentialType value description => some ⟨⟨account, credentialType, description⟩, value⟩
  | .delete _ => none

def nextIndex (original : Index) : Operation → Index
  | .store account _ _ _ => original.insert account
  | .delete account => original.erase account

/-- Whether `insert` or `remove` says that the index has changed. -/
def changesIndex (original : Index) : Operation → Bool
  | .store account _ _ _ => !original.contains account
  | .delete account => original.contains account

def change (vault : Vault) : Operation → Vault
  | .store account credentialType value description =>
    vault.insert account ⟨⟨account, credentialType, description⟩, value⟩
  | .delete account => vault.erase account

end Operation

inductive Backend where
  | native | vault
  deriving DecidableEq

/-- What a call does next, and what it has read. -/
inductive Phase where
  | idle
  | readSecret (operation : Operation)
  | readIndex (operation : Operation) (previous : Option Stored)
  | writeSecret (operation : Operation) (previous : Option Stored) (original : Index)
  | writeIndex (operation : Operation) (previous : Option Stored) (original : Index)
  | restoreSecret (operation : Operation) (previous : Option Stored) (original : Index)
      (error : CredentialStoreError)
  | restoreIndex (operation : Operation) (original : Index) (error : CredentialStoreError)
      (secretResult : Except CredentialStoreError Unit)
  | readVault (operation : Operation)
  | writeVault (operation : Operation) (map : Vault)

structure Returned where
  operation : Operation
  result : Except CredentialStoreError Unit

structure CredentialStore where
  backend : Backend
  secrets : String → Option Stored
  index : Index
  vault : Vault
  calls : Nat → Phase
  /-- The calls that have returned, in this order. -/
  log : List Returned

/-- A thread begins a call, or takes the next step of its call, which fails if there is a `fault`. -/
inductive Action where
  | call (thread : Nat) (operation : Operation)
  | next (thread : Nat) (fault : Option CredentialStoreError)

def restoreNativeState : Except CredentialStoreError Unit → Except CredentialStoreError Unit →
    Except CredentialStoreError Unit
  | .ok (), .ok () => .ok ()
  | .error secretError, .ok () => .error secretError
  | .ok (), .error indexError => .error indexError
  | .error secretError, .error indexError =>
    let secretText := secretError.text
    let indexText := indexError.text
    .error (.backend s!"secret rollback failed: {secretText}; index rollback failed: {indexText}")

/-- What a call reports after its rollback. -/
def rolledBack (error : CredentialStoreError) : Except CredentialStoreError Unit → CredentialStoreError
  | .ok () => error
  | .error rollbackError =>
    let errorText := error.text
    let rollbackText := rollbackError.text
    .backend s!"{errorText}; native credential/index rollback failed: {rollbackText}"

def resultOf : Option CredentialStoreError → Except CredentialStoreError Unit
  | none => .ok ()
  | some error => .error error

namespace CredentialStore

def new (backend : Backend) : CredentialStore := ⟨backend, fun _ => none, ∅, ∅, fun _ => .idle, []⟩

def goOn (s : CredentialStore) (thread : Nat) (phase : Phase) : CredentialStore :=
  { s with calls := Function.update s.calls thread phase }

def finish (s : CredentialStore) (thread : Nat) (operation : Operation)
    (result : Except CredentialStoreError Unit) : CredentialStore :=
  { s with log := s.log ++ [Returned.mk operation result] }.goOn thread .idle

def setSecret (s : CredentialStore) (account : String) (stored : Option Stored) : CredentialStore :=
  { s with secrets := Function.update s.secrets account stored }

def setIndex (s : CredentialStore) (index : Index) : CredentialStore := { s with index }

def setVault (s : CredentialStore) (vault : Vault) : CredentialStore := { s with vault }

/-- `store_credential` and `delete_credential` up to their first step. -/
def begin (s : CredentialStore) (thread : Nat) (operation : Operation) : CredentialStore :=
  match validAccount operation.account with
  | .error error => s.finish thread operation (.error error)
  | .ok () =>
    match s.backend with
    | .native => s.goOn thread (.readSecret operation)
    | .vault => s.goOn thread (.readVault operation)

/-- One step of `native_store`, of the native half of `delete_credential`, of `restore_native_state` or
of `with_map_mut`. -/
def callStep (s : CredentialStore) (thread : Nat) (fault : Option CredentialStoreError) :
    Phase → CredentialStore
  | .idle => s
  | .readSecret operation =>
    match fault with
    | some error => s.finish thread operation (.error error)
    | none => s.goOn thread (.readIndex operation (s.secrets operation.account))
  | .readIndex operation previous =>
    match fault with
    | some error => s.finish thread operation (.error error)
    | none => s.goOn thread (.writeSecret operation previous s.index)
  | .writeSecret operation previous original =>
    match fault with
    | some error => s.finish thread operation (.error error)
    | none =>
      let s := s.setSecret operation.account operation.wanted
      if operation.changesIndex original then s.goOn thread (.writeIndex operation previous original)
      else s.finish thread operation (.ok ())
  | .writeIndex operation previous original =>
    match fault with
    | some error => s.goOn thread (.restoreSecret operation previous original error)
    | none => (s.setIndex (operation.nextIndex original)).finish thread operation (.ok ())
  | .restoreSecret operation previous original error =>
    let s := if fault = none then s.setSecret operation.account previous else s
    s.goOn thread (.restoreIndex operation original error (resultOf fault))
  | .restoreIndex operation original error secretResult =>
    let s := if fault = none then s.setIndex original else s
    s.finish thread operation
      (.error (rolledBack error (restoreNativeState secretResult (resultOf fault))))
  | .readVault operation =>
    match fault with
    | some error => s.finish thread operation (.error error)
    | none => s.goOn thread (.writeVault operation s.vault)
  | .writeVault operation map =>
    match fault with
    | some error => s.finish thread operation (.error error)
    | none => (s.setVault (operation.change map)).finish thread operation (.ok ())

def step (s : CredentialStore) : Action → CredentialStore
  | .call thread operation =>
    match s.calls thread with
    | .idle => s.begin thread operation
    | _ => s
  | .next thread fault => s.callStep thread fault (s.calls thread)

/-! ## What a reader is told -/

def nativeGet (s : CredentialStore) (account : String) : Option Stored := s.secrets account

/-- What the keyring, or the map of the vault, has for the account. -/
def found (s : CredentialStore) (account : String) : Option Stored :=
  match s.backend with
  | .native => s.nativeGet account
  | .vault => s.vault[account]?

/-- `get_credential`, where none of its own steps fails. -/
def getCredential (s : CredentialStore) (account : String) :
    Except CredentialStoreError CredentialValue :=
  match validAccount account with
  | .error error => .error error
  | .ok () =>
    match s.found account with
    | some stored => .ok stored.value
    | none => .error (.notFound account)

/-- `list_credentials`, where none of its own steps fails. -/
def listCredentials (s : CredentialStore) : List CredentialEntry :=
  match s.backend with
  | .native => s.index.toList.filterMap fun account => (s.nativeGet account).map Stored.entry
  | .vault => s.vault.toList.map fun named => named.2.entry

end CredentialStore

end TauTerm.Security
