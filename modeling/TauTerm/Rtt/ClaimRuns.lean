import Mathlib
import TauTerm.Lib.Run
import TauTerm.Rtt.ChannelClaims

/-!
# A claimed channel is not the user's

As long as what a call has read under one lock is still so when it writes under another, the selection,
the claims and the snapshot agree whenever no call is under way.
-/

namespace TauTerm.Rtt.Claims

open Lib Writes

variable {channels : List RttChannelInfo} {claimed : Nat → Bool} {x : Nat}

/-- A usable Down channel of that index. -/
def Usable (channels : List RttChannelInfo) (x : Nat) : Prop :=
  ∃ channel ∈ channels, channel.index = x ∧ channel.hasUsableDown = true

theorem usable_of_isWritable {channel : RttChannelInfo} (hmem : channel ∈ channels)
    (h : isWritable claimed channel = true) :
    Usable channels channel.index ∧ claimed channel.index = false := by
  rw [isWritable, Bool.and_eq_true, Bool.not_eq_true'] at h
  exact ⟨⟨channel, hmem, rfl, h.1⟩, h.2⟩

theorem usable_of_replacement (h : replacement channels claimed = some x) :
    Usable channels x ∧ claimed x = false := by
  obtain ⟨channel, hfind, rfl⟩ := Option.map_eq_some_iff.mp h
  obtain hzero | ⟨-, hfirst⟩ := Option.or_eq_some_iff.mp hfind
  · have hwritable := List.find?_some hzero
    rw [Bool.and_eq_true] at hwritable
    exact usable_of_isWritable (List.mem_of_find?_eq_some hzero) hwritable.2
  · exact usable_of_isWritable (List.mem_of_find?_eq_some hfirst) (List.find?_some hfirst)

theorem usable_of_validate (h : validateChannelDirection channels x false = .ok ()) :
    Usable channels x := by
  unfold validateChannelDirection at h
  split at h
  · cases h
  · rename_i channel hfind
    have hindex : channel.index = x := by
      have := List.find?_some hfind
      exact of_decide_eq_true this
    refine ⟨channel, List.mem_of_find?_eq_some hfind, hindex, ?_⟩
    dsimp only at h
    split at h
    · cases h
    · rename_i direction hdirection
      split at h
      · rename_i husable
        have hdown : channel.down = some direction := hdirection
        rw [RttChannelInfo.hasUsableDown, hdown]
        exact husable
      · cases h

theorem unclaimed_of_validate {claims : ClaimTable} (h : validateUserWrite claims x = .ok ()) :
    claims x = none := by
  unfold validateUserWrite at h
  split at h
  · cases h
  · assumption

theorem unclaimed_of_keys {claims : ClaimTable} (h : keys claims x = false) : claims x = none :=
  Option.isSome_eq_false_iff.mp h |> Option.isNone_iff_eq_none.mp

namespace RttShared

variable {s : RttShared} {thread : Nat} {phase : Phase}

/-! ## What is claimed of the shared state -/

/-- No call is under way. -/
def Quiet (s : RttShared) : Prop := ∀ thread, ∃ result, s.calls thread = .returned result

/-- The selection is a usable channel that nobody has claimed. -/
def Free (s : RttShared) (x : Nat) : Prop :=
  Usable s.snapshot.channels x ∧ s.channelClaims x = none

structure ClaimsRespected (s : RttShared) : Prop where
  target : Quiet s → ∀ x, s.sendChannel = some x → Free s x
  snapshotSend : Quiet s → s.snapshot.sendChannel = s.sendChannel
  snapshotClaims : Quiet s → s.snapshot.channelClaims = s.channelClaims
  /-- A claim ends only where its owner releases it. -/
  released : ∀ action x owner, s.channelClaims x = some owner →
    (s.step action).channelClaims x = some owner ∨ (s.step action).channelClaims x = none ∧
      ∃ thread, action = .next thread ∧ s.calls thread = .releaseRemove x owner

/-- What a call has read and now relies on is still so. `set_stopped` relies on there being no
claims. -/
def Current (s : RttShared) : Phase → Prop
  | .runningSnapshot _ claimed sendChannel =>
    claimed = keys s.channelClaims ∧ s.sendChannel = sendChannel
  | .sendingStore channelIndex =>
    validateChannelDirection s.snapshot.channels channelIndex false = .ok () ∧
      validateUserWrite s.channelClaims channelIndex = .ok ()
  | .sendingSnapshot channelIndex => s.sendChannel = some channelIndex
  | .claimSend channelIndex channels claimed => s.sendChannel = some channelIndex →
    channels = s.snapshot.channels ∧ claimed = keys s.channelClaims
  | .claimSnapshot channelIndex replacement found =>
    s.sendChannel = (if found = some channelIndex then replacement else found) ∧
      s.snapshot.sendChannel = found
  | .releaseSend channels claimed => s.sendChannel = none →
    channels = s.snapshot.channels ∧ claimed = keys s.channelClaims
  | .releaseSnapshot selected => s.sendChannel = selected
  | .stopSnapshot => s.sendChannel = none ∧ s.channelClaims = fun _ => none
  | _ => True

def CurrentStep (s : RttShared) : Action → Prop
  | .call _ _ => True
  | .next thread => Current s (s.calls thread)

/-! ## Calls that will put something right -/

/-- The call is about to move the selection away from the channel it has claimed. -/
def Moves (x : Nat) : Phase → Prop
  | .claimChannels channelIndex | .claimKeys channelIndex _ | .claimSend channelIndex _ _ =>
    channelIndex = x
  | _ => False

def SetsChannels : Phase → Prop
  | .runningSnapshot .. => True
  | _ => False

def OwesSend : Phase → Prop
  | .runningSnapshot .. | .sendingSnapshot _ | .claimSnapshot .. | .releaseSnapshot _
  | .stopSnapshot => True
  | _ => False

def OwesClaims : Phase → Prop
  | .claimChannels _ | .claimKeys .. | .claimSend .. | .claimSnapshot .. | .releaseChannels
  | .releaseKeys _ | .releaseSend .. | .releaseSnapshot _ => True
  | _ => False

/-- Some call is in such a phase. -/
def Some_ (s : RttShared) (Q : Phase → Prop) : Prop := ∃ thread, Q (s.calls thread)

/-- What `set_running` is about to publish can be written. -/
def Chosen : Phase → Prop
  | .runningSnapshot channels claimed sendChannel =>
    ∀ x, sendChannel = some x → Usable channels x ∧ claimed x = false
  | _ => True

structure Consistent (s : RttShared) : Prop where
  target : ∀ x, s.sendChannel = some x → Free s x ∨ s.Some_ (Moves x) ∨ s.Some_ SetsChannels
  snapshotSend : s.snapshot.sendChannel = s.sendChannel ∨ s.Some_ OwesSend
  snapshotClaims : s.snapshot.channelClaims = s.channelClaims ∨ s.Some_ OwesClaims
  chosen : ∀ thread, Chosen (s.calls thread)

theorem calls_goOn (s : RttShared) (thread : Nat) (phase : Phase) (t : Nat) :
    (s.goOn thread phase).calls t = if t = thread then phase else s.calls t := by
  rw [goOn]
  exact Function.update_apply ..

variable {Q : Phase → Prop} {s' : RttShared}

theorem some_here (h : Q phase) : (s'.goOn thread phase).Some_ Q :=
  ⟨thread, by rwa [calls_goOn, if_pos rfl]⟩

theorem Some_.goOn (h : s.Some_ Q) (hcalls : s'.calls = s.calls)
    (hkeep : Q (s.calls thread) → Q phase) : (s'.goOn thread phase).Some_ Q := by
  obtain ⟨t, ht⟩ := h
  by_cases heq : t = thread
  · exact some_here (hkeep (heq ▸ ht))
  · exact ⟨t, by rwa [calls_goOn, if_neg heq, hcalls]⟩

theorem Consistent.chosen_goOn (h : Consistent s) (hcalls : s'.calls = s.calls)
    (hphase : Chosen phase) (t : Nat) : Chosen ((s'.goOn thread phase).calls t) := by
  rw [calls_goOn]
  split
  · exact hphase
  · rw [hcalls]
    exact h.chosen t

theorem Consistent.claims_goOn (h : Consistent s) (hcalls : s'.calls = s.calls)
    (hclaims : s'.channelClaims = s.channelClaims)
    (hsnapshot : s'.snapshot.channelClaims = s.snapshot.channelClaims)
    (hkeep : OwesClaims (s.calls thread) → OwesClaims phase) :
    (s'.goOn thread phase).snapshot.channelClaims = (s'.goOn thread phase).channelClaims ∨
      (s'.goOn thread phase).Some_ OwesClaims :=
  h.snapshotClaims.imp (fun heq => (hsnapshot.trans heq).trans hclaims.symm)
    fun hsome => hsome.goOn hcalls hkeep

/-- A section that changes nothing but where the call is. -/
theorem Consistent.read (h : Consistent s) (hmoves : ∀ x, Moves x (s.calls thread) → Moves x phase)
    (hsets : ¬ SetsChannels (s.calls thread)) (hsend : ¬ OwesSend (s.calls thread))
    (hclaims : OwesClaims (s.calls thread) → OwesClaims phase) (hphase : Chosen phase) :
    Consistent (s.goOn thread phase) where
  target x hx := by
    refine (h.target x hx).imp_right fun hother => hother.imp ?_ ?_
    · exact fun hsome => hsome.goOn rfl (hmoves x)
    · exact fun hsome => hsome.goOn rfl fun hthis => absurd hthis hsets
  snapshotSend := h.snapshotSend.imp_right fun hsome =>
    hsome.goOn rfl fun hthis => absurd hthis hsend
  snapshotClaims := h.claims_goOn rfl rfl rfl hclaims
  chosen := h.chosen_goOn rfl hphase

/-- A snapshot that gets the selection there is. -/
theorem Consistent.publish (h : Consistent s) {sendChannel : Option Nat} {claims : ClaimTable}
    (hsend : s.sendChannel = sendChannel)
    (hclaims : claims = s.channelClaims ∨ claims = s.snapshot.channelClaims ∧
      ¬ OwesClaims (s.calls thread))
    (hmoves : ∀ x, ¬ Moves x (s.calls thread)) (hsets : ¬ SetsChannels (s.calls thread))
    {result : Except RttError Unit} :
    Consistent ({ s with snapshot :=
      { s.snapshot with sendChannel, channelClaims := claims } }.goOn thread (.returned result)) where
  target x hx := by
    refine (h.target x hx).imp_right fun hother => hother.imp ?_ ?_
    · exact fun hsome => hsome.goOn rfl fun hthis => absurd hthis (hmoves x)
    · exact fun hsome => hsome.goOn rfl fun hthis => absurd hthis hsets
  snapshotSend := .inl hsend.symm
  snapshotClaims := by
    obtain hclaims | ⟨hclaims, howes⟩ := hclaims
    · exact .inl hclaims
    · exact h.claims_goOn rfl rfl hclaims fun hthis => absurd hthis howes
  chosen := h.chosen_goOn rfl trivial

theorem Consistent.lockSection (h : Consistent s) (hphase : s.calls thread = phase)
    (hcurrent : Current s phase) : Consistent (s.lockSection thread phase) := by
  cases phase with
  | returned result => exact h
  | running channels =>
    exact h.read (by simp [hphase, Moves]) (by simp [hphase, SetsChannels])
      (by simp [hphase, OwesSend]) (by simp [hphase, OwesClaims]) trivial
  | runningSend channels claimed =>
    exact
      { target := fun x _ => .inr (.inr (some_here trivial))
        snapshotSend := .inr (some_here trivial)
        snapshotClaims := h.claims_goOn rfl rfl rfl (by simp [hphase, OwesClaims])
        chosen := h.chosen_goOn rfl fun x hx => by
          split at hx
          · rename_i hstill
            rw [hx, Option.any_some, List.any_eq_true] at hstill
            obtain ⟨channel, hmem, hwritable⟩ := hstill
            rw [Bool.and_eq_true, decide_eq_true_eq] at hwritable
            exact hwritable.1 ▸ usable_of_isWritable hmem hwritable.2
          · exact usable_of_replacement hx }
  | runningSnapshot channels claimed sendChannel =>
    obtain ⟨hclaimed, hsend⟩ := hcurrent
    have hchosen := h.chosen thread
    rw [hphase] at hchosen
    exact
      { target := fun x hx => by
          obtain ⟨husable, hunclaimed⟩ := hchosen x (hsend.symm.trans hx)
          rw [hclaimed] at hunclaimed
          exact .inl ⟨husable, unclaimed_of_keys hunclaimed⟩
        snapshotSend := .inl hsend.symm
        snapshotClaims := .inl rfl
        chosen := h.chosen_goOn rfl trivial }
  | checkDirection channelIndex select =>
    rw [RttShared.lockSection]
    split
    · exact h.read (by simp [hphase, Moves]) (by simp [hphase, SetsChannels])
        (by simp [hphase, OwesSend]) (by simp [hphase, OwesClaims]) trivial
    · exact h.read (by simp [hphase, Moves]) (by simp [hphase, SetsChannels])
        (by simp [hphase, OwesSend]) (by simp [hphase, OwesClaims]) trivial
  | checkClaims channelIndex select =>
    rw [RttShared.lockSection]
    split
    · exact h.read (by simp [hphase, Moves]) (by simp [hphase, SetsChannels])
        (by simp [hphase, OwesSend]) (by simp [hphase, OwesClaims]) trivial
    · refine h.read (by simp [hphase, Moves]) (by simp [hphase, SetsChannels])
        (by simp [hphase, OwesSend]) (by simp [hphase, OwesClaims]) ?_
      cases select <;> trivial
  | sendingStore channelIndex =>
    obtain ⟨hdirection, hclaims⟩ := hcurrent
    exact
      { target := fun x hx => by
          obtain rfl := Option.some.inj hx
          exact .inl ⟨usable_of_validate hdirection, unclaimed_of_validate hclaims⟩
        snapshotSend := .inr (some_here trivial)
        snapshotClaims := h.claims_goOn rfl rfl rfl (by simp [hphase, OwesClaims])
        chosen := h.chosen_goOn rfl trivial }
  | sendingSnapshot channelIndex =>
    exact h.publish hcurrent (.inr ⟨rfl, by simp [hphase, OwesClaims]⟩) (by simp [hphase, Moves])
      (by simp [hphase, SetsChannels])
  | claimCheck channelIndex owner =>
    rw [RttShared.lockSection]
    split
    · exact h.read (by simp [hphase, Moves]) (by simp [hphase, SetsChannels])
        (by simp [hphase, OwesSend]) (by simp [hphase, OwesClaims]) trivial
    · exact h.read (by simp [hphase, Moves]) (by simp [hphase, SetsChannels])
        (by simp [hphase, OwesSend]) (by simp [hphase, OwesClaims]) trivial
  | claimInsert channelIndex owner =>
    rw [RttShared.lockSection]
    split
    · split
      · exact h.read (by simp [hphase, Moves]) (by simp [hphase, SetsChannels])
          (by simp [hphase, OwesSend]) (by simp [hphase, OwesClaims]) trivial
      · exact h.read (by simp [hphase, Moves]) (by simp [hphase, SetsChannels])
          (by simp [hphase, OwesSend]) (by simp [hphase, OwesClaims]) trivial
    · exact
        { target := fun x hx => by
            by_cases heq : channelIndex = x
            · exact .inr (.inl (some_here heq))
            · refine (h.target x hx).imp ?_ fun hother => hother.imp ?_ ?_
              · rintro ⟨husable, hunclaimed⟩
                exact ⟨husable, (Function.update_of_ne (Ne.symm heq) ..).trans hunclaimed⟩
              · exact fun hsome => hsome.goOn rfl (by simp [hphase, Moves])
              · exact fun hsome => hsome.goOn rfl (by simp [hphase, SetsChannels])
          snapshotSend := h.snapshotSend.imp_right fun hsome =>
            hsome.goOn rfl (by simp [hphase, OwesSend])
          snapshotClaims := .inr (some_here trivial)
          chosen := h.chosen_goOn rfl trivial }
  | claimChannels channelIndex =>
    exact h.read (by simp [hphase, Moves]) (by simp [hphase, SetsChannels])
      (by simp [hphase, OwesSend]) (by simp [OwesClaims]) trivial
  | claimKeys channelIndex channels =>
    exact h.read (by simp [hphase, Moves]) (by simp [hphase, SetsChannels])
      (by simp [hphase, OwesSend]) (by simp [OwesClaims]) trivial
  | claimSend channelIndex channels claimed =>
    exact
      { target := fun x hx => by
          change (if s.sendChannel = some channelIndex then replacement channels claimed
            else s.sendChannel) = some x at hx
          split at hx
          · rename_i hsend
            obtain ⟨rfl, rfl⟩ := hcurrent hsend
            obtain ⟨husable, hunclaimed⟩ := usable_of_replacement hx
            exact .inl ⟨husable, unclaimed_of_keys hunclaimed⟩
          · rename_i hsend
            refine (h.target x hx).imp_right fun hother => hother.imp ?_ ?_
            · refine fun hsome => hsome.goOn rfl fun hthis => ?_
              rw [hphase] at hthis
              exact absurd (hthis ▸ hx) hsend
            · exact fun hsome => hsome.goOn rfl (by simp [hphase, SetsChannels])
        snapshotSend := .inr (some_here trivial)
        snapshotClaims := h.claims_goOn rfl rfl rfl (by simp [OwesClaims])
        chosen := h.chosen_goOn rfl trivial }
  | claimSnapshot channelIndex replacement found =>
    obtain ⟨hsend, hfound⟩ := hcurrent
    refine h.publish ?_ (.inl rfl) (by simp [hphase, Moves]) (by simp [hphase, SetsChannels])
    rw [hfound]
    exact hsend
  | releaseRemove channelIndex owner =>
    rw [RttShared.lockSection]
    split
    · exact
        { target := fun x hx => by
            refine (h.target x hx).imp ?_ fun hother => hother.imp ?_ ?_
            · rintro ⟨husable, hunclaimed⟩
              refine ⟨husable, ?_⟩
              change Function.update s.channelClaims channelIndex none x = none
              rw [Function.update_apply, hunclaimed, ite_self]
            · exact fun hsome => hsome.goOn rfl (by simp [hphase, Moves])
            · exact fun hsome => hsome.goOn rfl (by simp [hphase, SetsChannels])
          snapshotSend := h.snapshotSend.imp_right fun hsome =>
            hsome.goOn rfl (by simp [hphase, OwesSend])
          snapshotClaims := .inr (some_here trivial)
          chosen := h.chosen_goOn rfl trivial }
    · exact h.read (by simp [hphase, Moves]) (by simp [hphase, SetsChannels])
        (by simp [hphase, OwesSend]) (by simp [hphase, OwesClaims]) trivial
  | releaseChannels =>
    exact h.read (by simp [hphase, Moves]) (by simp [hphase, SetsChannels])
      (by simp [hphase, OwesSend]) (by simp [OwesClaims]) trivial
  | releaseKeys channels =>
    exact h.read (by simp [hphase, Moves]) (by simp [hphase, SetsChannels])
      (by simp [hphase, OwesSend]) (by simp [OwesClaims]) trivial
  | releaseSend channels claimed =>
    exact
      { target := fun x hx => by
          change (if s.sendChannel = none then replacement channels claimed
            else s.sendChannel) = some x at hx
          split at hx
          · rename_i hsend
            obtain ⟨rfl, rfl⟩ := hcurrent hsend
            obtain ⟨husable, hunclaimed⟩ := usable_of_replacement hx
            exact .inl ⟨husable, unclaimed_of_keys hunclaimed⟩
          · refine (h.target x hx).imp_right fun hother => hother.imp ?_ ?_
            · exact fun hsome => hsome.goOn rfl (by simp [hphase, Moves])
            · exact fun hsome => hsome.goOn rfl (by simp [hphase, SetsChannels])
        snapshotSend := .inr (some_here trivial)
        snapshotClaims := h.claims_goOn rfl rfl rfl (by simp [OwesClaims])
        chosen := h.chosen_goOn rfl trivial }
  | releaseSnapshot selected =>
    exact h.publish hcurrent (.inl rfl) (by simp [hphase, Moves]) (by simp [hphase, SetsChannels])
  | stopSend =>
    exact
      { target := fun x hx => nomatch hx
        snapshotSend := .inr (some_here trivial)
        snapshotClaims := h.claims_goOn rfl rfl rfl (by simp [hphase, OwesClaims])
        chosen := h.chosen_goOn rfl trivial }
  | stopSnapshot =>
    obtain ⟨hsend, hclaims⟩ := hcurrent
    exact h.publish hsend (.inl hclaims.symm) (by simp [hphase, Moves])
      (by simp [hphase, SetsChannels])

theorem Consistent.step (h : Consistent s) {action : Action} (hcurrent : CurrentStep s action) :
    Consistent (s.step action) := by
  cases action with
  | call thread operation =>
    rw [RttShared.step]
    split
    · rename_i result hphase
      refine h.read (by simp [hphase, Moves]) (by simp [hphase, SetsChannels])
        (by simp [hphase, OwesSend]) (by simp [hphase, OwesClaims]) ?_
      cases operation <;> trivial
    · exact h
  | next thread => exact h.lockSection rfl hcurrent

/-! ## Claims -/

theorem claims_lockSection {owner : String} (hphase : s.calls thread = phase)
    (hclaim : s.channelClaims x = some owner) :
    (s.lockSection thread phase).channelClaims x = some owner ∨
      (s.lockSection thread phase).channelClaims x = none ∧ phase = .releaseRemove x owner := by
  cases phase with
  | claimInsert channelIndex owner' =>
    left
    rw [RttShared.lockSection]
    split
    · split
      · exact hclaim
      · exact hclaim
    · rename_i hnone
      have hne : x ≠ channelIndex := by
        rintro rfl
        cases hnone.symm.trans hclaim
      exact (Function.update_of_ne hne ..).trans hclaim
  | releaseRemove channelIndex owner' =>
    rw [RttShared.lockSection]
    split
    · rename_i hown
      by_cases heq : x = channelIndex
      · subst heq
        obtain rfl := Option.some.inj (hown.symm.trans hclaim)
        exact .inr ⟨Function.update_self .., rfl⟩
      · exact .inl ((Function.update_of_ne heq ..).trans hclaim)
    · exact .inl hclaim
  | checkDirection channelIndex select =>
    left
    rw [RttShared.lockSection]
    split
    · exact hclaim
    · exact hclaim
  | checkClaims channelIndex select =>
    left
    rw [RttShared.lockSection]
    split
    · exact hclaim
    · exact hclaim
  | claimCheck channelIndex owner' =>
    left
    rw [RttShared.lockSection]
    split
    · exact hclaim
    · exact hclaim
  | _ => exact .inl hclaim

theorem claims_step (action : Action) (x : Nat) (owner : String)
    (hclaim : s.channelClaims x = some owner) :
    (s.step action).channelClaims x = some owner ∨ (s.step action).channelClaims x = none ∧
      ∃ thread, action = .next thread ∧ s.calls thread = .releaseRemove x owner := by
  cases action with
  | call thread operation =>
    left
    rw [step]
    split
    · exact hclaim
    · exact hclaim
  | next thread =>
    refine (claims_lockSection rfl hclaim).imp_right ?_
    rintro ⟨hnone, hphase⟩
    exact ⟨hnone, thread, rfl, hphase⟩

/-! ## Runs -/

theorem Quiet.not_some (hquiet : Quiet s) (hQ : ∀ result, ¬ Q (.returned result)) : ¬ s.Some_ Q := by
  rintro ⟨t, ht⟩
  obtain ⟨result, hresult⟩ := hquiet t
  rw [hresult] at ht
  exact hQ result ht

theorem Consistent.claimsRespected (h : Consistent s) : ClaimsRespected s where
  target hquiet x hx := (h.target x hx).resolve_right fun hother => hother.elim
    (hquiet.not_some fun _ => id) (hquiet.not_some fun _ => id)
  snapshotSend hquiet := h.snapshotSend.resolve_right (hquiet.not_some fun _ => id)
  snapshotClaims hquiet := h.snapshotClaims.resolve_right (hquiet.not_some fun _ => id)
  released := claims_step

theorem consistent_new : Consistent new where
  target := fun _ hx => nomatch hx
  snapshotSend := .inl rfl
  snapshotClaims := .inl rfl
  chosen := fun _ => trivial

/-- Where every call writes on what is still so, claims are respected. -/
theorem claimsRespected_of_current (actions : List Action)
    (h : EachStep step CurrentStep new actions) : Always step ClaimsRespected new actions :=
  h.always (fun _ h => h.claimsRespected) (fun _ _ h hcurrent => h.step hcurrent) consistent_new

def downChannel (index : Nat) : RttChannelInfo := ⟨index, none, some ⟨true, none⟩⟩

/-- A worker that runs with two channels. -/
def opening : List Action :=
  [.call 0 (.setRunning [downChannel 0, downChannel 1]), .next 0, .next 0, .next 0]

def claiming (thread : Nat) : List Action :=
  .call thread (.claimDownChannel 1 "SystemView") :: List.replicate 6 (.next thread)

theorem claimsRespected_claiming : Always step ClaimsRespected new (opening ++ claiming 1) :=
  claimsRespected_of_current (opening ++ claiming 1)
    ⟨trivial, trivial, trivial, ⟨rfl, rfl⟩, trivial, trivial, trivial, trivial, trivial,
      fun _ => ⟨rfl, rfl⟩, ⟨rfl, rfl⟩, trivial⟩

/-- A stop while a channel is claimed. -/
def stopped : List Action :=
  opening ++ claiming 0 ++ ([.call 0 .setStopped, .next 0, .next 0] : List Action)

/-- A claim between the checks of `set_send_channel` and its write. -/
def overtaken : List Action :=
  opening ++ ([.call 0 (.setSendChannel 1), .next 0, .next 0] : List Action) ++ claiming 1 ++
    ([.next 0, .next 0] : List Action)

theorem claims_astray : ¬ Always step ClaimsRespected new stopped ∧
    ¬ Always step ClaimsRespected new overtaken := by
  refine ⟨fun h => ?_, fun h => ?_⟩
  · have hquiet : Quiet (stopped.foldl step new) := fun
      | 0 => ⟨_, rfl⟩
      | _ + 1 => ⟨_, rfl⟩
    have := congrFun (h.last.snapshotClaims hquiet) 1
    revert this
    decide
  · have hquiet : Quiet (overtaken.foldl step new) := fun
      | 0 => ⟨_, rfl⟩
      | 1 => ⟨_, rfl⟩
      | _ + 2 => ⟨_, rfl⟩
    have := (h.last.target hquiet 1 (by decide)).2
    revert this
    decide

end RttShared

end TauTerm.Rtt.Claims
