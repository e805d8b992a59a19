import Mathlib
import TauTerm.Tabs.TabInvariant

/-!
# Runs of the session reducer

Events of old and new connections, the catalog, and what the user does to the tabs, in
any order.
-/

namespace TauTerm.Tabs

open Lib

/-- The actions of a run. The catalog has roots without a runtime; a child is removed under its
own parent. -/
def Covered (state : SessionState) : SessionAction → Prop
  | .sessionConnected _ | .sessionDisconnected .. | .updateTabStats .. | .updateTabConfig ..
  | .renameTab .. | .removeTab _ | .removeAllChildren _ => True
  | .catalogLoaded tabs =>
    (tabs.map TabInfo.id).Nodup ∧ ∀ t ∈ tabs, t.isRoot ∧ t.runtimeId = none
  | .removeChild id parentId => ∀ t ∈ state.tabs, t.id = id → t.parentId = some parentId
  | _ => False

/-- Ids are not empty, and a child connects under a root. -/
def OneLevel (state : SessionState) : SessionAction → Prop
  | .sessionConnected tab =>
    tab.id ≠ "" ∧ tab.parentId ≠ some "" ∧
      ∀ parent ∈ state.tabs, tab.parentId = some parent.id → parent.parentId = none
  | .catalogLoaded tabs => ∀ t ∈ tabs, t.id ≠ "" ∧ t.parentId ≠ some ""
  | _ => True

structure TabsOk (state : SessionState) : Prop where
  ids_nodup : (state.tabs.map TabInfo.id).Nodup
  active_mem : ∀ id, state.activeTabId = some id → ∃ t ∈ state.tabs, t.id = id
  children : ∀ c ∈ state.tabs, c.isRoot = false → c.state = .connected →
    ∃ parent ∈ state.tabs, c.parentId = some parent.id ∧ parent.state = .connected ∧
      parent.runtimeId = c.runtimeId

def Present (id : TabId) (state : SessionState) : Prop := ∃ t ∈ state.tabs, t.id = id

def SessionState.runtimeOf (state : SessionState) (id : TabId) : Option RuntimeId :=
  (state.find id).bind TabInfo.runtimeId

/-- Events of a runtime older than the tab's leave the state as it is. -/
def IgnoresOld (state : SessionState) : Prop :=
  ∀ t ∈ state.tabs, ∀ current, t.runtimeId = some current → ∀ old < current,
    (∀ tab : TabInfo, tab.id = t.id → tab.runtimeId = some old →
      sessionReducer state (.sessionConnected tab) = state) ∧
    (∀ info, sessionReducer state (.sessionDisconnected t.id old info) = state) ∧
    ∀ stats connectedAt, sessionReducer state (.updateTabStats t.id old stats connectedAt) = state

variable {state : SessionState} {action : SessionAction}

theorem initialSessionState_inv : TabsInv initialSessionState where
  ids_nodup := List.nodup_nil
  ids_ne := fun _ ht => nomatch ht
  active_mem := fun _ hid => nomatch hid
  children := fun _ hc => nomatch hc

theorem TabsInv.ok (h : TabsInv state) : TabsOk state where
  ids_nodup := h.ids_nodup
  active_mem := h.active_mem
  children c hc hchild hconnected := by
    cases hp : c.parentId with
    | none =>
      rw [(h.isRoot_iff hc).mpr hp] at hchild
      contradiction
    | some p =>
      obtain ⟨parent, hmem, rfl, hunder⟩ := h.children c hc p hp
      exact ⟨parent, hmem, rfl, hunder.connected hconnected⟩

theorem sessionReducer_kept (h : TabsInv state) (hcovered : Covered state action)
    (hlevel : OneLevel state action) :
    TabsInv (sessionReducer state action) ∧ RuntimesKept state (sessionReducer state action) := by
  cases action with
  | sessionConnected tab => exact sessionConnected_kept h hlevel.1 hlevel.2.1 hlevel.2.2
  | sessionDisconnected id runtimeId info => exact sessionDisconnected_kept h
  | catalogLoaded tabs =>
    refine catalogLoaded_kept h hcovered.1 fun t ht => ⟨(hlevel t ht).1, ?_, (hcovered.2 t ht).2⟩
    have hroot := (hcovered.2 t ht).1
    have hne := (hlevel t ht).2
    cases hp : t.parentId with
    | none => rfl
    | some p =>
      rw [hp, Ne, Option.some.injEq] at hne
      simp [TabInfo.isRoot, hp, hne] at hroot
  | removeTab id => exact removeTab_kept h
  | removeChild id parentId => exact removeChild_kept h hcovered
  | removeAllChildren parentId => exact removeAllChildren_kept h
  | renameTab id name => exact update_kept h fun t => ⟨rfl, rfl, rfl, rfl⟩
  | updateTabStats id runtimeId stats connectedAt =>
    refine update_kept h fun t => ?_
    unfold updateStats
    split_ifs <;> exact ⟨rfl, rfl, rfl, rfl⟩
  | updateTabConfig id config => exact update_kept h fun t => ⟨rfl, rfl, rfl, rfl⟩
  | catalogFailed | addTab | reorderTabs | setActive | setConnectionTypes | setEndpoints
  | replaceEndpointsForPlugin | setError | setTabState | setTabDisconnected | clearTabs =>
    exact hcovered.elim

theorem runtimeOf_eq (h : TabsInv state) {t : TabInfo} (ht : t ∈ state.tabs) :
    state.runtimeOf t.id = t.runtimeId := by
  rw [SessionState.runtimeOf, h.find_eq ht, Option.bind_some]

theorem TabsInv.ignoresOld (h : TabsInv state) : IgnoresOld state := by
  intro t ht current hcurrent old hold
  have hne : t.runtimeId ≠ some old := by
    rw [hcurrent, Ne, Option.some.injEq]
    exact hold.ne'
  refine ⟨fun tab hid hruntime => ?_, fun info => ?_, fun stats connectedAt => ?_⟩
  · rcases @sessionConnected_cases _ tab h with hsame | ⟨runtimeId, hconnects⟩
    · exact hsame
    · have hlt := hconnects.newer t ht hid.symm current hcurrent
      rw [hconnects.runtime, Option.some.injEq] at hruntime
      rw [hruntime] at hlt
      exact absurd hlt hold.asymm
  · simp only [sessionReducer, sessionDisconnected, h.find_eq ht]
    rw [if_pos hne]
  · have htabs : state.tabs.map (fun t' => if t'.id = t.id then
        updateStats old stats connectedAt t' else t') = state.tabs := by
      conv_rhs => rw [← List.map_id state.tabs]
      refine List.map_congr_left fun t' ht' => ?_
      split_ifs with hid
      · rw [h.eq_of_id ht' ht hid, updateStats, if_neg fun hcond => hne hcond.1]
        rfl
      · rfl
    simp only [sessionReducer, SessionState.update, htabs]

/-- The runtime of a tab that stays only goes up. -/
theorem runtimeOf_mono {later : List SessionAction} {id : TabId} (h : TabsInv state)
    (hlater : EachStep sessionReducer (fun s a => Covered s a ∧ OneLevel s a) state later)
    (hpresent : Always sessionReducer (Present id) state later) :
    RuntimeLe (state.runtimeOf id) ((later.foldl sessionReducer state).runtimeOf id) := by
  induction later generalizing state with
  | nil => exact .of_eq rfl
  | cons action later ih =>
    obtain ⟨⟨hcovered, hlevel⟩, hlater⟩ := hlater
    obtain ⟨⟨t, ht, rfl⟩, hpresent⟩ := hpresent
    obtain ⟨hinv, hkept⟩ := sessionReducer_kept h hcovered hlevel
    refine .trans ?_ (ih hinv hlater hpresent)
    obtain ⟨t', ht', hid⟩ : Present t.id (sessionReducer state action) := by
      cases later with
      | nil => exact hpresent
      | cons _ _ => exact hpresent.1
    rw [runtimeOf_eq h ht, ← hid, runtimeOf_eq hinv ht']
    exact hkept t ht t' ht' hid.symm

/-- In a run whose children connect under roots, and in which no id is empty, the tabs stay
consistent, the runtime of a tab that stays only goes up, and events of old runtimes are ignored. -/
theorem tabs_consistent {actions : List SessionAction}
    (hactions : EachStep sessionReducer (fun s a => Covered s a ∧ OneLevel s a)
      initialSessionState actions) (state : SessionState)
    (hstate : state = actions.foldl sessionReducer initialSessionState) :
    TabsOk state ∧ IgnoresOld state ∧
      ∀ id later, EachStep sessionReducer (fun s a => Covered s a ∧ OneLevel s a) state later →
        Always sessionReducer (Present id) state later →
          RuntimeLe (state.runtimeOf id) ((later.foldl sessionReducer state).runtimeOf id) := by
  have hinv : TabsInv state := by
    rw [hstate]
    exact hactions.invariant (fun s a hs ha => (sessionReducer_kept hs ha.1 ha.2).1)
      initialSessionState_inv
  exact ⟨hinv.ok, hinv.ignoresOld, fun id later => runtimeOf_mono hinv⟩

/-- A connected terminal tab. -/
def connectedTab (id : TabId) (parentId : Option TabId) (runtimeId : RuntimeId) : TabInfo where
  runtimeId := some runtimeId
  id := id
  name := id
  connectionType := "ssh"
  endpoint := "host"
  state := .connected
  pluginId := "ssh"
  stats := { txBytes := 0, rxBytes := 0 }
  connectedAt := none
  parentId := parentId

theorem tabs_consistent_reconnect :
    TabsOk ([.sessionConnected (connectedTab "s" none 1),
      .sessionConnected (connectedTab "c" (some "s") 1),
      .sessionConnected (connectedTab "s" none 2)].foldl sessionReducer initialSessionState) :=
  (@tabs_consistent [.sessionConnected (connectedTab "s" none 1),
      .sessionConnected (connectedTab "c" (some "s") 1),
      .sessionConnected (connectedTab "s" none 2)]
      ⟨⟨trivial, by decide, by decide, by simp [connectedTab]⟩,
      ⟨trivial, by decide, by decide, by decide⟩,
      ⟨trivial, by decide, by decide, by decide⟩, trivial⟩ _ rfl).1

/-- A terminal under a terminal outlives its root, and a tab with an empty id stays active when it
is removed. -/
theorem tabs_break :
    (EachStep sessionReducer Covered initialSessionState
        [.sessionConnected (connectedTab "root" none 1),
          .sessionConnected (connectedTab "child" (some "root") 1),
          .sessionConnected (connectedTab "grandchild" (some "child") 1), .removeTab "root"] ∧
      ¬ TabsOk ([.sessionConnected (connectedTab "root" none 1),
        .sessionConnected (connectedTab "child" (some "root") 1),
        .sessionConnected (connectedTab "grandchild" (some "child") 1),
        .removeTab "root"].foldl sessionReducer initialSessionState)) ∧
    EachStep sessionReducer Covered initialSessionState
        [.sessionConnected (connectedTab "" none 1), .removeTab ""] ∧
      ¬ TabsOk ([.sessionConnected (connectedTab "" none 1),
        .removeTab ""].foldl sessionReducer initialSessionState) := by
  refine ⟨⟨⟨trivial, trivial, trivial, trivial, trivial⟩, fun h => ?_⟩,
    ⟨trivial, trivial, trivial⟩, fun h => ?_⟩
  · have htabs : ([.sessionConnected (connectedTab "root" none 1),
        .sessionConnected (connectedTab "child" (some "root") 1),
        .sessionConnected (connectedTab "grandchild" (some "child") 1),
        .removeTab "root"].foldl sessionReducer initialSessionState).tabs =
          [connectedTab "grandchild" (some "child") 1] := rfl
    obtain ⟨parent, hmem, hid, -⟩ := h.children (connectedTab "grandchild" (some "child") 1)
      (htabs ▸ List.mem_singleton_self _) rfl rfl
    rw [htabs, List.mem_singleton] at hmem
    rw [hmem] at hid
    exact absurd hid (by decide)
  · obtain ⟨t, ht, -⟩ := h.active_mem "" rfl
    exact nomatch ht

end TauTerm.Tabs
