import Mathlib
import TauTerm.Lib.JsObject

/-!
# Session tabs

The tabs of the window and the reducer that the events of the backend and the user's
actions go through. A child tab, a terminal within a session, names its parent and
shares the runtime of the parent's connection.
-/

namespace TauTerm.Tabs

open Lib

abbrev TabId := String

/-- A u64, written as a decimal string. Two such strings are the same if the numbers are. -/
abbrev RuntimeId := Nat

inductive ConnectionStatus
  | disconnected | connecting | connected | disconnecting
deriving DecidableEq

def compareRuntimeIds (first second : RuntimeId) : Int :=
  if first < second then -1 else if first > second then 1 else 0

inductive DisconnectKind
  | userRequested | remoteEof | ioError | deviceRemoved | processExited
deriving DecidableEq

structure DisconnectInfo where
  kind : DisconnectKind
  reason : String
  exitCode : Option Int
  retainTerminal : Bool
deriving DecidableEq

structure SessionStats where
  txBytes : Nat
  rxBytes : Nat
  rxPackets : Option Nat := none
  txPackets : Option Nat := none
deriving DecidableEq

abbrev Params := List (String × JsonValue)

structure TabInfo where
  runtimeId : Option RuntimeId
  id : TabId
  name : String
  connectionType : String
  endpoint : String
  state : ConnectionStatus
  pluginId : String
  params : Option Params := none
  stats : SessionStats
  connectedAt : Option Int
  disconnectInfo : Option DisconnectInfo := none
  transferEnabled : Option Bool := none
  transferProtocol : Option String := none
  sendBarEnabled : Option Bool := none
  /-- `null` or missing for a root; the empty string counts as missing where it is tested. -/
  parentId : Option TabId := none
  channelIndex : Option Nat := none
  elevated : Option Bool := none
  isContainer : Option Bool := none

structure ConnectionTypeInfo where
  id : String
  label : String
  available : Bool
  description : String
  icon : String
  contentType : String

structure EndpointInfo where
  name : String
  description : String
  connectionType : String
  params : Option Params

inductive CatalogStatus
  | loading | ready | error
deriving DecidableEq

structure SessionState where
  catalogStatus : CatalogStatus
  tabs : List TabInfo
  activeTabId : Option TabId
  connectionTypes : List ConnectionTypeInfo
  endpoints : List EndpointInfo
  error : Option String

/-- The fields that `UPDATE_TAB_CONFIG` carries. -/
structure TabConfig where
  endpoint : String
  params : Params
  name : String
  transferEnabled : Option Bool
  transferProtocol : Option String
  sendBarEnabled : Option Bool
  pluginId : Option String
  /-- Missing, `null`, or a time. -/
  connectedAt : Option (Option Int)

inductive SessionAction
  | sessionConnected (tab : TabInfo)
  | sessionDisconnected (id : TabId) (runtimeId : RuntimeId) (info : Option DisconnectInfo)
  | catalogLoaded (tabs : List TabInfo)
  | catalogFailed (error : String)
  | addTab (tab : TabInfo)
  | removeTab (id : TabId)
  | renameTab (id : TabId) (name : String)
  | reorderTabs (ids : List TabId)
  | setActive (id : Option TabId)
  | setConnectionTypes (types : List ConnectionTypeInfo)
  | setEndpoints (endpoints : List EndpointInfo)
  | replaceEndpointsForPlugin (pluginId : String) (endpoints : List EndpointInfo)
  | setError (error : Option String)
  | setTabState (id : TabId) (state : ConnectionStatus)
  | setTabDisconnected (id : TabId) (info : Option DisconnectInfo)
  | updateTabStats (id : TabId) (runtimeId : RuntimeId) (stats : SessionStats)
    (connectedAt : Option Int)
  | updateTabConfig (id : TabId) (config : TabConfig)
  | clearTabs
  | removeChild (id : TabId) (parentId : TabId)
  | removeAllChildren (parentId : TabId)

def initialSessionState : SessionState where
  catalogStatus := .loading
  tabs := []
  activeTabId := none
  connectionTypes := []
  endpoints := []
  error := none

/-- `!tab.parentId`. -/
def TabInfo.isRoot (tab : TabInfo) : Bool := tab.parentId.getD "" = ""

def SessionState.find (state : SessionState) (id : TabId) : Option TabInfo :=
  state.tabs.find? fun current => current.id = id

/-- The tabs that stay when `tab` connects: not its old self, and none of its children of another
runtime. -/
def staysOnConnect (tab current : TabInfo) : Bool :=
  current.id ≠ tab.id ∧ ¬ (current.parentId = some tab.id ∧ current.runtimeId ≠ tab.runtimeId)

def sessionConnected (state : SessionState) (tab : TabInfo) : SessionState :=
  match tab.runtimeId with
  | none => state
  | some runtimeId =>
    let existing := state.find tab.id
    let stale := (existing.bind TabInfo.runtimeId).any fun current =>
      compareRuntimeIds runtimeId current ≤ 0
    let parentConnected := (state.find (tab.parentId.getD "")).any fun parent =>
      parent.runtimeId = tab.runtimeId ∧ parent.state = .connected
    if stale then state
    else if !tab.isRoot && !parentConnected then state
    else
      let tabs := state.tabs.filter (staysOnConnect tab)
      let updated := { tab with
        name := (existing.map TabInfo.name).getD tab.name
        disconnectInfo := none }
      let index := match state.tabs.findIdx? fun current => current.id = tab.id with
        | none => tabs.length
        | some index => min index tabs.length
      let tabs := tabs.insertIdx index updated
      { state with
        tabs
        activeTabId :=
          if tab.isContainer = some true ∧ tabs.any fun current => current.parentId = some tab.id
          then state.activeTabId else some tab.id }

/-- A tab after the disconnection of session `id`. -/
def disconnectTab (id : TabId) (info : Option DisconnectInfo) (current : TabInfo) : TabInfo :=
  if current.id = id ∨ (current.parentId = some id ∧ current.state ≠ .disconnected) then
    { current with state := .disconnected, disconnectInfo := info }
  else current

def sessionDisconnected (state : SessionState) (id : TabId) (runtimeId : RuntimeId)
    (info : Option DisconnectInfo) : SessionState :=
  match state.find id with
  | none => state
  | some tab =>
    if tab.runtimeId ≠ some runtimeId then state
    else
      let retain := (info.map DisconnectInfo.retainTerminal).getD false
      let tabs := (state.tabs.filter fun current => retain ∨ current.parentId ≠ some id).map
        (disconnectTab id info)
      let activeRemoved := state.activeTabId.any fun active =>
        (state.tabs.any fun current => current.id = active ∧ current.parentId = some id) &&
          !tabs.any fun current => current.id = active
      { state with tabs, activeTabId := if activeRemoved then some id else state.activeTabId }

def catalogLoaded (state : SessionState) (loaded : List TabInfo) : SessionState :=
  -- `new Map(state.tabs.map(...))` keeps the last tab of an id
  let existing (id : TabId) := state.tabs.reverse.find? fun current => current.id = id
  let savedIds := loaded.map TabInfo.id
  let tabs := loaded.map (fun tab => (existing tab.id).getD tab) ++
    state.tabs.filter fun tab => ¬ savedIds.contains tab.id
  { state with
    tabs
    catalogStatus := .ready
    activeTabId := state.activeTabId <|> tabs.head?.map TabInfo.id }

/-- The first root of some tabs. -/
def firstRoot (tabs : List TabInfo) : Option TabId :=
  (tabs.find? TabInfo.isRoot).map TabInfo.id

def removeTab (state : SessionState) (id : TabId) : SessionState :=
  let childIds := (state.tabs.filter fun t => t.parentId = some id).map TabInfo.id
  let allRemoved := id :: childIds
  let remaining := state.tabs.filter fun t => ¬ allRemoved.contains t.id
  -- `if (nextActive && …)`: the empty string is not looked up
  let nextActive := match state.activeTabId with
    | some active =>
      if active ≠ "" ∧ allRemoved.contains active then firstRoot remaining else some active
    | none => none
  { state with tabs := remaining, activeTabId := nextActive }

/-- The parent is always named, so the search for another root after it is never made. -/
def removeChild (state : SessionState) (id parentId : TabId) : SessionState :=
  let remaining := state.tabs.filter fun t => t.id ≠ id
  let nextActive :=
    if state.activeTabId = some id then
      let siblings := remaining.filter fun t => t.parentId = some parentId
      some ((siblings.head?.map TabInfo.id).getD parentId)
    else state.activeTabId
  { state with tabs := remaining, activeTabId := nextActive }

def removeAllChildren (state : SessionState) (parentId : TabId) : SessionState :=
  let childIds := (state.tabs.filter fun t => t.parentId = some parentId).map TabInfo.id
  { state with
    tabs := state.tabs.filter fun t => t.parentId ≠ some parentId
    activeTabId := match state.activeTabId with
      | some active =>
        if active ≠ "" ∧ childIds.contains active then some parentId else some active
      | none => none }

/-- The tabs of an id, changed by `f`. -/
def SessionState.update (state : SessionState) (id : TabId) (f : TabInfo → TabInfo) :
    SessionState :=
  { state with tabs := state.tabs.map fun t => if t.id = id then f t else t }

def TabConfig.apply (config : TabConfig) (t : TabInfo) : TabInfo :=
  { t with
    name := config.name
    endpoint := config.endpoint
    params := some config.params
    transferEnabled := config.transferEnabled <|> t.transferEnabled
    transferProtocol := config.transferProtocol <|> t.transferProtocol
    sendBarEnabled := config.sendBarEnabled <|> t.sendBarEnabled
    pluginId := config.pluginId.getD t.pluginId
    connectedAt := config.connectedAt.getD t.connectedAt }

def updateStats (runtimeId : RuntimeId) (stats : SessionStats) (connectedAt : Option Int)
    (t : TabInfo) : TabInfo :=
  if t.runtimeId = some runtimeId ∧ t.state = .connected then
    { t with stats, connectedAt := connectedAt <|> t.connectedAt }
  else t

def sessionReducer (state : SessionState) : SessionAction → SessionState
  | .sessionConnected tab => sessionConnected state tab
  | .sessionDisconnected id runtimeId info => sessionDisconnected state id runtimeId info
  | .catalogLoaded tabs => catalogLoaded state tabs
  | .catalogFailed error => { state with catalogStatus := .error, error := some error }
  | .addTab tab =>
    { state with
      tabs := state.tabs ++ [tab]
      activeTabId :=
        if tab.isContainer = some true ∧ state.tabs.any fun t => t.parentId = some tab.id
        then state.activeTabId else some tab.id }
  | .removeTab id => removeTab state id
  | .renameTab id name => state.update id fun t => { t with name }
  | .reorderTabs ids => { state with tabs := ids.filterMap state.find }
  | .setActive id => { state with activeTabId := id }
  | .setConnectionTypes types => { state with connectionTypes := types }
  | .setEndpoints endpoints => { state with endpoints }
  | .replaceEndpointsForPlugin pluginId endpoints =>
    { state with
      endpoints := (state.endpoints.filter fun endpoint => endpoint.connectionType ≠ pluginId) ++
        endpoints }
  | .setError error => { state with error }
  | .setTabState id status => state.update id fun t => { t with state := status, disconnectInfo := none }
  | .setTabDisconnected id info =>
    state.update id fun t => { t with state := .disconnected, disconnectInfo := info }
  | .updateTabStats id runtimeId stats connectedAt =>
    state.update id (updateStats runtimeId stats connectedAt)
  | .updateTabConfig id config => state.update id config.apply
  | .clearTabs => { state with tabs := [], activeTabId := none }
  | .removeChild id parentId => removeChild state id parentId
  | .removeAllChildren parentId => removeAllChildren state parentId

end TauTerm.Tabs
