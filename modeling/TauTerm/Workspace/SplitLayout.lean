import Mathlib
import TauTerm.Lib.JsObject

/-!
# The split layout

The workspace is a tree of splits with panes at its leaves, a map from panes to the
sessions they show, and a selected pane. The operations are those of the layout
code; `Valid` is what they are meant to keep.
-/

namespace TauTerm.Workspace

open Lib

abbrev PaneId := String

abbrev SplitId := String

inductive SplitDirection
  | horizontal | vertical
deriving DecidableEq

inductive SplitEdge
  | left | right | top | bottom
deriving DecidableEq

def maxWorkspacePanes : Nat := 4

inductive LayoutNode
  | pane (id : PaneId)
  | split (id : SplitId) (direction : SplitDirection) (ratio : ℚ) (first second : LayoutNode)
deriving DecidableEq

/-- What each pane shows: a session, or nothing. -/
abbrev Assignments := JsObject (Option String)

structure SplitLayoutState where
  root : LayoutNode
  assignments : Assignments
  selectedPaneId : PaneId
deriving DecidableEq

def createInitialSplitLayout (paneId : PaneId) : SplitLayoutState where
  root := .pane paneId
  assignments := JsObject.empty.define paneId none
  selectedPaneId := paneId

def collectPaneIds : LayoutNode → List PaneId
  | .pane id => [id]
  | .split _ _ _ first second => collectPaneIds first ++ collectPaneIds second

def countPanes : LayoutNode → Nat
  | .pane _ => 1
  | .split _ _ _ first second => countPanes first + countPanes second

def findPaneForSession (assignments : Assignments) (sessionId : String) : Option PaneId :=
  (assignments.entries.find? fun entry => entry.2 = some sessionId).map Prod.fst

def activateSessionInLayout (state : SplitLayoutState) (sessionId : String) : SplitLayoutState :=
  -- `if (existingPane)`: an empty pane id counts as none
  match (findPaneForSession state.assignments sessionId).filter (· ≠ "") with
  | some existingPane =>
    if existingPane = state.selectedPaneId then state
    else { state with selectedPaneId := existingPane }
  | none =>
    if state.assignments.get state.selectedPaneId = .value (some sessionId) then state
    else { state with
      assignments := state.assignments.spread.define state.selectedPaneId (some sessionId) }

def selectPaneInLayout (state : SplitLayoutState) (paneId : PaneId) : SplitLayoutState :=
  if paneId = state.selectedPaneId then state
  else if (collectPaneIds state.root).contains paneId = false then state
  else { state with selectedPaneId := paneId }

def clearPaneInLayout (state : SplitLayoutState) (paneId : PaneId) : SplitLayoutState :=
  if state.assignments.hasOwn paneId = false then state
  else if state.assignments.get paneId = .value none then state
  else { state with assignments := state.assignments.spread.define paneId none }

def replacePane (paneId : PaneId) (replacement : LayoutNode) : LayoutNode → LayoutNode
  | .pane id => if id = paneId then replacement else .pane id
  | .split id direction ratio first second =>
    .split id direction ratio (replacePane paneId replacement first)
      (replacePane paneId replacement second)

/-- The split that takes the place of a pane. -/
def splitReplacement (paneId : PaneId) (edge : SplitEdge) (newPaneId : PaneId)
    (newSplitId : SplitId) : LayoutNode :=
  let oldPane := LayoutNode.pane paneId
  let newPane := LayoutNode.pane newPaneId
  let direction := if edge = .left ∨ edge = .right then .horizontal else .vertical
  let newFirst := if edge = .left ∨ edge = .top then newPane else oldPane
  let newSecond := if edge = .left ∨ edge = .top then oldPane else newPane
  .split newSplitId direction (1 / 2) newFirst newSecond

def splitPaneInLayout (state : SplitLayoutState) (paneId : PaneId) (edge : SplitEdge)
    (newPaneId : PaneId) (newSplitId : SplitId) : SplitLayoutState :=
  if countPanes state.root ≥ maxWorkspacePanes then state
  else if (collectPaneIds state.root).contains paneId = false then state
  else {
    root := replacePane paneId (splitReplacement paneId edge newPaneId newSplitId) state.root
    assignments := state.assignments.spread.define newPaneId none
    selectedPaneId := newPaneId }

structure RemovePaneNodeResult where
  node : Option LayoutNode
  removed : Bool
  fallbackPaneId : Option PaneId

def firstPaneId : LayoutNode → PaneId
  | .pane id => id
  | .split _ _ _ first _ => firstPaneId first

def removePaneNode (paneId : PaneId) : LayoutNode → RemovePaneNodeResult
  | .pane id =>
    if id = paneId then ⟨none, true, none⟩ else ⟨some (.pane id), false, none⟩
  | .split id direction ratio first second =>
    let firstResult := removePaneNode paneId first
    let secondResult := removePaneNode paneId second
    if firstResult.removed then
      match firstResult.node with
      | none => ⟨some second, true, some (firstPaneId second)⟩
      | some node => ⟨some (.split id direction ratio node second), true, firstResult.fallbackPaneId⟩
    else if secondResult.removed then
      match secondResult.node with
      | none => ⟨some first, true, some (firstPaneId first)⟩
      | some node => ⟨some (.split id direction ratio first node), true, secondResult.fallbackPaneId⟩
    else ⟨some (.split id direction ratio first second), false, none⟩

structure ClosePaneResult where
  state : SplitLayoutState
  selectedPaneId : PaneId
  selectedSessionId : Option String

def closePaneInLayout (state : SplitLayoutState) (paneId : PaneId) : Option ClosePaneResult :=
  if countPanes state.root ≤ 1 then none
  else
    let removed := removePaneNode paneId state.root
    match removed.removed, removed.node with
    | true, some node =>
      let assignments := state.assignments.spread.delete paneId
      let selectedPaneId :=
        if state.selectedPaneId = paneId then removed.fallbackPaneId.getD (firstPaneId node)
        else state.selectedPaneId
      some {
        state := { root := node, assignments, selectedPaneId }
        selectedPaneId
        selectedSessionId := (assignments.lookup selectedPaneId).join }
    | _, _ => none

/-- The first split of that id whose ratio differs is changed; the code compares references,
which differ exactly where a ratio was changed. -/
def updateSplitRatio (splitId : SplitId) (ratio : ℚ) : LayoutNode → LayoutNode
  | .pane id => .pane id
  | .split id direction oldRatio first second =>
    if id = splitId then .split id direction ratio first second
    else if updateSplitRatio splitId ratio first ≠ first then
      .split id direction oldRatio (updateSplitRatio splitId ratio first) second
    else .split id direction oldRatio first (updateSplitRatio splitId ratio second)

def minRatio : ℚ := 5 / 100

def maxRatio : ℚ := 95 / 100

def setSplitRatioInLayout (state : SplitLayoutState) (splitId : SplitId) (ratio : ℚ) :
    SplitLayoutState :=
  { state with root := updateSplitRatio splitId (max minRatio (min maxRatio ratio)) state.root }

/-- One pane of the loop of `pruneAssignments`. What the prototype has under a name is
truthy, and in no set of sessions. -/
def prunePane (validSessionIds : Finset String) (loop : Assignments × Bool) (paneId : PaneId) :
    Assignments × Bool :=
  match loop.1.get paneId with
  | .value (some sessionId) =>
    if sessionId ≠ "" ∧ sessionId ∉ validSessionIds then (loop.1.assign paneId none, true) else loop
  | .inherited => (loop.1.assign paneId none, true)
  | .value none | .undefined => loop

def pruneAssignments (state : SplitLayoutState) (validSessionIds : Finset String) :
    SplitLayoutState :=
  let loop := (collectPaneIds state.root).foldl (prunePane validSessionIds)
    (state.assignments.spread, false)
  if loop.2 then { state with assignments := loop.1 } else state

/-- The locals of `remapRemovedChildrenToDisconnectedRoots`. -/
structure Remap where
  assignments : Assignments
  occupiedStableIds : Finset String
  changed : Bool

/-- One pane of its loop; no map has an entry for what the prototype has under a name. -/
def remapPane (validSessionIds disconnectedRootIds : Finset String)
    (stableSessionIds : String → Option String) (loop : Remap) (paneId : PaneId) : Remap :=
  match loop.assignments.get paneId with
  | .value (some assigned) =>
    if assigned = "" ∨ assigned ∈ validSessionIds then loop
    else match stableSessionIds assigned with
      | some stableId =>
        if stableId ≠ "" ∧ stableId ≠ assigned ∧ stableId ∈ validSessionIds ∧
            stableId ∈ disconnectedRootIds ∧ stableId ∉ loop.occupiedStableIds then
          { assignments := loop.assignments.assign paneId (some stableId)
            occupiedStableIds := insert stableId loop.occupiedStableIds
            changed := true }
        else loop
      | none => loop
  | .value none | .inherited | .undefined => loop

def remapRemovedChildrenToDisconnectedRoots (state : SplitLayoutState)
    (validSessionIds disconnectedRootIds : Finset String)
    (stableSessionIds : String → Option String) : SplitLayoutState :=
  let assignments := state.assignments.spread
  let paneIds := collectPaneIds state.root
  let orderedPaneIds := state.selectedPaneId :: paneIds.filter (· ≠ state.selectedPaneId)
  let occupiedStableIds := ((assignments.own.filterMap Prod.snd).filter
    fun sessionId => sessionId ≠ "" ∧ sessionId ∈ validSessionIds).toFinset
  let loop := orderedPaneIds.foldl
    (remapPane validSessionIds disconnectedRootIds stableSessionIds)
    { assignments, occupiedStableIds, changed := false }
  if loop.changed then { state with assignments := loop.assignments } else state

/-! ## The invariant -/

def splitIds : LayoutNode → List SplitId
  | .pane _ => []
  | .split id _ _ first second => id :: (splitIds first ++ splitIds second)

def RatiosOk : LayoutNode → Prop
  | .pane _ => True
  | .split _ _ ratio first second =>
    (minRatio ≤ ratio ∧ ratio ≤ maxRatio) ∧ RatiosOk first ∧ RatiosOk second

/-- No session is shown twice. -/
def OnePaneEach (assignments : Assignments) : Prop :=
  ∀ p q sessionId, assignments.lookup p = some (some sessionId) →
    assignments.lookup q = some (some sessionId) → p = q

structure Valid (state : SplitLayoutState) : Prop where
  panes_nodup : (collectPaneIds state.root).Nodup
  splits_nodup : (splitIds state.root).Nodup
  panes_pos : 1 ≤ countPanes state.root
  panes_le : countPanes state.root ≤ maxWorkspacePanes
  keys_iff : ∀ paneId, paneId ∈ state.assignments.keys ↔ paneId ∈ collectPaneIds state.root
  selected_mem : state.selectedPaneId ∈ collectPaneIds state.root
  ratios : RatiosOk state.root
  one_pane : OnePaneEach state.assignments

end TauTerm.Workspace
