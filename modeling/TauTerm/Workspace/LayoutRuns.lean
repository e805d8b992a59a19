import Mathlib
import TauTerm.Lib.Run
import TauTerm.Workspace.RoundTrip

/-!
# Runs of the split layout

From a first layout, or one that was read back, the operations come in any order. New
panes and splits get ids that the tree does not have yet.
-/

namespace TauTerm.Workspace

open Lib

inductive LayoutAction
  | activateSession (sessionId : String)
  | selectPane (paneId : PaneId)
  | clearPane (paneId : PaneId)
  | splitPane (paneId : PaneId) (edge : SplitEdge) (newPaneId : PaneId) (newSplitId : SplitId)
  | closePane (paneId : PaneId)
  | setSplitRatio (splitId : SplitId) (ratio : ℚ)
  | pruneAssignments (validSessionIds : Finset String)
  | remapRemovedChildren (validSessionIds disconnectedRootIds : Finset String)
    (stableSessionIds : String → Option String)

def applyLayout (state : SplitLayoutState) : LayoutAction → SplitLayoutState
  | .activateSession sessionId => activateSessionInLayout state sessionId
  | .selectPane paneId => selectPaneInLayout state paneId
  | .clearPane paneId => clearPaneInLayout state paneId
  | .splitPane paneId edge newPaneId newSplitId =>
    splitPaneInLayout state paneId edge newPaneId newSplitId
  | .closePane paneId => ((closePaneInLayout state paneId).map ClosePaneResult.state).getD state
  | .setSplitRatio splitId ratio => setSplitRatioInLayout state splitId ratio
  | .pruneAssignments validSessionIds => pruneAssignments state validSessionIds
  | .remapRemovedChildren validSessionIds disconnectedRootIds stableSessionIds =>
    remapRemovedChildrenToDisconnectedRoots state validSessionIds disconnectedRootIds
      stableSessionIds

/-- The ids of a new pane and its split are new. -/
def FreshIds (state : SplitLayoutState) : LayoutAction → Prop
  | .splitPane _ _ newPaneId newSplitId =>
    newPaneId ∉ collectPaneIds state.root ∧ newSplitId ∉ splitIds state.root
  | _ => True

/-- No session is activated that an unselected pane with an empty id shows. -/
def NamedActivation (state : SplitLayoutState) : LayoutAction → Prop
  | .activateSession sessionId => ShownUnderAName state sessionId
  | _ => True

/-- Where a run begins. -/
inductive LayoutStart
  | initial (paneId : PaneId)
  | restored (parsed : Option JsonValue)

def LayoutStart.state : LayoutStart → Option SplitLayoutState
  | .initial paneId => some (createInitialSplitLayout paneId)
  | .restored parsed => parsePersistedWorkspaceLayout parsed

/-- A layout that was read back has no pane called `__proto__`. -/
def LayoutStart.NoProto (state : SplitLayoutState) : LayoutStart → Prop
  | .initial _ => True
  | .restored _ => "__proto__" ∉ collectPaneIds state.root

variable {state : SplitLayoutState} {start : LayoutStart} {actions : List LayoutAction}

theorem applyLayout_valid_iff (action : LayoutAction) (h : Valid state)
    (hfresh : FreshIds state action) :
    Valid (applyLayout state action) ↔ NamedActivation state action := by
  cases action with
  | activateSession sessionId => exact activateSession_valid_iff h
  | selectPane paneId => exact iff_of_true (selectPane_valid h) trivial
  | clearPane paneId => exact iff_of_true (clearPane_valid h) trivial
  | splitPane paneId edge newPaneId newSplitId =>
    exact iff_of_true (splitPane_valid h hfresh.1 hfresh.2) trivial
  | closePane paneId =>
    refine iff_of_true ?_ trivial
    rw [applyLayout]
    cases hclose : closePaneInLayout state paneId with
    | none => exact h
    | some result => exact closePane_valid h hclose
  | setSplitRatio splitId ratio => exact iff_of_true (setSplitRatio_valid h) trivial
  | pruneAssignments validSessionIds => exact iff_of_true (pruneAssignments_valid h) trivial
  | remapRemovedChildren validSessionIds disconnectedRootIds stableSessionIds =>
    exact iff_of_true (remapRemovedChildren_valid h) trivial

theorem start_valid_iff (h : start.state = some state) : Valid state ↔ start.NoProto state := by
  cases start with
  | initial paneId =>
    obtain rfl := Option.some.inj h
    exact iff_of_true createInitialSplitLayout_valid trivial
  | restored parsed => exact accepted_valid_iff h

/-- A layout stays valid through a run exactly if it was read back, where it was, without a pane
called `__proto__`, and no activation meets its session in an unselected pane with an empty id. -/
theorem layout_always_valid_iff (hstart : start.state = some state)
    (hfresh : EachStep applyLayout FreshIds state actions) :
    Always applyLayout Valid state actions ↔
      start.NoProto state ∧ EachStep applyLayout NamedActivation state actions := by
  rw [always_iff_eachStep (fun s a => applyLayout_valid_iff a) hfresh, start_valid_iff hstart]

theorem layout_always_valid_split_close :
    Always applyLayout Valid (createInitialSplitLayout "pane-1")
      [.activateSession "s", .splitPane "pane-1" .right "pane-2" "split-1", .closePane "pane-1"] :=
  (@layout_always_valid_iff _ (.initial "pane-1")
      [.activateSession "s", .splitPane "pane-1" .right "pane-2" "split-1",
      .closePane "pane-1"] rfl
      ⟨trivial, ⟨by decide, by decide⟩, trivial, trivial⟩).mpr
      ⟨trivial, fun h => absurd h (by decide), trivial, trivial, trivial⟩

/-- A file with one pane, `__proto__`, is read back without an entry for it; and a session shown
by a pane with an empty id is shown again by the selected one. -/
theorem layout_breaks :
    (∃ state, (LayoutStart.restored (some (.object [("version", .number (.finite 1)),
        ("root", .object [("type", .string "pane"), ("id", .string "__proto__")]),
        ("assignments", .object [("__proto__", .null)]),
        ("selectedPaneId", .string "__proto__")]))).state = some state ∧ ¬ Valid state) ∧
    EachStep applyLayout FreshIds (createInitialSplitLayout "pane-1")
      [.splitPane "pane-1" .right "" "split-1", .activateSession "s", .selectPane "pane-1",
        .activateSession "s"] ∧
    ¬ Always applyLayout Valid (createInitialSplitLayout "pane-1")
      [.splitPane "pane-1" .right "" "split-1", .activateSession "s", .selectPane "pane-1",
        .activateSession "s"] := by
  refine ⟨⟨⟨.pane "__proto__", ⟨[], List.nodup_nil, false⟩, "__proto__"⟩, by decide,
    fun h => ?_⟩, ⟨⟨by decide, by decide⟩, trivial, trivial, trivial, trivial⟩,
    fun h => ?_⟩
  · exact absurd ((h.keys_iff "__proto__").mpr (by decide)) (by decide)
  · obtain ⟨-, -, -, -, hlast⟩ := h
    exact absurd (hlast.one_pane "pane-1" "" "s" (by decide) (by decide))
      (by decide)

end TauTerm.Workspace
