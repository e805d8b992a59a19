import Mathlib
import TauTerm.Workspace.LayoutSteps

/-!
# The persisted workspace layout

`parsePersistedWorkspaceLayout` checks a value read from JSON and builds a layout of
it; `serializeWorkspaceLayout` makes the value that is written. Several sessions may
have one stable id: only one of their panes keeps it.
-/

namespace TauTerm.Workspace

open Lib

def workspaceLayoutVersion : ℚ := 1

def maxWorkspaceTreeDepth : Nat := maxWorkspacePanes

/-- The two sets that `parseLayoutNode` fills, in the order of its insertions. -/
structure ParsedIds where
  paneIds : List PaneId
  splitIds : List SplitId

def parseDirection : Option JsonValue → Option SplitDirection
  | some (.string "horizontal") => some .horizontal
  | some (.string "vertical") => some .vertical
  | _ => none

/-- `levels` counts down where `depth` counts up: it is 0 where the depth exceeds the limit.
None of the names read here is one of `Object.prototype`. -/
def parseLayoutNode : (levels : Nat) → (value : Option JsonValue) → (ids : ParsedIds) →
    Option (LayoutNode × ParsedIds)
  | 0, _, _ => none
  | levels + 1, some (.object properties), ids =>
    match properties.lookup "type", properties.lookup "id" with
    | some (.string type), some (.string id) =>
      if id = "" then none
      else if type = "pane" then
        if ids.paneIds.contains id ∨ ids.paneIds.length ≥ maxWorkspacePanes then none
        else some (.pane id, { ids with paneIds := ids.paneIds ++ [id] })
      else if type ≠ "split" then none
      else if ids.splitIds.contains id then none
      else match parseDirection (properties.lookup "direction"), properties.lookup "ratio" with
        | some direction, some (.number (.finite ratio)) =>
          if ratio < minRatio ∨ ratio > maxRatio then none
          else do
            let (first, ids) ← parseLayoutNode levels (properties.lookup "first")
              { ids with splitIds := ids.splitIds ++ [id] }
            let (second, ids) ← parseLayoutNode levels (properties.lookup "second") ids
            some (.split id direction ratio first second, ids)
        | _, _ => none
    | _, _ => none
  | _ + 1, _, _ => none

/-- One pane of the loop over the assignments, with the sessions assigned so far. -/
def parseAssigned (properties : List (String × JsonValue)) (loop : Assignments × List String)
    (paneId : PaneId) : Option (Assignments × List String) :=
  match JsonValue.property properties paneId with
  | .value (.string assigned) =>
    if assigned = "" then some (loop.1.assign paneId none, loop.2)
    else if loop.2.contains assigned then none
    else some (loop.1.assign paneId (some assigned), loop.2 ++ [assigned])
  | .value .null | .undefined => some (loop.1.assign paneId none, loop.2)
  | .value _ | .inherited => none

/-- `parsed` is what `JSON.parse` makes of the text; there is none if there is no text, or if
it is not JSON. -/
def parsePersistedWorkspaceLayout (parsed : Option JsonValue) : Option SplitLayoutState := do
  let some (.object properties) := parsed | none
  let some (.number (.finite version)) := properties.lookup "version" | none
  guard (version = workspaceLayoutVersion)
  let (root, ids) ← parseLayoutNode (maxWorkspaceTreeDepth + 1) (properties.lookup "root") ⟨[], []⟩
  guard (1 ≤ ids.paneIds.length ∧ ids.paneIds.length ≤ maxWorkspacePanes ∧
    countPanes root = ids.paneIds.length)
  let some (.string selectedPaneId) := properties.lookup "selectedPaneId" | none
  guard (ids.paneIds.contains selectedPaneId)
  let some (.object assigned) := properties.lookup "assignments" | none
  let (assignments, _) ← (collectPaneIds root).foldlM (parseAssigned assigned) (JsObject.empty, [])
  some { root, assignments, selectedPaneId }

/-- The stable id of what a pane shows. A pane without an own entry, as `__proto__` may be, shows
what the prototype has there, and nothing of that is written. -/
def stableSessionId (state : SplitLayoutState) (stableSessionIds : String → Option String)
    (paneId : PaneId) : Option String :=
  match state.assignments.get paneId with
  | .value (some runtimeId) =>
    if runtimeId = "" then none else some ((stableSessionIds runtimeId).getD runtimeId)
  | .value none | .inherited | .undefined => none

/-- The locals of `serializeWorkspaceLayout` after the first pass. -/
structure Canonical where
  stableByPane : Assignments
  preferredPaneBySession : String → Option PaneId

def canonicalizePane (state : SplitLayoutState) (stableSessionIds : String → Option String)
    (pass : Canonical) (paneId : PaneId) : Canonical :=
  let stableId := stableSessionId state stableSessionIds paneId
  let stableByPane := pass.stableByPane.assign paneId stableId
  match stableId.filter (· ≠ "") with
  | none => { pass with stableByPane }
  | some stableId =>
    if pass.preferredPaneBySession stableId = none ∨ paneId = state.selectedPaneId then
      { stableByPane
        preferredPaneBySession :=
          Function.update pass.preferredPaneBySession stableId (some paneId) }
    else { pass with stableByPane }

/-- What the second pass writes for a pane. -/
def keptSession (pass : Canonical) (paneId : PaneId) : Option String :=
  match pass.stableByPane.get paneId with
  | .value (some stableId) =>
    if stableId ≠ "" ∧ pass.preferredPaneBySession stableId = some paneId then some stableId
    else none
  | .value none | .inherited | .undefined => none

def directionJson : SplitDirection → JsonValue
  | .horizontal => .string "horizontal"
  | .vertical => .string "vertical"

def layoutNodeJson : LayoutNode → JsonValue
  | .pane id => .object [("type", .string "pane"), ("id", .string id)]
  | .split id direction ratio first second =>
    .object [("type", .string "split"), ("id", .string id), ("direction", directionJson direction),
      ("ratio", .number (.finite ratio)), ("first", layoutNodeJson first),
      ("second", layoutNodeJson second)]

def assignmentsJson (assignments : Assignments) : JsonValue :=
  .object (assignments.own.map fun entry => (entry.1, entry.2.elim .null .string))

/-- The value whose text is written; `JSON.parse` reads that value back. -/
def serializeWorkspaceLayout (state : SplitLayoutState)
    (stableSessionIds : String → Option String) : JsonValue :=
  let paneIds := collectPaneIds state.root
  let pass := paneIds.foldl (canonicalizePane state stableSessionIds)
    { stableByPane := JsObject.empty, preferredPaneBySession := fun _ => none }
  let assignments := paneIds.foldl
    (fun assignments paneId => assignments.assign paneId (keptSession pass paneId)) JsObject.empty
  .object [("version", .number (.finite workspaceLayoutVersion)),
    ("root", layoutNodeJson state.root), ("assignments", assignmentsJson assignments),
    ("selectedPaneId", .string state.selectedPaneId)]

end TauTerm.Workspace
