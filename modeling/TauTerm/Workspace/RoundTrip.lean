import Mathlib
import TauTerm.Workspace.Persistence

/-!
# Reading back what was written

What the parser accepts is a valid layout, and what the serializer writes is
accepted, with one exception in both directions: a pane called `__proto__`, which
`assignments[paneId] = …` gives no entry.
-/

namespace TauTerm.Workspace

open Lib

variable {node root : LayoutNode} {ids ids' : ParsedIds} {levels : Nat} {value : Option JsonValue}

/-! ## The tree -/

def NodeNamed : LayoutNode → Prop
  | .pane id => id ≠ ""
  | .split id _ _ first second => id ≠ "" ∧ NodeNamed first ∧ NodeNamed second

/-- What the parser says of a node it accepts. -/
structure ParsedNode (ids : ParsedIds) (node : LayoutNode) (ids' : ParsedIds) : Prop where
  panes_eq : ids'.paneIds = ids.paneIds ++ collectPaneIds node
  splits_eq : ids'.splitIds = ids.splitIds ++ splitIds node
  panes_nodup : ids.paneIds.Nodup → ids'.paneIds.Nodup
  splits_nodup : ids.splitIds.Nodup → ids'.splitIds.Nodup
  ratios : RatiosOk node
  named : NodeNamed node

theorem parseLayoutNode_parsed (h : parseLayoutNode levels value ids = some (node, ids')) :
    ParsedNode ids node ids' := by
  induction levels generalizing value ids node ids' with
  | zero => simp [parseLayoutNode] at h
  | succ levels ih =>
    rcases value with _ | value
    · simp [parseLayoutNode] at h
    cases value with
    | null | bool | number | string | array => simp [parseLayoutNode] at h
    | object properties =>
      simp only [parseLayoutNode] at h
      split at h
      · rename_i type id htype hid
        split_ifs at h with hempty hpane hcond hsplit hseen
        · -- a pane
          obtain ⟨rfl, rfl⟩ := Prod.mk.inj (Option.some.inj h)
          rw [not_or, List.contains_iff_mem] at hcond
          exact {
            panes_eq := rfl
            splits_eq := (List.append_nil _).symm
            panes_nodup := fun hnodup =>
              hnodup.append (List.nodup_singleton _) (List.disjoint_singleton.mpr hcond.1)
            splits_nodup := fun hnodup => hnodup
            ratios := trivial
            named := hempty }
        · -- a split
          split at h
          · rename_i direction ratio hdirection hratio
            split_ifs at h with hrange
            simp only [bind, Option.bind_eq_some_iff, Prod.exists, Option.some.injEq,
              Prod.mk.injEq] at h
            obtain ⟨first, ids₁, hfirst, second, ids₂, hsecond, rfl, rfl⟩ := h
            have h₁ := ih hfirst
            have h₂ := ih hsecond
            rw [List.contains_iff_mem] at hseen
            rw [not_or, not_lt, not_lt] at hrange
            exact {
              panes_eq := by
                rw [h₂.panes_eq, h₁.panes_eq, collectPaneIds, List.append_assoc]
              splits_eq := by
                rw [h₂.splits_eq, h₁.splits_eq, splitIds]
                simp
              panes_nodup := fun hnodup => h₂.panes_nodup (h₁.panes_nodup hnodup)
              splits_nodup := fun hnodup => h₂.splits_nodup <| h₁.splits_nodup <|
                hnodup.append (List.nodup_singleton _) (List.disjoint_singleton.mpr hseen)
              ratios := ⟨hrange, h₁.ratios, h₂.ratios⟩
              named := ⟨hempty, h₁.named, h₂.named⟩ }
          · contradiction
      · contradiction

theorem parseDirection_directionJson (direction : SplitDirection) :
    parseDirection (some (directionJson direction)) = some direction := by
  cases direction <;> rfl

theorem parseLayoutNode_layoutNodeJson (hlevels : countPanes node ≤ levels)
    (hpanes : (ids.paneIds ++ collectPaneIds node).Nodup)
    (hsplits : (ids.splitIds ++ splitIds node).Nodup)
    (hcount : ids.paneIds.length + countPanes node ≤ maxWorkspacePanes)
    (hratios : RatiosOk node) (hnamed : NodeNamed node) :
    parseLayoutNode levels (some (layoutNodeJson node)) ids =
      some (node, ⟨ids.paneIds ++ collectPaneIds node, ids.splitIds ++ splitIds node⟩) := by
  induction node generalizing levels ids with
  | pane id =>
    rw [countPanes] at hlevels hcount
    obtain ⟨levels, rfl⟩ := Nat.exists_eq_add_of_le' hlevels
    have hnew : id ∉ ids.paneIds := fun hmem =>
      List.disjoint_of_nodup_append hpanes hmem (List.mem_singleton_self id)
    have hroom : ¬ ids.paneIds.length ≥ maxWorkspacePanes := by omega
    have hname : id ≠ "" := hnamed
    simp [layoutNodeJson, parseLayoutNode, List.lookup, collectPaneIds, splitIds, hname, hnew, hroom]
  | split id direction ratio first second ih₁ ih₂ =>
    have hpos₁ := countPanes_pos first
    have hpos₂ := countPanes_pos second
    rw [countPanes] at hlevels hcount
    obtain ⟨levels, rfl⟩ := Nat.exists_eq_add_of_le' (show 1 ≤ levels by omega)
    obtain ⟨hrange, hratios₁, hratios₂⟩ := hratios
    obtain ⟨hname, hnamed₁, hnamed₂⟩ := hnamed
    rw [collectPaneIds, ← List.append_assoc] at hpanes
    have hsplits' : ((ids.splitIds ++ [id]) ++ splitIds first ++ splitIds second).Nodup := by
      simpa [splitIds] using hsplits
    have hnew : id ∉ ids.splitIds := fun hmem => List.disjoint_of_nodup_append
      hsplits'.of_append_left.of_append_left hmem (List.mem_singleton_self id)
    have hfirst := @ih₁ { ids with splitIds := ids.splitIds ++ [id] } levels (by omega)
        hpanes.of_append_left hsplits'.of_append_left (by dsimp only; omega) hratios₁ hnamed₁
    have hsecond := @ih₂ ⟨ids.paneIds ++ collectPaneIds first,
        ids.splitIds ++ [id] ++ splitIds first⟩ levels (by omega) hpanes hsplits'
        (by rw [List.length_append, ← countPanes_eq_length]; omega) hratios₂ hnamed₂
    simp only [List.append_assoc, List.singleton_append] at hsecond
    have hinRange : ¬ (ratio < minRatio ∨ ratio > maxRatio) := by
      rw [not_or, not_lt, not_lt]
      exact hrange
    simp [layoutNodeJson, parseLayoutNode, List.lookup, parseDirection_directionJson, hname, hnew,
      hinRange, hfirst, hsecond, collectPaneIds, splitIds]

/-! ## The assignments read -/

variable {properties : List (String × JsonValue)} {paneId : PaneId} {panes : List PaneId}
  {assignments : Assignments} {seen : List String}

/-- The session a property stands for, if it may stand in the assignments at all. -/
def readSession : JsRead JsonValue → Option (Option String)
  | .value (.string assigned) => some (if assigned = "" then none else some assigned)
  | .value .null | .undefined => some none
  | .value _ | .inherited => none

def parsedSession (properties : List (String × JsonValue)) (paneId : PaneId) : Option String :=
  (readSession (JsonValue.property properties paneId)).join

theorem parsedSession_ne_empty {sessionId : String}
    (h : parsedSession properties paneId = some sessionId) : sessionId ≠ "" := by
  rintro rfl
  cases hread : JsonValue.property properties paneId with
  | value v =>
    cases v with
    | string assigned =>
      by_cases hempty : assigned = "" <;> simp [parsedSession, hread, readSession, hempty] at h
    | null | bool | number | array | object => simp [parsedSession, hread, readSession] at h
  | inherited | undefined => simp [parsedSession, hread, readSession] at h

theorem parseAssigned_eq (loop : Assignments × List String) :
    parseAssigned properties loop paneId =
      if (readSession (JsonValue.property properties paneId)).isSome ∧
          ∀ sessionId, parsedSession properties paneId = some sessionId → sessionId ∉ loop.2 then
        some (loop.1.assign paneId (parsedSession properties paneId),
          loop.2 ++ (parsedSession properties paneId).toList)
      else none := by
  cases hread : JsonValue.property properties paneId with
  | value v =>
    cases v with
    | string assigned =>
      by_cases hempty : assigned = ""
      · simp [parsedSession, parseAssigned, hread, readSession, hempty]
      · by_cases hseen : assigned ∈ loop.2 <;>
          simp [parsedSession, parseAssigned, hread, readSession, hempty, hseen]
    | null | bool | number | array | object =>
      simp [parsedSession, parseAssigned, hread, readSession]
  | inherited | undefined => simp [parsedSession, parseAssigned, hread, readSession]

/-- The loop goes through exactly if every pane reads, and no session is read twice. -/
theorem foldlM_parseAssigned (hseen : seen.Nodup) :
    panes.foldlM (parseAssigned properties) (assignments, seen) =
      if (∀ p ∈ panes, (readSession (JsonValue.property properties p)).isSome) ∧
          (seen ++ panes.filterMap (parsedSession properties)).Nodup then
        some (panes.foldl (fun o p => o.assign p (parsedSession properties p)) assignments,
          seen ++ panes.filterMap (parsedSession properties))
      else none := by
  induction panes generalizing assignments seen with
  | nil => simp [hseen]
  | cons p panes ih =>
    have hcons : (p :: panes).filterMap (parsedSession properties) =
        (parsedSession properties p).toList ++ panes.filterMap (parsedSession properties) := by
      cases h : parsedSession properties p <;> simp [h]
    rw [List.foldlM_cons, parseAssigned_eq, hcons, ← List.append_assoc, List.foldl_cons]
    split_ifs with hfirst hall hall
    · have hseen' := hall.2.of_append_left
      rw [Option.bind_eq_bind, Option.bind_some, ih hseen', if_pos]
      exact ⟨fun q hq => hall.1 q (List.mem_cons_of_mem p hq), hall.2⟩
    · have hseen' : (seen ++ (parsedSession properties p).toList).Nodup := by
        cases h : parsedSession properties p with
        | none => simpa using hseen
        | some sessionId =>
          exact hseen.append (List.nodup_singleton _)
            (List.disjoint_singleton.mpr (hfirst.2 sessionId h))
      rw [Option.bind_eq_bind, Option.bind_some, ih hseen', if_neg]
      refine fun h => hall ⟨fun q hq => ?_, h.2⟩
      rcases List.mem_cons.mp hq with rfl | hq
      · exact hfirst.1
      · exact h.1 q hq
    · refine absurd ⟨hall.1 p (List.mem_cons_self ..), fun sessionId hsession hmem => ?_⟩ hfirst
      have hdisjoint := List.disjoint_of_nodup_append hall.2.of_append_left
      exact hdisjoint hmem (by rw [hsession]; exact List.mem_singleton_self _)
    · rfl

/-! ## What is accepted -/

variable {state restored : SplitLayoutState} {parsed : Option JsonValue}

/-- The ids that the invariant of a persisted layout wants to be non-empty. -/
structure NonEmptyIds (state : SplitLayoutState) : Prop where
  nodes : NodeNamed state.root
  sessions : ∀ paneId sessionId, state.assignments.lookup paneId = some (some sessionId) →
    sessionId ≠ ""

theorem parse_some (h : parsePersistedWorkspaceLayout parsed = some state) :
    ∃ ids assigned, ParsedNode ⟨[], []⟩ state.root ids ∧ countPanes state.root ≤ maxWorkspacePanes ∧
      state.selectedPaneId ∈ collectPaneIds state.root ∧
      (∀ p ∈ collectPaneIds state.root, (readSession (JsonValue.property assigned p)).isSome) ∧
      ((collectPaneIds state.root).filterMap (parsedSession assigned)).Nodup ∧
      state.assignments =
        JsObject.assignAll (parsedSession assigned) (collectPaneIds state.root) := by
  unfold parsePersistedWorkspaceLayout at h
  split at h
  · split at h
    · simp only [bind, Option.bind_eq_some_iff, Option.guard_eq_some', Prod.exists] at h
      obtain ⟨-, -, root, ids, hroot, -, ⟨-, hmax, hcount⟩, h⟩ := h
      have hnode := parseLayoutNode_parsed hroot
      have hids : ids.paneIds = collectPaneIds root := by simpa using hnode.panes_eq
      split at h
      · simp only [Option.bind_eq_some_iff, Option.guard_eq_some', List.contains_iff_mem] at h
        obtain ⟨-, hselected, h⟩ := h
        split at h
        · rename_i assigned hassigned
          simp only [foldlM_parseAssigned List.nodup_nil, List.nil_append] at h
          split_ifs at h with hreads
          · obtain rfl := Option.some.inj h
            refine ⟨ids, assigned, hnode, ?_, hids ▸ hselected, hreads.1, hreads.2, rfl⟩
            rw [hcount]
            exact hmax
          · contradiction
        · contradiction
      · contradiction
    · contradiction
  · contradiction

theorem OnePaneEach.assignAll {f : PaneId → Option String} {panes : List PaneId}
    (hpanes : panes.Nodup) (hsessions : (panes.filterMap f).Nodup) :
    OnePaneEach (JsObject.assignAll f panes) := by
  intro p q sessionId hp hq
  rw [JsObject.lookup_assignAll f hpanes, Option.ite_none_right_eq_some, Option.some.injEq] at hp hq
  obtain ⟨⟨hp, -⟩, hfp⟩ := hp
  obtain ⟨⟨hq, -⟩, hfq⟩ := hq
  by_contra hne
  rw [List.Nodup, List.pairwise_filterMap] at hsessions
  have hsymm : Std.Symm fun p q : PaneId => ∀ a, f p = some a → ∀ b, f q = some b → a ≠ b :=
    ⟨fun _ _ h a ha b hb => (h b hb a ha).symm⟩
  exact hsessions.forall hp hq hne sessionId hfp sessionId hfq rfl

theorem accepted_named (h : parsePersistedWorkspaceLayout parsed = some state) :
    NonEmptyIds state := by
  obtain ⟨ids, assigned, hnode, -, -, -, -, hassignments⟩ := parse_some h
  have hids := hnode.panes_eq
  rw [List.nil_append] at hids
  have hpanes : (collectPaneIds state.root).Nodup := hids ▸ hnode.panes_nodup List.nodup_nil
  refine ⟨hnode.named, fun p sessionId hp => ?_⟩
  rw [hassignments, JsObject.lookup_assignAll _ hpanes, Option.ite_none_right_eq_some,
    Option.some.injEq] at hp
  exact parsedSession_ne_empty hp.2

/-- The parser accepts nothing but valid layouts, as long as no pane is called `__proto__`. -/
theorem accepted_valid_iff (h : parsePersistedWorkspaceLayout parsed = some state) :
    Valid state ↔ "__proto__" ∉ collectPaneIds state.root := by
  obtain ⟨ids, assigned, hnode, hmax, hselected, -, hsessions, hassignments⟩ := parse_some h
  have hids := hnode.panes_eq
  have hsplitIds := hnode.splits_eq
  rw [List.nil_append] at hids hsplitIds
  have hpanes : (collectPaneIds state.root).Nodup := hids ▸ hnode.panes_nodup List.nodup_nil
  have hkeys : ∀ p, p ∈ state.assignments.keys ↔
      p ∈ collectPaneIds state.root ∧ p ≠ "__proto__" := fun p => by
    rw [hassignments, JsObject.mem_keys_assignAll _ hpanes]
  constructor
  · intro hvalid hproto
    exact ((hkeys "__proto__").mp ((hvalid.keys_iff _).mpr hproto)).2 rfl
  · intro hproto
    exact {
      panes_nodup := hpanes
      splits_nodup := hsplitIds ▸ hnode.splits_nodup List.nodup_nil
      panes_pos := countPanes_pos _
      panes_le := hmax
      keys_iff := fun p => (hkeys p).trans (and_iff_left_of_imp fun hp heq => hproto (heq ▸ hp))
      selected_mem := hselected
      ratios := hnode.ratios
      one_pane := by
        rw [hassignments]
        exact .assignAll hpanes hsessions }

/-! ## What is written -/

variable {stableSessionIds : String → Option String}

/-- The pane that keeps a stable id: the selected one if it shows it, else the first that does. -/
def keeper (state : SplitLayoutState) (stableSessionIds : String → Option String)
    (stableId : String) : Option PaneId :=
  if stableSessionId state stableSessionIds state.selectedPaneId = some stableId then
    some state.selectedPaneId
  else (collectPaneIds state.root).find? fun paneId =>
    stableSessionId state stableSessionIds paneId = some stableId

theorem stableSessionId_ne_empty
    (hmap : ∀ runtimeId stableId, stableSessionIds runtimeId = some stableId → stableId ≠ "")
    {stableId : String} (h : stableSessionId state stableSessionIds paneId = some stableId) :
    stableId ≠ "" := by
  unfold stableSessionId at h
  split at h
  · rename_i runtimeId _
    split_ifs at h with hempty
    obtain rfl := Option.some.inj h
    cases hstable : stableSessionIds runtimeId with
    | none => exact hempty
    | some stableId => exact hmap runtimeId stableId hstable
  · contradiction
  · contradiction
  · contradiction

/-- The first pass over some of the panes. -/
def canonicalize (state : SplitLayoutState) (stableSessionIds : String → Option String)
    (panes : List PaneId) : Canonical :=
  panes.foldl (canonicalizePane state stableSessionIds)
    { stableByPane := JsObject.empty, preferredPaneBySession := fun _ => none }

theorem canonicalize_concat (panes : List PaneId) (paneId : PaneId) :
    canonicalize state stableSessionIds (panes ++ [paneId]) =
      canonicalizePane state stableSessionIds (canonicalize state stableSessionIds panes) paneId := by
  rw [canonicalize, List.foldl_append]
  rfl

theorem canonicalizePane_stableByPane (pass : Canonical) (paneId : PaneId) :
    (canonicalizePane state stableSessionIds pass paneId).stableByPane =
      pass.stableByPane.assign paneId (stableSessionId state stableSessionIds paneId) := by
  simp only [canonicalizePane]
  split
  · rfl
  · split_ifs <;> rfl

theorem canonicalize_stableByPane (panes : List PaneId) :
    (canonicalize state stableSessionIds panes).stableByPane =
      JsObject.assignAll (stableSessionId state stableSessionIds) panes := by
  induction panes using List.reverseRecOn with
  | nil => rfl
  | append_singleton panes paneId ih =>
    rw [canonicalize_concat, canonicalizePane_stableByPane, ih, JsObject.assignAll_concat]

/-- After some panes the preferred pane is the selected one, if it was among them and shows the
session, else the first of them that shows it. -/
theorem canonicalize_preferred
    (hmap : ∀ runtimeId stableId, stableSessionIds runtimeId = some stableId → stableId ≠ "")
    (panes : List PaneId) (stableId : String) :
    (canonicalize state stableSessionIds panes).preferredPaneBySession stableId =
      if state.selectedPaneId ∈ panes ∧
          stableSessionId state stableSessionIds state.selectedPaneId = some stableId then
        some state.selectedPaneId
      else panes.find? fun paneId =>
        stableSessionId state stableSessionIds paneId = some stableId := by
  induction panes using List.reverseRecOn with
  | nil => simp [canonicalize]
  | append_singleton panes paneId ih =>
    rw [canonicalize_concat, List.find?_append]
    by_cases hshown : stableSessionId state stableSessionIds paneId = some stableId
    · have hne := stableSessionId_ne_empty hmap hshown
      have hfind : [paneId].find? (fun p =>
          stableSessionId state stableSessionIds p = some stableId) = some paneId := by
        simp [hshown]
      simp only [canonicalizePane, hshown, List.mem_append, List.mem_singleton, hfind,
        Option.filter_some, decide_eq_true hne, if_true]
      by_cases hsel : paneId = state.selectedPaneId
      · subst hsel
        simp [hshown]
      · simp only [hsel, Ne.symm hsel, or_false]
        by_cases hbefore : state.selectedPaneId ∈ panes ∧
            stableSessionId state stableSessionIds state.selectedPaneId = some stableId
        · rw [if_pos hbefore] at ih ⊢
          simp [ih]
        · rw [if_neg hbefore] at ih ⊢
          cases hfirst : panes.find? fun p =>
              stableSessionId state stableSessionIds p = some stableId with
          | none => simp [ih, hfirst]
          | some q => simp [ih, hfirst]
    · -- the preferred pane of this stable id stays
      have hstays : (canonicalizePane state stableSessionIds
          (canonicalize state stableSessionIds panes) paneId).preferredPaneBySession stableId =
            (canonicalize state stableSessionIds panes).preferredPaneBySession stableId := by
        simp only [canonicalizePane]
        split
        · rfl
        · rename_i shown hsome
          have hne : stableId ≠ shown := by
            rintro rfl
            exact hshown (Option.filter_eq_some_iff.mp hsome).1
          split_ifs
          · exact Function.update_of_ne hne _ _
          · rfl
      have hfind : [paneId].find? (fun p =>
          stableSessionId state stableSessionIds p = some stableId) = none := by
        simp [hshown]
      rw [hstays, ih, hfind, Option.or_none]
      refine if_congr ?_ rfl rfl
      refine and_congr_left fun hselected => ?_
      rw [List.mem_append, List.mem_singleton, or_iff_left]
      rintro rfl
      exact hshown hselected

/-- The properties of the assignments that are written. -/
def writtenAssignments (state : SplitLayoutState) (stableSessionIds : String → Option String) :
    List (String × JsonValue) :=
  (JsObject.assignAll (keptSession (canonicalize state stableSessionIds
    (collectPaneIds state.root))) (collectPaneIds state.root)).own.map
      fun entry => (entry.1, entry.2.elim .null .string)

/-- Reading the text back comes down to the assignments. -/
theorem parse_serialize (hvalid : Valid state) (hnamed : NodeNamed state.root) :
    parsePersistedWorkspaceLayout (some (serializeWorkspaceLayout state stableSessionIds)) =
      if (∀ p ∈ collectPaneIds state.root, (readSession (JsonValue.property
            (writtenAssignments state stableSessionIds) p)).isSome) ∧
          ((collectPaneIds state.root).filterMap
            (parsedSession (writtenAssignments state stableSessionIds))).Nodup then
        some { state with
          assignments := JsObject.assignAll
            (parsedSession (writtenAssignments state stableSessionIds)) (collectPaneIds state.root) }
      else none := by
  have hmax := hvalid.panes_le
  have hpos := hvalid.panes_pos
  have hroot := @parseLayoutNode_layoutNodeJson state.root ⟨[], []⟩ (maxWorkspaceTreeDepth + 1)
      (hmax.trans (Nat.le_succ _)) hvalid.panes_nodup hvalid.splits_nodup (by simpa using hmax)
      hvalid.ratios hnamed
  have hcount := countPanes_eq_length state.root
  have hguard : 1 ≤ (collectPaneIds state.root).length ∧
      (collectPaneIds state.root).length ≤ maxWorkspacePanes ∧
        countPanes state.root = (collectPaneIds state.root).length := by
    rw [← hcount]
    exact ⟨hpos, hmax, rfl⟩
  have hselected : (collectPaneIds state.root).contains state.selectedPaneId = true := by
    simpa using hvalid.selected_mem
  have hloop := @foldlM_parseAssigned (writtenAssignments state stableSessionIds)
      (collectPaneIds state.root) JsObject.empty _ List.nodup_nil
  simp only [List.nil_append] at hroot hloop
  have hserialized : serializeWorkspaceLayout state stableSessionIds =
      .object [("version", .number (.finite workspaceLayoutVersion)),
        ("root", layoutNodeJson state.root),
        ("assignments", .object (writtenAssignments state stableSessionIds)),
        ("selectedPaneId", .string state.selectedPaneId)] := rfl
  simp only [hserialized, parsePersistedWorkspaceLayout, List.lookup, String.reduceBEq, hroot,
    hguard, hselected, hloop, guard, and_self, if_true, bind, Option.bind]
  split_ifs <;> rfl

section Written

variable (hvalid : Valid state)
include hvalid

theorem lookup_written (p : PaneId) :
    (writtenAssignments state stableSessionIds).lookup p =
      if p ∈ collectPaneIds state.root ∧ p ≠ "__proto__" then
        some ((keptSession (canonicalize state stableSessionIds (collectPaneIds state.root)) p).elim
          .null .string)
      else none := by
  rw [writtenAssignments,
    JsObject.lookup_map_snd (f := fun v : Option String => v.elim JsonValue.null .string)]
  change ((JsObject.assignAll _ _).lookup p).map _ = _
  rw [JsObject.lookup_assignAll _ hvalid.panes_nodup]
  split_ifs <;> rfl

/-- What is kept for a pane: its stable id, if it is the keeper of that id. -/
theorem keptSession_eq
    (hmap : ∀ runtimeId stableId, stableSessionIds runtimeId = some stableId → stableId ≠ "")
    {p : PaneId} (hp : p ∈ collectPaneIds state.root) (hproto : p ≠ "__proto__") :
    keptSession (canonicalize state stableSessionIds (collectPaneIds state.root)) p =
      (stableSessionId state stableSessionIds p).filter fun stableId =>
        keeper state stableSessionIds stableId = some p := by
  have hlookup : (canonicalize state stableSessionIds
      (collectPaneIds state.root)).stableByPane.lookup p =
        some (stableSessionId state stableSessionIds p) := by
    rw [canonicalize_stableByPane, JsObject.lookup_assignAll _ hvalid.panes_nodup,
      if_pos ⟨hp, hproto⟩]
  rw [keptSession, JsObject.get_of_lookup _ hlookup]
  cases hshown : stableSessionId state stableSessionIds p with
  | none => rfl
  | some stableId =>
    have hne := stableSessionId_ne_empty hmap hshown
    have hkeeper : (canonicalize state stableSessionIds
        (collectPaneIds state.root)).preferredPaneBySession stableId =
          keeper state stableSessionIds stableId := by
      rw [canonicalize_preferred hmap, keeper]
      simp only [hvalid.selected_mem, true_and]
    simp only [hne, hkeeper, ne_eq, not_false_eq_true, true_and, Option.filter_some,
      decide_eq_true_eq]

theorem readSession_written
    (hmap : ∀ runtimeId stableId, stableSessionIds runtimeId = some stableId → stableId ≠ "")
    {p : PaneId} (hp : p ∈ collectPaneIds state.root) (hproto : p ≠ "__proto__") :
    readSession (JsonValue.property (writtenAssignments state stableSessionIds) p) =
      some ((stableSessionId state stableSessionIds p).filter fun stableId =>
        keeper state stableSessionIds stableId = some p) := by
  rw [JsonValue.property, lookup_written hvalid, if_pos ⟨hp, hproto⟩,
    keptSession_eq hvalid hmap hp hproto]
  cases hkept : (stableSessionId state stableSessionIds p).filter fun stableId =>
      keeper state stableSessionIds stableId = some p with
  | none => rfl
  | some stableId =>
    have hshown := (Option.filter_eq_some_iff.mp hkept).1
    simp [readSession, stableSessionId_ne_empty hmap hshown]

/-- A pane called `__proto__` has no entry, and what is read in its place is an object. -/
theorem readSession_written_proto :
    readSession (JsonValue.property (writtenAssignments state stableSessionIds) "__proto__") =
      none := by
  rw [JsonValue.property, lookup_written hvalid, if_neg fun h => h.2 rfl]
  rfl

end Written

/-- What the restored layout has in common with the one that was written. -/
structure Restores (state : SplitLayoutState) (stableSessionIds : String → Option String)
    (restored : SplitLayoutState) : Prop where
  root : restored.root = state.root
  selected : restored.selectedPaneId = state.selectedPaneId
  /-- Each pane shows the stable id of its session, or nothing. -/
  shown : ∀ p ∈ collectPaneIds state.root,
    restored.assignments.lookup p = some (stableSessionId state stableSessionIds p) ∨
      restored.assignments.lookup p = some none
  /-- Of the panes that showed a stable id, the keeper still does. -/
  kept : ∀ p ∈ collectPaneIds state.root, ∀ stableId,
    stableSessionId state stableSessionIds p = some stableId →
      (restored.assignments.lookup p = some (some stableId) ↔
        keeper state stableSessionIds stableId = some p)
  kept_once : ∀ p ∈ collectPaneIds state.root, ∀ stableId,
    stableSessionId state stableSessionIds p = some stableId →
      ∃! q, restored.assignments.lookup q = some (some stableId)

def RoundTrips (state : SplitLayoutState) (stableSessionIds : String → Option String) : Prop :=
  ∃ restored,
    parsePersistedWorkspaceLayout (some (serializeWorkspaceLayout state stableSessionIds)) =
      some restored ∧ Restores state stableSessionIds restored

theorem keeper_mem (hvalid : Valid state) {stableId : String} {p : PaneId}
    (h : keeper state stableSessionIds stableId = some p) :
    p ∈ collectPaneIds state.root ∧ stableSessionId state stableSessionIds p = some stableId := by
  unfold keeper at h
  split_ifs at h with hselected
  · obtain rfl := Option.some.inj h
    exact ⟨hvalid.selected_mem, hselected⟩
  · exact ⟨List.mem_of_find?_eq_some h, by simpa using List.find?_some h⟩

theorem exists_keeper {stableId : String} {p : PaneId} (hp : p ∈ collectPaneIds state.root)
    (hshown : stableSessionId state stableSessionIds p = some stableId) :
    ∃ q, keeper state stableSessionIds stableId = some q := by
  unfold keeper
  split_ifs
  · exact ⟨_, rfl⟩
  · rw [← Option.isSome_iff_exists, List.find?_isSome]
    exact ⟨p, hp, by simpa using hshown⟩

theorem roundTrips_of_no_proto (hvalid : Valid state) (hnamed : NonEmptyIds state)
    (hmap : ∀ runtimeId stableId, stableSessionIds runtimeId = some stableId → stableId ≠ "")
    (hproto : "__proto__" ∉ collectPaneIds state.root) : RoundTrips state stableSessionIds := by
  have hne : ∀ p ∈ collectPaneIds state.root, p ≠ "__proto__" := fun p hp heq => hproto (heq ▸ hp)
  have hread : ∀ p ∈ collectPaneIds state.root, parsedSession
      (writtenAssignments state stableSessionIds) p =
        (stableSessionId state stableSessionIds p).filter fun stableId =>
          keeper state stableSessionIds stableId = some p := fun p hp => by
    rw [parsedSession, readSession_written hvalid hmap hp (hne p hp)]
    rfl
  have hnodup : ((collectPaneIds state.root).filterMap
      (parsedSession (writtenAssignments state stableSessionIds))).Nodup := by
    rw [List.filterMap_congr hread]
    refine hvalid.panes_nodup.filterMap fun p q stableId hp hq => ?_
    have hkp := of_decide_eq_true (Option.filter_eq_some_iff.mp hp).2
    have hkq := of_decide_eq_true (Option.filter_eq_some_iff.mp hq).2
    exact Option.some.inj (hkp.symm.trans hkq)
  have hreads : ∀ p ∈ collectPaneIds state.root, (readSession (JsonValue.property
      (writtenAssignments state stableSessionIds) p)).isSome := fun p hp => by
    rw [readSession_written hvalid hmap hp (hne p hp)]
    rfl
  refine ⟨_, (parse_serialize hvalid hnamed.nodes).trans (if_pos ⟨hreads, hnodup⟩), ?_⟩
  have hlookup : ∀ p, (JsObject.assignAll (parsedSession (writtenAssignments state
      stableSessionIds)) (collectPaneIds state.root)).lookup p =
        if p ∈ collectPaneIds state.root then
          some ((stableSessionId state stableSessionIds p).filter fun stableId =>
            keeper state stableSessionIds stableId = some p)
        else none := fun p => by
    rw [JsObject.lookup_assignAll _ hvalid.panes_nodup]
    by_cases hp : p ∈ collectPaneIds state.root
    · rw [if_pos ⟨hp, hne p hp⟩, if_pos hp, hread p hp]
    · rw [if_neg fun h => hp h.1, if_neg hp]
  have hkept : ∀ p stableId, (JsObject.assignAll (parsedSession (writtenAssignments state
      stableSessionIds)) (collectPaneIds state.root)).lookup p = some (some stableId) ↔
        keeper state stableSessionIds stableId = some p := fun p stableId => by
    rw [hlookup, Option.ite_none_right_eq_some, Option.some.injEq, Option.filter_eq_some_iff,
      decide_eq_true_eq]
    exact ⟨fun h => h.2.2, fun h => ⟨(keeper_mem hvalid h).1, (keeper_mem hvalid h).2, h⟩⟩
  refine ⟨rfl, rfl, fun p hp => ?_, fun p _ stableId _ => hkept p stableId,
    fun p hp stableId hshown => ?_⟩
  · rw [hlookup, if_pos hp]
    cases hshown : stableSessionId state stableSessionIds p with
    | none => exact .inl rfl
    | some stableId =>
      rw [Option.filter_some]
      split_ifs
      · exact .inl rfl
      · exact .inr rfl
  · obtain ⟨q, hq⟩ := exists_keeper hp hshown
    refine ⟨q, (hkept q stableId).mpr hq, fun q' hq' => ?_⟩
    exact Option.some.inj (((hkept q' stableId).mp hq').symm.trans hq)

theorem not_roundTrips_of_proto (hvalid : Valid state) (hnamed : NonEmptyIds state)
    (hproto : "__proto__" ∈ collectPaneIds state.root) : ¬ RoundTrips state stableSessionIds := by
  rintro ⟨restored, hparse, -⟩
  rw [parse_serialize hvalid hnamed.nodes, Option.ite_none_right_eq_some] at hparse
  have hread := hparse.1.1 _ hproto
  rw [readSession_written_proto hvalid] at hread
  contradiction

/-- The text that is written gives the layout back, and the parser accepts only valid layouts, in
both cases exactly if no pane is called `__proto__`. -/
theorem persists_iff_no_proto (state : SplitLayoutState) :
    (∀ stableSessionIds, Valid state → NonEmptyIds state →
      (∀ runtimeId stableId, stableSessionIds runtimeId = some stableId → stableId ≠ "") →
        (RoundTrips state stableSessionIds ↔ "__proto__" ∉ collectPaneIds state.root)) ∧
    ∀ parsed, parsePersistedWorkspaceLayout parsed = some state →
      (Valid state ∧ NonEmptyIds state ↔ "__proto__" ∉ collectPaneIds state.root) := by
  refine ⟨fun stableSessionIds hvalid hnamed hmap => ⟨fun hround hproto => ?_,
    roundTrips_of_no_proto hvalid hnamed hmap⟩, fun parsed h => ?_⟩
  · exact not_roundTrips_of_proto hvalid hnamed hproto hround
  · exact (and_iff_left (accepted_named h)).trans (accepted_valid_iff h)

/-- Two panes with terminals of one session: the selected pane keeps it. -/
def twoChildren : SplitLayoutState :=
  activateSessionInLayout
    (splitPaneInLayout (activateSessionInLayout (createInitialSplitLayout "pane-1") "child-1")
      "pane-1" .right "pane-2" "split-1") "child-2"

theorem twoChildren_valid : Valid twoChildren :=
  (activateSession_valid_iff <| splitPane_valid ((activateSession_valid_iff
    createInitialSplitLayout_valid).mpr fun h => absurd h (by decide)) (by decide)
      (by decide)).mpr fun h => absurd h (by decide)

theorem persists_iff_no_proto_two_children : RoundTrips twoChildren fun _ => some "root" := by
  refine ((persists_iff_no_proto twoChildren).1 _ twoChildren_valid ⟨?_, fun p s hp => ?_⟩
    fun _ _ h => ?_).mpr (by decide)
  · exact ⟨by decide, by simp [NodeNamed], by simp [NodeNamed]⟩
  · have hmem := (JsObject.mem_own _).mpr hp
    have hown : twoChildren.assignments.own =
        [("pane-1", some "child-1"), ("pane-2", some "child-2")] := by decide
    rw [hown] at hmem
    rintro rfl
    simp at hmem
  · obtain rfl := Option.some.inj h
    decide

/-- A layout whose pane is called `__proto__` is valid, and its text is refused; a text that names
such a pane gives a layout without an entry for it. -/
theorem proto_pane_is_lost :
    (Valid (createInitialSplitLayout "__proto__") ∧
      NonEmptyIds (createInitialSplitLayout "__proto__") ∧
      ¬ RoundTrips (createInitialSplitLayout "__proto__") fun _ => none) ∧
    ∃ state, parsePersistedWorkspaceLayout (some (.object [("version", .number (.finite 1)),
        ("root", .object [("type", .string "pane"), ("id", .string "__proto__")]),
        ("assignments", .object [("__proto__", .null)]),
        ("selectedPaneId", .string "__proto__")])) = some state ∧ ¬ Valid state := by
  refine ⟨⟨createInitialSplitLayout_valid, ⟨by simp [createInitialSplitLayout, NodeNamed],
    fun p s hp => ?_⟩, ?_⟩, ⟨.pane "__proto__", ⟨[], List.nodup_nil, false⟩, "__proto__"⟩,
    by decide, fun h => ?_⟩
  · simp [createInitialSplitLayout, JsObject.lookup_define] at hp
  · rintro ⟨restored, hparse, -⟩
    have hnone : parsePersistedWorkspaceLayout (some (serializeWorkspaceLayout
        (createInitialSplitLayout "__proto__") fun _ => none)) = none := by decide
    rw [hnone] at hparse
    contradiction
  · exact absurd ((h.keys_iff "__proto__").mpr (by decide)) (by decide)

end TauTerm.Workspace
