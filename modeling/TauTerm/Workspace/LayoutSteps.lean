import Mathlib
import TauTerm.Workspace.SplitLayout

/-!
# What one layout operation keeps

One lemma for each function on the tree, then one for each operation: from a valid
layout to a valid layout. `activateSessionInLayout` is the exception: it looks for the
pane that shows the session, and takes an empty pane id for no pane.
-/

namespace TauTerm.Workspace

open Lib

variable {state : SplitLayoutState} {node replacement : LayoutNode} {paneId newPaneId : PaneId}
  {splitId newSplitId : SplitId} {ratio : ℚ}

/-! ## The tree -/

theorem countPanes_eq_length (node : LayoutNode) :
    countPanes node = (collectPaneIds node).length := by
  induction node with
  | pane id => rfl
  | split id direction ratio first second ih₁ ih₂ =>
    rw [countPanes, collectPaneIds, List.length_append, ih₁, ih₂]

theorem firstPaneId_mem (node : LayoutNode) : firstPaneId node ∈ collectPaneIds node := by
  induction node with
  | pane id => exact List.mem_singleton_self id
  | split id direction ratio first second ih₁ ih₂ => exact List.mem_append_left _ ih₁

theorem countPanes_pos (node : LayoutNode) : 1 ≤ countPanes node := by
  rw [countPanes_eq_length]
  exact List.length_pos_of_mem (firstPaneId_mem node)

theorem replacePane_of_not_mem (h : paneId ∉ collectPaneIds node) :
    replacePane paneId replacement node = node := by
  induction node with
  | pane id =>
    have hne : id ≠ paneId := fun heq => h (List.mem_singleton.mpr heq.symm)
    rw [replacePane, if_neg hne]
  | split id direction ratio first second ih₁ ih₂ =>
    rw [collectPaneIds, List.mem_append, not_or] at h
    rw [replacePane, ih₁ h.1, ih₂ h.2]

theorem collectPaneIds_replacePane (hnodup : (collectPaneIds node).Nodup)
    (h : paneId ∈ collectPaneIds node) :
    (collectPaneIds (replacePane paneId replacement node)).Perm
      (collectPaneIds replacement ++ (collectPaneIds node).erase paneId) := by
  induction node with
  | pane id =>
    obtain rfl := List.mem_singleton.mp h
    simp [replacePane, collectPaneIds]
  | split id direction ratio first second ih₁ ih₂ =>
    rw [collectPaneIds] at h hnodup
    have hdisjoint := List.disjoint_of_nodup_append hnodup
    rw [replacePane, collectPaneIds, collectPaneIds]
    rcases List.mem_append.mp h with h₁ | h₂
    · rw [replacePane_of_not_mem (hdisjoint h₁), List.erase_append_left _ h₁, ← List.append_assoc]
      exact (ih₁ hnodup.of_append_left h₁).append_right _
    · have h₁ : paneId ∉ collectPaneIds first := fun hmem => hdisjoint hmem h₂
      rw [replacePane_of_not_mem h₁, List.erase_append_right _ h₁]
      refine ((ih₂ hnodup.of_append_right h₂).append_left _).trans ?_
      rw [← List.append_assoc, ← List.append_assoc]
      exact List.perm_append_comm.append_right _

theorem splitIds_replacePane (hnodup : (collectPaneIds node).Nodup)
    (h : paneId ∈ collectPaneIds node) :
    (splitIds (replacePane paneId replacement node)).Perm
      (splitIds replacement ++ splitIds node) := by
  induction node with
  | pane id =>
    obtain rfl := List.mem_singleton.mp h
    simp [replacePane, splitIds]
  | split id direction ratio first second ih₁ ih₂ =>
    rw [collectPaneIds] at h hnodup
    have hdisjoint := List.disjoint_of_nodup_append hnodup
    rw [replacePane, splitIds, splitIds]
    refine List.Perm.trans (List.Perm.cons id ?_) List.perm_middle.symm
    rcases List.mem_append.mp h with h₁ | h₂
    · rw [replacePane_of_not_mem (hdisjoint h₁), ← List.append_assoc]
      exact (ih₁ hnodup.of_append_left h₁).append_right _
    · have h₁ : paneId ∉ collectPaneIds first := fun hmem => hdisjoint hmem h₂
      rw [replacePane_of_not_mem h₁]
      refine ((ih₂ hnodup.of_append_right h₂).append_left _).trans ?_
      rw [← List.append_assoc, ← List.append_assoc]
      exact List.perm_append_comm.append_right _

theorem ratiosOk_replacePane (h : RatiosOk node) (hr : RatiosOk replacement) :
    RatiosOk (replacePane paneId replacement node) := by
  induction node with
  | pane id =>
    rw [replacePane]
    split_ifs
    · exact hr
    · exact h
  | split id direction ratio first second ih₁ ih₂ => exact ⟨h.1, ih₁ h.2.1, ih₂ h.2.2⟩

/-- Taking the pane out of a tree leaves `rest`, with `sibling` in place of the split that the
pane was a side of. -/
inductive Removal (paneId : PaneId) : LayoutNode → LayoutNode → LayoutNode → Prop
  | first (id : SplitId) (direction : SplitDirection) (ratio : ℚ) (second : LayoutNode) :
    Removal paneId (.split id direction ratio (.pane paneId) second) second second
  | second (id : SplitId) (direction : SplitDirection) (ratio : ℚ) {first : LayoutNode}
      (hfirst : paneId ∉ collectPaneIds first) :
    Removal paneId (.split id direction ratio first (.pane paneId)) first first
  | inFirst (id : SplitId) (direction : SplitDirection) (ratio : ℚ)
      {first rest sibling : LayoutNode} (second : LayoutNode)
      (h : Removal paneId first rest sibling) :
    Removal paneId (.split id direction ratio first second) (.split id direction ratio rest second)
      sibling
  | inSecond (id : SplitId) (direction : SplitDirection) (ratio : ℚ)
      {first second rest sibling : LayoutNode} (hfirst : paneId ∉ collectPaneIds first)
      (h : Removal paneId second rest sibling) :
    Removal paneId (.split id direction ratio first second) (.split id direction ratio first rest)
      sibling

theorem removePaneNode_of_not_mem (h : paneId ∉ collectPaneIds node) :
    (removePaneNode paneId node).removed = false := by
  induction node with
  | pane id =>
    have hne : id ≠ paneId := fun heq => h (List.mem_singleton.mpr heq.symm)
    rw [removePaneNode, if_neg hne]
  | split id direction ratio first second ih₁ ih₂ =>
    rw [collectPaneIds, List.mem_append, not_or] at h
    simp [removePaneNode, ih₁ h.1, ih₂ h.2]

/-- All that `removePaneNode` can do with a pane of the tree. -/
theorem removePaneNode_cases (h : paneId ∈ collectPaneIds node) :
    node = .pane paneId ∧ removePaneNode paneId node = ⟨none, true, none⟩ ∨
      ∃ rest sibling, Removal paneId node rest sibling ∧
        removePaneNode paneId node = ⟨some rest, true, some (firstPaneId sibling)⟩ := by
  induction node with
  | pane id =>
    obtain rfl := List.mem_singleton.mp h
    simp [removePaneNode]
  | split id direction ratio first second ih₁ ih₂ =>
    right
    by_cases h₁ : paneId ∈ collectPaneIds first
    · rcases ih₁ h₁ with ⟨rfl, hresult⟩ | ⟨rest, sibling, hrest, hresult⟩
      · exact ⟨second, second, .first .., by simp [removePaneNode]⟩
      · exact ⟨_, sibling, .inFirst _ _ _ second hrest, by simp [removePaneNode, hresult]⟩
    · have h₂ : paneId ∈ collectPaneIds second := (List.mem_append.mp h).resolve_left h₁
      have hfirst := removePaneNode_of_not_mem h₁
      rcases ih₂ h₂ with ⟨rfl, hresult⟩ | ⟨rest, sibling, hrest, hresult⟩
      · exact ⟨first, first, .second _ _ _ h₁, by simp [removePaneNode, hfirst]⟩
      · exact ⟨_, sibling, .inSecond _ _ _ h₁ hrest, by simp [removePaneNode, hfirst, hresult]⟩

namespace Removal

variable {rest sibling : LayoutNode}

theorem mem (h : Removal paneId node rest sibling) : paneId ∈ collectPaneIds node := by
  induction h with
  | first => exact List.mem_cons_self
  | second => exact List.mem_append_right _ (List.mem_singleton_self _)
  | inFirst _ _ _ _ _ ih => exact List.mem_append_left _ ih
  | inSecond _ _ _ _ _ ih => exact List.mem_append_right _ ih

theorem panes (h : Removal paneId node rest sibling) :
    collectPaneIds rest = (collectPaneIds node).erase paneId := by
  induction h with
  | first => simp [collectPaneIds]
  | second _ _ _ hfirst =>
    rw [collectPaneIds, List.erase_append_right _ hfirst]
    simp [collectPaneIds]
  | inFirst _ _ _ _ h ih => rw [collectPaneIds, ih, collectPaneIds, List.erase_append_left _ h.mem]
  | inSecond _ _ _ hfirst _ ih =>
    rw [collectPaneIds, ih, collectPaneIds, List.erase_append_right _ hfirst]

theorem sublist_splitIds (h : Removal paneId node rest sibling) :
    (splitIds rest).Sublist (splitIds node) := by
  induction h with
  | first => exact (List.sublist_append_right _ _).cons _
  | second => exact (List.sublist_append_left _ _).cons _
  | inFirst _ _ _ _ _ ih => exact (ih.append (List.Sublist.refl _)).cons_cons _
  | inSecond _ _ _ _ _ ih => exact ((List.Sublist.refl _).append ih).cons_cons _

theorem ratiosOk (h : Removal paneId node rest sibling) (hr : RatiosOk node) : RatiosOk rest := by
  induction h with
  | first => exact hr.2.2
  | second => exact hr.2.1
  | inFirst _ _ _ _ _ ih => exact ⟨hr.1, ih hr.2.1, hr.2.2⟩
  | inSecond _ _ _ _ _ ih => exact ⟨hr.1, hr.2.1, ih hr.2.2⟩

theorem sibling_subset (h : Removal paneId node rest sibling) :
    collectPaneIds sibling ⊆ collectPaneIds rest := by
  induction h with
  | first | second => exact List.Subset.refl _
  | inFirst _ _ _ _ _ ih => exact fun _ hid => List.mem_append_left _ (ih hid)
  | inSecond _ _ _ _ _ ih => exact fun _ hid => List.mem_append_right _ (ih hid)

end Removal

/-- What is left of a tree when one of its panes is taken out. -/
structure Without (paneId : PaneId) (node : LayoutNode) (result : RemovePaneNodeResult)
    (rest : LayoutNode) : Prop where
  node_eq : result.node = some rest
  panes : collectPaneIds rest = (collectPaneIds node).erase paneId
  splits : (splitIds rest).Sublist (splitIds node)
  ratios : RatiosOk node → RatiosOk rest
  fallback : ∀ fallback, result.fallbackPaneId = some fallback → fallback ∈ collectPaneIds rest

theorem removePaneNode_of_mem (h : paneId ∈ collectPaneIds node) :
    (removePaneNode paneId node).removed = true ∧
      (node = .pane paneId ∧ (removePaneNode paneId node).node = none ∨
        ∃ rest, Without paneId node (removePaneNode paneId node) rest) := by
  rcases removePaneNode_cases h with ⟨hpane, hresult⟩ | ⟨rest, sibling, hrest, hresult⟩
  · rw [hresult]
    exact ⟨rfl, .inl ⟨hpane, rfl⟩⟩
  · rw [hresult]
    refine ⟨rfl, .inr ⟨rest, rfl, hrest.panes, hrest.sublist_splitIds, hrest.ratiosOk, ?_⟩⟩
    rintro _ ⟨⟩
    exact hrest.sibling_subset (firstPaneId_mem sibling)

theorem updateSplitRatio_ids (node : LayoutNode) :
    collectPaneIds (updateSplitRatio splitId ratio node) = collectPaneIds node ∧
      splitIds (updateSplitRatio splitId ratio node) = splitIds node := by
  induction node with
  | pane id => exact ⟨rfl, rfl⟩
  | split id direction oldRatio first second ih₁ ih₂ =>
    rw [updateSplitRatio]
    split_ifs
    · exact ⟨rfl, rfl⟩
    · simp only [collectPaneIds, splitIds, ih₁.1, ih₁.2, and_self]
    · simp only [collectPaneIds, splitIds, ih₂.1, ih₂.2, and_self]

theorem ratiosOk_updateSplitRatio (hratio : minRatio ≤ ratio ∧ ratio ≤ maxRatio)
    (h : RatiosOk node) : RatiosOk (updateSplitRatio splitId ratio node) := by
  induction node with
  | pane id => trivial
  | split id direction oldRatio first second ih₁ ih₂ =>
    rw [updateSplitRatio]
    split_ifs
    · exact ⟨hratio, h.2⟩
    · exact ⟨h.1, ih₁ h.2.1, h.2.2⟩
    · exact ⟨h.1, h.2.1, ih₂ h.2.2⟩

/-! ## The assignments -/

variable {assignments assignments' : Assignments} {sessionId : String}

theorem OnePaneEach.of_shown (h : OnePaneEach assignments)
    (hshown : ∀ p sessionId, assignments'.lookup p = some (some sessionId) →
      assignments.lookup p = some (some sessionId)) : OnePaneEach assignments' :=
  fun p q sessionId hp hq => h p q sessionId (hshown _ _ hp) (hshown _ _ hq)

theorem OnePaneEach.define_none (h : OnePaneEach assignments) :
    OnePaneEach (assignments.define paneId none) := by
  refine h.of_shown fun p sessionId hp => ?_
  rw [JsObject.lookup_define] at hp
  split_ifs at hp
  · simp at hp
  · exact hp

theorem OnePaneEach.define_some (h : OnePaneEach assignments)
    (hfree : ∀ p, assignments.lookup p = some (some sessionId) → p = paneId) :
    OnePaneEach (assignments.define paneId (some sessionId)) := by
  intro p q s hp hq
  rw [JsObject.lookup_define] at hp hq
  split_ifs at hp hq with h₁ h₂ h₂
  · rw [h₁, h₂]
  · obtain rfl : sessionId = s := by simpa using hp
    rw [h₁, hfree q hq]
  · obtain rfl : sessionId = s := by simpa using hq
    rw [h₂, hfree p hp]
  · exact h p q s hp hq

theorem findPaneForSession_some (h : findPaneForSession assignments sessionId = some paneId) :
    assignments.lookup paneId = some (some sessionId) := by
  obtain ⟨entry, hentry, rfl⟩ := Option.map_eq_some_iff.mp h
  have hshown : entry.2 = some sessionId := by simpa using List.find?_some hentry
  rw [← hshown]
  exact (JsObject.mem_entries _).mp (List.mem_of_find?_eq_some hentry)

theorem findPaneForSession_none (h : findPaneForSession assignments sessionId = none) :
    assignments.lookup paneId ≠ some (some sessionId) := by
  intro hlookup
  have hfind := Option.map_eq_none_iff.mp h
  have hentry := (JsObject.mem_entries assignments).mpr hlookup
  simpa using List.find?_eq_none.mp hfind _ hentry

/-- The pane is the only one that shows the session. -/
theorem findPaneForSession_eq_some_iff (h : OnePaneEach assignments) :
    findPaneForSession assignments sessionId = some paneId ↔
      assignments.lookup paneId = some (some sessionId) := by
  refine ⟨findPaneForSession_some, fun hlookup => ?_⟩
  cases hfind : findPaneForSession assignments sessionId with
  | none => exact absurd hlookup (findPaneForSession_none hfind)
  | some p => rw [h p paneId sessionId (findPaneForSession_some hfind) hlookup]

/-! ## The operations -/

theorem Valid.lookup_of_mem (h : Valid state) (hmem : paneId ∈ collectPaneIds state.root) :
    ∃ shown, state.assignments.lookup paneId = some shown :=
  (JsObject.mem_keys _).mp ((h.keys_iff paneId).mpr hmem)

/-- New assignments on the same tree. -/
theorem Valid.with_assignments (h : Valid state)
    (hkeys : ∀ paneId, paneId ∈ assignments.keys ↔ paneId ∈ state.assignments.keys)
    (hone : OnePaneEach assignments) : Valid { state with assignments := assignments } :=
  { h with
    keys_iff := fun paneId => (hkeys paneId).trans (h.keys_iff paneId)
    one_pane := hone }

/-- The keys stay when a pane of the tree is assigned. -/
theorem Valid.mem_keys_define (h : Valid state) (hmem : paneId ∈ collectPaneIds state.root)
    (shown : Option String) (p : PaneId) :
    p ∈ (state.assignments.spread.define paneId shown).keys ↔ p ∈ state.assignments.keys := by
  rw [JsObject.mem_keys_define, JsObject.keys_spread, or_iff_right_iff_imp]
  rintro rfl
  exact (h.keys_iff p).mpr hmem

theorem createInitialSplitLayout_valid : Valid (createInitialSplitLayout paneId) where
  panes_nodup := List.nodup_singleton _
  splits_nodup := List.nodup_nil
  panes_pos := le_rfl
  panes_le := show 1 ≤ 4 by omega
  keys_iff p := by
    rw [createInitialSplitLayout, JsObject.mem_keys_define]
    simp [collectPaneIds]
  selected_mem := List.mem_singleton_self _
  ratios := trivial
  one_pane := OnePaneEach.define_none fun p q sessionId hp _ => by simp at hp

/-- The session is not shown by a pane, other than the selected one, whose id is empty. -/
def ShownUnderAName (state : SplitLayoutState) (sessionId : String) : Prop :=
  findPaneForSession state.assignments sessionId = some "" → state.selectedPaneId = ""

theorem activateSession_valid_iff (h : Valid state) :
    Valid (activateSessionInLayout state sessionId) ↔ ShownUnderAName state sessionId := by
  unfold activateSessionInLayout ShownUnderAName
  cases hfind : findPaneForSession state.assignments sessionId with
  | none =>
    refine iff_of_true ?_ fun hnone => nomatch hnone
    simp only [Option.filter_none]
    split_ifs
    · exact h
    · refine h.with_assignments (h.mem_keys_define h.selected_mem _) ?_
      exact h.one_pane.define_some fun p hp => absurd hp (findPaneForSession_none hfind)
  | some p =>
    have hshown := findPaneForSession_some hfind
    by_cases hp : p = ""
    · subst hp
      rw [Option.filter_some_neg (by simp)]
      simp only [forall_const]
      by_cases hsel : state.selectedPaneId = ""
      · rw [if_pos (by rw [hsel, JsObject.get_of_lookup _ hshown])]
        exact iff_of_true h hsel
      · have hget : state.assignments.get state.selectedPaneId ≠ .value (some sessionId) := by
          intro hget
          obtain ⟨shown, hlookup⟩ := h.lookup_of_mem h.selected_mem
          rw [JsObject.get_of_lookup _ hlookup, JsRead.value.injEq] at hget
          subst hget
          exact hsel (h.one_pane _ _ _ hlookup hshown)
        rw [if_neg hget]
        refine iff_of_false (fun hvalid => hsel ?_) hsel
        refine hvalid.one_pane _ _ sessionId ?_ ?_
        · simp
        · simp [hshown, Ne.symm hsel]
    · rw [Option.filter_some_pos (by simp [hp])]
      refine iff_of_true ?_ fun hempty => absurd (Option.some.inj hempty) hp
      simp only
      split_ifs
      · exact h
      · exact { h with
          selected_mem := (h.keys_iff p).mp ((JsObject.mem_keys _).mpr ⟨_, hshown⟩) }

theorem selectPane_valid (h : Valid state) : Valid (selectPaneInLayout state paneId) := by
  unfold selectPaneInLayout
  split_ifs with heq hmem
  · exact h
  · exact h
  · exact { h with selected_mem := by simpa using hmem }

theorem clearPane_valid (h : Valid state) : Valid (clearPaneInLayout state paneId) := by
  unfold clearPaneInLayout
  split_ifs with hown hnull
  · exact h
  · exact h
  · have hmem : paneId ∈ state.assignments.keys := by
      rw [← JsObject.hasOwn_iff]
      simpa using hown
    exact h.with_assignments (h.mem_keys_define ((h.keys_iff paneId).mp hmem) none)
      h.one_pane.define_none

theorem collectPaneIds_splitReplacement (edge : SplitEdge) :
    (collectPaneIds (splitReplacement paneId edge newPaneId newSplitId)).Perm
      [newPaneId, paneId] := by
  cases edge with
  | left | top => exact .refl _
  | right | bottom => exact .swap _ _ []

theorem splitIds_splitReplacement (edge : SplitEdge) :
    splitIds (splitReplacement paneId edge newPaneId newSplitId) = [newSplitId] := by
  cases edge <;> rfl

theorem ratiosOk_splitReplacement (edge : SplitEdge) :
    RatiosOk (splitReplacement paneId edge newPaneId newSplitId) := by
  have hhalf : minRatio ≤ 1 / 2 ∧ (1 / 2 : ℚ) ≤ maxRatio := by norm_num [minRatio, maxRatio]
  cases edge <;> exact ⟨hhalf, trivial, trivial⟩

theorem splitPane_valid (h : Valid state) {edge : SplitEdge}
    (hpane : newPaneId ∉ collectPaneIds state.root) (hsplit : newSplitId ∉ splitIds state.root) :
    Valid (splitPaneInLayout state paneId edge newPaneId newSplitId) := by
  unfold splitPaneInLayout
  split_ifs with hmax hmem
  · exact h
  · exact h
  · replace hmem : paneId ∈ collectPaneIds state.root := by simpa using hmem
    have hpanes : (collectPaneIds (replacePane paneId
        (splitReplacement paneId edge newPaneId newSplitId) state.root)).Perm
          (newPaneId :: collectPaneIds state.root) := by
      refine (collectPaneIds_replacePane h.panes_nodup hmem).trans ?_
      refine ((collectPaneIds_splitReplacement edge).append_right _).trans ?_
      exact (List.perm_cons_erase hmem).symm.cons newPaneId
    have hsplits : (splitIds (replacePane paneId
        (splitReplacement paneId edge newPaneId newSplitId) state.root)).Perm
          (newSplitId :: splitIds state.root) := by
      simpa [splitIds_splitReplacement] using @splitIds_replacePane _
          (splitReplacement paneId edge newPaneId newSplitId) _ h.panes_nodup hmem
    exact {
      panes_nodup := hpanes.nodup_iff.mpr (List.nodup_cons.mpr ⟨hpane, h.panes_nodup⟩)
      splits_nodup := hsplits.nodup_iff.mpr (List.nodup_cons.mpr ⟨hsplit, h.splits_nodup⟩)
      panes_pos := countPanes_pos _
      panes_le := by
        have hle := h.panes_le
        rw [countPanes_eq_length] at hmax hle ⊢
        rw [hpanes.length_eq, List.length_cons]
        omega
      keys_iff := fun p => by
        rw [JsObject.mem_keys_define, JsObject.keys_spread, h.keys_iff, hpanes.mem_iff,
          List.mem_cons]
      selected_mem := hpanes.mem_iff.mpr (List.mem_cons_self ..)
      ratios := ratiosOk_replacePane h.ratios (ratiosOk_splitReplacement edge)
      one_pane := @OnePaneEach.define_none _ state.assignments.spread h.one_pane }

theorem closePane_valid (h : Valid state) {result : ClosePaneResult}
    (hclose : closePaneInLayout state paneId = some result) : Valid result.state := by
  unfold closePaneInLayout at hclose
  by_cases hone : countPanes state.root ≤ 1
  · simp [hone] at hclose
  rw [if_neg hone] at hclose
  by_cases hmem : paneId ∈ collectPaneIds state.root
  · obtain ⟨hremoved, hcase⟩ := removePaneNode_of_mem hmem
    rcases hcase with ⟨hpane, -⟩ | ⟨rest, hrest⟩
    · rw [hpane] at hone
      exact absurd le_rfl hone
    · simp only [hremoved, hrest.node_eq, Option.some.injEq] at hclose
      subst hclose
      have hmem_rest : ∀ p, p ∈ collectPaneIds rest ↔ p ≠ paneId ∧ p ∈ collectPaneIds state.root :=
        fun p => by rw [hrest.panes, h.panes_nodup.mem_erase_iff]
      exact {
        panes_nodup := by
          rw [hrest.panes]
          exact h.panes_nodup.erase _
        splits_nodup := hrest.splits.nodup h.splits_nodup
        panes_pos := countPanes_pos _
        panes_le := by
          have hle := h.panes_le
          rw [countPanes_eq_length] at hle ⊢
          rw [hrest.panes]
          exact (List.length_erase_le ..).trans hle
        keys_iff := fun p => by
          rw [JsObject.mem_keys_delete, JsObject.keys_spread, h.keys_iff, hmem_rest, and_comm]
        selected_mem := by
          dsimp only
          split_ifs with hsel
          · cases hfallback : (removePaneNode paneId state.root).fallbackPaneId with
            | none => exact firstPaneId_mem rest
            | some fallback => exact hrest.fallback fallback hfallback
          · exact (hmem_rest _).mpr ⟨hsel, h.selected_mem⟩
        ratios := hrest.ratios h.ratios
        one_pane := h.one_pane.of_shown fun p sessionId hp => by
          rw [JsObject.lookup_delete] at hp
          split_ifs at hp
          exact hp }
  · simp [removePaneNode_of_not_mem hmem] at hclose

theorem setSplitRatio_valid (h : Valid state) : Valid (setSplitRatioInLayout state splitId ratio) := by
  obtain ⟨hpanes, hsplits⟩ := @updateSplitRatio_ids splitId (max minRatio (min maxRatio ratio))
      state.root
  have hratio : minRatio ≤ max minRatio (min maxRatio ratio) ∧
      max minRatio (min maxRatio ratio) ≤ maxRatio := by
    refine ⟨le_max_left _ _, max_le ?_ (min_le_left _ _)⟩
    norm_num [minRatio, maxRatio]
  exact {
    panes_nodup := by rw [setSplitRatioInLayout, hpanes]; exact h.panes_nodup
    splits_nodup := by rw [setSplitRatioInLayout, hsplits]; exact h.splits_nodup
    panes_pos := countPanes_pos _
    panes_le := by
      rw [setSplitRatioInLayout, countPanes_eq_length, hpanes, ← countPanes_eq_length]
      exact h.panes_le
    keys_iff := fun p => by rw [setSplitRatioInLayout, hpanes]; exact h.keys_iff p
    selected_mem := by rw [setSplitRatioInLayout, hpanes]; exact h.selected_mem
    ratios := ratiosOk_updateSplitRatio hratio h.ratios
    one_pane := h.one_pane }

/-! ## The two loops over the panes -/

variable {validSessionIds disconnectedRootIds : Finset String}
  {stableSessionIds : String → Option String}

theorem prunePane_pruned {loop : Assignments × Bool} (hmem : paneId ∈ loop.1.keys) :
    (∀ p, p ∈ (prunePane validSessionIds loop paneId).1.keys ↔ p ∈ loop.1.keys) ∧
      ∀ p sessionId, (prunePane validSessionIds loop paneId).1.lookup p = some (some sessionId) →
        loop.1.lookup p = some (some sessionId) := by
  have hassign : (loop.1.assign paneId none) = loop.1.define paneId none :=
    JsObject.assign_of_mem hmem
  have hkeys : ∀ p, p ∈ (loop.1.assign paneId none).keys ↔ p ∈ loop.1.keys := fun p => by
    rw [hassign, JsObject.mem_keys_define, or_iff_right_iff_imp]
    rintro rfl
    exact hmem
  have hshown : ∀ p sessionId, (loop.1.assign paneId none).lookup p = some (some sessionId) →
      loop.1.lookup p = some (some sessionId) := fun p sessionId hp => by
    rw [hassign, JsObject.lookup_define] at hp
    split_ifs at hp
    · simp at hp
    · exact hp
  unfold prunePane
  split
  · split_ifs
    · exact ⟨hkeys, hshown⟩
    · exact ⟨fun _ => .rfl, fun _ _ => id⟩
  · exact ⟨hkeys, hshown⟩
  · exact ⟨fun _ => .rfl, fun _ _ => id⟩
  · exact ⟨fun _ => .rfl, fun _ _ => id⟩

theorem pruneAssignments_valid (h : Valid state) :
    Valid (pruneAssignments state validSessionIds) := by
  have hloop := List.foldlRecOn (motive := fun loop : Assignments × Bool =>
      (∀ p, p ∈ loop.1.keys ↔ p ∈ state.assignments.keys) ∧
        ∀ p sessionId, loop.1.lookup p = some (some sessionId) →
          state.assignments.lookup p = some (some sessionId))
    (collectPaneIds state.root) (prunePane validSessionIds) (b := (state.assignments.spread, false))
    ⟨fun _ => .rfl, fun _ _ => id⟩ fun loop hloop paneId hmem => by
      obtain ⟨hkeys, hshown⟩ := @prunePane_pruned _ validSessionIds _
          ((hloop.1 paneId).mpr ((h.keys_iff paneId).mpr hmem))
      exact ⟨fun p => (hkeys p).trans (hloop.1 p), fun p s hp => hloop.2 p s (hshown p s hp)⟩
  simp only [pruneAssignments]
  split_ifs
  · exact h.with_assignments hloop.1 (h.one_pane.of_shown hloop.2)
  · exact h

/-- What the loop of `remapRemovedChildrenToDisconnectedRoots` keeps: the sessions that are
still valid are all in the occupied set. -/
structure RemapInv (validSessionIds : Finset String) (keys : List PaneId) (loop : Remap) :
    Prop where
  keys_iff : ∀ p, p ∈ loop.assignments.keys ↔ p ∈ keys
  one_pane : OnePaneEach loop.assignments
  occupied : ∀ p sessionId, loop.assignments.lookup p = some (some sessionId) →
    sessionId ≠ "" → sessionId ∈ validSessionIds → sessionId ∈ loop.occupiedStableIds

theorem RemapInv.step {keys : List PaneId} {loop : Remap} (h : RemapInv validSessionIds keys loop)
    (hmem : paneId ∈ keys) :
    RemapInv validSessionIds keys
      (remapPane validSessionIds disconnectedRootIds stableSessionIds loop paneId) := by
  unfold remapPane
  split
  · rename_i assigned hget
    split_ifs
    · exact h
    · split
      · rename_i stableId hstable
        split_ifs with hcond
        · obtain ⟨hne, -, hvalid, -, hfree⟩ := hcond
          have hassign : loop.assignments.assign paneId (some stableId) =
              loop.assignments.define paneId (some stableId) :=
            JsObject.assign_of_mem ((h.keys_iff paneId).mpr hmem)
          refine ⟨fun p => ?_, ?_, fun p sessionId hp hp₁ hp₂ => ?_⟩
          · rw [hassign, JsObject.mem_keys_define, h.keys_iff, or_iff_right_iff_imp]
            rintro rfl
            exact hmem
          · rw [hassign]
            exact h.one_pane.define_some fun p hp =>
              absurd (h.occupied p stableId hp hne hvalid) hfree
          · rw [hassign, JsObject.lookup_define] at hp
            split_ifs at hp
            · obtain rfl : stableId = sessionId := by simpa using hp
              exact Finset.mem_insert_self _ _
            · exact Finset.mem_insert_of_mem (h.occupied p sessionId hp hp₁ hp₂)
        · exact h
      · exact h
  · exact h
  · exact h
  · exact h

theorem remapRemovedChildren_valid (h : Valid state) :
    Valid (remapRemovedChildrenToDisconnectedRoots state validSessionIds disconnectedRootIds
      stableSessionIds) := by
  simp only [remapRemovedChildrenToDisconnectedRoots]
  split_ifs
  · have hinit : RemapInv validSessionIds state.assignments.keys
        { assignments := state.assignments.spread
          occupiedStableIds := ((state.assignments.spread.own.filterMap Prod.snd).filter
            fun sessionId => sessionId ≠ "" ∧ sessionId ∈ validSessionIds).toFinset
          changed := false } := by
      refine ⟨fun _ => .rfl, h.one_pane, fun p sessionId hp hne hvalid => ?_⟩
      rw [List.mem_toFinset, List.mem_filter, List.mem_filterMap]
      exact ⟨⟨(p, some sessionId), (JsObject.mem_own _).mpr hp, rfl⟩, by simp [hne, hvalid]⟩
    have hloop := List.foldlRecOn (motive := RemapInv validSessionIds state.assignments.keys)
      (state.selectedPaneId :: (collectPaneIds state.root).filter (· ≠ state.selectedPaneId))
      (remapPane validSessionIds disconnectedRootIds stableSessionIds) hinit
      fun loop hloop paneId hmem => hloop.step <| (h.keys_iff paneId).mpr <| by
        rcases List.mem_cons.mp hmem with rfl | hmem
        · exact h.selected_mem
        · exact List.mem_of_mem_filter hmem
    exact h.with_assignments hloop.keys_iff hloop.one_pane
  · exact h

end TauTerm.Workspace
