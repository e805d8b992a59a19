import Mathlib
import TauTerm.Workspace.LayoutSteps
import TauTerm.Workspace.PaneRects

/-!
# The geometry of the panes

`leaves` lists the panes of a subtree with the rectangles they get inside the rectangle
of the subtree, and `dividers` and `marks` are what the other two walks add. What they
say about each other is proved by induction over the tree, with the rectangle moving
along; the three functions then collect these lists, except that a pane called
`__proto__` gets no entry.
-/

namespace TauTerm.Workspace

open Lib

variable {state : SplitLayoutState} {root node rest sibling : LayoutNode} {paneId id : PaneId}
  {direction : SplitDirection} {ratio : ℚ} {rect r : PaneRect} {edge : SplitEdge}

/-! ## Collecting by pane -/

section Records

variable {V : Type} {result : PaneRecord V} {l : List (PaneId × V)} {f : V → V}

theorem PaneRecord.lookup_proto_assign (v : V) (h : result.entries.lookup "__proto__" = none) :
    (result.assign id v).entries.lookup "__proto__" = none := by
  unfold PaneRecord.assign
  split_ifs with hid
  · exact h
  · rw [JsObject.lookup_define, if_neg (Ne.symm hid), h]

theorem PaneRecord.lookup_modify :
    (result.modify paneId f).entries.lookup id =
      if id = paneId then (result.entries.lookup id).map f else result.entries.lookup id := by
  unfold PaneRecord.modify
  split
  · rename_i v hv
    rw [JsObject.lookup_define]
    split_ifs with hid
    · rw [hid, hv, Option.map_some]
    · rfl
  · rename_i hnone
    have hsame : result.entries.lookup id =
        if id = paneId then (result.entries.lookup id).map f else result.entries.lookup id := by
      split_ifs with hid
      · rw [hid, hnone, Option.map_none]
      · rfl
    split_ifs at hsame ⊢ <;> exact hsame

/-- Assignments to new and distinct names. -/
theorem own_foldl_assign (hnodup : (l.map Prod.fst).Nodup) (hproto : "__proto__" ∉ l.map Prod.fst)
    (hnew : ∀ id ∈ l.map Prod.fst, id ∉ result.entries.keys) :
    (l.foldl (fun result p => result.assign p.1 p.2) result).entries.own =
      result.entries.own ++ l := by
  induction l generalizing result with
  | nil => simp
  | cons p l ih =>
    rw [List.map_cons, List.nodup_cons] at hnodup
    rw [List.map_cons, List.mem_cons, not_or] at hproto
    have hassign : (result.assign p.1 p.2).entries = result.entries.define p.1 p.2 := by
      rw [PaneRecord.assign, if_neg (Ne.symm hproto.1)]
    have hfresh : p.1 ∉ result.entries.keys := hnew p.1 (List.mem_map_of_mem List.mem_cons_self)
    rw [List.foldl_cons, ih hnodup.2 hproto.2, hassign,
      JsObject.own_define_of_not_mem _ hfresh, List.append_assoc, List.singleton_append]
    intro id hid
    rw [hassign, JsObject.mem_keys_define, not_or]
    refine ⟨?_, hnew id (List.mem_cons_of_mem _ hid)⟩
    rintro rfl
    exact hnodup.1 hid

end Records

/-! ## The rectangles -/

/-- The panes of a subtree from left to right, with their rectangles. -/
def leaves : LayoutNode → PaneRect → List (PaneId × PaneRect)
  | .pane id, rect => [(id, rect)]
  | .split _ direction ratio first second, rect =>
    leaves first (firstRect direction ratio rect) ++ leaves second (secondRect direction ratio rect)

theorem map_fst_leaves (node : LayoutNode) (rect : PaneRect) :
    (leaves node rect).map Prod.fst = collectPaneIds node := by
  induction node generalizing rect with
  | pane id => rfl
  | split id direction ratio first second ih₁ ih₂ =>
    rw [leaves, List.map_append, ih₁, ih₂, collectPaneIds]

theorem mem_of_mem_leaves (h : (id, r) ∈ leaves node rect) : id ∈ collectPaneIds node := by
  rw [← map_fst_leaves node rect]
  exact List.mem_map_of_mem h

theorem walkRects_eq (node : LayoutNode) (rect : PaneRect) (result : PaneRecord PaneRect) :
    walkRects node rect result =
      (leaves node rect).foldl (fun result p => result.assign p.1 p.2) result := by
  induction node generalizing rect result with
  | pane id => rfl
  | split id direction ratio first second ih₁ ih₂ =>
    rw [walkRects, ih₁, ih₂, leaves, List.foldl_append]

theorem own_computePaneRects (hnodup : (collectPaneIds root).Nodup)
    (hproto : "__proto__" ∉ collectPaneIds root) :
    (computePaneRects root).entries.own = leaves root fullRect := by
  rw [← map_fst_leaves root fullRect] at hnodup hproto
  rw [computePaneRects, walkRects_eq, own_foldl_assign hnodup hproto fun _ _ => List.not_mem_nil]
  exact List.nil_append _

/-- No entry is made for a pane called `__proto__`. -/
theorem rectOf_proto (root : LayoutNode) : rectOf root "__proto__" = none := by
  rw [rectOf, computePaneRects, walkRects_eq]
  induction leaves root fullRect using List.reverseRecOn with
  | nil => rfl
  | append_singleton l p ih =>
    rw [List.foldl_append]
    exact PaneRecord.lookup_proto_assign p.2 ih

theorem rectOf_eq_some_iff (hnodup : (collectPaneIds root).Nodup)
    (hproto : "__proto__" ∉ collectPaneIds root) :
    rectOf root id = some r ↔ (id, r) ∈ leaves root fullRect := by
  rw [rectOf, ← JsObject.mem_own, own_computePaneRects hnodup hproto]

theorem firstRect_proper (direction : SplitDirection) (hratio : 0 < ratio ∧ ratio < 1)
    (h : rect.Proper) : (firstRect direction ratio rect).Proper := by
  cases direction with
  | horizontal => exact ⟨mul_pos h.1 hratio.1, h.2⟩
  | vertical => exact ⟨h.1, mul_pos h.2 hratio.1⟩

theorem secondRect_proper (direction : SplitDirection) (hratio : 0 < ratio ∧ ratio < 1)
    (h : rect.Proper) : (secondRect direction ratio rect).Proper := by
  cases direction with
  | horizontal => exact ⟨sub_pos.mpr (mul_lt_of_lt_one_right h.1 hratio.2), h.2⟩
  | vertical => exact ⟨h.1, sub_pos.mpr (mul_lt_of_lt_one_right h.2 hratio.2)⟩

theorem cut_rect (direction : SplitDirection) (ratio : ℚ) (rect : PaneRect) :
    Rect.Cut (firstRect direction ratio rect) (secondRect direction ratio rect) rect := by
  cases direction with
  | horizontal => exact .beside ⟨rfl, rfl, add_sub_cancel _ _, rfl, rfl, rfl, rfl⟩
  | vertical => exact .stacked ⟨rfl, rfl, add_sub_cancel _ _, rfl, rfl, rfl, rfl⟩

/-- The panes of a subtree fill its rectangle. -/
theorem tiles_leaves (hratios : RatiosInside node) (hrect : rect.Proper) :
    Rect.Tiles ((leaves node rect).map Prod.snd) rect := by
  induction node generalizing rect with
  | pane id => exact Rect.Tiles.single hrect
  | split id direction ratio first second ih₁ ih₂ =>
    have h₁ := firstRect_proper direction hratios.1 hrect
    have h₂ := secondRect_proper direction hratios.1 hrect
    rw [leaves, List.map_append]
    exact Rect.Tiles.append (cut_rect direction ratio rect) h₁ h₂ (ih₁ hratios.2.1 h₁)
      (ih₂ hratios.2.2 h₂)

theorem fullRect_proper : fullRect.Proper := ⟨one_pos, one_pos⟩

/-! ## The dividers -/

/-- The dividers of a subtree inside its rectangle. -/
def dividers : LayoutNode → PaneRect → List DividerGeometry
  | .pane _, _ => []
  | .split id direction ratio first second, rect =>
    { splitId := id, direction, rect, ratio } ::
      (dividers first (firstRect direction ratio rect) ++
        dividers second (secondRect direction ratio rect))

theorem walkDividers_eq (node : LayoutNode) (rect : PaneRect) (result : List DividerGeometry) :
    walkDividers node rect result = result ++ dividers node rect := by
  induction node generalizing rect result with
  | pane id => exact (List.append_nil _).symm
  | split id direction ratio first second ih₁ ih₂ =>
    rw [walkDividers, ih₁, ih₂, dividers]
    simp

/-- The panes of the subtree stand where its rectangle puts them. -/
def Placed (root node : LayoutNode) (rect : PaneRect) : Prop :=
  ∀ p ∈ leaves node rect, rectOf root p.1 = some p.2

theorem subtreeRegion_eq (hplaced : Placed root node rect) (hratios : RatiosInside node)
    (hrect : rect.Proper) : subtreeRegion root node = rect.region := by
  rw [(tiles_leaves hratios hrect).region_eq]
  ext p
  constructor
  · rintro ⟨id, hid, s, hs, hp⟩
    rw [← map_fst_leaves node rect] at hid
    obtain ⟨q, hq, rfl⟩ := List.mem_map.mp hid
    have hsame : q.2 = s := Option.some.inj ((hplaced q hq).symm.trans hs)
    exact ⟨s, hsame ▸ List.mem_map_of_mem hq, hp⟩
  · rintro ⟨s, hs, hp⟩
    obtain ⟨q, hq, rfl⟩ := List.mem_map.mp hs
    exact ⟨q.1, mem_of_mem_leaves hq, q.2, hplaced q hq, hp⟩

/-- The divider runs along the cut. -/
theorem line_eq_seam (id : SplitId) (direction : SplitDirection)
    (hratio : 0 < ratio ∧ ratio < 1) (hrect : rect.Proper) :
    DividerGeometry.line { splitId := id, direction, rect, ratio } =
      Rect.seam (firstRect direction ratio rect) (secondRect direction ratio rect) := by
  have h₁ := firstRect_proper direction hratio hrect
  have h₂ := secondRect_proper direction hratio hrect
  cases direction with
  | horizontal =>
    have hbeside : Rect.Beside (firstRect .horizontal ratio rect)
        (secondRect .horizontal ratio rect) rect :=
      ⟨rfl, rfl, add_sub_cancel _ _, rfl, rfl, rfl, rfl⟩
    exact (hbeside.seam_eq h₁ h₂).symm
  | vertical =>
    have hstacked : Rect.Beside (firstRect .vertical ratio rect).swap
        (secondRect .vertical ratio rect).swap rect.swap :=
      ⟨rfl, rfl, add_sub_cancel _ _, rfl, rfl, rfl, rfl⟩
    exact (Rect.seam_of_stacked hstacked h₁ h₂).symm

theorem divides_dividers (hplaced : Placed root node rect) (hratios : RatiosInside node)
    (hrect : rect.Proper) :
    List.Forall₂ (Divides root) (splitNodes node) (dividers node rect) := by
  induction node generalizing rect with
  | pane id => exact .nil
  | split id direction ratio first second ih₁ ih₂ =>
    have h₁ := firstRect_proper direction hratios.1 hrect
    have h₂ := secondRect_proper direction hratios.1 hrect
    have hplaced₁ : Placed root first (firstRect direction ratio rect) :=
      fun p hp => hplaced p (List.mem_append_left _ hp)
    have hplaced₂ : Placed root second (secondRect direction ratio rect) :=
      fun p hp => hplaced p (List.mem_append_right _ hp)
    rw [splitNodes, dividers]
    refine .cons ⟨rfl, rfl, rfl, (subtreeRegion_eq hplaced hratios hrect).symm, ?_⟩ ?_
    · exact ⟨_, _, (subtreeRegion_eq hplaced₁ hratios.2.1 h₁).symm,
        (subtreeRegion_eq hplaced₂ hratios.2.2 h₂).symm, line_eq_seam id direction hratios.1 hrect⟩
    · exact List.rel_append (ih₁ hplaced₁ hratios.2.1 h₁) (ih₂ hplaced₂ hratios.2.2 h₂)

/-! ## The blocked edges -/

/-- The side at which the first subtree meets the second, and the one at which the second
meets the first. -/
def innerEdges : SplitDirection → SplitEdge × SplitEdge
  | .horizontal => (.right, .left)
  | .vertical => (.bottom, .top)

/-- The edges that the walk over a subtree marks at a pane. -/
def marks : LayoutNode → PaneId → Finset SplitEdge
  | .pane _, _ => ∅
  | .split _ direction _ first second, id =>
    (if id ∈ collectPaneIds first then {(innerEdges direction).1} else ∅) ∪
      (if id ∈ collectPaneIds second then {(innerEdges direction).2} else ∅) ∪
      (marks first id ∪ marks second id)

theorem marks_of_not_mem (h : id ∉ collectPaneIds node) : marks node id = ∅ := by
  induction node with
  | pane paneId => rfl
  | split splitId direction ratio first second ih₁ ih₂ =>
    rw [collectPaneIds, List.mem_append, not_or] at h
    rw [marks, if_neg h.1, if_neg h.2, ih₁ h.1, ih₂ h.2]
    rfl

theorem lookup_mark (result : PaneRecord (Finset SplitEdge)) :
    (mark node edge result).entries.lookup id = (result.entries.lookup id).map fun edges =>
      (if id ∈ collectPaneIds node then {edge} else ∅) ∪ edges := by
  unfold mark
  induction collectPaneIds node generalizing result with
  | nil => simp
  | cons paneId ids ih =>
    rw [List.foldl_cons, ih, PaneRecord.lookup_modify]
    by_cases hid : id = paneId
    · rw [if_pos hid, Option.map_map]
      congr 1
      funext edges
      simp only [Function.comp_apply, hid, List.mem_cons, true_or, if_true]
      split_ifs
      · simp
      · simp
    · simp [hid]

theorem walkEdges_split (splitId : SplitId) (direction : SplitDirection) (ratio : ℚ)
    (first second : LayoutNode) (result : PaneRecord (Finset SplitEdge)) :
    walkEdges (.split splitId direction ratio first second) result =
      walkEdges second (walkEdges first
        (mark second (innerEdges direction).2 (mark first (innerEdges direction).1 result))) := by
  cases direction <;> rfl

theorem lookup_walkEdges (result : PaneRecord (Finset SplitEdge)) :
    (walkEdges node result).entries.lookup id =
      (result.entries.lookup id).map fun edges => marks node id ∪ edges := by
  induction node generalizing result with
  | pane paneId => simp [walkEdges, marks]
  | split splitId direction ratio first second ih₁ ih₂ =>
    rw [walkEdges_split, ih₂, ih₁, lookup_mark, lookup_mark, Option.map_map, Option.map_map,
      Option.map_map]
    congr 1
    funext edges
    simp only [Function.comp_apply, marks]
    ac_rfl

theorem lookup_computeBlockedEdges (hnodup : (collectPaneIds root).Nodup)
    (hproto : "__proto__" ∉ collectPaneIds root) (hid : id ∈ collectPaneIds root) :
    (computeBlockedEdges root).entries.lookup id = some (marks root id) := by
  let l : List (PaneId × Finset SplitEdge) := (collectPaneIds root).map fun id => (id, ∅)
  have hkeys : l.map Prod.fst = collectPaneIds root := by
    rw [List.map_map]
    exact List.map_id _
  have hown : ((collectPaneIds root).foldl (fun result id => result.assign id ∅)
      (PaneRecord.empty : PaneRecord (Finset SplitEdge))).entries.own = l := by
    have hfold := @own_foldl_assign _ .empty l (hkeys ▸ hnodup) (hkeys ▸ hproto)
      fun _ _ => List.not_mem_nil
    rw [List.foldl_map] at hfold
    exact hfold.trans (List.nil_append l)
  have hempty := (JsObject.mem_own _).mp (hown ▸ List.mem_map_of_mem hid :
    (id, (∅ : Finset SplitEdge)) ∈ ((collectPaneIds root).foldl
      (fun result id => result.assign id ∅) PaneRecord.empty).entries.own)
  rw [computeBlockedEdges, lookup_walkEdges, hempty, Option.map_some, Finset.union_empty]

/-- How far out a rectangle reaches to one side. -/
def reach (rect : PaneRect) : SplitEdge → ℚ
  | .left => -rect.left
  | .right => rect.left + rect.width
  | .top => -rect.top
  | .bottom => rect.top + rect.height

theorem reach_le (hr : r.Proper) (h : r.region ⊆ rect.region) (edge : SplitEdge) :
    reach r edge ≤ reach rect edge := by
  have hlow := Rect.mem_region.mp (h hr.corner_mem)
  have hhigh := Rect.mem_region.mp (h hr.opposite_mem)
  cases edge with
  | left => exact neg_le_neg hlow.1.1
  | right => exact hhigh.1.2
  | top => exact neg_le_neg hlow.2.1
  | bottom => exact hhigh.2.2

/-- The first rectangle falls short of the whole at the cut, and there only. -/
theorem reach_firstRect (hratio : 0 < ratio ∧ ratio < 1) (h : rect.Proper) :
    reach (firstRect direction ratio rect) edge < reach rect edge ↔
      edge = (innerEdges direction).1 := by
  have hwidth := mul_lt_of_lt_one_right h.1 hratio.2
  have hheight := mul_lt_of_lt_one_right h.2 hratio.2
  cases direction <;> cases edge <;> simp [reach, firstRect, innerEdges, hwidth, hheight]

theorem reach_secondRect (hratio : 0 < ratio ∧ ratio < 1) (h : rect.Proper) :
    reach (secondRect direction ratio rect) edge < reach rect edge ↔
      edge = (innerEdges direction).2 := by
  have hwidth := mul_pos h.1 hratio.1
  have hheight := mul_pos h.2 hratio.1
  cases direction <;> cases edge <;> simp [reach, secondRect, innerEdges, hwidth, hheight] 

/-- Of three rectangles inside each other, the innermost falls short of the outermost where one
of the two steps does. -/
theorem reach_lt_iff {a b c : ℚ} (h₁ : a ≤ b) (h₂ : b ≤ c) : a < c ↔ b < c ∨ a < b := by
  constructor
  · intro h
    rcases h₂.lt_or_eq with h₂ | rfl
    · exact .inl h₂
    · exact .inr h
  · rintro (h | h)
    · exact h₁.trans_lt h
    · exact h.trans_le h₂

/-- A pane is marked at the sides at which it does not reach the rectangle of the subtree. -/
theorem mem_marks (hnodup : (collectPaneIds node).Nodup) (hratios : RatiosInside node)
    (hrect : rect.Proper) (h : (id, r) ∈ leaves node rect) :
    edge ∈ marks node id ↔ reach r edge < reach rect edge := by
  induction node generalizing rect with
  | pane paneId =>
    obtain ⟨rfl, rfl⟩ := Prod.mk.inj (List.mem_singleton.mp h)
    simp [marks]
  | split splitId direction ratio first second ih₁ ih₂ =>
    have h₁ := firstRect_proper direction hratios.1 hrect
    have h₂ := secondRect_proper direction hratios.1 hrect
    have hsub := (cut_rect direction ratio rect).region_eq h₁ h₂
    have hdisjoint := List.disjoint_of_nodup_append hnodup
    rcases List.mem_append.mp h with h | h
    · have htiles := tiles_leaves hratios.2.1 h₁
      have hr := List.mem_map_of_mem (f := Prod.snd) h
      have hmem := mem_of_mem_leaves h
      have hnot := hdisjoint hmem
      rw [reach_lt_iff (reach_le (htiles.proper r hr) (htiles.subset hr) edge)
        (reach_le h₁ (hsub ▸ Set.subset_union_left) edge), reach_firstRect hratios.1 hrect,
        ← ih₁ hnodup.of_append_left hratios.2.1 h₁ h, marks, marks_of_not_mem hnot,
        if_pos hmem, if_neg hnot]
      simp
    · have htiles := tiles_leaves hratios.2.2 h₂
      have hr := List.mem_map_of_mem (f := Prod.snd) h
      have hmem := mem_of_mem_leaves h
      have hnot : id ∉ collectPaneIds first := fun hid => hdisjoint hid hmem
      rw [reach_lt_iff (reach_le (htiles.proper r hr) (htiles.subset hr) edge)
        (reach_le h₂ (hsub ▸ Set.subset_union_right) edge), reach_secondRect hratios.1 hrect,
        ← ih₂ hnodup.of_append_right hratios.2.2 h₂ h, marks, marks_of_not_mem hnot,
        if_pos hmem, if_neg hnot]
      simp

/-- The middle of a side. -/
def middle (rect : PaneRect) : SplitEdge → ℚ × ℚ
  | .left => (rect.left, rect.top + rect.height / 2)
  | .right => (rect.left + rect.width, rect.top + rect.height / 2)
  | .top => (rect.left + rect.width / 2, rect.top)
  | .bottom => (rect.left + rect.width / 2, rect.top + rect.height)

theorem middle_mem_side (hr : r.Proper) : middle r edge ∈ side r edge := by
  obtain ⟨hwidth, hheight⟩ := hr
  have hx : r.left + r.width / 2 ∈ Set.Icc r.left (r.left + r.width) :=
    ⟨by linarith, by linarith⟩
  have hy : r.top + r.height / 2 ∈ Set.Icc r.top (r.top + r.height) :=
    ⟨by linarith, by linarith⟩
  cases edge with
  | left | right => exact ⟨rfl, hy⟩
  | top | bottom => exact ⟨hx, rfl⟩

theorem middle_mem_interior (hr : r.Proper) (h : r.region ⊆ rect.region)
    (hlt : reach r edge < reach rect edge) : middle r edge ∈ rect.interior := by
  have hlow := Rect.mem_region.mp (h hr.corner_mem)
  have hhigh := Rect.mem_region.mp (h hr.opposite_mem)
  obtain ⟨hwidth, hheight⟩ := hr
  cases edge <;> simp only [reach] at hlt <;>
    exact ⟨⟨by simp only [middle]; linarith, by simp only [middle]; linarith⟩,
      by simp only [middle]; linarith, by simp only [middle]; linarith⟩

theorem side_subset_region (hr : r.Proper) : side r edge ⊆ r.region := by
  obtain ⟨hwidth, hheight⟩ := hr
  rintro ⟨x, y⟩ hp
  cases edge with
  | left =>
    obtain ⟨rfl, hy⟩ := hp
    exact ⟨⟨le_refl _, by linarith⟩, hy⟩
  | right =>
    obtain ⟨rfl, hy⟩ := hp
    exact ⟨⟨by linarith, le_refl _⟩, hy⟩
  | top =>
    obtain ⟨hx, rfl⟩ := hp
    exact ⟨hx, le_refl _, by linarith⟩
  | bottom =>
    obtain ⟨hx, rfl⟩ := hp
    exact ⟨hx, by linarith, le_refl _⟩

/-- No point of a side is inside a rectangle that does not reach further. -/
theorem not_mem_interior {p : ℚ × ℚ} (hp : p ∈ side r edge)
    (hle : reach rect edge ≤ reach r edge) : p ∉ rect.interior := by
  obtain ⟨x, y⟩ := p
  intro hin
  obtain ⟨⟨h₁, h₂⟩, h₃, h₄⟩ := Rect.mem_interior.mp hin
  cases edge with
  | left =>
    obtain ⟨rfl, -⟩ := hp
    exact absurd h₁ (neg_le_neg_iff.mp hle).not_gt
  | right =>
    obtain ⟨rfl, -⟩ := hp
    exact absurd h₂ hle.not_gt
  | top =>
    obtain ⟨-, rfl⟩ := hp
    exact absurd h₃ (neg_le_neg_iff.mp hle).not_gt
  | bottom =>
    obtain ⟨-, rfl⟩ := hp
    exact absurd h₄ hle.not_gt

theorem side_subset_border_iff (hr : r.Proper) (h : r.region ⊆ rect.region) :
    side r edge ⊆ rect.border ↔ ¬ reach r edge < reach rect edge := by
  constructor
  · intro hside hlt
    exact (hside (middle_mem_side hr)).2 (middle_mem_interior hr h hlt)
  · intro hlt p hp
    exact ⟨h (side_subset_region hr hp), not_mem_interior hp (not_lt.mp hlt)⟩

/-! ## Closing a pane -/

theorem siblingOf_of_not_mem (h : paneId ∉ collectPaneIds node) : siblingOf paneId node = none := by
  induction node with
  | pane id => rfl
  | split id direction ratio first second ih₁ ih₂ =>
    rw [collectPaneIds, List.mem_append, not_or] at h
    have hfirst : first ≠ .pane paneId := by
      rintro rfl
      exact h.1 (List.mem_singleton_self _)
    have hsecond : second ≠ .pane paneId := by
      rintro rfl
      exact h.2 (List.mem_singleton_self _)
    rw [siblingOf, if_neg hfirst, if_neg hsecond, ih₁ h.1, ih₂ h.2]
    rfl

theorem Removal.siblingOf_eq (h : Removal paneId node rest sibling)
    (hnodup : (collectPaneIds node).Nodup) : siblingOf paneId node = some sibling := by
  induction h with
  | first => rw [siblingOf, if_pos rfl]
  | second id direction ratio hfirst =>
    rw [siblingOf, if_neg, if_pos rfl]
    rintro rfl
    exact hfirst (List.mem_singleton_self _)
  | inFirst id direction ratio second h ih =>
    have hnot := List.disjoint_of_nodup_append hnodup h.mem
    rw [siblingOf, if_neg, if_neg, ih hnodup.of_append_left]
    · rfl
    · rintro rfl
      exact hnot (List.mem_singleton_self _)
    · rintro rfl
      cases h
  | inSecond id direction ratio hfirst h ih =>
    rw [siblingOf, if_neg, if_neg, ih hnodup.of_append_right, siblingOf_of_not_mem hfirst]
    · rfl
    · rintro rfl
      cases h
    · rintro rfl
      exact hfirst (List.mem_singleton_self _)

/-- Outside the sibling the panes stay where they are. -/
theorem Removal.mem_leaves_iff (h : Removal paneId node rest sibling) (hne : id ≠ paneId)
    (hsibling : id ∉ collectPaneIds sibling) :
    (id, r) ∈ leaves rest rect ↔ (id, r) ∈ leaves node rect := by
  have hgone : ∀ {rect}, (id, r) ∉ leaves sibling rect :=
    fun hmem => hsibling (mem_of_mem_leaves hmem)
  have hpane : ∀ {rect}, (id, r) ∉ leaves (.pane paneId) rect :=
    fun hmem => hne (Prod.mk.inj (List.mem_singleton.mp hmem)).1
  induction h generalizing rect with
  | first => exact iff_of_false hgone fun h => (List.mem_append.mp h).elim hpane hgone
  | second => exact iff_of_false hgone fun h => (List.mem_append.mp h).elim hgone hpane
  | inFirst _ _ _ _ _ ih =>
    rw [leaves, leaves, List.mem_append, List.mem_append]
    exact or_congr_left (ih hsibling hgone)
  | inSecond _ _ _ _ _ ih =>
    rw [leaves, leaves, List.mem_append, List.mem_append]
    exact or_congr_right (ih hsibling hgone)

theorem Removal.rectOf_eq (h : Removal paneId root rest sibling)
    (hnodup : (collectPaneIds root).Nodup) (hproto : "__proto__" ∉ collectPaneIds root)
    (hne : id ≠ paneId) (hsibling : id ∉ collectPaneIds sibling) :
    rectOf rest id = rectOf root id := by
  have hnodup' : (collectPaneIds rest).Nodup := h.panes ▸ hnodup.erase paneId
  have hproto' : "__proto__" ∉ collectPaneIds rest :=
    fun hmem => hproto (List.mem_of_mem_erase (h.panes ▸ hmem))
  refine Option.ext fun r => ?_
  rw [rectOf_eq_some_iff hnodup' hproto', rectOf_eq_some_iff hnodup hproto]
  exact h.mem_leaves_iff hne hsibling

theorem closePane_closed (hnodup : (collectPaneIds state.root).Nodup)
    (hproto : "__proto__" ∉ collectPaneIds state.root) (paneId : PaneId) :
    match closePaneInLayout state paneId with
    | some result => Closed state paneId result.state
    | none => paneId ∉ collectPaneIds state.root ∨ state.root = .pane paneId := by
  by_cases hmem : paneId ∈ collectPaneIds state.root
  · rcases removePaneNode_cases hmem with ⟨hpane, -⟩ | ⟨rest, sibling, hrest, hresult⟩
    · have hnone : closePaneInLayout state paneId = none := by
        rw [closePaneInLayout, if_pos (by rw [hpane]; exact le_refl 1)]
      rw [hnone]
      exact .inr hpane
    · have hmany : ¬ countPanes state.root ≤ 1 := by
        have hpos := List.length_pos_of_mem (firstPaneId_mem rest)
        rw [hrest.panes, List.length_erase_of_mem hmem] at hpos
        rw [countPanes_eq_length]
        omega
      simp only [closePaneInLayout, if_neg hmany, hresult]
      exact {
        panes := hrest.panes
        assignment := by rw [JsObject.lookup_delete, if_pos rfl]
        assignments := fun id hne => by rw [JsObject.lookup_delete, if_neg hne]; rfl
        rects := ⟨sibling, hrest.siblingOf_eq hnodup, fun id _ hne hsibling =>
          hrest.rectOf_eq hnodup hproto hne hsibling⟩ }
  · have hnone : closePaneInLayout state paneId = none := by
      unfold closePaneInLayout
      by_cases hone : countPanes state.root ≤ 1
      · exact if_pos hone
      · rw [if_neg hone]
        simp [removePaneNode_of_not_mem hmem]
    rw [hnone]
    exact .inl hmem

/-! ## Everything together -/

/-- The geometry is exact unless a pane is called `__proto__`: it then gets neither a rectangle nor
a set of edges. -/
theorem paneGeometry_iff_no_proto (state : SplitLayoutState)
    (hnodup : (collectPaneIds state.root).Nodup) (hratios : RatiosInside state.root) :
    PaneGeometry state ↔ "__proto__" ∉ collectPaneIds state.root := by
  constructor
  · intro h hproto
    obtain ⟨rect, -, hrect, -⟩ := h.blocked _ hproto
    rw [rectOf_proto] at hrect
    cases hrect
  · intro hproto
    have hrects : paneRects state.root = (leaves state.root fullRect).map Prod.snd := by
      rw [paneRects, own_computePaneRects hnodup hproto]
    have htiles := tiles_leaves hratios fullRect_proper
    rw [← hrects] at htiles
    exact {
      proper := htiles.proper
      inside := fun rect hrect => htiles.subset hrect
      disjoint := htiles.disjoint
      area := htiles.area_eq.trans (mul_one 1)
      dividers := by
        rw [computeDividerGeometries, walkDividers_eq, List.nil_append]
        refine divides_dividers (fun p hp => ?_) hratios fullRect_proper
        exact (rectOf_eq_some_iff hnodup hproto).mpr hp
      blocked := fun id hid => by
        have hleaf := hid
        rw [← map_fst_leaves _ fullRect] at hleaf
        obtain ⟨⟨id, r⟩, hr, rfl⟩ := List.mem_map.mp hleaf
        have hmem : r ∈ paneRects state.root := hrects ▸ List.mem_map_of_mem hr
        refine ⟨r, marks state.root id, (rectOf_eq_some_iff hnodup hproto).mpr hr,
          lookup_computeBlockedEdges hnodup hproto hid, fun edge => ?_⟩
        rw [side_subset_border_iff (htiles.proper r hmem) (htiles.subset hmem), not_not]
        exact mem_marks hnodup hratios fullRect_proper hr
      close := closePane_closed hnodup hproto }

/-- A pane beside two that stand on top of each other. -/
def threePanes : SplitLayoutState where
  root := .split "s" .horizontal (1 / 3) (.pane "a")
    (.split "t" .vertical (1 / 2) (.pane "b") (.pane "c"))
  assignments := ((JsObject.empty.define "a" none).define "b" (some "x")).define "c" none
  selectedPaneId := "b"

theorem paneGeometry_iff_no_proto_three : PaneGeometry threePanes :=
  (paneGeometry_iff_no_proto threePanes (by decide)
    ⟨by norm_num, trivial, by norm_num, trivial, trivial⟩).mpr (by decide)

/-- The only pane of a layout, and no rectangle at all. -/
theorem proto_pane_has_no_rect :
    (collectPaneIds (createInitialSplitLayout "__proto__").root).Nodup ∧
      RatiosInside (createInitialSplitLayout "__proto__").root ∧
      paneRects (createInitialSplitLayout "__proto__").root = [] ∧
      ¬ PaneGeometry (createInitialSplitLayout "__proto__") := by
  have hnone : paneRects (createInitialSplitLayout "__proto__").root = [] := rfl
  refine ⟨List.nodup_singleton _, trivial, hnone, fun h => ?_⟩
  have harea := h.area
  rw [hnone] at harea
  exact zero_ne_one harea

end TauTerm.Workspace
