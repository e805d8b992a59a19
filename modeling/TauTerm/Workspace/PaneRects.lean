import Mathlib
import TauTerm.Lib.Rect
import TauTerm.Workspace.SplitLayout

/-!
# Where the panes stand

The rectangles of the panes, the dividers between them and the sides at which a pane
has a neighbour: three walks over the tree, the first two with the rectangle of the
subtree at hand. Lengths are fractions of the workspace. What the walks collect by pane
they keep in plain objects; an entry of such an object is one of its own properties.
-/

namespace TauTerm.Workspace

open Lib

abbrev PaneRect := Rect ℚ

structure DividerGeometry where
  splitId : SplitId
  direction : SplitDirection
  rect : PaneRect
  ratio : ℚ
deriving DecidableEq

def fullRect : PaneRect := { left := 0, top := 0, width := 1, height := 1 }

/-! ## Records of objects -/

/-- A plain object whose values are objects. One that is assigned to `__proto__` makes no
entry: it becomes the prototype. -/
structure PaneRecord (V : Type) where
  entries : JsObject V
  proto : Option V

namespace PaneRecord

variable {V : Type}

/-- `{}`. -/
def empty : PaneRecord V := ⟨JsObject.empty, none⟩

/-- `result[id] = v`. -/
def assign (result : PaneRecord V) (id : PaneId) (v : V) : PaneRecord V :=
  if id = "__proto__" then { result with proto := some v }
  else { result with entries := result.entries.define id v }

/-- A change `f` made to the object that `result[id]` gives. -/
def modify (result : PaneRecord V) (id : PaneId) (f : V → V) : PaneRecord V :=
  match result.entries.lookup id with
  | some v => { result with entries := result.entries.define id (f v) }
  | none => if id = "__proto__" then { result with proto := result.proto.map f } else result

end PaneRecord

/-! ## The three walks -/

/-- The rectangle that a walk goes into the first subtree with. -/
def firstRect (direction : SplitDirection) (ratio : ℚ) (rect : PaneRect) : PaneRect :=
  match direction with
  | .horizontal =>
    let firstWidth := rect.width * ratio
    { left := rect.left, top := rect.top, width := firstWidth, height := rect.height }
  | .vertical =>
    let firstHeight := rect.height * ratio
    { left := rect.left, top := rect.top, width := rect.width, height := firstHeight }

/-- The rectangle that a walk goes into the second subtree with. -/
def secondRect (direction : SplitDirection) (ratio : ℚ) (rect : PaneRect) : PaneRect :=
  match direction with
  | .horizontal =>
    let firstWidth := rect.width * ratio
    { left := rect.left + firstWidth, top := rect.top, width := rect.width - firstWidth,
      height := rect.height }
  | .vertical =>
    let firstHeight := rect.height * ratio
    { left := rect.left, top := rect.top + firstHeight, width := rect.width,
      height := rect.height - firstHeight }

/-- `walk` of `computePaneRects`. -/
def walkRects : LayoutNode → PaneRect → PaneRecord PaneRect → PaneRecord PaneRect
  | .pane id, rect, result => result.assign id rect
  | .split _ direction ratio first second, rect, result =>
    walkRects second (secondRect direction ratio rect)
      (walkRects first (firstRect direction ratio rect) result)

def computePaneRects (root : LayoutNode) : PaneRecord PaneRect :=
  walkRects root fullRect .empty

/-- `walk` of `computeDividerGeometries`. -/
def walkDividers : LayoutNode → PaneRect → List DividerGeometry → List DividerGeometry
  | .pane _, _, result => result
  | .split id direction ratio first second, rect, result =>
    let result := result ++ [{ splitId := id, direction, rect, ratio }]
    walkDividers second (secondRect direction ratio rect)
      (walkDividers first (firstRect direction ratio rect) result)

def computeDividerGeometries (root : LayoutNode) : List DividerGeometry :=
  walkDividers root fullRect []

/-- `mark` of `computeBlockedEdges`. -/
def mark (node : LayoutNode) (edge : SplitEdge) (result : PaneRecord (Finset SplitEdge)) :
    PaneRecord (Finset SplitEdge) :=
  (collectPaneIds node).foldl (fun result paneId => result.modify paneId (insert edge)) result

/-- `walk` of `computeBlockedEdges`. -/
def walkEdges : LayoutNode → PaneRecord (Finset SplitEdge) → PaneRecord (Finset SplitEdge)
  | .pane _, result => result
  | .split _ direction _ first second, result =>
    let result := match direction with
      | .horizontal => mark second .left (mark first .right result)
      | .vertical => mark second .top (mark first .bottom result)
    walkEdges second (walkEdges first result)

def computeBlockedEdges (root : LayoutNode) : PaneRecord (Finset SplitEdge) :=
  walkEdges root ((collectPaneIds root).foldl (fun result paneId => result.assign paneId ∅) .empty)

/-! ## What they should describe -/

/-- Every ratio is strictly between 0 and 1. -/
def RatiosInside : LayoutNode → Prop
  | .pane _ => True
  | .split _ _ ratio first second =>
    (0 < ratio ∧ ratio < 1) ∧ RatiosInside first ∧ RatiosInside second

/-- The rectangle of a pane, if it has an entry. -/
def rectOf (root : LayoutNode) (id : PaneId) : Option PaneRect :=
  (computePaneRects root).entries.lookup id

/-- The values of the entries of `computePaneRects`. -/
def paneRects (root : LayoutNode) : List PaneRect :=
  (computePaneRects root).entries.own.map Prod.snd

/-- The part of the workspace that the panes of a subtree fill. -/
def subtreeRegion (root node : LayoutNode) : Set (ℚ × ℚ) :=
  {p | ∃ id ∈ collectPaneIds node, ∃ rect, rectOf root id = some rect ∧ p ∈ rect.region}

/-- The splits of a tree, in the order in which a walk meets them. -/
def splitNodes : LayoutNode → List LayoutNode
  | .pane _ => []
  | .split id direction ratio first second =>
    .split id direction ratio first second :: (splitNodes first ++ splitNodes second)

/-- The segment that a divider is drawn along. -/
def DividerGeometry.line (divider : DividerGeometry) : Set (ℚ × ℚ) :=
  let rect := divider.rect
  match divider.direction with
  | .horizontal =>
    {rect.left + rect.width * divider.ratio} ×ˢ Set.Icc rect.top (rect.top + rect.height)
  | .vertical =>
    Set.Icc rect.left (rect.left + rect.width) ×ˢ {rect.top + rect.height * divider.ratio}

/-- The divider belongs to the split, and runs exactly where the rectangles that the panes of
the two subtrees fill have their borders in common. -/
def Divides (root : LayoutNode) : LayoutNode → DividerGeometry → Prop
  | .pane _, _ => False
  | .split id direction ratio first second, divider =>
    divider.splitId = id ∧ divider.direction = direction ∧ divider.ratio = ratio ∧
      divider.rect.region = subtreeRegion root (.split id direction ratio first second) ∧
      ∃ r₁ r₂ : PaneRect, r₁.region = subtreeRegion root first ∧
        r₂.region = subtreeRegion root second ∧ divider.line = r₁.border ∩ r₂.border

/-- One side of a rectangle. -/
def side (rect : PaneRect) : SplitEdge → Set (ℚ × ℚ)
  | .left => {rect.left} ×ˢ Set.Icc rect.top (rect.top + rect.height)
  | .right => {rect.left + rect.width} ×ˢ Set.Icc rect.top (rect.top + rect.height)
  | .top => Set.Icc rect.left (rect.left + rect.width) ×ˢ {rect.top}
  | .bottom => Set.Icc rect.left (rect.left + rect.width) ×ˢ {rect.top + rect.height}

/-- The subtree beside a pane, below the split that the pane is a side of. -/
def siblingOf (paneId : PaneId) : LayoutNode → Option LayoutNode
  | .pane _ => none
  | .split _ _ _ first second =>
    if first = .pane paneId then some second
    else if second = .pane paneId then some first
    else (siblingOf paneId first).or (siblingOf paneId second)

/-- What closing a pane leaves: the other panes in their order, with what they show, and
outside the subtree that takes the space with the rectangles they had. -/
structure Closed (state : SplitLayoutState) (paneId : PaneId) (next : SplitLayoutState) : Prop where
  panes : collectPaneIds next.root = (collectPaneIds state.root).erase paneId
  assignment : next.assignments.lookup paneId = none
  assignments : ∀ id ≠ paneId, next.assignments.lookup id = state.assignments.lookup id
  rects : ∃ sibling, siblingOf paneId state.root = some sibling ∧
    ∀ id ∈ collectPaneIds state.root, id ≠ paneId → id ∉ collectPaneIds sibling →
      rectOf next.root id = rectOf state.root id

/-- The rectangles are a tiling of the workspace, and dividers, blocked edges and the closing
of a pane go by it. -/
structure PaneGeometry (state : SplitLayoutState) : Prop where
  proper : ∀ rect ∈ paneRects state.root, 0 < rect.width ∧ 0 < rect.height
  inside : ∀ rect ∈ paneRects state.root, rect.region ⊆ fullRect.region
  disjoint : (paneRects state.root).Pairwise fun r s => Disjoint r.interior s.interior
  area : ((paneRects state.root).map Rect.area).sum = 1
  dividers : List.Forall₂ (Divides state.root) (splitNodes state.root)
    (computeDividerGeometries state.root)
  blocked : ∀ id ∈ collectPaneIds state.root, ∃ rect edges, rectOf state.root id = some rect ∧
    (computeBlockedEdges state.root).entries.lookup id = some edges ∧
    ∀ edge, edge ∈ edges ↔ ¬ side rect edge ⊆ fullRect.border
  close : ∀ paneId, match closePaneInLayout state paneId with
    | some result => Closed state paneId result.state
    | none => paneId ∉ collectPaneIds state.root ∨ state.root = .pane paneId

end TauTerm.Workspace
