import Mathlib

/-!
# Rectangles and their cuts

A rectangle with axis-parallel sides over an ordered ring, as a set of points, and
what a cut from side to side leaves of it. `Tiles l r` says that the rectangles `l`
fill `r` without overlap; tilings of the two parts of a cut make one of the whole, so a
tree of cuts is a tiling by induction. What is true of a cut across the width is true
of a cut across the height with the axes exchanged.
-/

namespace Lib

structure Rect (K : Type) where
  left : K
  top : K
  width : K
  height : K
deriving DecidableEq

namespace Rect

variable {K : Type} [CommRing K] {r s first second : Rect K} {p : K × K}

def area (r : Rect K) : K := r.width * r.height

/-- The rectangle with the axes exchanged. -/
def swap (r : Rect K) : Rect K := ⟨r.top, r.left, r.height, r.width⟩

theorem area_swap : r.swap.area = r.area := mul_comm _ _

/-- `first` and `second` stand beside each other and make up `r`. -/
structure Beside (first second r : Rect K) : Prop where
  left : first.left = r.left
  meet : second.left = first.left + first.width
  width : first.width + second.width = r.width
  first_top : first.top = r.top
  second_top : second.top = r.top
  first_height : first.height = r.height
  second_height : second.height = r.height

/-- `first` and `second` are what a cut from side to side leaves of `r`. -/
inductive Cut (first second r : Rect K) : Prop
  | beside (h : first.Beside second r)
  | stacked (h : first.swap.Beside second.swap r.swap)

theorem Beside.area_eq (h : first.Beside second r) : r.area = first.area + second.area := by
  rw [area, area, area, h.first_height, h.second_height, ← h.width, add_mul]

theorem Cut.area_eq (h : Cut first second r) : r.area = first.area + second.area := by
  rcases h with h | h
  · exact h.area_eq
  · simpa only [area_swap] using h.area_eq

variable [LinearOrder K]

def region (r : Rect K) : Set (K × K) :=
  Set.Icc r.left (r.left + r.width) ×ˢ Set.Icc r.top (r.top + r.height)

def interior (r : Rect K) : Set (K × K) :=
  Set.Ioo r.left (r.left + r.width) ×ˢ Set.Ioo r.top (r.top + r.height)

def border (r : Rect K) : Set (K × K) := r.region \ r.interior

def Proper (r : Rect K) : Prop := 0 < r.width ∧ 0 < r.height

/-- The segment along which a cut runs. -/
def seam (first second : Rect K) : Set (K × K) := first.border ∩ second.border

theorem mem_region : p ∈ r.region ↔
    (r.left ≤ p.1 ∧ p.1 ≤ r.left + r.width) ∧ r.top ≤ p.2 ∧ p.2 ≤ r.top + r.height := Iff.rfl

theorem mem_interior : p ∈ r.interior ↔
    (r.left < p.1 ∧ p.1 < r.left + r.width) ∧ r.top < p.2 ∧ p.2 < r.top + r.height := Iff.rfl

theorem mem_region_swap : p ∈ r.swap.region ↔ p.swap ∈ r.region := and_comm

theorem mem_interior_swap : p ∈ r.swap.interior ↔ p.swap ∈ r.interior := and_comm

theorem mem_border_swap : p ∈ r.swap.border ↔ p.swap ∈ r.border :=
  and_congr mem_region_swap (not_congr mem_interior_swap)

theorem mem_seam_swap : p ∈ seam first.swap second.swap ↔ p.swap ∈ seam first second :=
  and_congr mem_border_swap mem_border_swap

theorem Proper.swap (h : r.Proper) : r.swap.Proper := ⟨h.2, h.1⟩

theorem Beside.disjoint (h : first.Beside second r) :
    Disjoint first.interior second.interior := by
  refine Set.disjoint_left.mpr fun p h₁ h₂ => ?_
  have hlow := (mem_interior.mp h₂).1.1
  rw [h.meet] at hlow
  exact lt_asymm hlow (mem_interior.mp h₁).1.2

theorem Cut.disjoint (h : Cut first second r) : Disjoint first.interior second.interior := by
  rcases h with h | h
  · exact h.disjoint
  · refine Set.disjoint_left.mpr fun p h₁ h₂ => ?_
    exact Set.disjoint_left.mp h.disjoint (mem_interior_swap.mpr (p.swap_swap.symm ▸ h₁))
      (mem_interior_swap.mpr (p.swap_swap.symm ▸ h₂))

/-- The rectangles of `l` fill `r` and overlap at their borders only. -/
structure Tiles (l : List (Rect K)) (r : Rect K) : Prop where
  proper : ∀ s ∈ l, s.Proper
  region_eq : r.region = {p | ∃ s ∈ l, p ∈ s.region}
  disjoint : l.Pairwise fun s t => Disjoint s.interior t.interior
  area_eq : (l.map area).sum = r.area

theorem Tiles.single (h : r.Proper) : Tiles [r] r where
  proper := by simpa using h
  region_eq := by simp
  disjoint := List.pairwise_singleton _ r
  area_eq := List.sum_singleton

theorem Tiles.subset {l : List (Rect K)} (h : Tiles l r) (hs : s ∈ l) : s.region ⊆ r.region := by
  rw [h.region_eq]
  exact fun p hp => ⟨s, hs, hp⟩

/-! ## Over an ordered ring -/

variable [IsStrictOrderedRing K]

theorem Proper.corner_mem (h : r.Proper) : (r.left, r.top) ∈ r.region :=
  ⟨⟨le_refl _, by linarith [h.1]⟩, le_refl _, by linarith [h.2]⟩

theorem Proper.opposite_mem (h : r.Proper) : (r.left + r.width, r.top + r.height) ∈ r.region :=
  ⟨⟨by linarith [h.1], le_refl _⟩, by linarith [h.2], le_refl _⟩

/-- A rectangle inside another has its interior inside that one's. -/
theorem interior_mono (hs : s.Proper) (h : s.region ⊆ r.region) : s.interior ⊆ r.interior := by
  intro p hp
  have hlow := mem_region.mp (h hs.corner_mem)
  have hhigh := mem_region.mp (h hs.opposite_mem)
  obtain ⟨⟨h₁, h₂⟩, h₃, h₄⟩ := mem_interior.mp hp
  exact ⟨⟨hlow.1.1.trans_lt h₁, h₂.trans_le hhigh.1.2⟩, hlow.2.1.trans_lt h₃, h₄.trans_le hhigh.2.2⟩

theorem Beside.region_eq (h : first.Beside second r) (h₁ : first.Proper) (h₂ : second.Proper) :
    r.region = first.region ∪ second.region := by
  ext p
  rw [Set.mem_union, mem_region, mem_region, mem_region, h.first_top, h.second_top,
    h.first_height, h.second_height, ← or_and_right]
  refine and_congr_left fun _ => ?_
  have hmeet := h.meet
  have hleft := h.left
  have hwidth := h.width
  obtain ⟨h₁, -⟩ := h₁
  obtain ⟨h₂, -⟩ := h₂
  constructor
  · rintro ⟨hl, hr⟩
    rcases le_total p.1 (first.left + first.width) with hp | hp
    · exact .inl ⟨by linarith, hp⟩
    · exact .inr ⟨by linarith, by linarith⟩
  · rintro (⟨hl, hr⟩ | ⟨hl, hr⟩)
    · exact ⟨by linarith, by linarith⟩
    · exact ⟨by linarith, by linarith⟩

/-- Two rectangles beside each other touch along the whole of the side between them. -/
theorem Beside.seam_eq (h : first.Beside second r) (h₁ : first.Proper) (h₂ : second.Proper) :
    seam first second = {second.left} ×ˢ Set.Icc r.top (r.top + r.height) := by
  obtain ⟨h₁, -⟩ := h₁
  obtain ⟨h₂, -⟩ := h₂
  have hmeet := h.meet
  ext p
  constructor
  · rintro ⟨⟨hp₁, -⟩, ⟨hp₂, -⟩⟩
    have hlow := hp₂.1.1
    have hhigh := hp₁.1.2
    have hin := hp₁.2
    rw [h.first_top, h.first_height] at hin
    exact ⟨le_antisymm (by linarith) hlow, hin⟩
  · rintro ⟨hp, hin⟩
    have hp : p.1 = second.left := hp
    refine ⟨⟨⟨⟨?_, ?_⟩, ?_⟩, fun hint => ?_⟩, ⟨⟨⟨?_, ?_⟩, ?_⟩, fun hint => ?_⟩⟩
    · linarith
    · linarith
    · rw [h.first_top, h.first_height]
      exact hin
    · have hlt := hint.1.2
      linarith
    · linarith
    · linarith
    · rw [h.second_top, h.second_height]
      exact hin
    · have hlt := hint.1.1
      linarith

/-- The same for two rectangles on top of each other. -/
theorem seam_of_stacked (h : first.swap.Beside second.swap r.swap) (h₁ : first.Proper)
    (h₂ : second.Proper) :
    seam first second = Set.Icc r.left (r.left + r.width) ×ˢ {second.top} := by
  ext p
  have hswap := Set.ext_iff.mp (h.seam_eq h₁.swap h₂.swap) p.swap
  rw [mem_seam_swap, Prod.swap_swap] at hswap
  exact hswap.trans and_comm

theorem Cut.region_eq (h : Cut first second r) (h₁ : first.Proper) (h₂ : second.Proper) :
    r.region = first.region ∪ second.region := by
  rcases h with h | h
  · exact h.region_eq h₁ h₂
  · ext p
    have hswap := Set.ext_iff.mp (h.region_eq h₁.swap h₂.swap) p.swap
    rwa [Set.mem_union, mem_region_swap, mem_region_swap, mem_region_swap, Prod.swap_swap] at hswap

/-- Tilings of the two parts of a cut tile the whole. -/
theorem Tiles.append {l₁ l₂ : List (Rect K)} (hcut : Cut first second r) (h₁ : first.Proper)
    (h₂ : second.Proper) (hl₁ : Tiles l₁ first) (hl₂ : Tiles l₂ second) : Tiles (l₁ ++ l₂) r where
  proper s hs := (List.mem_append.mp hs).elim (hl₁.proper s) (hl₂.proper s)
  region_eq := by
    rw [hcut.region_eq h₁ h₂, hl₁.region_eq, hl₂.region_eq]
    ext p
    simp only [Set.mem_union, Set.mem_ofPred_eq, List.mem_append, or_and_right, exists_or]
  disjoint := by
    refine List.pairwise_append.mpr ⟨hl₁.disjoint, hl₂.disjoint, fun s hs t ht => ?_⟩
    have hs' := interior_mono (hl₁.proper s hs) (hl₁.subset hs)
    have ht' := interior_mono (hl₂.proper t ht) (hl₂.subset ht)
    exact hcut.disjoint.mono hs' ht'
  area_eq := by
    rw [List.map_append, List.sum_append, hl₁.area_eq, hl₂.area_eq, hcut.area_eq]

end Rect

end Lib
