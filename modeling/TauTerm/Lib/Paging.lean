import Mathlib
import TauTerm.Lib.Window

/-!
# Reading a log page by page

The reader asks for the items after the last one it has got, and gets a page: the first of them, up to
a limit. Meanwhile items leave the log at its front and come at its end. What is kept all the time is
read, once and in order.
-/

namespace Lib

variable {α : Type} (key : α → Nat)

/-- The first items after some key. -/
def page (limit after : Nat) (kept : List α) : List α :=
  (kept.filter fun x => after < key x).take limit

/-- The key to ask with next. -/
def lastKey (after : Nat) (items : List α) : Nat := (items.getLast?.map key).getD after

/-- A reader that has begun after `start` and has come to `after`, and what is kept now. -/
structure Reader (start : Nat) (kept received : List α) (after : Nat) : Prop where
  ascending : Ascending key received
  upTo : ∀ x ∈ received, key x ≤ after
  complete : ∀ x ∈ kept, start < key x → key x ≤ after → x ∈ received

variable {key} {limit start after : Nat} {kept received : List α}

theorem Reader.begin (kept : List α) : Reader key start kept [] start where
  ascending := .nil
  upTo := by simp
  complete := fun x _ hlt hle => absurd (hlt.trans_le hle) (lt_irrefl _)

/-- What is kept later was kept before, or comes after all that has been read. -/
theorem Reader.keep (h : Reader key start kept received after) {kept' : List α}
    (hkept : ∀ x ∈ kept', x ∈ kept ∨ key x ≤ start ∨ after < key x) :
    Reader key start kept' received after where
  ascending := h.ascending
  upTo := h.upTo
  complete x hx hlt hle := by
    obtain hold | hbefore | hlater := hkept x hx
    · exact h.complete x hold hlt hle
    · omega
    · omega

theorem mem_page {x : α} (h : x ∈ page key limit after kept) : x ∈ kept ∧ after < key x := by
  obtain ⟨hmem, hlt⟩ := List.mem_filter.mp (List.mem_of_mem_take h)
  exact ⟨hmem, of_decide_eq_true hlt⟩

theorem Ascending.page (h : Ascending key kept) (limit after : Nat) :
    Ascending key (page key limit after kept) :=
  (h.sublist List.filter_sublist).sublist (List.take_sublist _ _)

/-- The last key of an ascending list is the largest. -/
theorem le_lastKey {items : List α} (h : Ascending key items) {x : α} (hx : x ∈ items) :
    key x ≤ lastKey key after items := by
  obtain rfl | ⟨front, last, rfl⟩ := items.eq_nil_or_concat'
  · cases hx
  · rw [lastKey, List.getLast?_concat, Option.map_some, Option.getD_some]
    obtain hfront | hlast := List.mem_append.mp hx
    · exact ((List.pairwise_append.mp h).2.2 x hfront last (List.mem_singleton_self _)).le
    · rw [List.mem_singleton.mp hlast]

theorem le_lastKey_self {items : List α} (h : ∀ x ∈ items, after < key x) :
    after ≤ lastKey key after items := by
  obtain rfl | ⟨front, last, rfl⟩ := items.eq_nil_or_concat'
  · exact le_rfl
  · rw [lastKey, List.getLast?_concat, Option.map_some, Option.getD_some]
    exact (h last (by simp)).le

/-- What a page does not contain of the items after a key comes after the page. -/
theorem mem_page_of_le (h : Ascending key kept) {x : α} (hx : x ∈ kept) (hafter : after < key x)
    (hle : key x ≤ lastKey key after (page key limit after kept)) :
    x ∈ page key limit after kept := by
  have hfilter : x ∈ kept.filter fun x => after < key x :=
    List.mem_filter.mpr ⟨hx, decide_eq_true hafter⟩
  rw [← List.take_append_drop limit (kept.filter _)] at hfilter
  refine (List.mem_append.mp hfilter).resolve_right fun hdrop => ?_
  have hsorted : Ascending key (page key limit after kept ++
      (kept.filter fun x => after < key x).drop limit) := by
    rw [Lib.page, List.take_append_drop]
    exact h.sublist List.filter_sublist
  obtain hnil | ⟨front, last, hpage⟩ := (page key limit after kept).eq_nil_or_concat'
  · rw [hnil] at hle
    exact absurd hafter (not_lt.mpr hle)
  · rw [hpage, lastKey, List.getLast?_concat, Option.map_some, Option.getD_some] at hle
    have hlast := (List.pairwise_append.mp hsorted).2.2 last (by rw [hpage]; simp) x hdrop
    omega

/-- The keys of an ascending list go up by one at least. -/
theorem length_le_lastKey {items : List α} (h : Ascending key items)
    (hafter : ∀ x ∈ items, after < key x) : after + items.length ≤ lastKey key after items := by
  induction items using List.reverseRecOn with
  | nil => exact le_rfl
  | append_singleton front last ih =>
    have hfront : ∀ x ∈ front, after < key x := fun x hx => hafter x (List.mem_append_left _ hx)
    have hle := ih (h.sublist (List.sublist_append_left _ _)) hfront
    have hlast : lastKey key after front < key last := by
      obtain rfl | ⟨front', last', rfl⟩ := front.eq_nil_or_concat'
      · exact hafter last (by simp)
      · rw [lastKey, List.getLast?_concat, Option.map_some, Option.getD_some]
        exact (List.pairwise_append.mp h).2.2 last' (by simp) last (by simp)
    rw [lastKey, List.getLast?_concat, Option.map_some, Option.getD_some, List.length_append,
      List.length_singleton]
    omega

/-- One more page. -/
theorem Reader.ask (h : Reader key start kept received after) (hkept : Ascending key kept)
    (limit : Nat) : Reader key start kept (received ++ page key limit after kept)
      (lastKey key after (page key limit after kept)) where
  ascending := List.pairwise_append.mpr ⟨h.ascending, hkept.page limit after, fun x hx y hy =>
    (h.upTo x hx).trans_lt (mem_page hy).2⟩
  upTo x hx := by
    obtain hold | hnew := List.mem_append.mp hx
    · exact (h.upTo x hold).trans (le_lastKey_self fun y hy => (mem_page hy).2)
    · exact le_lastKey (hkept.page limit after) hnew
  complete x hx hlt hle := by
    by_cases hold : key x ≤ after
    · exact List.mem_append_left _ (h.complete x hx hlt hold)
    · exact List.mem_append_right _ (mem_page_of_le hkept hx (by omega) hle)

/-- A page brings an item, or the reader nearer to it by the size of the page. -/
theorem Reader.progress (h : Reader key start kept received after) (hkept : Ascending key kept)
    {x : α} (hx : x ∈ kept) (hlt : start < key x) :
    x ∈ received ++ page key limit after kept ∨
      after + limit ≤ lastKey key after (page key limit after kept) := by
  by_cases hold : key x ≤ after
  · exact .inl (List.mem_append_left _ (h.complete x hx hlt hold))
  by_cases hpage : x ∈ page key limit after kept
  · exact .inl (List.mem_append_right _ hpage)
  · right
    have hfull : (page key limit after kept).length = limit := by
      have hfilter : x ∈ kept.filter fun x => after < key x :=
        List.mem_filter.mpr ⟨hx, decide_eq_true (by omega)⟩
      rw [Lib.page, List.length_take]
      refine Nat.min_eq_left (Nat.le_of_not_lt fun hshort => hpage ?_)
      rwa [Lib.page, List.take_of_length_le hshort.le]
    have := length_le_lastKey (hkept.page limit after) fun y hy => (mem_page hy).2
    rwa [hfull] at this

end Lib
