import Mathlib

/-!
# Lines

A line ends with the first terminator behind its beginning, and holds it. `splitLines` gives the
lines of a list and what is behind the last terminator. How a list was put together does not change
its lines: `splitLines_append` goes on with what the first part left open.
-/

namespace Lib

variable {α β : Type} (isEnd : α → Bool)

/-- The lines of `xs`, and the beginning of the next one. -/
def splitLines : List α → List (List α) × List α
  | [] => ([], [])
  | a :: xs =>
    let r := splitLines xs
    if isEnd a then ([a] :: r.1, r.2)
    else
      match r.1 with
      | [] => ([], a :: r.2)
      | l :: ls => ((a :: l) :: ls, r.2)

/-- One terminator, at the end. -/
def IsLine (l : List α) : Prop := ∃ body a, l = body ++ [a] ∧ isEnd a ∧ ∀ b ∈ body, ¬ isEnd b

variable {isEnd} {xs ys l : List α} {a : α}

theorem splitLines_open (h : ∀ a ∈ xs, ¬ isEnd a) : splitLines isEnd xs = ([], xs) := by
  induction xs with
  | nil => rfl
  | cons a xs ih =>
    rw [splitLines, ih fun b hb => h b (List.mem_cons_of_mem a hb), if_neg (h a List.mem_cons_self)]

theorem splitLines_line (h : IsLine isEnd l) (xs : List α) :
    splitLines isEnd (l ++ xs) = (l :: (splitLines isEnd xs).1, (splitLines isEnd xs).2) := by
  obtain ⟨body, a, rfl, ha, hbody⟩ := h
  induction body with
  | nil => simp [splitLines, ha]
  | cons b body ih =>
    rw [List.cons_append, List.cons_append, splitLines, if_neg (hbody b List.mem_cons_self),
      ih fun c hc => hbody c (List.mem_cons_of_mem b hc)]

/-- Lines one behind the other are the lines of the whole. -/
theorem splitLines_flatten {ls : List (List α)} (h : ∀ l ∈ ls, IsLine isEnd l) (xs : List α) :
    splitLines isEnd (ls.flatten ++ xs) = (ls ++ (splitLines isEnd xs).1, (splitLines isEnd xs).2) := by
  induction ls with
  | nil => rfl
  | cons l ls ih =>
    rw [List.flatten_cons, List.append_assoc, splitLines_line (h l List.mem_cons_self),
      ih fun l' hl' => h l' (List.mem_cons_of_mem l hl')]
    rfl

/-- The lines of a list, what they hold together, and what is left. -/
theorem splitLines_spec (xs : List α) :
    (splitLines isEnd xs).1.flatten ++ (splitLines isEnd xs).2 = xs ∧
      (∀ l ∈ (splitLines isEnd xs).1, IsLine isEnd l) ∧ ∀ a ∈ (splitLines isEnd xs).2, ¬ isEnd a := by
  induction xs with
  | nil => simp [splitLines]
  | cons a xs ih =>
    obtain ⟨hflat, hlines, hrest⟩ := ih
    by_cases ha : isEnd a
    · rw [splitLines, if_pos ha]
      refine ⟨by rw [List.flatten_cons, List.append_assoc, hflat, List.singleton_append], ?_, hrest⟩
      intro l hl
      obtain rfl | hl := List.mem_cons.mp hl
      · exact ⟨[], a, rfl, ha, by simp⟩
      · exact hlines l hl
    · rw [splitLines, if_neg ha]
      cases hls : (splitLines isEnd xs).1 with
      | nil =>
        rw [hls] at hflat
        refine ⟨congrArg (List.cons a) hflat, by simp, ?_⟩
        intro b hb
        obtain rfl | hb := List.mem_cons.mp hb
        · exact ha
        · exact hrest b hb
      | cons l ls =>
        rw [hls] at hflat hlines
        refine ⟨congrArg (List.cons a) hflat, ?_, hrest⟩
        intro l' hl'
        obtain rfl | hl' := List.mem_cons.mp hl'
        · obtain ⟨body, e, rfl, he, hbody⟩ := hlines l List.mem_cons_self
          refine ⟨a :: body, e, rfl, he, ?_⟩
          intro b hb
          obtain rfl | hb := List.mem_cons.mp hb
          · exact ha
          · exact hbody b hb
        · exact hlines l' (List.mem_cons_of_mem l hl')

theorem flatten_splitLines (xs : List α) :
    (splitLines isEnd xs).1.flatten ++ (splitLines isEnd xs).2 = xs := (splitLines_spec xs).1

theorem splitLines_append (xs ys : List α) :
    splitLines isEnd (xs ++ ys) =
      ((splitLines isEnd xs).1 ++ (splitLines isEnd ((splitLines isEnd xs).2 ++ ys)).1,
        (splitLines isEnd ((splitLines isEnd xs).2 ++ ys)).2) := by
  have h := splitLines_flatten (fun l => (@splitLines_spec _ isEnd xs).2.1 l)
    ((splitLines isEnd xs).2 ++ ys)
  rwa [← List.append_assoc, flatten_splitLines] at h

/-- What is left open joins the first line behind it. -/
theorem splitLines_open_append (h : ∀ a ∈ xs, ¬ isEnd a) (ys : List α) :
    splitLines isEnd (xs ++ ys) =
      match splitLines isEnd ys with
      | ([], rest) => ([], xs ++ rest)
      | (l :: ls, rest) => ((xs ++ l) :: ls, rest) := by
  induction xs with
  | nil => cases hy : splitLines isEnd ys with | mk ls rest => cases ls <;> simp [hy]
  | cons a xs ih =>
    rw [List.cons_append, splitLines, if_neg (h a List.mem_cons_self),
      ih fun b hb => h b (List.mem_cons_of_mem a hb)]
    cases splitLines isEnd ys with
    | mk ls rest => cases ls <;> rfl

/-- Lines do not depend on what else the bytes carry. -/
theorem splitLines_map (f : α → β) {isEnd' : β → Bool} (h : ∀ a, isEnd' (f a) = isEnd a)
    (xs : List α) :
    splitLines isEnd' (xs.map f) =
      ((splitLines isEnd xs).1.map (List.map f), (splitLines isEnd xs).2.map f) := by
  induction xs with
  | nil => rfl
  | cons a xs ih =>
    rw [List.map_cons, splitLines, splitLines, ih, h a]
    by_cases ha : isEnd a
    · simp [ha]
    · cases hls : (splitLines isEnd xs).1 <;> simp [ha]

end Lib
