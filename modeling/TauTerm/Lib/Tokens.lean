import Mathlib

/-!
# Tokens between separators

A text is cut where its separators are, and empty pieces are dropped. `Separates` says what the tokens of a
text are without cutting it; the two agree (`separates_iff`).
-/

namespace Lib

variable {α : Type} {p : α → Bool} {u : α} {s t : List α} {ts : List (List α)}

/-- The pieces of `s.split(/p+/)` that are not empty. -/
def tokens (p : α → Bool) (s : List α) : List (List α) := (s.splitOnP p).filter (· ≠ [])

/-- A token ends at a separator or with the text. -/
def EndsAt (p : α → Bool) : List α → Prop
  | [] => True
  | u :: _ => p u = true

inductive Separates (p : α → Bool) : List α → List (List α) → Prop
  | nil : Separates p [] []
  | separator {u : α} {s : List α} {ts : List (List α)} : p u = true → Separates p s ts → Separates p (u :: s) ts
  | token {t s : List α} {ts : List (List α)} : t ≠ [] → (∀ u ∈ t, p u = false) → EndsAt p s →
    Separates p s ts → Separates p (t ++ s) (t :: ts)

theorem tokens_separator (h : p u = true) : tokens p (u :: s) = tokens p s := by
  rw [tokens, List.splitOnP_cons_eq_if_modifyHead, if_pos h, List.filter_cons_of_neg (by simp)]
  rfl

theorem tokens_token (hne : t ≠ []) (ht : ∀ u ∈ t, p u = false) (hend : EndsAt p s) :
    tokens p (t ++ s) = t :: tokens p s := by
  cases s with
  | nil =>
    rw [List.append_nil, tokens, List.splitOnP_eq_singleton ht, List.filter_cons_of_pos (by simpa using hne)]
    rfl
  | cons u s =>
    rw [tokens, List.splitOnP_append_cons_of_forall_mem ht u hend, List.filter_cons_of_pos (by simpa using hne),
      tokens_separator hend]
    rfl

theorem Separates.tokens_eq (h : Separates p s ts) : tokens p s = ts := by
  induction h with
  | nil => rfl
  | separator hu _ ih => rw [tokens_separator hu, ih]
  | token hne ht hend _ ih => rw [tokens_token hne ht hend, ih]

/-- A text that begins with no separator begins with a token. -/
theorem exists_token (hu : p u = false) (s : List α) :
    ∃ t rest, u :: s = t ++ rest ∧ t ≠ [] ∧ (∀ v ∈ t, p v = false) ∧ EndsAt p rest := by
  refine ⟨(u :: s).takeWhile (!p ·), (u :: s).dropWhile (!p ·), ?_, ?_, fun v hv => ?_, ?_⟩
  · exact List.takeWhile_append_dropWhile.symm
  · rw [List.takeWhile_cons_of_pos (by rw [hu]; rfl)]
    exact List.cons_ne_nil _ _
  · have := List.mem_takeWhile_imp hv
    rwa [Bool.not_eq_true'] at this
  · cases hrest : (u :: s).dropWhile (!p ·) with
    | nil => trivial
    | cons v rest =>
      have hv := List.head?_dropWhile_not (!p ·) (u :: s)
      rw [hrest, List.head?_cons] at hv
      simpa [EndsAt] using hv

theorem separates_tokens (p : α → Bool) (s : List α) : Separates p s (tokens p s) := by
  induction hn : s.length using Nat.strong_induction_on generalizing s with
  | _ n ih =>
    cases s with
    | nil => exact .nil
    | cons u s =>
      cases hu : p u with
      | true =>
        rw [tokens_separator hu]
        exact .separator hu (ih s.length (by rw [← hn]; exact Nat.lt_succ_self _) s rfl)
      | false =>
        obtain ⟨t, rest, heq, hne, ht, hend⟩ := exists_token hu s
        have hlt : rest.length < n := by
          have := List.length_pos_of_ne_nil hne
          rw [← hn, heq, List.length_append]
          omega
        rw [heq, tokens_token hne ht hend]
        exact .token hne ht hend (ih rest.length hlt rest rfl)

theorem separates_iff : Separates p s ts ↔ tokens p s = ts :=
  ⟨Separates.tokens_eq, fun h => h ▸ separates_tokens p s⟩

/-- Separators around a text add no token. -/
theorem tokens_append_of_all (hs : ∀ u ∈ s, p u = true) (t : List α) : tokens p (s ++ t) = tokens p t := by
  induction s with
  | nil => rfl
  | cons u s ih =>
    rw [List.cons_append, tokens_separator (hs u List.mem_cons_self),
      ih fun v hv => hs v (List.mem_cons_of_mem u hv)]

theorem tokens_of_all (hs : ∀ u ∈ s, p u = true) : tokens p s = [] := by
  rw [← List.append_nil s, tokens_append_of_all hs]
  rfl

theorem tokens_append_right (hs : ∀ u ∈ s, p u = true) (t : List α) : tokens p (t ++ s) = tokens p t := by
  have h := separates_tokens p t
  generalize tokens p t = ts at h
  refine Separates.tokens_eq ?_
  induction h with
  | nil => exact separates_iff.mpr (tokens_of_all hs)
  | separator hu _ ih => exact .separator hu ih
  | @token t rest ts hne ht hend hrest ih =>
    rw [List.append_assoc]
    refine .token hne ht ?_ ih
    cases rest with
    | nil =>
      cases s with
      | nil => trivial
      | cons u s => exact hs u List.mem_cons_self
    | cons u rest => exact hend

/-- What is no separator is in a token. -/
theorem Separates.mem (h : Separates p s ts) (hu : u ∈ s) : p u = true ∨ ∃ t ∈ ts, u ∈ t := by
  induction h with
  | nil => cases hu
  | separator hv _ ih =>
    obtain rfl | hu := List.mem_cons.mp hu
    · exact .inl hv
    · exact ih hu
  | token _ _ _ _ ih =>
    obtain hu | hu := List.mem_append.mp hu
    · exact .inr ⟨_, List.mem_cons_self, hu⟩
    · exact (ih hu).imp_right fun ⟨t, ht, hut⟩ => ⟨t, List.mem_cons_of_mem _ ht, hut⟩

end Lib
