import Mathlib

/-!
# Line endings

A text over any alphabet with two marks, `cr` and `lf`: the endings it has, the text with all of
them replaced by `lf`, and the text with every `lf` written as one of the three endings. What is
unified can be written back exactly if there was one kind of ending only.
-/

namespace Lib

inductive LineEnding where
  | lf
  | crlf
  | cr
  deriving DecidableEq

variable {α : Type} [DecidableEq α]

/-- Every `a` with `b` behind it is replaced by `c`, from left to right. -/
def replacePair (a b c : α) : List α → List α
  | x :: y :: rest =>
    if x = a ∧ y = b then c :: replacePair a b c rest else x :: replacePair a b c (y :: rest)
  | short => short

def replaceOne (a : α) (ys : List α) (l : List α) : List α :=
  l.flatMap fun x => if x = a then ys else [x]

section

variable (cr lf : α)

def LineEnding.written : LineEnding → List α
  | .lf => [lf]
  | .crlf => [cr, lf]
  | .cr => [cr]

/-- All endings become `lf`. -/
def unify (l : List α) : List α := replaceOne cr [lf] (replacePair cr lf lf l)

/-- Every `lf` is written as the ending. -/
def expand (e : LineEnding) (l : List α) : List α := replaceOne lf (e.written cr lf) l

/-- The endings of a text, in order. -/
def lineEndings : List α → List LineEnding
  | x :: y :: rest =>
    if x = cr then
      if y = lf then .crlf :: lineEndings rest else .cr :: lineEndings (y :: rest)
    else if x = lf then .lf :: lineEndings (y :: rest)
    else lineEndings (y :: rest)
  | [x] => if x = cr then [.cr] else if x = lf then [.lf] else []
  | [] => []

end

variable {cr lf : α} {e : LineEnding} {l : List α}

theorem replaceOne_cons (a : α) (ys : List α) (x : α) (l : List α) :
    replaceOne a ys (x :: l) = (if x = a then ys else [x]) ++ replaceOne a ys l := List.flatMap_cons

theorem replaceOne_of_not_mem {a : α} {ys : List α} (h : a ∉ l) : replaceOne a ys l = l := by
  induction l with
  | nil => rfl
  | cons x l ih =>
    rw [List.mem_cons, not_or] at h
    rw [replaceOne_cons, if_neg (Ne.symm h.1), ih h.2]
    rfl

theorem replacePair_of_not_mem {a b c : α} (h : a ∉ l) : replacePair a b c l = l := by
  induction l with
  | nil => rfl
  | cons x l ih =>
    rw [List.mem_cons, not_or] at h
    cases l with
    | nil => rfl
    | cons y l => rw [replacePair, if_neg fun hx => h.1 hx.1.symm, ih h.2]

theorem replacePair_cons_of_ne {a b c x : α} (h : x ≠ a) (l : List α) :
    replacePair a b c (x :: l) = x :: replacePair a b c l := by
  cases l with
  | nil => rfl
  | cons y l => rw [replacePair, if_neg fun hx => h hx.1]

/-! ## The equations of `unify` -/

@[simp] theorem unify_nil : unify cr lf [] = [] := rfl

theorem unify_crlf (l : List α) (hne : cr ≠ lf) :
    unify cr lf (cr :: lf :: l) = lf :: unify cr lf l := by
  rw [unify, replacePair, if_pos ⟨rfl, rfl⟩, replaceOne_cons, if_neg (Ne.symm hne)]
  rfl

theorem unify_cr (h : l.head? ≠ some lf) : unify cr lf (cr :: l) = lf :: unify cr lf l := by
  have hpair : replacePair cr lf lf (cr :: l) = cr :: replacePair cr lf lf l := by
    cases l with
    | nil => rfl
    | cons y l => rw [replacePair, if_neg fun hy => h (congrArg some hy.2)]
  rw [unify, hpair, replaceOne_cons, if_pos rfl]
  rfl

example : unify 13 10 [97, 13, 10, 98, 13] = [97, 10, 98, 10] := by decide +kernel

theorem unify_cons {x : α} (h : x ≠ cr) (l : List α) : unify cr lf (x :: l) = x :: unify cr lf l := by
  rw [unify, replacePair_cons_of_ne h, replaceOne_cons, if_neg h]
  rfl

theorem lineEndings_crlf (l : List α) :
    lineEndings cr lf (cr :: lf :: l) = .crlf :: lineEndings cr lf l := by
  rw [lineEndings, if_pos rfl, if_pos rfl]

theorem lineEndings_cr (h : l.head? ≠ some lf) :
    lineEndings cr lf (cr :: l) = .cr :: lineEndings cr lf l := by
  cases l with
  | nil => exact if_pos rfl
  | cons y l => rw [lineEndings, if_pos rfl, if_neg fun hy => h (congrArg some hy)]

theorem lineEndings_lf (hne : cr ≠ lf) (l : List α) :
    lineEndings cr lf (lf :: l) = .lf :: lineEndings cr lf l := by
  cases l with
  | nil => rw [lineEndings, if_neg (Ne.symm hne), if_pos rfl, lineEndings]
  | cons y l => rw [lineEndings, if_neg (Ne.symm hne), if_pos rfl]

theorem lineEndings_cons {x : α} (hcr : x ≠ cr) (hlf : x ≠ lf) (l : List α) :
    lineEndings cr lf (x :: l) = lineEndings cr lf l := by
  cases l with
  | nil => rw [lineEndings, if_neg hcr, if_neg hlf, lineEndings]
  | cons y l => rw [lineEndings, if_neg hcr, if_neg hlf]

/-- A text ends, or begins with one of the endings or with something else. -/
theorem endingInduction {P : List α → Prop} (hne : cr ≠ lf) (nil : P [])
    (crlf : ∀ l, P l → P (cr :: lf :: l)) (lone : ∀ l, l.head? ≠ some lf → P l → P (cr :: l))
    (feed : ∀ l, P l → P (lf :: l)) (other : ∀ x l, x ≠ cr → x ≠ lf → P l → P (x :: l))
    (l : List α) : P l := by
  induction hn : l.length using Nat.strong_induction_on generalizing l with
  | _ n ih =>
    cases l with
    | nil => exact nil
    | cons x l =>
      have hl := ih l.length (by simp at hn; omega) l rfl
      by_cases hcr : x = cr
      · subst hcr
        cases l with
        | nil => exact lone [] nofun nil
        | cons y l =>
          by_cases hlf : y = lf
          · subst hlf
            exact crlf l (ih l.length (by simp at hn; omega) l rfl)
          · exact lone _ (fun h => hlf (Option.some.inj h)) hl
      · by_cases hlf : x = lf
        · exact hlf ▸ feed l hl
        · exact other x l hcr hlf hl

/-! ## There and back -/

/-- Where all endings are of one kind, the text is got back. -/
theorem expand_unify (hne : cr ≠ lf) (h : ∀ e' ∈ lineEndings cr lf l, e' = e) :
    expand cr lf e (unify cr lf l) = l := by
  induction l using endingInduction hne with
  | nil => rfl
  | crlf l ih =>
    rw [lineEndings_crlf, List.forall_mem_cons] at h
    obtain ⟨rfl, h⟩ := h
    rw [unify_crlf l hne, expand, replaceOne_cons, if_pos rfl, ← expand, ih h]
    rfl
  | lone l hl ih =>
    rw [lineEndings_cr hl, List.forall_mem_cons] at h
    obtain ⟨rfl, h⟩ := h
    rw [unify_cr hl, expand, replaceOne_cons, if_pos rfl, ← expand, ih h]
    rfl
  | feed l ih =>
    rw [lineEndings_lf hne, List.forall_mem_cons] at h
    obtain ⟨rfl, h⟩ := h
    rw [unify_cons (Ne.symm hne), expand, replaceOne_cons, if_pos rfl, ← expand, ih h]
    rfl
  | other x l hcr hlf ih =>
    rw [lineEndings_cons hcr hlf] at h
    rw [unify_cons hcr, expand, replaceOne_cons, if_neg hlf, ← expand, ih h]
    rfl

theorem not_mem_unify (hne : cr ≠ lf) (l : List α) : cr ∉ unify cr lf l := by
  induction l using endingInduction hne with
  | nil => exact List.not_mem_nil
  | crlf l ih =>
    rw [unify_crlf l hne, List.mem_cons, not_or]
    exact ⟨hne, ih⟩
  | lone l hl ih =>
    rw [unify_cr hl, List.mem_cons, not_or]
    exact ⟨hne, ih⟩
  | feed l ih =>
    rw [unify_cons (Ne.symm hne), List.mem_cons, not_or]
    exact ⟨hne, ih⟩
  | other x l hcr hlf ih =>
    rw [unify_cons hcr, List.mem_cons, not_or]
    exact ⟨Ne.symm hcr, ih⟩

theorem unify_of_not_mem (h : cr ∉ l) : unify cr lf l = l := by
  rw [unify, replacePair_of_not_mem h, replaceOne_of_not_mem h]

/-- Whatever the ending, a text without `cr` is got back. -/
theorem unify_expand (hne : cr ≠ lf) (h : cr ∉ l) (e : LineEnding) :
    unify cr lf (expand cr lf e l) = l := by
  induction l with
  | nil => rfl
  | cons x l ih =>
    rw [List.mem_cons, not_or] at h
    have hl := ih h.2
    rw [expand, replaceOne_cons, ← expand]
    split_ifs with hx
    · subst hx
      cases e with
      | lf => exact (unify_cons (Ne.symm hne) _).trans (congrArg _ hl)
      | crlf => exact (unify_crlf _ hne).trans (congrArg _ hl)
      | cr =>
        -- what follows does not begin with `lf`, as every `lf` is written otherwise
        have hhead : (expand cr x .cr l).head? ≠ some x := by
          cases l with
          | nil => nofun
          | cons y l =>
            rw [expand, replaceOne_cons]
            split_ifs with hy
            · exact fun heq => hne (Option.some.inj heq)
            · exact fun heq => hy (Option.some.inj heq)
        exact (unify_cr hhead).trans (congrArg _ hl)
    · exact (unify_cons (Ne.symm h.1) _).trans (congrArg _ hl)

/-- The first character is kept, unless it is an ending. -/
theorem head?_unify_expand {x : α} (hcr : x ≠ cr) (hlf : x ≠ lf) (hne : cr ≠ lf) :
    (expand cr lf e (unify cr lf l)).head? = some x ↔ l.head? = some x := by
  induction l using endingInduction hne with
  | nil => rfl
  | crlf l =>
    rw [unify_crlf l hne, expand, replaceOne_cons, if_pos rfl]
    cases e <;> simp [LineEnding.written, Ne.symm hcr, Ne.symm hlf]
  | lone l hl =>
    rw [unify_cr hl, expand, replaceOne_cons, if_pos rfl]
    cases e <;> simp [LineEnding.written, Ne.symm hcr, Ne.symm hlf]
  | feed l =>
    rw [unify_cons (Ne.symm hne), expand, replaceOne_cons, if_pos rfl]
    cases e <;> simp [LineEnding.written, Ne.symm hcr, Ne.symm hlf]
  | other y l hcr' hlf' =>
    rw [unify_cons hcr', expand, replaceOne_cons, if_neg hlf']
    rfl

/-! ## Other alphabets -/

theorem unify_append_of_not_mem {l' : List α} (h : cr ∉ l) :
    unify cr lf (l ++ l') = l ++ unify cr lf l' := by
  induction l with
  | nil => rfl
  | cons x l ih =>
    rw [List.mem_cons, not_or] at h
    rw [List.cons_append, unify_cons (Ne.symm h.1), ih h.2]
    rfl

/-- A spelling of one alphabet in another that has marks of its own, which nothing else uses. -/
structure Spelling {β : Type} (cr lf : α) (cr' lf' : β) (w : α → List β) : Prop where
  at_cr : w cr = [cr']
  at_lf : w lf = [lf']
  ne_nil : ∀ x, w x ≠ []
  cr_only : ∀ x, x ≠ cr → cr' ∉ w x
  lf_only : ∀ x, x ≠ lf → lf' ∉ w x

variable {β : Type} [DecidableEq β] {cr' lf' : β} {w : α → List β}

theorem Spelling.unify_flatMap (h : Spelling cr lf cr' lf' w) (hne : cr ≠ lf) (hne' : cr' ≠ lf')
    (l : List α) : unify cr' lf' (l.flatMap w) = (unify cr lf l).flatMap w := by
  induction l using endingInduction hne with
  | nil => rfl
  | crlf l ih =>
    rw [List.flatMap_cons, List.flatMap_cons, h.at_cr, h.at_lf, unify_crlf l hne, List.flatMap_cons, h.at_lf,
      ← ih]
    exact unify_crlf _ hne'
  | lone l hl ih =>
    have hhead : (l.flatMap w).head? ≠ some lf' := by
      cases l with
      | nil => nofun
      | cons y l =>
        obtain ⟨u, us, hu⟩ := List.exists_cons_of_ne_nil (h.ne_nil y)
        have hy : lf' ∉ w y := h.lf_only y fun heq => hl (congrArg some heq)
        rw [List.flatMap_cons, hu]
        rintro ⟨⟩
        exact hy (hu ▸ List.mem_cons_self)
    rw [List.flatMap_cons, h.at_cr, unify_cr hl, List.flatMap_cons, h.at_lf, ← ih]
    exact unify_cr hhead
  | feed l ih =>
    rw [List.flatMap_cons, h.at_lf, unify_cons (Ne.symm hne), List.flatMap_cons, h.at_lf, ← ih]
    exact unify_cons (Ne.symm hne') _
  | other x l hcr hlf ih =>
    rw [List.flatMap_cons, unify_cons hcr, List.flatMap_cons, ← ih,
      unify_append_of_not_mem (h.cr_only x hcr)]

theorem Spelling.expand_flatMap (h : Spelling cr lf cr' lf' w) (e : LineEnding) (l : List α) :
    expand cr' lf' e (l.flatMap w) = (expand cr lf e l).flatMap w := by
  have hwritten : e.written cr' lf' = (e.written cr lf).flatMap w := by
    cases e <;> simp [LineEnding.written, h.at_cr, h.at_lf]
  have happend : ∀ a b : List β, replaceOne lf' (e.written cr' lf') (a ++ b) =
      replaceOne lf' (e.written cr' lf') a ++ replaceOne lf' (e.written cr' lf') b := fun a b =>
    List.flatMap_append
  induction l with
  | nil => rfl
  | cons x l ih =>
    have hcons : expand cr lf e (x :: l) =
        (if x = lf then e.written cr lf else [x]) ++ expand cr lf e l := rfl
    have hfirst : replaceOne lf' (e.written cr' lf') (w x) =
        (if x = lf then e.written cr lf else [x]).flatMap w := by
      split_ifs with hx
      · rw [hx, h.at_lf, replaceOne_cons, if_pos rfl, hwritten]
        exact List.append_nil _
      · rw [replaceOne_of_not_mem (h.lf_only x hx), List.flatMap_singleton]
    rw [hcons, List.flatMap_append, ← ih, ← hfirst]
    exact happend _ _

end Lib
