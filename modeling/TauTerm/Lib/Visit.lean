import Mathlib

/-!
# Recursion through a table

A recursion from an entry of a finite table to the entries it refers to, with the
set of entries that are being visited, so that a cycle is noticed. As many levels as
there are unvisited entries are enough (`visit_levels`). Where a rank falls along
every reference no cycle is met, and the recursion is the equation that its body
states (`visited_eq`).
-/

namespace Lib

section Visit

variable {ι δ β : Type} [DecidableEq ι]

/-- The recursion, `levels` deep at most. An entry without a level left counts as a cycle. -/
def visit (find : ι → Option δ) (cycle missing : ι → β) (body : (ι → β) → δ → β) :
    Nat → ι → List ι → β
  | 0, id, _ => cycle id
  | levels + 1, id, visiting =>
    if id ∈ visiting then cycle id
    else
      match find id with
      | none => missing id
      | some entry => body (fun child => visit find cycle missing body levels child (id :: visiting)) entry

/-- How many of the table's entries are not being visited. -/
def unvisited (ids visiting : List ι) : Nat := (ids.filter (· ∉ visiting)).length

variable {find : ι → Option δ} {cycle missing : ι → β} {body : (ι → β) → δ → β}
  {ids : List ι} {children : δ → List ι}

theorem unvisited_lt {visiting : List ι} {id : ι} (hid : id ∈ ids) (hnew : id ∉ visiting) :
    unvisited ids (id :: visiting) < unvisited ids visiting := by
  have hfilter : ids.filter (· ∉ id :: visiting) = (ids.filter (· ∉ visiting)).filter (· ≠ id) := by
    rw [List.filter_filter]
    refine List.filter_congr fun x _ => ?_
    simp [not_or]
  rw [unvisited, hfilter]
  refine List.length_filter_lt_length_iff_exists.mpr ⟨id, ?_, by simp⟩
  exact List.mem_filter.mpr ⟨hid, by simpa using hnew⟩

/-- What a body keeps carries over to more levels and fewer entries being visited. -/
theorem visit_mono {R : β → β → Prop} (hcycle : ∀ id b, R (cycle id) b)
    (hmissing : ∀ id, R (missing id) (missing id))
    (hbody : ∀ f g entry, (∀ child, R (f child) (g child)) → R (body f entry) (body g entry))
    {levels levels' : Nat} {visiting visiting' : List ι} (hlevels : levels ≤ levels')
    (hvisiting : visiting' ⊆ visiting) (id : ι) :
    R (visit find cycle missing body levels id visiting)
      (visit find cycle missing body levels' id visiting') := by
  induction levels generalizing levels' id visiting visiting' with
  | zero => exact hcycle _ _
  | succ levels ih =>
    obtain ⟨levels', rfl⟩ := Nat.exists_eq_add_one_of_ne_zero (Nat.ne_zero_of_lt hlevels)
    rw [visit, visit]
    by_cases hid : id ∈ visiting
    · rw [if_pos hid]
      exact hcycle _ _
    · rw [if_neg hid, if_neg fun hmem => hid (hvisiting hmem)]
      cases find id with
      | none => exact hmissing id
      | some entry =>
        exact hbody _ _ _ fun child =>
          ih (Nat.le_of_succ_le_succ hlevels) (List.cons_subset_cons id hvisiting) child

section

variable (hids : ∀ id entry, find id = some entry → id ∈ ids)
  (hbody : ∀ f g entry, (∀ child ∈ children entry, f child = g child) → body f entry = body g entry)

include hids hbody

/-- More levels than unvisited entries make no difference. -/
theorem visit_levels {levels levels' : Nat} {id : ι} {visiting : List ι}
    (h : unvisited ids visiting < levels) (h' : unvisited ids visiting < levels') :
    visit find cycle missing body levels id visiting =
      visit find cycle missing body levels' id visiting := by
  induction levels generalizing levels' id visiting with
  | zero => exact absurd h (Nat.not_lt_zero _)
  | succ levels ih =>
    obtain ⟨levels', rfl⟩ := Nat.exists_eq_add_one_of_ne_zero (Nat.ne_zero_of_lt h')
    rw [visit, visit]
    by_cases hid : id ∈ visiting
    · rw [if_pos hid, if_pos hid]
    · rw [if_neg hid, if_neg hid]
      cases hfind : find id with
      | none => rfl
      | some entry =>
        have hlt := unvisited_lt (hids id entry hfind) hid
        exact hbody _ _ _ fun child _ => ih (by omega) (by omega)

variable {rank : ι → Nat}
  (hrank : ∀ id entry, find id = some entry → ∀ child ∈ children entry, rank child < rank id)

include hrank

/-- Where the rank falls, it does not matter what is being visited. -/
theorem visit_rank {levels levels' : Nat} {id : ι} {visiting visiting' : List ι}
    (h : unvisited ids visiting < levels) (h' : unvisited ids visiting' < levels')
    (hv : ∀ v ∈ visiting, rank id < rank v) (hv' : ∀ v ∈ visiting', rank id < rank v) :
    visit find cycle missing body levels id visiting =
      visit find cycle missing body levels' id visiting' := by
  induction levels generalizing levels' id visiting visiting' with
  | zero => exact absurd h (Nat.not_lt_zero _)
  | succ levels ih =>
    obtain ⟨levels', rfl⟩ := Nat.exists_eq_add_one_of_ne_zero (Nat.ne_zero_of_lt h')
    have hid : id ∉ visiting := fun hmem => lt_irrefl _ (hv id hmem)
    have hid' : id ∉ visiting' := fun hmem => lt_irrefl _ (hv' id hmem)
    rw [visit, visit, if_neg hid, if_neg hid']
    cases hfind : find id with
    | none => rfl
    | some entry =>
      have hlt := unvisited_lt (hids id entry hfind) hid
      have hlt' := unvisited_lt (hids id entry hfind) hid'
      have hbelow {child : ι} (hchild : child ∈ children entry) {visiting : List ι}
          (hv : ∀ v ∈ visiting, rank id < rank v) : ∀ v ∈ id :: visiting, rank child < rank v := by
        intro v hmem
        have hc := hrank id entry hfind child hchild
        rcases List.mem_cons.mp hmem with rfl | hmem
        · exact hc
        · exact hc.trans (hv v hmem)
      exact hbody _ _ _ fun child hchild =>
        ih (by omega) (by omega) (hbelow hchild hv) (hbelow hchild hv')

/-- The recursion from the outside. -/
theorem visited_eq {levels : Nat} {id : ι} {entry : δ} (hlevels : unvisited ids [] < levels)
    (hfind : find id = some entry) :
    visit find cycle missing body levels id [] =
      body (fun child => visit find cycle missing body levels child []) entry := by
  obtain ⟨levels, rfl⟩ := Nat.exists_eq_add_one_of_ne_zero (Nat.ne_zero_of_lt hlevels)
  rw [visit, if_neg List.not_mem_nil, hfind]
  have hlt := unvisited_lt (hids id entry hfind) List.not_mem_nil
  refine hbody _ _ _ fun child hchild => visit_rank hids hbody hrank (by omega) hlevels ?_ nofun
  intro v hv
  rw [List.mem_singleton.mp hv]
  exact hrank id entry hfind child hchild

end

end Visit

end Lib
