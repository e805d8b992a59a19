import Mathlib

/-!
# Time that is charged

Stretches of time are charged to keys, in the order in which they pass. As long as no two of them
overlap, what all the keys are charged with together is no more than the time that has passed.
-/

namespace Lib

/-- The time from `start` up to `stop`, charged to `key`. -/
structure Charge (κ : Type) where
  key : κ
  start : Nat
  stop : Nat
  deriving DecidableEq

namespace Charge

variable {κ : Type} {lo hi start stop : Nat} {c : Charge κ} {cs : List (Charge κ)}

def length (c : Charge κ) : Nat := c.stop - c.start

/-- No time is in both. -/
def Apart (c d : Charge κ) : Prop := c.stop ≤ d.start ∨ d.stop ≤ c.start

def total (cs : List (Charge κ)) : Nat := (cs.map length).sum

/-- What `key` is charged with. -/
def charged [DecidableEq κ] (key : κ) (cs : List (Charge κ)) : Nat :=
  total (cs.filter fun c => c.key = key)

/-- The charges lie between `lo` and `hi`, one behind the other. -/
structure Chronological (lo hi : Nat) (cs : List (Charge κ)) : Prop where
  ordered : cs.Pairwise fun c d => c.stop ≤ d.start
  within : ∀ c ∈ cs, lo ≤ c.start ∧ c.start ≤ c.stop ∧ c.stop ≤ hi

theorem chronological_nil : Chronological lo hi ([] : List (Charge κ)) := ⟨.nil, nofun⟩

theorem Chronological.mono {hi' : Nat} (h : Chronological lo hi cs) (hhi : hi ≤ hi') :
    Chronological lo hi' cs :=
  ⟨h.ordered, fun c hc => by
    obtain ⟨hlo, hle, hstop⟩ := h.within c hc
    exact ⟨hlo, hle, hstop.trans hhi⟩⟩

theorem Chronological.filter (h : Chronological lo hi cs) (p : Charge κ → Bool) :
    Chronological lo hi (cs.filter p) :=
  ⟨h.ordered.filter p, fun c hc => h.within c (List.mem_of_mem_filter hc)⟩

/-- A charge behind all the others. -/
theorem Chronological.concat (h : Chronological lo hi cs) (key : κ) (hlo : lo ≤ start)
    (hstart : hi ≤ start) (hstop : start ≤ stop) :
    Chronological lo stop (cs ++ [⟨key, start, stop⟩]) := by
  refine ⟨List.pairwise_append.mpr ⟨h.ordered, List.pairwise_singleton _ _, ?_⟩, ?_⟩
  · intro c hc d hd
    obtain rfl := List.mem_singleton.mp hd
    obtain ⟨-, -, hle⟩ := h.within c hc
    exact hle.trans hstart
  · intro c hc
    rcases List.mem_append.mp hc with hc | hc
    · obtain ⟨hfrom, hle, hto⟩ := h.within c hc
      exact ⟨hfrom, hle, by omega⟩
    · obtain rfl := List.mem_singleton.mp hc
      exact ⟨hlo, hstop, le_rfl⟩

theorem Chronological.apart (h : Chronological lo hi cs) : cs.Pairwise Apart :=
  h.ordered.imp fun hle => .inl hle

/-- Charges that do not overlap add up to no more than the time that has passed. -/
theorem Chronological.total_le (h : Chronological lo hi cs) (hle : lo ≤ hi) :
    total cs ≤ hi - lo := by
  induction cs generalizing lo with
  | nil => exact Nat.zero_le _
  | cons c cs ih =>
    obtain ⟨hfirst, hordered⟩ := List.pairwise_cons.mp h.ordered
    obtain ⟨hlo, hstart, hstop⟩ := h.within c List.mem_cons_self
    have hrest : Chronological c.stop hi cs := ⟨hordered, fun d hd => by
      obtain ⟨-, hd', hdstop⟩ := h.within d (List.mem_cons_of_mem c hd)
      exact ⟨hfirst d hd, hd', hdstop⟩⟩
    have hsum : total (c :: cs) = c.stop - c.start + total cs := rfl
    have := ih hrest hstop
    omega

section Keys

variable [DecidableEq κ] {key : κ}

theorem charged_append (cs ds : List (Charge κ)) :
    charged key (cs ++ ds) = charged key cs + charged key ds := by
  simp [charged, total, List.filter_append]

@[simp] theorem charged_nil : charged key ([] : List (Charge κ)) = 0 := rfl

theorem charged_singleton (c : Charge κ) :
    charged key [c] = if c.key = key then c.length else 0 := by
  by_cases h : c.key = key
  · simp [charged, total, h]
  · simp [charged, total, h]

theorem charged_cons (c : Charge κ) (cs : List (Charge κ)) :
    charged key (c :: cs) = (if c.key = key then c.length else 0) + charged key cs := by
  rw [← List.singleton_append, charged_append, charged_singleton]

/-- Forget what one key was charged with. -/
theorem charged_filter_ne (key' : κ) :
    charged key (cs.filter fun c => c.key ≠ key') = if key = key' then 0 else charged key cs := by
  induction cs with
  | nil => simp
  | cons c cs ih =>
    by_cases hc : c.key = key'
    · rw [List.filter_cons_of_neg (by simpa using hc), ih, charged_cons]
      by_cases hk : key = key'
      · rw [if_pos hk, if_pos hk]
      · rw [if_neg hk, if_neg hk, if_neg (fun h => hk (h.symm.trans hc)), Nat.zero_add]
    · rw [List.filter_cons_of_pos (by simpa using hc), charged_cons, ih, charged_cons]
      by_cases hk : key = key'
      · rw [if_pos hk, if_pos hk, if_neg (fun h => hc (h.trans hk))]
      · rw [if_neg hk, if_neg hk]

theorem charged_le_total : charged key cs ≤ total cs := by
  induction cs with
  | nil => exact le_rfl
  | cons c cs ih =>
    have hsum : total (c :: cs) = c.length + total cs := rfl
    rw [charged_cons, hsum]
    split_ifs <;> omega

theorem sum_ite_le {keys : List κ} (hkeys : keys.Nodup) (key : κ) (n : Nat) :
    (keys.map fun key' => if key = key' then n else 0).sum ≤ n := by
  induction keys with
  | nil => exact Nat.zero_le _
  | cons key' keys ih =>
    obtain ⟨hnot, hrest⟩ := List.nodup_cons.mp hkeys
    by_cases h : key = key'
    · subst h
      have hzero : (keys.map fun key' => if key = key' then n else 0).sum = 0 := by
        rw [List.sum_eq_zero]
        intro x hx
        obtain ⟨key', hmem, rfl⟩ := List.mem_map.mp hx
        refine if_neg fun (heq : key = key') => hnot ?_
        rwa [heq]
      simp [hzero]
    · simpa [h] using ih hrest

/-- No charge counts for two keys. -/
theorem sum_charged_le {keys : List κ} (hkeys : keys.Nodup) :
    (keys.map fun key => charged key cs).sum ≤ total cs := by
  induction cs with
  | nil => simp [total]
  | cons c cs ih =>
    have hsum : total (c :: cs) = c.length + total cs := rfl
    have hone := sum_ite_le hkeys c.key c.length
    simp only [charged_cons, List.sum_map_add]
    omega

end Keys

end Charge

end Lib
