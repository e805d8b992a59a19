import Mathlib

/-!
# Sums over a table

`tally f s` adds up `f` over the values of a table. An entry that is set adds its value, and one that
is replaced also takes away the value it had.
-/

namespace Lib

variable {α β : Type} [DecidableEq α]

def tally (f : β → Nat) (s : AList fun _ : α => β) : Nat := (s.entries.map fun e => f e.2).sum

variable {f g : β → Nat} {s : AList fun _ : α => β} {a : α} {b : β}

theorem tally_insert_new (h : s.lookup a = none) : tally f (s.insert a b) = tally f s + f b := by
  rw [tally, AList.entries_insert_of_notMem (AList.lookup_eq_none.mp h), List.map_cons, List.sum_cons,
    Nat.add_comm, tally]

theorem entries_perm (h : s.lookup a = some b) :
    List.Perm s.entries (⟨a, b⟩ :: List.kerase a s.entries) := by
  rw [← AList.entries_insert]
  refine List.lookup_ext s.nodupKeys (s.insert a b).nodupKeys fun k v => ?_
  change v ∈ s.lookup k ↔ v ∈ (s.insert a b).lookup k
  by_cases hk : k = a
  · subst hk
    rw [AList.lookup_insert, h]
  · rw [AList.lookup_insert_ne hk]

theorem tally_insert {b' : β} (h : s.lookup a = some b) :
    tally f (s.insert a b') + f b = tally f s + f b' := by
  have hs : tally f s = f b + ((List.kerase a s.entries).map fun e => f e.2).sum := by
    rw [tally, ((entries_perm h).map fun e => f e.2).sum_eq, List.map_cons, List.sum_cons]
  have hs' : tally f (s.insert a b') = f b' + ((List.kerase a s.entries).map fun e => f e.2).sum := by
    rw [tally, AList.entries_insert, List.map_cons, List.sum_cons]
  omega

theorem le_tally (h : s.lookup a = some b) : f b ≤ tally f s := by
  rw [tally, ((entries_perm h).map fun e => f e.2).sum_eq, List.map_cons, List.sum_cons]
  exact Nat.le_add_right _ _

omit [DecidableEq α] in
omit [DecidableEq α] in
theorem tally_eq_zero (h : ∀ e ∈ s.entries, f e.2 = 0) : tally f s = 0 :=
  List.sum_eq_zero fun n hn => by
    obtain ⟨e, he, rfl⟩ := List.mem_map.mp hn
    exact h e he

end Lib
