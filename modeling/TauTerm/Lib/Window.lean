import Mathlib

/-!
# Windows of a log

Items carry a key, and a log is a set of them. A list is a `Window` of the log if its keys go up and
no item of the log is missing between two of its own. Windows are cut at the front, extended at the
end and merged. `mergeByKey` is the merge by a map from keys to items.
-/

namespace Lib

variable {α : Type}

/-! ## Cutting at the front -/

section Trim

variable (weight : α → Nat)

def weigh (l : List α) : Nat := (l.map weight).sum

/-- Items are dropped at the front as long as `total` is above the limit. -/
def trimFront (limit : Nat) : Nat → List α → List α
  | _, [] => []
  | total, x :: l => if limit < total then trimFront limit (total - weight x) l else x :: l

variable {weight} {limit : Nat} {l : List α}

@[simp] theorem weigh_nil : weigh weight [] = 0 := rfl

@[simp] theorem weigh_cons (x : α) (l : List α) :
    weigh weight (x :: l) = weight x + weigh weight l := by
  rw [weigh, List.map_cons, List.sum_cons, weigh]

@[simp] theorem weigh_append (l l' : List α) :
    weigh weight (l ++ l') = weigh weight l + weigh weight l' := by
  rw [weigh, List.map_append, List.sum_append, weigh, weigh]

theorem weigh_drop_le (n : Nat) (l : List α) : weigh weight (l.drop n) ≤ weigh weight l := by
  have h := @weigh_append _ weight (l.take n) (l.drop n)
  rw [List.take_append_drop] at h
  omega

theorem trimFront_drop (total : Nat) (l : List α) :
    ∃ n, trimFront weight limit total l = l.drop n := by
  induction l generalizing total with
  | nil => exact ⟨0, rfl⟩
  | cons x l ih =>
    rw [trimFront]
    split
    · obtain ⟨n, hn⟩ := ih (total - weight x)
      exact ⟨n + 1, hn⟩
    · exact ⟨0, rfl⟩

theorem weigh_trimFront (l : List α) :
    weigh weight (trimFront weight limit (weigh weight l) l) ≤ limit := by
  induction l with
  | nil => exact Nat.zero_le limit
  | cons x l ih =>
    rw [trimFront]
    split
    · rwa [weigh_cons, Nat.add_sub_cancel_left]
    · omega

theorem weigh_le {bound : Nat} (h : ∀ x ∈ l, weight x ≤ bound) :
    weigh weight l ≤ l.length * bound := by
  induction l with
  | nil => simp
  | cons x l ih =>
    have hx := h x List.mem_cons_self
    have hl := ih fun y hy => h y (List.mem_cons_of_mem _ hy)
    rw [weigh_cons, List.length_cons, Nat.succ_mul]
    omega

theorem trimFront_of_le {total : Nat} (h : total ≤ limit) (l : List α) :
    trimFront weight limit total l = l := by
  cases l with
  | nil => rfl
  | cons x l => rw [trimFront, if_neg (by omega)]

end Trim

variable (key : α → Nat)

def Ascending (l : List α) : Prop := l.Pairwise fun a b => key a < key b

/-! ## Merging by key -/

/-- An entry of a map that lists its items in the order in which their keys came. -/
def put (m : List α) (x : α) : List α :=
  if m.any fun y => key y = key x then m.map fun y => if key y = key x then x else y else m ++ [x]

/-- The items of both in the order of their keys; of two with the same key the later one counts. -/
def mergeByKey (l l' : List α) : List α :=
  ((l ++ l').foldl (put key) []).insertionSort fun x y => key x ≤ key y

variable {key}

theorem put_eq (m : List α) (x : α) : put key m x =
    if m.any fun y => key y = key x then m.map fun y => if key y = key x then x else y
    else m ++ [x] := rfl

theorem mem_put {m : List α} {x y : α} (h : y ∈ put key m x) : y = x ∨ y ∈ m := by
  rw [put_eq] at h
  split at h
  · obtain ⟨z, hz, rfl⟩ := List.mem_map.mp h
    split
    · exact .inl rfl
    · exact .inr hz
  · simpa [or_comm] using h

theorem put_keys {m : List α} (h : (m.map key).Nodup) (x : α) : ((put key m x).map key).Nodup := by
  rw [put_eq]
  split
  · rw [List.map_map]
    convert h using 1
    refine List.map_congr_left fun y _ => ?_
    simp only [Function.comp_apply]
    split
    · rename_i hkey
      exact hkey.symm
    · rfl
  · rename_i hnew
    rw [List.map_append, List.map_singleton]
    refine List.Nodup.append h (List.nodup_singleton _) (List.disjoint_singleton.mpr fun hmem => hnew ?_)
    obtain ⟨y, hy, hkey⟩ := List.mem_map.mp hmem
    exact List.any_eq_true.mpr ⟨y, hy, decide_eq_true hkey⟩

theorem length_put_le (m : List α) (x : α) : (put key m x).length ≤ m.length + 1 := by
  rw [put_eq]
  split
  · rw [List.length_map]
    exact Nat.le_succ _
  · rw [List.length_append, List.length_singleton]

/-- Where a key stands for one item, nothing is lost in a map. -/
theorem mem_put_iff {m : List α} {x y : α} (h : ∀ z ∈ m, key z = key x → z = x) :
    y ∈ put key m x ↔ y = x ∨ y ∈ m := by
  refine ⟨mem_put, fun hy => ?_⟩
  rw [put_eq]
  split
  · rename_i hany
    obtain ⟨z, hz, hkey⟩ := List.any_eq_true.mp hany
    have hzx : z = x := h z hz (of_decide_eq_true hkey)
    refine List.mem_map.mpr ?_
    obtain rfl | hy := hy
    · exact ⟨z, hz, by rw [hzx, if_pos rfl]⟩
    · refine ⟨y, hy, ?_⟩
      split
      · rename_i hsame
        exact (h y hy hsame).symm
      · rfl
  · rw [List.mem_append, List.mem_singleton]
    exact hy.symm

theorem foldl_put_keys (l : List α) {m : List α} (h : (m.map key).Nodup) :
    ((l.foldl (put key) m).map key).Nodup :=
  List.foldlRecOn (motive := fun m => (m.map key).Nodup) l (put key) h fun _ h x _ => put_keys h x

theorem length_mergeByKey_le (l l' : List α) :
    (mergeByKey key l l').length ≤ l.length + l'.length := by
  have hfold : ∀ (items m : List α), (items.foldl (put key) m).length ≤ items.length + m.length := by
    intro items
    induction items with
    | nil => exact fun m => (Nat.zero_add _).ge
    | cons x items ih =>
      intro m
      have hx := @length_put_le _ key m x
      have hrest := ih (put key m x)
      rw [List.foldl_cons, List.length_cons]
      omega
  have h := hfold (l ++ l') []
  rw [mergeByKey, List.length_insertionSort]
  rwa [List.length_append, List.length_nil, Nat.add_zero] at h

theorem mem_foldl_put {l m : List α} {y : α} (h : y ∈ l.foldl (put key) m) : y ∈ l ∨ y ∈ m := by
  induction l generalizing m with
  | nil => exact .inr h
  | cons x l ih =>
    obtain h | h := ih h
    · exact .inl (List.mem_cons_of_mem _ h)
    · obtain rfl | h := mem_put h
      · exact .inl List.mem_cons_self
      · exact .inr h

theorem mem_foldl_put_iff {l m : List α} {y : α}
    (h : ∀ x ∈ l ++ m, ∀ z ∈ l ++ m, key z = key x → z = x) :
    y ∈ l.foldl (put key) m ↔ y ∈ l ∨ y ∈ m := by
  induction l generalizing m with
  | nil => simp
  | cons x l ih =>
    have hput : ∀ z, z ∈ put key m x ↔ z = x ∨ z ∈ m := fun z =>
      mem_put_iff fun w hw => h x (by simp) w (by simp [hw])
    have hsub : ∀ z ∈ l ++ put key m x, z ∈ (x :: l) ++ m := by
      intro z hz
      rw [List.mem_append, hput] at hz
      simp only [List.cons_append, List.mem_cons, List.mem_append]
      tauto
    rw [List.foldl_cons, ih fun a ha b hb => h a (hsub a ha) b (hsub b hb), hput, List.mem_cons]
    tauto

theorem ascending_mergeByKey (l l' : List α) : Ascending key (mergeByKey key l l') := by
  have hsorted := List.pairwise_insertionSort (fun x y : α => key x ≤ key y)
    ((l ++ l').foldl (put key) [])
  have hkeys : ((mergeByKey key l l').map key).Nodup :=
    ((List.perm_insertionSort _ _).map key).nodup_iff.mpr (foldl_put_keys (l ++ l') List.nodup_nil)
  rw [List.Nodup, List.pairwise_map] at hkeys
  exact hsorted.imp₂ (fun _ _ hle hne => lt_of_le_of_ne hle hne) hkeys

theorem mem_mergeByKey {l l' : List α} {y : α} (h : y ∈ mergeByKey key l l') : y ∈ l ∨ y ∈ l' := by
  have hmem := mem_foldl_put ((List.mem_insertionSort _).mp h)
  rw [List.mem_append] at hmem
  exact hmem.resolve_right List.not_mem_nil

theorem mem_mergeByKey_iff {l l' : List α} {y : α}
    (h : ∀ x ∈ l ++ l', ∀ z ∈ l ++ l', key z = key x → z = x) :
    y ∈ mergeByKey key l l' ↔ y ∈ l ∨ y ∈ l' := by
  rw [mergeByKey, List.mem_insertionSort, mem_foldl_put_iff (by simpa using h), List.mem_append]
  exact or_iff_left List.not_mem_nil

/-! ## Windows -/

variable (key) in
/-- A part of a log without holes. -/
structure Window (log : Set α) (l : List α) : Prop where
  ascending : Ascending key l
  sub : ∀ x ∈ l, x ∈ log
  convex : ∀ x ∈ log, ∀ a ∈ l, ∀ b ∈ l, key a ≤ key x → key x ≤ key b → x ∈ l

variable (key) in
/-- What has been seen from the first item of `l` on is in it. -/
def Complete (seen : Set α) (l : List α) : Prop :=
  ∀ x ∈ seen, ∀ a ∈ l, key a ≤ key x → x ∈ l

variable {log seen : Set α} {l l' : List α}

theorem Window.nil : Window key log [] := ⟨.nil, by simp, by simp⟩

theorem Complete.nil : Complete key seen [] := by simp [Complete]

theorem Ascending.drop (h : Ascending key l) (n : Nat) : Ascending key (l.drop n) :=
  List.Pairwise.sublist (List.drop_sublist n l) h

/-- Of an ascending list, what is not below an item of its end is in that end. -/
theorem Ascending.mem_drop (h : Ascending key l) {n : Nat} {a x : α} (ha : a ∈ l.drop n)
    (hx : x ∈ l) (hle : key a ≤ key x) : x ∈ l.drop n := by
  rw [← List.take_append_drop n l, List.mem_append] at hx
  refine hx.resolve_left fun htake => ?_
  have hlt := (List.pairwise_append.mp (show Ascending key (l.take n ++ l.drop n) by
    rwa [List.take_append_drop])).2.2 x htake a ha
  omega

theorem Window.drop (h : Window key log l) (n : Nat) : Window key log (l.drop n) where
  ascending := h.ascending.drop n
  sub x hx := h.sub x (List.mem_of_mem_drop hx)
  convex x hx a ha b hb hax hxb :=
    h.ascending.mem_drop ha
      (h.convex x hx a (List.mem_of_mem_drop ha) b (List.mem_of_mem_drop hb) hax hxb) hax

theorem Complete.drop (h : Complete key seen l) (hl : Ascending key l) (n : Nat) :
    Complete key seen (l.drop n) := fun x hx a ha hax =>
  hl.mem_drop ha (h x hx a (List.mem_of_mem_drop ha) hax) hax

/-- What is added to the log comes after all that is there. -/
theorem Window.grow (h : Window key log l) {log' : Set α} (hsub : log ⊆ log')
    (hlater : ∀ x ∈ log', x ∉ log → ∀ y ∈ log, key y < key x) : Window key log' l where
  ascending := h.ascending
  sub x hx := hsub (h.sub x hx)
  convex x hx a ha b hb hax hxb := by
    by_cases hold : x ∈ log
    · exact h.convex x hold a ha b hb hax hxb
    · have := hlater x hx hold b (h.sub b hb)
      omega

/-! ## Extending at the end -/

variable (key) in
/-- What is seen next: all of the log that comes after what has been seen, up to some item. -/
structure Next (log seen : Set α) (incoming : List α) : Prop where
  ascending : Ascending key incoming
  sub : ∀ x ∈ incoming, x ∈ log
  later : ∀ x ∈ seen, ∀ y ∈ incoming, key x < key y
  lower : ∀ x ∈ log, ∀ y ∈ incoming, key x ≤ key y → x ∈ seen ∨ x ∈ incoming

variable {incoming : List α}

theorem Next.window (h : Next key log seen incoming) : Window key log incoming where
  ascending := h.ascending
  sub := h.sub
  convex x hx a ha b hb hax hxb := by
    refine (h.lower x hx b hb hxb).resolve_left fun hseen => ?_
    have := h.later x hseen a ha
    omega

theorem Next.complete (h : Next key log seen incoming) :
    Complete key (seen ∪ {x | x ∈ incoming}) incoming := by
  rintro x (hx | hx) a ha hax
  · have := h.later x hx a ha
    omega
  · exact hx

section Extend

variable {e : α} (h : Window key log l) (hc : Complete key seen l) (hn : Next key log seen incoming)
  (he : e ∈ l) (hlast : ∀ a ∈ l, key a ≤ key e)

include h hc hn he hlast

/-- Where something is kept, only what comes after its last item is added. -/
theorem Window.extend : Window key log (l ++ incoming.filter fun x => key e < key x) where
  ascending := by
    refine List.pairwise_append.mpr ⟨h.ascending, hn.ascending.filter _, fun a ha b hb => ?_⟩
    have := of_decide_eq_true (List.mem_filter.mp hb).2
    exact (hlast a ha).trans_lt this
  sub x hx := by
    obtain hx | hx := List.mem_append.mp hx
    · exact h.sub x hx
    · exact hn.sub x (List.mem_filter.mp hx).1
  convex x hx a ha b hb hax hxb := by
    rw [List.mem_append, List.mem_filter, decide_eq_true_eq]
    by_cases hxe : key x ≤ key e
    · left
      obtain ha | ha := List.mem_append.mp ha
      · exact h.convex x hx a ha e he hax hxe
      · have := of_decide_eq_true (List.mem_filter.mp ha).2
        omega
    · obtain hb | hb := List.mem_append.mp hb
      · have := hlast b hb
        omega
      · obtain hseen | hnew := hn.lower x hx b (List.mem_filter.mp hb).1 hxb
        · exact .inl (hc x hseen e he (by omega))
        · exact .inr ⟨hnew, by omega⟩

omit hlast in
theorem Complete.extend :
    Complete key (seen ∪ {x | x ∈ incoming}) (l ++ incoming.filter fun x => key e < key x) := by
  intro x hx a ha hax
  rw [List.mem_append, List.mem_filter, decide_eq_true_eq]
  have hea : a ∈ l ∨ key e < key a := by
    obtain ha | ha := List.mem_append.mp ha
    · exact .inl ha
    · exact .inr (of_decide_eq_true (List.mem_filter.mp ha).2)
  obtain hseen | hnew := hx
  · left
    obtain ha | ha := hea
    · exact hc x hseen a ha hax
    · exact hc x hseen e he (by omega)
  · by_cases hxe : key e < key x
    · exact .inr ⟨hnew, hxe⟩
    · left
      obtain ha | ha := hea
      · exact h.convex x (hn.sub x hnew) a ha e he hax (by omega)
      · omega

end Extend

/-! ## Merging windows -/

variable (key) in
/-- Two windows join: no item of the log is missing between an item of the one and an item of the
other. A window that stands alone reaches to the end of what has been seen. -/
structure Joins (log seen : Set α) (kept other : List α) : Prop where
  between : ∀ x ∈ log, ∀ a ∈ kept, ∀ b ∈ other,
    key a < key x ∧ key x < key b ∨ key b < key x ∧ key x < key a → x ∈ kept ∨ x ∈ other
  newest : kept = [] → ∀ x ∈ seen, other ≠ [] → ∃ b ∈ other, key x ≤ key b

section Merge

variable {kept other : List α} (hkey : ∀ x ∈ log, ∀ y ∈ log, key x = key y → x = y)
  (hseen : seen ⊆ log) (h : Window key log kept) (ho : Window key log other)
  (hm : Joins key log seen kept other)

include hseen ho hm

theorem Joins.complete (hnil : kept = []) : Complete key seen other := by
  intro x hx a ha hax
  obtain ⟨b, hb, hxb⟩ := hm.newest hnil x hx (List.ne_nil_of_mem ha)
  exact ho.convex x (hseen hx) a ha b hb hax hxb

include hkey h

omit hseen hm in
theorem mem_merge_iff (x : α) : x ∈ mergeByKey key other kept ↔ x ∈ other ∨ x ∈ kept := by
  have hsub : ∀ y ∈ other ++ kept, y ∈ log := by
    intro y hy
    obtain hy | hy := List.mem_append.mp hy
    · exact ho.sub y hy
    · exact h.sub y hy
  exact mem_mergeByKey_iff fun y hy z hz hyz => hkey z (hsub z hz) y (hsub y hy) hyz

omit hseen in
theorem Window.merge : Window key log (mergeByKey key other kept) where
  ascending := ascending_mergeByKey other kept
  sub x hx := by
    obtain hx | hx := (mem_merge_iff hkey h ho x).mp hx
    · exact ho.sub x hx
    · exact h.sub x hx
  convex x hx a ha b hb hax hxb := by
    rw [mem_merge_iff hkey h ho] at ha hb ⊢
    by_cases hxa : key x = key a
    · exact hkey x hx a (ha.elim (ho.sub a) (h.sub a)) hxa ▸ ha
    by_cases hxb' : key x = key b
    · exact hkey x hx b (hb.elim (ho.sub b) (h.sub b)) hxb' ▸ hb
    obtain ha | ha := ha <;> obtain hb | hb := hb
    · exact .inl (ho.convex x hx a ha b hb hax hxb)
    · exact (hm.between x hx b hb a ha (.inr ⟨by omega, by omega⟩)).symm
    · exact (hm.between x hx a ha b hb (.inl ⟨by omega, by omega⟩)).symm
    · exact .inr (h.convex x hx a ha b hb hax hxb)

theorem Complete.merge (hc : Complete key seen kept) (hne : kept ≠ []) :
    Complete key seen (mergeByKey key other kept) := by
  intro x hx a ha hax
  rw [mem_merge_iff hkey h ho] at ha ⊢
  obtain ha | ha := ha
  · obtain ⟨k, hk⟩ := List.exists_mem_of_ne_nil kept hne
    by_cases hkx : key k ≤ key x
    · exact .inr (hc x hx k hk hkx)
    · by_cases hxa : key x = key a
      · exact .inl (hkey x (hseen hx) a (ho.sub a ha) hxa ▸ ha)
      · exact (hm.between x (hseen hx) k hk a ha (.inr ⟨by omega, by omega⟩)).symm
  · exact .inr (hc x hx a ha hax)

end Merge

/-! ## Logs that are lists -/

section ListLog

variable {whole front : List α}

theorem Ascending.inj (h : Ascending key whole) :
    ∀ x ∈ {x | x ∈ whole}, ∀ y ∈ {x | x ∈ whole}, key x = key y → x = y := by
  have hkeys : (whole.map key).Nodup := List.pairwise_map.mpr (h.imp ne_of_lt)
  exact fun x hx y hy => List.inj_on_of_nodup_map hkeys hx hy

theorem Ascending.window (h : Ascending key whole) : Window key {x | x ∈ whole} whole :=
  ⟨h, fun _ hx => hx, fun _ hx _ _ _ _ _ _ => hx⟩

/-- The next piece of a list. -/
theorem Ascending.next (h : Ascending key whole) (hfront : front ++ incoming <+: whole) :
    Next key {x | x ∈ whole} {x | x ∈ front} incoming := by
  obtain ⟨rest, rfl⟩ := hfront
  obtain ⟨hboth, -, hrest⟩ := List.pairwise_append.mp h
  obtain ⟨-, hincoming, hlater⟩ := List.pairwise_append.mp hboth
  exact
    { ascending := hincoming
      sub := fun x hx => List.mem_append_left _ (List.mem_append_right _ hx)
      later := hlater
      lower := fun x hx y hy hxy => by
        obtain hx | hx := List.mem_append.mp hx
        · exact List.mem_append.mp hx
        · have := hrest y (List.mem_append_right _ hy) x hx
          omega }

end ListLog

end Lib
