import Mathlib

/-!
# Log storage maintenance

`maintain_storage` of `kernel/log_engine.rs`. Times are nanoseconds since the epoch; whether a file
can be removed is up to the file system, which is a parameter. The sizes are added up as `u64`.
-/

namespace TauTerm.Kernel

def UNIX_EPOCH : Int := 0

structure Metadata where
  len : UInt64
  modified : Option Int
  deriving DecidableEq

structure DirEntry (ι : Type) where
  path : ι
  extension : Option String
  metadata : Option Metadata
  deriving DecidableEq

/-- What `read_dir` gives; an entry can fail on its own. -/
inductive ReadDir (ι : Type) where
  | notFound
  | failed (error : String)
  | entries (entries : List (Option (DirEntry ι)))
  deriving DecidableEq

structure LogFile (ι : Type) where
  path : ι
  size : UInt64
  modified : Int
  deriving DecidableEq

/-- An attempt to remove a file, and whether it succeeded; where it did not, the failure is
recorded. -/
inductive Deletion (ι : Type) where
  | retention (file : LogFile ι) (removed : Bool)
  | quota (file : LogFile ι) (removed : Bool)
  deriving DecidableEq

def DirEntry.logFile? {ι : Type} (e : DirEntry ι) : Option (LogFile ι) :=
  if e.extension = some "log" then
    e.metadata.map fun metadata => ⟨e.path, metadata.len, metadata.modified.getD UNIX_EPOCH⟩
  else none

/-- `u64::saturating_sub` -/
def saturatingSub (a b : UInt64) : UInt64 := if a ≤ b then 0 else a - b

theorem toNat_saturatingSub (a b : UInt64) : (saturatingSub a b).toNat = a.toNat - b.toNat := by
  unfold saturatingSub
  split_ifs with h
  · have := UInt64.le_iff_toNat_le.mp h
    rw [UInt64.toNat_zero]
    omega
  · exact UInt64.toNat_sub_of_le _ _ (UInt64.le_of_lt (UInt64.not_le.mp h))

section Maintenance

variable {ι : Type} [DecidableEq ι]

/-- The sum of the sizes, as the iterator adds them up. -/
def sumSizes (files : List (LogFile ι)) : UInt64 := files.foldl (fun total f => total + f.size) 0

variable (protectedPaths : Finset ι) (cutoff : Option Int) (maxTotalBytes : UInt64)
  (removes : ι → Bool)

/-- The retention removes a file. -/
def Expired (f : LogFile ι) : Bool := f.path ∉ protectedPaths && cutoff.any fun c => f.modified < c

/-- The files that are left for the quota, and what the retention does. -/
def scan : List (DirEntry ι) → List (LogFile ι) × List (Deletion ι)
  | [] => ([], [])
  | e :: entries =>
    match e.logFile? with
    | none => scan entries
    | some f =>
      let (files, deletions) := scan entries
      if Expired protectedPaths cutoff f then (files, .retention f (removes f.path) :: deletions)
      else (f :: files, deletions)

def quotaLoop (total : UInt64) : List (LogFile ι) → List (Deletion ι)
  | [] => []
  | f :: files =>
    if total ≤ maxTotalBytes then []
    else if f.path ∈ protectedPaths then quotaLoop total files
    else if removes f.path then .quota f true :: quotaLoop (saturatingSub total f.size) files
    else .quota f false :: quotaLoop total files

/-- The stable sort. -/
def byModified (files : List (LogFile ι)) : List (LogFile ι) :=
  files.insertionSort fun f g => f.modified ≤ g.modified

def maintainStorage : ReadDir ι → Except String (List (Deletion ι))
  | .notFound => .ok []
  | .failed error => .error s!"cannot read log directory: {error}"
  | .entries entries =>
    let (files, deletions) := scan protectedPaths cutoff removes entries.reduceOption
    let total := sumSizes files
    if total ≤ maxTotalBytes then .ok deletions
    else .ok (deletions ++ quotaLoop protectedPaths maxTotalBytes removes total (byModified files))

/-! ## What it is for -/

/-- The files that were removed for their age. -/
def expiredOf (deletions : List (Deletion ι)) : List (LogFile ι) :=
  deletions.filterMap fun
    | .retention f true => some f
    | _ => none

/-- The files that were removed for the quota, in order. -/
def overQuotaOf (deletions : List (Deletion ι)) : List (LogFile ι) :=
  deletions.filterMap fun
    | .quota f true => some f
    | _ => none

def totalSize (files : Multiset (LogFile ι)) : Nat := (files.map fun f => f.size.toNat).sum

/-- The log files that are left. -/
def remaining (files : List (LogFile ι)) (deletions : List (Deletion ι)) : Multiset (LogFile ι) :=
  Multiset.ofList files - Multiset.ofList (expiredOf deletions ++ overQuotaOf deletions)

structure Maintained (files : List (LogFile ι)) (deletions : List (Deletion ι)) : Prop where
  spares : ∀ f ∈ expiredOf deletions ++ overQuotaOf deletions, f.path ∉ protectedPaths
  expires : ∀ f ∈ files, f.path ∉ protectedPaths → (∃ c, cutoff = some c ∧ f.modified < c) →
    f ∈ expiredOf deletions
  fits : totalSize (remaining files deletions) ≤ maxTotalBytes.toNat ∨
    ∀ f ∈ remaining files deletions, f.path ∈ protectedPaths
  ordered : (overQuotaOf deletions).Pairwise (·.modified ≤ ·.modified)
  oldest : ∀ f ∈ overQuotaOf deletions, ∀ g ∈ remaining files deletions,
    g.path ∉ protectedPaths → f.modified ≤ g.modified
  needed : ∀ before f after, overQuotaOf deletions = before ++ f :: after →
    maxTotalBytes.toNat <
      totalSize (Multiset.ofList files - Multiset.ofList (expiredOf deletions ++ before))

/-- The files that the retention leaves. -/
def kept (files : List (LogFile ι)) : List (LogFile ι) :=
  files.filter fun f => !Expired protectedPaths cutoff f

/-- The files that the quota may remove, the oldest in front. -/
def loose (files : List (LogFile ι)) : List (LogFile ι) :=
  (byModified (kept protectedPaths cutoff files)).filter (·.path ∉ protectedPaths)

/-- The sum does not overflow; or there is nothing to remove, or what is left of the sum does not
stop the loop before it has come to the last file. -/
def SumSuffices (files : List (LogFile ι)) : Prop :=
  totalSize (.ofList (kept protectedPaths cutoff files)) < 2 ^ 64 ∨
    loose protectedPaths cutoff files = [] ∨
    maxTotalBytes.toNat + totalSize (.ofList (loose protectedPaths cutoff files).dropLast) <
      totalSize (.ofList (kept protectedPaths cutoff files)) % 2 ^ 64

end Maintenance

/-! ## Sums -/

section Sums

variable {ι : Type}

@[simp] theorem totalSize_nil : totalSize (.ofList ([] : List (LogFile ι))) = 0 := rfl

theorem totalSize_add (fs gs : Multiset (LogFile ι)) : totalSize (fs + gs) = totalSize fs + totalSize gs := by
  unfold totalSize
  rw [Multiset.map_add, Multiset.sum_add]

@[simp] theorem totalSize_cons (f : LogFile ι) (fs : List (LogFile ι)) :
    totalSize (.ofList (f :: fs)) = f.size.toNat + totalSize (.ofList fs) :=
  totalSize_add {f} (.ofList fs)

@[simp] theorem totalSize_append (fs gs : List (LogFile ι)) :
    totalSize (.ofList (fs ++ gs)) = totalSize (.ofList fs) + totalSize (.ofList gs) :=
  totalSize_add (.ofList fs) (.ofList gs)

theorem toNat_foldl_size (total : UInt64) (files : List (LogFile ι)) :
    (files.foldl (fun total f => total + f.size) total).toNat =
      (total.toNat + totalSize (.ofList files)) % 2 ^ 64 := by
  induction files generalizing total with
  | nil =>
    have := total.toNat_lt
    rw [List.foldl_nil, totalSize_nil]
    omega
  | cons f files ih =>
    rw [List.foldl_cons, ih, totalSize_cons, UInt64.toNat_add]
    omega

theorem toNat_sumSizes (files : List (LogFile ι)) :
    (sumSizes files).toNat = totalSize (.ofList files) % 2 ^ 64 := by
  unfold sumSizes
  rw [toNat_foldl_size, UInt64.toNat_zero, Nat.zero_add]

/-! ## The loop for the quota -/

/-- Remove files from the front as long as the total is above the maximum. -/
def drained (most : Nat) (total : Nat) : List (LogFile ι) → List (LogFile ι)
  | [] => []
  | f :: files => if total ≤ most then [] else f :: drained most (total - f.size.toNat) files

variable {most total : Nat} {files : List (LogFile ι)}

theorem drained_eq_nil (h : total ≤ most) : drained most total files = [] := by
  cases files with
  | nil => rfl
  | cons f files => exact if_pos h

theorem drained_needed {before after : List (LogFile ι)} {f : LogFile ι}
    (h : drained most total files = before ++ f :: after) :
    most + totalSize (.ofList before) < total := by
  induction files generalizing total before with
  | nil => simp [drained] at h
  | cons g files ih =>
    unfold drained at h
    split_ifs at h with htotal
    · simp at h
    · cases before with
      | nil =>
        rw [totalSize_nil]
        omega
      | cons g' before =>
        obtain ⟨rfl, htail⟩ := List.cons.inj h
        have := ih htail
        rw [totalSize_cons]
        omega

/-- The loop stops at the end, or when the total has come down. -/
theorem drained_stops : ∃ rest, files = drained most total files ++ rest ∧
    (rest = [] ∨ total ≤ most + totalSize (.ofList (drained most total files))) := by
  induction files generalizing total with
  | nil => exact ⟨[], rfl, .inl rfl⟩
  | cons f files ih =>
    unfold drained
    split_ifs with htotal
    · refine ⟨f :: files, rfl, .inr ?_⟩
      rw [totalSize_nil]
      omega
    · obtain ⟨rest, hfiles, hrest⟩ := @ih (total - f.size.toNat)
      refine ⟨rest, congrArg (f :: ·) hfiles, hrest.imp id fun hle => ?_⟩
      rw [totalSize_cons]
      omega

/-- When the loop comes to the last file. -/
theorem drained_all_iff :
    drained most total files = files ↔
      files = [] ∨ most + totalSize (.ofList files.dropLast) < total := by
  rcases List.eq_nil_or_concat files with rfl | ⟨before, f, rfl⟩
  · exact iff_of_true rfl (.inl rfl)
  · rw [List.concat_eq_append, List.dropLast_concat]
    constructor
    · exact fun h => .inr (drained_needed (h.trans rfl))
    · rintro (h | h)
      · simp at h
      · obtain ⟨rest, hfiles, hrest⟩ := @drained_stops ι most total (before ++ [f])
        rcases List.eq_nil_or_concat rest with rfl | ⟨rest, g, rfl⟩
        · rw [List.append_nil] at hfiles
          exact hfiles.symm
        · rw [List.concat_eq_append, ← List.append_assoc] at hfiles
          obtain ⟨hbefore, -⟩ := List.append_inj' hfiles rfl
          have hle := hrest.resolve_left (by simp)
          rw [hbefore, totalSize_append] at h
          omega

end Sums

/-! ## The whole of it -/

section Removed

variable {ι : Type} [DecidableEq ι] {protectedPaths : Finset ι} {cutoff : Option Int}
  {maxTotalBytes : UInt64}

theorem scan_eq (entries : List (DirEntry ι)) :
    scan protectedPaths cutoff (fun _ => true) entries =
      (kept protectedPaths cutoff (entries.filterMap DirEntry.logFile?),
        ((entries.filterMap DirEntry.logFile?).filter (Expired protectedPaths cutoff)).map
          (.retention · true)) := by
  induction entries with
  | nil => rfl
  | cons e entries ih =>
    unfold scan
    cases hlog : e.logFile? with
    | none =>
      rw [List.filterMap_cons_none hlog]
      exact ih
    | some f =>
      rw [List.filterMap_cons_some hlog]
      unfold kept at ih ⊢
      dsimp only
      rw [ih]
      by_cases hexpired : Expired protectedPaths cutoff f = true
      · rw [if_pos hexpired, List.filter_cons_of_pos hexpired,
          List.filter_cons_of_neg (by simpa using hexpired)]
        rfl
      · rw [if_neg hexpired, List.filter_cons_of_neg hexpired,
          List.filter_cons_of_pos (by simpa using hexpired)]

/-- The loop for the quota does not see the protected files. -/
theorem quotaLoop_eq (total : UInt64) (files : List (LogFile ι)) :
    quotaLoop protectedPaths maxTotalBytes (fun _ => true) total files =
      (drained maxTotalBytes.toNat total.toNat
        (files.filter (·.path ∉ protectedPaths))).map (.quota · true) := by
  induction files generalizing total with
  | nil => rfl
  | cons f files ih =>
    unfold quotaLoop
    by_cases htotal : total ≤ maxTotalBytes
    · rw [if_pos htotal, drained_eq_nil (UInt64.le_iff_toNat_le.mp htotal)]
      rfl
    · have hlarge := mt UInt64.le_iff_toNat_le.mpr htotal
      rw [if_neg htotal]
      by_cases hprotected : f.path ∈ protectedPaths
      · rw [if_pos hprotected, List.filter_cons_of_neg (by simpa using hprotected), ih]
      · rw [if_neg hprotected, if_pos rfl, List.filter_cons_of_pos (by simpa using hprotected), ih,
          toNat_saturatingSub, drained, if_neg hlarge, List.map_cons]

variable (protectedPaths cutoff maxTotalBytes)

/-- The files that the quota removes. -/
def overQuota (files : List (LogFile ι)) : List (LogFile ι) :=
  drained maxTotalBytes.toNat (totalSize (.ofList (kept protectedPaths cutoff files)) % 2 ^ 64)
    (loose protectedPaths cutoff files)

def deletionsOf (files : List (LogFile ι)) : List (Deletion ι) :=
  (files.filter (Expired protectedPaths cutoff)).map (.retention · true) ++
    (overQuota protectedPaths cutoff maxTotalBytes files).map (.quota · true)

variable {protectedPaths cutoff maxTotalBytes}

theorem maintainStorage_eq (entries : List (Option (DirEntry ι))) :
    maintainStorage protectedPaths cutoff maxTotalBytes (fun _ => true) (.entries entries) =
      .ok (deletionsOf protectedPaths cutoff maxTotalBytes
        (entries.reduceOption.filterMap DirEntry.logFile?)) := by
  unfold maintainStorage deletionsOf overQuota
  simp only [scan_eq]
  rw [quotaLoop_eq, ← toNat_sumSizes]
  split_ifs with htotal
  · rw [drained_eq_nil (UInt64.le_iff_toNat_le.mp htotal), List.map_nil, List.append_nil]
  · rfl

variable {files : List (LogFile ι)}

theorem expiredOf_deletionsOf :
    expiredOf (deletionsOf protectedPaths cutoff maxTotalBytes files) =
      files.filter (Expired protectedPaths cutoff) := by
  unfold expiredOf deletionsOf
  rw [List.filterMap_append, List.filterMap_map, List.filterMap_map]
  simp

theorem overQuotaOf_deletionsOf :
    overQuotaOf (deletionsOf protectedPaths cutoff maxTotalBytes files) =
      overQuota protectedPaths cutoff maxTotalBytes files := by
  unfold overQuotaOf deletionsOf
  rw [List.filterMap_append, List.filterMap_map, List.filterMap_map]
  simp

theorem expired_iff {f : LogFile ι} : Expired protectedPaths cutoff f = true ↔
    f.path ∉ protectedPaths ∧ ∃ c, cutoff = some c ∧ f.modified < c := by
  unfold Expired
  rw [Bool.and_eq_true, decide_eq_true_eq, Option.any_eq_true]
  simp

theorem kept_perm (files : List (LogFile ι)) : (kept protectedPaths cutoff files).Perm
    ((kept protectedPaths cutoff files).filter (·.path ∈ protectedPaths) ++
      loose protectedPaths cutoff files) := by
  unfold loose byModified
  have hsorted := (List.perm_insertionSort (fun f g : LogFile ι => f.modified ≤ g.modified)
    (kept protectedPaths cutoff files)).filter (·.path ∉ protectedPaths)
  refine .trans ?_ (hsorted.symm.append_left _)
  simpa using (List.filter_append_perm (·.path ∈ protectedPaths)
    (kept protectedPaths cutoff files)).symm

/-- What a quota that has removed some of the loose files leaves. -/
theorem remaining_eq {before rest : List (LogFile ι)}
    (h : loose protectedPaths cutoff files = before ++ rest) :
    Multiset.ofList files -
        Multiset.ofList (files.filter (Expired protectedPaths cutoff) ++ before) =
      Multiset.ofList ((kept protectedPaths cutoff files).filter (·.path ∈ protectedPaths)) +
        Multiset.ofList rest := by
  have hkept := @kept_perm ι _ protectedPaths cutoff files
  rw [h] at hkept
  have hfiles : Multiset.ofList files =
      Multiset.ofList (files.filter (Expired protectedPaths cutoff) ++ before) +
        (Multiset.ofList ((kept protectedPaths cutoff files).filter (·.path ∈ protectedPaths)) +
          Multiset.ofList rest) := by
    have hsplit := (List.filter_append_perm (Expired protectedPaths cutoff) files).symm
    have hall := Multiset.coe_eq_coe.mpr (hsplit.trans (hkept.append_left _))
    simp only [← Multiset.coe_add] at hall ⊢
    rw [hall]
    abel
  conv_lhs => rw [hfiles]
  exact add_tsub_cancel_left _ _

theorem loose_pairwise (files : List (LogFile ι)) :
    (loose protectedPaths cutoff files).Pairwise (·.modified ≤ ·.modified) := by
  have : Std.Total fun f g : LogFile ι => f.modified ≤ g.modified := ⟨fun f g => le_total _ _⟩
  have : IsTrans (LogFile ι) fun f g => f.modified ≤ g.modified := ⟨fun f g h => le_trans⟩
  exact (List.pairwise_insertionSort _ _).filter _

theorem not_mem_protected_of_mem_loose {f : LogFile ι} (h : f ∈ loose protectedPaths cutoff files) :
    f.path ∉ protectedPaths := by
  simpa using (List.mem_filter.mp h).2

/-- When the quota is met in the end. -/
theorem fits_iff {rest : List (LogFile ι)} (h : loose protectedPaths cutoff files =
    overQuota protectedPaths cutoff maxTotalBytes files ++ rest) :
    (totalSize (.ofList (kept protectedPaths cutoff files)) ≤
        maxTotalBytes.toNat + totalSize (.ofList (overQuota protectedPaths cutoff maxTotalBytes files)) ∨
      rest = []) ↔ SumSuffices protectedPaths cutoff maxTotalBytes files := by
  have hall : rest = [] ↔ loose protectedPaths cutoff files = [] ∨ maxTotalBytes.toNat +
      totalSize (.ofList (loose protectedPaths cutoff files).dropLast) <
        totalSize (.ofList (kept protectedPaths cutoff files)) % 2 ^ 64 := by
    rw [← drained_all_iff]
    constructor
    · rintro rfl
      exact ((List.append_nil _).symm.trans h.symm)
    · intro hdrained
      rw [overQuota, hdrained] at h
      exact List.self_eq_append_right.mp h
  unfold SumSuffices
  rw [← hall]
  refine ⟨fun hfits => ?_, fun hsum => ?_⟩
  · by_cases hwrap : totalSize (.ofList (kept protectedPaths cutoff files)) < 2 ^ 64
    · exact .inl hwrap
    · refine .inr (hfits.resolve_left fun hle => ?_)
      have hmax := maxTotalBytes.toNat_lt
      -- the file at which the loop stopped is too small to make up for the overflow
      rcases List.eq_nil_or_concat (overQuota protectedPaths cutoff maxTotalBytes files) with
        hnil | ⟨before, f, hlast⟩
      · rw [hnil, totalSize_nil] at hle
        omega
      · rw [List.concat_eq_append] at hlast
        have hneeded := drained_needed (hlast.trans rfl)
        have hsize := f.size.toNat_lt
        rw [hlast, totalSize_append, totalSize_cons, totalSize_nil] at hle
        omega
  · rcases hsum with hsmall | hrest
    · have hstops := @drained_stops ι maxTotalBytes.toNat
        (totalSize (.ofList (kept protectedPaths cutoff files)) % 2 ^ 64)
        (loose protectedPaths cutoff files)
      rw [Nat.mod_eq_of_lt hsmall] at hstops
      obtain ⟨rest', hrest', hstop⟩ := hstops
      rw [overQuota, Nat.mod_eq_of_lt hsmall] at h ⊢
      obtain rfl := List.append_cancel_left (hrest'.symm.trans h)
      exact hstop.symm
    · exact .inr hrest

end Removed

variable {ι : Type} [DecidableEq ι]

/-- **Maintenance.** If every removal succeeds, maintenance does what it is for exactly if the sum of
the sizes does not overflow, or does not have to stop the loop. -/
theorem maintained_iff (protectedPaths : Finset ι) (cutoff : Option Int) (maxTotalBytes : UInt64)
    (entries : List (Option (DirEntry ι))) :
    ∃ deletions,
      maintainStorage protectedPaths cutoff maxTotalBytes (fun _ => true) (.entries entries) =
        .ok deletions ∧
      (Maintained protectedPaths cutoff maxTotalBytes
          (entries.reduceOption.filterMap DirEntry.logFile?) deletions ↔
        SumSuffices protectedPaths cutoff maxTotalBytes
          (entries.reduceOption.filterMap DirEntry.logFile?)) := by
  refine ⟨_, maintainStorage_eq entries, ?_⟩
  generalize entries.reduceOption.filterMap DirEntry.logFile? = files
  obtain ⟨rest, hloose, -⟩ := @drained_stops ι maxTotalBytes.toNat
    (totalSize (.ofList (kept protectedPaths cutoff files)) % 2 ^ 64)
    (loose protectedPaths cutoff files)
  have hsum : totalSize (.ofList (kept protectedPaths cutoff files)) =
      totalSize (.ofList ((kept protectedPaths cutoff files).filter (·.path ∈ protectedPaths))) +
        totalSize (.ofList (loose protectedPaths cutoff files)) := by
    rw [← totalSize_append]
    exact congrArg totalSize (Multiset.coe_eq_coe.mpr (kept_perm files))
  have hremaining := remaining_eq hloose
  have hpairwise := @loose_pairwise ι _ protectedPaths cutoff files
  have hmem : ∀ f ∈ loose protectedPaths cutoff files, f.path ∉ protectedPaths :=
    fun f => not_mem_protected_of_mem_loose
  rw [← fits_iff hloose]
  rw [hloose] at hpairwise hmem hsum
  have hparts := List.pairwise_append.mp hpairwise
  rw [totalSize_append] at hsum
  constructor
  · rintro ⟨-, -, hfits, -, -, -⟩
    unfold remaining at hfits
    rw [expiredOf_deletionsOf, overQuotaOf_deletionsOf] at hfits
    rw [overQuota, hremaining] at hfits
    refine hfits.imp (fun hle => ?_) fun hall => ?_
    · rw [totalSize_add] at hle
      rw [overQuota]
      omega
    · refine List.eq_nil_iff_forall_not_mem.mpr fun f hf => ?_
      exact hmem f (List.mem_append_right _ hf) (hall f (by simp [hf]))
  · intro hfits
    constructor
    case spares =>
      intro f hf
      rw [expiredOf_deletionsOf, overQuotaOf_deletionsOf] at hf
      rcases List.mem_append.mp hf with hf | hf
      · exact (expired_iff.mp (List.mem_filter.mp hf).2).1
      · exact hmem f (List.mem_append_left _ hf)
    case expires =>
      intro f hf hfree hold
      rw [expiredOf_deletionsOf]
      exact List.mem_filter.mpr ⟨hf, expired_iff.mpr ⟨hfree, hold⟩⟩
    case fits =>
      unfold remaining
      rw [expiredOf_deletionsOf, overQuotaOf_deletionsOf, overQuota, hremaining]
      refine hfits.imp (fun hle => ?_) fun hrest => ?_
      · rw [overQuota] at hle
        rw [totalSize_add]
        omega
      · intro f hf
        rw [hrest] at hf
        simp only [Multiset.coe_nil, add_zero, Multiset.mem_coe] at hf
        simpa using (List.mem_filter.mp hf).2
    case ordered =>
      rw [overQuotaOf_deletionsOf]
      exact hparts.1
    case oldest =>
      intro f hf g hg hfree
      unfold remaining at hg
      rw [expiredOf_deletionsOf, overQuotaOf_deletionsOf, overQuota, hremaining] at hg
      rw [overQuotaOf_deletionsOf] at hf
      rcases Multiset.mem_add.mp hg with hg | hg
      · exact absurd (by simpa using (List.mem_filter.mp (Multiset.mem_coe.mp hg)).2) hfree
      · exact hparts.2.2 f hf g (Multiset.mem_coe.mp hg)
    case needed =>
      intro before f after hbefore
      rw [overQuotaOf_deletionsOf] at hbefore
      have hneeded := drained_needed hbefore
      rw [overQuota] at hbefore
      rw [hbefore, List.append_assoc] at hloose
      rw [expiredOf_deletionsOf, remaining_eq hloose, totalSize_add]
      have hmod := Nat.mod_le (totalSize (.ofList (kept protectedPaths cutoff files))) (2 ^ 64)
      rw [hbefore, totalSize_append] at hsum
      rw [totalSize_append]
      omega

/-- Three sparse files of eight exbibytes, the largest size that a file can have. -/
def sparseFiles : List (Option (DirEntry Nat)) :=
  [some ⟨1, some "log", some ⟨2 ^ 63 - 1, some 1⟩⟩, some ⟨2, some "log", some ⟨2 ^ 63 - 1, some 2⟩⟩,
    some ⟨3, some "log", some ⟨2 ^ 63 - 1, some 3⟩⟩]

set_option maxRecDepth 20000 in
/-- Their sum overflows, and when one of them has been removed, the loop takes the rest for small
enough. -/
theorem sparseFiles_not_maintained :
    maintainStorage ∅ none (2 ^ 30) (fun _ => true) (.entries sparseFiles) =
      .ok [.quota ⟨1, 2 ^ 63 - 1, 1⟩ true] ∧
    ¬ Maintained ∅ none (2 ^ 30) (sparseFiles.reduceOption.filterMap DirEntry.logFile?)
      [.quota ⟨1, 2 ^ 63 - 1, 1⟩ true] := by
  refine ⟨by decide, fun h => ?_⟩
  rcases h.fits with hle | hall
  · revert hle
    decide
  · have hleft := hall ⟨2, 2 ^ 63 - 1, 2⟩ (by decide)
    simp at hleft

end TauTerm.Kernel
