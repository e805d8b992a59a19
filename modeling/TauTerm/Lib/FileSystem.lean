import Mathlib
import TauTerm.Lib.Path

/-!
# A Unix file system with symbolic links

What stands at a location, which is the list of names that leads to it, and how
the system follows a path to a location: `.` and `..`, symbolic links on the way
and at the end, a bound on the number of links. `Canonical` locations are the
ones that contain no link; following a path ends at one.
-/

namespace Lib

abbrev Location := List Name

inductive Node where
  | dir
  | file
  | link (target : Path)
  deriving DecidableEq

structure FileSystem where
  node : Location → Option Node
  maxSymlinks : Nat

inductive IoError where
  | notFound
  | notADirectory
  | isADirectory
  | filesystemLoop
  deriving DecidableEq

namespace FileSystem

/-- Follow `segs` from the directory `cur`; `follow` continues behind a link. With `create` the
last name may be missing. -/
def walk (fs : FileSystem) (create : Bool) (follow : Location → List Name → Except IoError Location) :
    Location → List Name → Except IoError Location
  | cur, [] => .ok cur
  | cur, seg :: segs =>
    if fs.node cur ≠ some .dir then .error .notADirectory
    else if isVoid seg then walk fs create follow cur segs
    else if seg = ['.', '.'] then walk fs create follow cur.dropLast segs
    else
      match fs.node (cur ++ [seg]) with
      | none => if create ∧ segs = [] then .ok (cur ++ [seg]) else .error .notFound
      | some (.link target) =>
        follow (if target.absolute then [] else cur) (target.segments ++ segs)
      | some _ => walk fs create follow (cur ++ [seg]) segs

/-- `walk` through at most `links` links. -/
def resolveFrom (fs : FileSystem) (create : Bool) : Nat → Location → List Name →
    Except IoError Location
  | 0 => fs.walk create fun _ _ => .error .filesystemLoop
  | links + 1 => fs.walk create (fs.resolveFrom create links)

/-- The absolute path of a location. -/
def pathOf (loc : Location) : Path := ⟨true, loc⟩

/-- `canonicalize` of an absolute path. -/
def canonicalize (fs : FileSystem) (p : Path) : Except IoError Location :=
  fs.resolveFrom false fs.maxSymlinks [] p.segments

/-- `Path::exists`. -/
def pathExists (fs : FileSystem) (p : Path) : Bool := (fs.canonicalize p).isOk

/-- `File::create` of an absolute path: the location of the file that it creates or truncates. -/
def create (fs : FileSystem) (p : Path) : Except IoError Location :=
  match fs.resolveFrom true fs.maxSymlinks [] p.segments with
  | .ok loc => if fs.node loc = some .dir then .error .isADirectory else .ok loc
  | .error e => .error e

/-- `File::open` of an absolute path, to read. -/
def openRead (fs : FileSystem) (p : Path) : Except IoError Location := fs.canonicalize p

/-- Every directory on the way is one, and nothing is a link. -/
inductive Canonical (fs : FileSystem) : Location → Prop
  | nil : Canonical fs []
  | snoc {loc name} : Canonical fs loc → fs.node loc = some .dir → IsNormal name →
      fs.node (loc ++ [name]) ≠ none → (∀ target, fs.node (loc ++ [name]) ≠ some (.link target)) →
      Canonical fs (loc ++ [name])

variable {fs : FileSystem} {create : Bool} {loc loc' cur : Location} {segs : List Name}

theorem Canonical.dropLast (h : fs.Canonical loc) : fs.Canonical loc.dropLast := by
  cases h with
  | nil => exact .nil
  | snoc hloc =>
    rw [List.dropLast_concat]
    exact hloc

theorem Canonical.isNormal (h : fs.Canonical loc) : ∀ name ∈ loc, IsNormal name := by
  induction h with
  | nil => exact fun _ hmem => absurd hmem List.not_mem_nil
  | snoc _ _ hname _ _ ih =>
    intro name hmem
    rcases List.mem_append.mp hmem with hmem | hmem
    · exact ih name hmem
    · rw [List.mem_singleton.mp hmem]
      exact hname

section Walk

variable {follow : Location → List Name → Except IoError Location}

theorem walk_nil : fs.walk create follow cur [] = .ok cur := rfl

theorem walk_cons {seg : Name} (hdir : fs.node cur = some .dir) (hseg : IsNormal seg) :
    fs.walk create follow cur (seg :: segs) =
      match fs.node (cur ++ [seg]) with
      | none => if create ∧ segs = [] then .ok (cur ++ [seg]) else .error .notFound
      | some (.link target) => follow (if target.absolute then [] else cur) (target.segments ++ segs)
      | some _ => fs.walk create follow (cur ++ [seg]) segs := by
  rw [walk, if_neg (by simp [hdir]), if_neg (by simp [hseg.1]), if_neg hseg.2]

/-- A canonical location is followed to itself. -/
theorem Canonical.walk_append (h : fs.Canonical loc) :
    fs.walk create follow [] (loc ++ segs) = fs.walk create follow loc segs := by
  induction h generalizing segs with
  | nil => rfl
  | @snoc loc name _ hdir hname hnode hlink ih =>
    rw [List.append_assoc, List.singleton_append, ih, walk_cons hdir hname]
    cases hn : fs.node (loc ++ [name]) with
    | none => exact absurd hn hnode
    | some node =>
      cases node with
      | link target => exact absurd hn (hlink target)
      | dir => rfl
      | file => rfl

/-- Following a path ends at a canonical location, or at a missing entry of one. -/
theorem walk_canonical
    (hfollow : ∀ {cur segs loc}, fs.Canonical cur → follow cur segs = .ok loc →
      fs.Canonical loc ∨ (create = true ∧ fs.node loc = none))
    (hcur : fs.Canonical cur) (h : fs.walk create follow cur segs = .ok loc) :
    fs.Canonical loc ∨ (create = true ∧ fs.node loc = none) := by
  induction segs generalizing cur with
  | nil =>
    cases h
    exact .inl hcur
  | cons seg segs ih =>
    by_cases hdir : fs.node cur = some .dir
    · by_cases hvoid : isVoid seg = true
      · rw [walk, if_neg (by simp [hdir]), if_pos hvoid] at h
        exact ih hcur h
      by_cases hpar : seg = ['.', '.']
      · rw [walk, if_neg (by simp [hdir]), if_neg hvoid, if_pos hpar] at h
        exact ih hcur.dropLast h
      have hseg : IsNormal seg := ⟨by simpa using hvoid, hpar⟩
      rw [walk_cons hdir hseg] at h
      split at h
      · rename_i hnone
        split_ifs at h with hc
        · cases h
          exact .inr ⟨hc.1, hnone⟩
      · refine hfollow ?_ h
        split_ifs
        · exact .nil
        · exact hcur
      · rename_i node hlink hnode
        refine ih (.snoc hcur hdir hseg ?_ ?_) h
        · rw [hnode]
          nofun
        · intro target heq
          rw [hnode] at heq
          exact hlink target (Option.some.inj heq)
    · rw [walk, if_pos hdir] at h
      cases h

end Walk

/-- Resolving is walking, whatever the number of links left. -/
theorem exists_walk (links : Nat) : ∃ follow, fs.resolveFrom create links = fs.walk create follow := by
  cases links with
  | zero => exact ⟨_, rfl⟩
  | succ links => exact ⟨_, rfl⟩

theorem resolveFrom_canonical {links : Nat} (hcur : fs.Canonical cur)
    (h : fs.resolveFrom create links cur segs = .ok loc) :
    fs.Canonical loc ∨ (create = true ∧ fs.node loc = none) := by
  induction links generalizing cur segs loc with
  | zero => exact walk_canonical (fun _ hf => by cases hf) hcur h
  | succ links ih => exact walk_canonical (fun hc hf => ih hc hf) hcur h

theorem resolveFrom_append {links : Nat} (h : fs.Canonical loc) :
    fs.resolveFrom create links [] (loc ++ segs) = fs.resolveFrom create links loc segs := by
  obtain ⟨follow, hfollow⟩ := @exists_walk fs create links
  rw [hfollow]
  exact h.walk_append

theorem resolveFrom_nil {links : Nat} : fs.resolveFrom create links cur [] = .ok cur := by
  cases links <;> rfl

theorem resolveFrom_self {links : Nat} (h : fs.Canonical loc) :
    fs.resolveFrom create links [] loc = .ok loc := by
  have happ := @resolveFrom_append _ create _ [] links h
  rw [List.append_nil] at happ
  rw [happ, resolveFrom_nil]

theorem canonicalize_canonical {p : Path} (h : fs.canonicalize p = .ok loc) : fs.Canonical loc :=
  (resolveFrom_canonical .nil h).resolve_right fun hc => Bool.false_ne_true hc.1

theorem canonicalize_self (h : fs.Canonical loc) : fs.canonicalize (pathOf loc) = .ok loc :=
  resolveFrom_self h

/-- Creating an entry of a canonical directory that is no link touches that entry only. -/
theorem create_entry {name : Name} (h : fs.Canonical loc) (hname : IsNormal name)
    (hlink : ∀ target, fs.node (loc ++ [name]) ≠ some (.link target))
    (hc : fs.create (pathOf (loc ++ [name])) = .ok loc') : loc' = loc ++ [name] := by
  unfold create at hc
  split at hc
  · rename_i loc'' hres
    split_ifs at hc
    cases hc
    obtain ⟨follow, hfollow⟩ := @exists_walk fs true fs.maxSymlinks
    rw [hfollow, show (pathOf (loc ++ [name])).segments = loc ++ [name] from rfl,
      h.walk_append] at hres
    by_cases hdir : fs.node loc = some .dir
    · rw [walk_cons hdir hname] at hres
      cases hn : fs.node (loc ++ [name]) with
      | none =>
        rw [hn] at hres
        exact (Except.ok.inj hres).symm
      | some node =>
        rw [hn] at hres
        cases node with
        | link target => exact absurd hn (hlink target)
        | dir => exact (Except.ok.inj hres).symm
        | file => exact (Except.ok.inj hres).symm
    · rw [walk, if_pos hdir] at hres
      cases hres
  · cases hc

end FileSystem

end Lib
