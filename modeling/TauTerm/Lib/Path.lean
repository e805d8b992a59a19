import Mathlib

/-!
# Unix paths

The part of `std::path` that looks at a path only as text. A path is cut at its
slashes; empty and `.` segments are no components, except a `.` that begins a
relative path.
-/

namespace Lib

abbrev Name := List Char

/-- The text between the slashes, an initial slash apart. -/
structure Path where
  absolute : Bool
  segments : List Name
  deriving DecidableEq

inductive Component where
  | rootDir
  | curDir
  | parentDir
  | normal (name : Name)
  deriving DecidableEq

def splitSlash : List Char → List Name
  | [] => [[]]
  | c :: text =>
    if c = '/' then [] :: splitSlash text
    else
      match splitSlash text with
      | [] => [[c]]
      | seg :: segs => (c :: seg) :: segs

/-- A segment that is no component inside a path. -/
def isVoid (seg : Name) : Bool := seg == [] || seg == ['.']

def segmentComponent (seg : Name) : Option Component :=
  if isVoid seg then none else if seg = ['.', '.'] then some .parentDir else some (.normal seg)

namespace Path

/-- `Path::new`. -/
def new (text : List Char) : Path :=
  match text with
  | '/' :: rest => ⟨true, splitSlash rest⟩
  | _ => ⟨false, splitSlash text⟩

def components (p : Path) : List Component :=
  (if p.absolute then [.rootDir] else if p.segments.head? = some ['.'] then [.curDir] else []) ++
    p.segments.filterMap segmentComponent

def fileName (p : Path) : Option Name :=
  match p.components.getLast? with
  | some (.normal name) => some name
  | _ => none

/-- Drop the segments at the end that are no components. -/
def trimVoid (segs : List Name) : List Name := (segs.reverse.dropWhile isVoid).reverse

/-- The segments up to the last component, `.` in front of a relative path being one. -/
def trimmed (p : Path) : List Name :=
  match p.absolute, p.segments with
  | false, ['.'] :: segs => ['.'] :: trimVoid segs
  | _, segs => trimVoid segs

def parent (p : Path) : Option Path :=
  match p.components.getLast? with
  | none | some .rootDir => none
  | _ => some { p with segments := trimmed { p with segments := p.trimmed.dropLast } }

def join (p q : Path) : Path := if q.absolute then q else { p with segments := p.segments ++ q.segments }

def startsWith (p q : Path) : Bool := q.components.isPrefixOf p.components

end Path

/-! ## Lemmas -/

/-- A segment that names an entry of a directory. -/
def IsNormal (seg : Name) : Prop := isVoid seg = false ∧ seg ≠ ['.', '.']

instance (seg : Name) : Decidable (IsNormal seg) := inferInstanceAs (Decidable (_ ∧ _))

theorem segmentComponent_normal {seg : Name} (h : IsNormal seg) :
    segmentComponent seg = some (.normal seg) := by
  unfold segmentComponent
  rw [if_neg (by simp [h.1]), if_neg h.2]

theorem of_segmentComponent_normal {seg name : Name}
    (h : segmentComponent seg = some (.normal name)) : name = seg ∧ IsNormal seg := by
  unfold segmentComponent at h
  split_ifs at h with hv hp
  · cases h
  · cases h
    exact ⟨rfl, by simpa using hv, hp⟩

theorem filterMap_normal {names : List Name} (h : ∀ name ∈ names, IsNormal name) :
    names.filterMap segmentComponent = names.map .normal := by
  induction names with
  | nil => rfl
  | cons name names ih =>
    rw [List.filterMap_cons_some (segmentComponent_normal (h name List.mem_cons_self)),
      ih fun n hn => h n (List.mem_cons_of_mem _ hn), List.map_cons]

namespace Path

theorem fileName_normal {p : Path} {name : Name} (h : p.fileName = some name) :
    name ∈ p.segments ∧ IsNormal name := by
  unfold fileName at h
  split at h
  · rename_i name' hlast
    cases h
    have hmem := List.mem_of_getLast? hlast
    unfold components at hmem
    rcases List.mem_append.mp hmem with hmem | hmem
    · split_ifs at hmem <;> simp at hmem
    · obtain ⟨seg, hseg, hcomp⟩ := List.mem_filterMap.mp hmem
      obtain ⟨rfl, hnormal⟩ := of_segmentComponent_normal hcomp
      exact ⟨hseg, hnormal⟩
  · cases h

end Path

end Lib
