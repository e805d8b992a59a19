import Mathlib
import TauTerm.Lib.Bytes
import TauTerm.Lib.FileSystem

/-!
# The paths of the TFTP server

`relative_request_path`, `resolve_read_path` and `resolve_write_path` of
`plugins/tftp/server.rs`. What a read opens always lies under the root. What a
write creates does too, unless the last name of the request is a symbolic link
that `exists` does not see: then only the directory has been checked, and
creating the file goes through the link.
-/

namespace TauTerm.Tftp

open Lib

inductive PathResolveError where
  | invalidName
  | escape
  | notFound
  | io
  deriving DecidableEq

def PathResolveError.ofIo : IoError → PathResolveError
  | .notFound => .notFound
  | _ => .io

def relativeRequestPath (filename : List Char) : Except PathResolveError Path :=
  let p := Path.new filename
  if filename = [] then .error .invalidName
  else if p.components.all fun
      | .normal _ | .curDir => true
      | _ => false
  then .ok p
  else .error .invalidName

def resolveReadPath (fs : FileSystem) (root : Path) (filename : List Char) :
    Except PathResolveError Path := do
  let c := root.join (← relativeRequestPath filename)
  let p := FileSystem.pathOf (← (fs.canonicalize c).mapError .ofIo)
  if p.startsWith root then .ok p else .error .escape

def resolveWritePath (fs : FileSystem) (root : Path) (filename : List Char) :
    Except PathResolveError Path := do
  let c := root.join (← relativeRequestPath filename)
  if fs.pathExists c then
    let p := FileSystem.pathOf (← (fs.canonicalize c).mapError fun _ => .io)
    if p.startsWith root then .ok p else .error .escape
  else
    let parent := FileSystem.pathOf
      (← (fs.canonicalize (← c.parent.elim (.error .invalidName) .ok)).mapError .ofIo)
    if !parent.startsWith root then .error .escape
    else do
      let name ← c.fileName.elim (.error .invalidName) .ok
      .ok (parent.join ⟨false, [name]⟩)

/-! ## Canonical paths -/

variable {fs : FileSystem} {root loc : Location} {filename : List Char}

theorem startsWith_pathOf (hroot : ∀ name ∈ root, IsNormal name) (hloc : ∀ name ∈ loc, IsNormal name) :
    (FileSystem.pathOf loc).startsWith (FileSystem.pathOf root) = true ↔ root <+: loc := by
  unfold Path.startsWith Path.components FileSystem.pathOf
  rw [List.isPrefixOf_iff_prefix]
  show [Component.rootDir] ++ _ <+: [Component.rootDir] ++ _ ↔ _
  rw [List.prefix_append_right_inj, filterMap_normal hroot, filterMap_normal hloc]
  exact List.prefix_map_iff_of_injective fun _ _ h => Component.normal.inj h

theorem mapError_eq_ok {ε ε' α : Type} {r : Except ε α} {f : ε → ε'} {a : α} :
    r.mapError f = .ok a ↔ r = .ok a := by
  cases r <;> simp [Except.mapError]

theorem elim_eq_ok {ε α : Type} {o : Option α} {e : ε} {a : α} :
    o.elim (.error e : Except ε α) .ok = .ok a ↔ o = some a := by
  cases o <;> simp

/-- What `resolve_read_path` returns, once the request is resolved. -/
theorem of_resolveReadPath (hroot : fs.Canonical root) {p : Path}
    (h : resolveReadPath fs (FileSystem.pathOf root) filename = .ok p) :
    ∃ dest, p = FileSystem.pathOf dest ∧ fs.Canonical dest ∧ root <+: dest := by
  unfold resolveReadPath at h
  obtain ⟨rel, -, h⟩ := bind_eq_ok.mp h
  obtain ⟨dest, hdest, h⟩ := bind_eq_ok.mp h
  have hcanon := FileSystem.canonicalize_canonical ((mapError_eq_ok).mp hdest)
  dsimp only at h
  split_ifs at h with hin
  · cases h
    exact ⟨dest, rfl, hcanon, (startsWith_pathOf hroot.isNormal hcanon.isNormal).mp hin⟩

/-- The request as the server looks it up, the directory in which its last name stands, and that
name. -/
def requestEntry (fs : FileSystem) (root : Location) (filename : List Char) :
    Option (Path × Location × Name) :=
  match relativeRequestPath filename with
  | .error _ => none
  | .ok rel =>
    let c := (FileSystem.pathOf root).join rel
    match c.parent, c.fileName with
    | some parent, some name =>
      match fs.canonicalize parent with
      | .ok dir => some (c, dir, name)
      | .error _ => none
    | _, _ => none

/-- The last name of the request is a symbolic link under the root that leads to no existing file
(or not in the way the request is spelled), and creating its target creates or truncates a file
outside the root. -/
def LinkEscapes (fs : FileSystem) (root : Location) (filename : List Char) : Prop :=
  ∃ c dir name target dest,
    requestEntry fs root filename = some (c, dir, name) ∧
    fs.pathExists c = false ∧ root <+: dir ∧
    fs.node (dir ++ [name]) = some (.link target) ∧
    fs.create (FileSystem.pathOf (dir ++ [name])) = .ok dest ∧ ¬root <+: dest

/-- `resolve_write_path` returns the canonical location of what exists, or an entry of a canonical
directory. -/
theorem of_resolveWritePath (hroot : fs.Canonical root) {p : Path}
    (h : resolveWritePath fs (FileSystem.pathOf root) filename = .ok p) :
    (∃ dest, p = FileSystem.pathOf dest ∧ fs.Canonical dest ∧ root <+: dest) ∨
      ∃ c dir name, requestEntry fs root filename = some (c, dir, name) ∧
        fs.pathExists c = false ∧ root <+: dir ∧ fs.Canonical dir ∧ IsNormal name ∧
        p = FileSystem.pathOf (dir ++ [name]) := by
  unfold resolveWritePath at h
  obtain ⟨rel, hrel, h⟩ := bind_eq_ok.mp h
  dsimp only at h
  cases hexists : fs.pathExists ((FileSystem.pathOf root).join rel) with
  | true =>
    rw [hexists, if_pos rfl] at h
    obtain ⟨dest, hdest, h⟩ := bind_eq_ok.mp h
    have hcanon := FileSystem.canonicalize_canonical ((mapError_eq_ok).mp hdest)
    split_ifs at h with hin
    · cases h
      exact .inl ⟨dest, rfl, hcanon, (startsWith_pathOf hroot.isNormal hcanon.isNormal).mp hin⟩
  | false =>
    rw [hexists, if_neg Bool.false_ne_true] at h
    obtain ⟨parent, hparent, h⟩ := bind_eq_ok.mp h
    obtain ⟨dir, hdir, h⟩ := bind_eq_ok.mp h
    have hcanon := FileSystem.canonicalize_canonical ((mapError_eq_ok).mp hdir)
    split_ifs at h with hin
    · obtain ⟨name, hname, h⟩ := bind_eq_ok.mp h
      cases h
      rw [Bool.not_eq_true, Bool.not_eq_false'] at hin
      have hentry : requestEntry fs root filename =
          some ((FileSystem.pathOf root).join rel, dir, name) := by
        unfold requestEntry
        rw [hrel]
        dsimp only
        rw [elim_eq_ok.mp hparent, elim_eq_ok.mp hname]
        dsimp only
        rw [(mapError_eq_ok).mp hdir]
      exact .inr ⟨_, dir, name, hentry, hexists,
        (startsWith_pathOf hroot.isNormal hcanon.isNormal).mp hin, hcanon,
        (Path.fileName_normal (elim_eq_ok.mp hname)).2, rfl⟩

/-- The request whose last name is looked up in a checked directory is resolved to that entry. -/
theorem resolveWritePath_entry (hroot : fs.Canonical root) {c : Path} {dir : Location} {name : Name}
    (hentry : requestEntry fs root filename = some (c, dir, name))
    (hexists : fs.pathExists c = false) (hdir : root <+: dir) :
    resolveWritePath fs (FileSystem.pathOf root) filename =
      .ok (FileSystem.pathOf (dir ++ [name])) := by
  unfold requestEntry at hentry
  cases hrel : relativeRequestPath filename with
  | error e => rw [hrel] at hentry; cases hentry
  | ok rel =>
    rw [hrel] at hentry
    dsimp only at hentry
    split at hentry
    · rename_i parent name' hparent hname
      split at hentry
      · rename_i dir' hcanon
        cases hentry
        have hin := (startsWith_pathOf hroot.isNormal
          (FileSystem.canonicalize_canonical hcanon).isNormal).mpr hdir
        unfold resolveWritePath
        rw [hrel, ok_bind, if_neg (by simp [hexists]), hparent]
        show (fs.canonicalize parent).mapError PathResolveError.ofIo >>= _ = _
        rw [(mapError_eq_ok).mpr hcanon, ok_bind, if_neg (by simp [hin]), hname]
        rfl
      · cases hentry
    · cases hentry

theorem create_canonical {dest loc : Location} (h : fs.Canonical dest)
    (hc : fs.create (FileSystem.pathOf dest) = .ok loc) : loc = dest := by
  unfold FileSystem.create at hc
  rw [show (FileSystem.pathOf dest).segments = dest from rfl, FileSystem.resolveFrom_self h] at hc
  dsimp only at hc
  split_ifs at hc
  exact (Except.ok.inj hc).symm

/-- **Reads stay under the root.** -/
theorem openRead_of_resolveReadPath (hroot : fs.Canonical root) {p : Path} {loc : Location}
    (h : resolveReadPath fs (FileSystem.pathOf root) filename = .ok p)
    (ho : fs.openRead p = .ok loc) : root <+: loc := by
  obtain ⟨dest, rfl, hcanon, hin⟩ := of_resolveReadPath hroot h
  rw [FileSystem.openRead, FileSystem.canonicalize_self hcanon] at ho
  rwa [← Except.ok.inj ho]

/-- **Writes stay under the root** exactly if no link carries the last name of the request out of
it. -/
theorem server_paths_safe_iff (fs : FileSystem) (root : Location) (filename : List Char)
    (hroot : fs.Canonical root) :
    ((∀ p loc, resolveReadPath fs (FileSystem.pathOf root) filename = .ok p →
        fs.openRead p = .ok loc → root <+: loc) ∧
      ∀ p loc, resolveWritePath fs (FileSystem.pathOf root) filename = .ok p →
        fs.create p = .ok loc → root <+: loc) ↔
      ¬LinkEscapes fs root filename := by
  constructor
  · rintro ⟨-, hwrite⟩ ⟨c, dir, name, target, dest, hentry, hexists, hdir, -, hcreate, hout⟩
    exact hout (hwrite _ dest (resolveWritePath_entry hroot hentry hexists hdir) hcreate)
  · intro hsafe
    refine ⟨fun p loc => openRead_of_resolveReadPath hroot, fun p loc h hcreate => ?_⟩
    rcases of_resolveWritePath hroot h with ⟨dest, rfl, hcanon, hin⟩ |
      ⟨c, dir, name, hentry, hexists, hdir, hcanon, hname, rfl⟩
    · rwa [create_canonical hcanon hcreate]
    · by_contra hout
      by_cases hlink : ∃ target, fs.node (dir ++ [name]) = some (.link target)
      · obtain ⟨target, htarget⟩ := hlink
        exact hsafe ⟨c, dir, name, target, loc, hentry, hexists, hdir, htarget, hcreate, hout⟩
      · push Not at hlink
        rw [FileSystem.create_entry hcanon hname hlink hcreate] at hout
        exact hout (hdir.trans (List.prefix_append dir [name]))

/-! ## A dangling link -/

/-- A directory `/srv` with a link `out` to the missing file `/etc/new`. -/
def linkedFs : FileSystem where
  node loc :=
    if loc = [] ∨ loc = ["srv".toList] ∨ loc = ["etc".toList] then some .dir
    else if loc = ["srv".toList, "out".toList] then
      some (.link ⟨true, ["etc".toList, "new".toList]⟩)
    else none
  maxSymlinks := 40

theorem canonical_srv : linkedFs.Canonical ["srv".toList] :=
  .snoc .nil rfl (by decide) (by decide) fun target h => by cases h

/-- The file that the write creates is outside the root. -/
theorem write_through_dangling_link :
    linkedFs.Canonical ["srv".toList] ∧
      resolveWritePath linkedFs (FileSystem.pathOf ["srv".toList]) "out".toList =
        .ok (FileSystem.pathOf ["srv".toList, "out".toList]) ∧
      linkedFs.create (FileSystem.pathOf ["srv".toList, "out".toList]) =
        .ok ["etc".toList, "new".toList] ∧
      ¬["srv".toList] <+: ["etc".toList, "new".toList] :=
  ⟨canonical_srv, by decide, by decide, by decide⟩

/-- A request for a new file is safe. -/
theorem write_new_file_safe :
    resolveWritePath linkedFs (FileSystem.pathOf ["srv".toList]) "new".toList =
        .ok (FileSystem.pathOf ["srv".toList, "new".toList]) ∧
      ∀ loc, linkedFs.create (FileSystem.pathOf ["srv".toList, "new".toList]) = .ok loc →
        ["srv".toList] <+: loc := by
  have hpath : resolveWritePath linkedFs (FileSystem.pathOf ["srv".toList]) "new".toList =
      .ok (FileSystem.pathOf ["srv".toList, "new".toList]) := by decide
  have hsafe : ¬LinkEscapes linkedFs ["srv".toList] "new".toList := by
    rintro ⟨c, dir, name, target, dest, hentry, -, -, hlink, -⟩
    have hnew : (requestEntry linkedFs ["srv".toList] "new".toList).map Prod.snd =
        some (["srv".toList], "new".toList) := by decide
    rw [hentry] at hnew
    obtain ⟨rfl, rfl⟩ := Prod.mk.inj (Option.some.inj hnew)
    cases hlink
  refine ⟨hpath, fun loc hcreate => ?_⟩
  exact ((server_paths_safe_iff linkedFs ["srv".toList] "new".toList canonical_srv).mpr hsafe).2 _ loc
    hpath hcreate

end TauTerm.Tftp
