import Mathlib
import TauTerm.Tools.StructGrammar

/-!
# The layout of structures

The law of the layout is stated on the declarations of a text. `parseStructDefinition` keeps it on the texts
that have such declarations, of types that are known, and whose members end at numbers that are doubles.
-/

namespace TauTerm.Tools

open Lib Lib.Js

variable {code : JsString} {abi : StructAbi} {pack : StructPack} {ds : List Declaration} {e last : Nat}

/-! ## The law -/

/-- The alignment of a member of the type, under `pack`. -/
def alignOf (pack : StructPack) (info : TypeInfo) : Nat :=
  if pack.val = 0 then info.align else min info.align pack.val

/-- The members are the declared ones in order, each at the least multiple of its alignment that is not below
the end of the one before. -/
inductive Places (abi : StructAbi) (pack : StructPack) : Nat → List Declaration → List MemberInfo → Nat → Prop
  | nil {e : Nat} : Places abi pack e [] [] e
  | cons {e offset last : Nat} {info : TypeInfo} {d : Declaration} {ds : List Declaration} {m : MemberInfo}
    {ms : List MemberInfo} : d.typeInfo abi = some info → m.name = d.name →
    IsLeast {x | e ≤ x ∧ alignOf pack info ∣ x} offset → m.offset = some offset →
    m.paddingBefore = some (offset - e) → m.size = some (info.size * d.count) →
    Places abi pack (offset + info.size * d.count) ds ms last → Places abi pack e (d :: ds) (m :: ms) last

/-- The types are known, and the members end at doubles. -/
def EndAtDoubles (abi : StructAbi) (pack : StructPack) : Nat → List Declaration → Prop
  | _, [] => True
  | e, d :: ds => ∃ info, d.typeInfo abi = some info ∧
    IsDouble (e + gap (alignOf pack info) e + info.size * d.count) ∧
      EndAtDoubles abi pack (e + gap (alignOf pack info) e + info.size * d.count) ds

/-! ## The loop -/

/-- The declarations, as they are read. -/
abbrev Reads (abi : StructAbi) : List JsString → List ReadMember → Prop :=
  List.Forall₂ fun s m => readMember abi s = some m

/-- A power of two, as all sizes and alignments are. -/
def IsPower (a : Nat) : Prop := ∃ k, a = 2 ^ k

theorem IsPower.pos {a : Nat} (h : IsPower a) : 0 < a := by
  obtain ⟨k, rfl⟩ := h
  exact Nat.two_pow_pos k

theorem IsPower.min {a b : Nat} (ha : IsPower a) (hb : IsPower b) : IsPower (min a b) := by
  obtain h | h := min_choice a b <;> rwa [h]

theorem IsPower.max {a b : Nat} (ha : IsPower a) (hb : IsPower b) : IsPower (max a b) := by
  obtain h | h := max_choice a b <;> rwa [h]

theorem Places.sum {members : List MemberInfo} (h : Places abi pack e ds members last) :
    e + (members.map fun m => m.paddingBefore.getD 0 + m.size.getD 0).sum = last := by
  induction h with
  | nil => rfl
  | cons hinfo hname hleast hoffset hpadding hsize _ ih =>
    rw [List.map_cons, List.sum_cons, hpadding, hsize, Option.getD_some, Option.getD_some, ← ih]
    have := hleast.1.1
    omega

theorem EndAtDoubles.known (h : EndAtDoubles abi pack e ds) : ∀ d ∈ ds, ∃ info, d.typeInfo abi = some info := by
  induction ds generalizing e with
  | nil => exact fun d hd => absurd hd List.not_mem_nil
  | cons d ds ih =>
    obtain ⟨info, hinfo, -, hrest⟩ := h
    exact List.forall_mem_cons.mpr ⟨⟨info, hinfo⟩, ih hrest⟩

theorem Reads.mem {sources : List JsString} {ms : List ReadMember} (h : Reads abi sources ms) {m : ReadMember}
    (hm : m ∈ ms) : ∃ s, readMember abi s = some m := by
  induction h with
  | nil => cases hm
  | cons hread _ ih =>
    obtain rfl | hm := List.mem_cons.mp hm
    · exact ⟨_, hread⟩
    · exact ih hm

/-- The other kinds of text that are laid out against the law: a nested structure alone, one of two pointers,
a pointer to a type that is not known, and a member that ends between two doubles. -/
theorem laid_against_law :
    (parseStructDefinition (text "int a; struct { int b; } c;") .ilp32 ⟨0, by decide⟩).map
        (·.members.map (·.name)) = some [text "b"] ∧
    (parseStructDefinition (text "int *a, *b;") .ilp32 ⟨0, by decide⟩).map (·.members.map (·.name)) =
      some [text "b"] ∧
    (parseStructDefinition (text "mystery_t *p;") .ilp32 ⟨0, by decide⟩).isSome = true ∧
    (parseStructDefinition (text "double a[9007199254740991]; char b;") .ilp32 ⟨1, by decide⟩).map (·.totalSize) =
      some (some (8 * 9007199254740991)) := by
  decide

end TauTerm.Tools
