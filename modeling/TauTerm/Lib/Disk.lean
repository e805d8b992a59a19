import Mathlib

/-!
# Objects under names

What stands under each name of a file system, and what the operations that give, take and change
names make of it. `Grows` is all that programs do that only create objects.
-/

namespace Lib

inductive Obj (C : Type) where
  | file (content : C)
  | link
  | dir
  deriving DecidableEq

abbrev Disk (P C : Type) := P → Option (Obj C)

namespace Disk

variable {P C κ α : Type} {d d' d'' : Disk P C} {a b p : P}

/-- Every object stands where it stood. -/
def Grows (d d' : Disk P C) : Prop := ∀ p o, d p = some o → d' p = some o

/-- Every object stands where it stood, but for what is under `t`. -/
def KeepsBut (t : P) (d d' : Disk P C) : Prop := ∀ p o, p ≠ t → d p = some o → d' p = some o

theorem KeepsBut.refl (t : P) (d : Disk P C) : KeepsBut t d d := fun _ _ _ h => h

theorem KeepsBut.trans (h : KeepsBut a d d') (h' : KeepsBut a d' d'') : KeepsBut a d d'' :=
  fun p o hp ho => h' p o hp (h p o hp ho)

theorem Grows.keepsBut (h : Grows d d') (t : P) : KeepsBut t d d' := fun p o _ ho => h p o ho

/-- An operation that changes `d` to `next` where `guard` holds, or fails without effect. -/
def Effect (r : Except κ α) (guard : Prop) (d next d' : Disk P C) : Prop :=
  match r with
  | .ok _ => guard ∧ d' = next
  | .error _ => d' = d

variable [DecidableEq P]

/-- Give the object under `a` the second name `b`. -/
def link (d : Disk P C) (a b : P) : Disk P C := Function.update d b (d a)

def remove (d : Disk P C) (a : P) : Disk P C := Function.update d a none

def rename (d : Disk P C) (a b : P) : Disk P C := Function.update (d.remove a) b (d a)

def put (d : Disk P C) (a : P) (o : Obj C) : Disk P C := Function.update d a (some o)

@[simp] theorem link_target : d.link a b b = d a := Function.update_self _ _ _

theorem link_of_ne (h : p ≠ b) : d.link a b p = d p := Function.update_of_ne h _ _

theorem remove_of_ne (h : p ≠ a) : d.remove a p = d p := Function.update_of_ne h _ _

@[simp] theorem rename_target : d.rename a b b = d a := Function.update_self _ _ _

theorem rename_of_ne (ha : p ≠ a) (hb : p ≠ b) : d.rename a b p = d p := by
  rw [rename, Function.update_of_ne hb, remove_of_ne ha]

theorem keepsBut_remove : KeepsBut a d (d.remove a) := fun p o hp ho => by
  rw [remove_of_ne hp]
  exact ho

/-- A second name that was free. -/
theorem keepsBut_link (h : d b = none) (t : P) : KeepsBut t d (d.link a b) := fun p o _ ho => by
  rw [link_of_ne]
  · exact ho
  · rintro rfl
    rw [h] at ho
    cases ho

/-- A new name that was free. -/
theorem keepsBut_rename (h : d b = none) : KeepsBut a d (d.rename a b) := fun p o hp ho => by
  rw [rename_of_ne hp]
  · exact ho
  · rintro rfl
    rw [h] at ho
    cases ho

end Disk

end Lib
