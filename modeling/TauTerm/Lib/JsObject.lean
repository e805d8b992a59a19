import Mathlib

/-!
# Plain JavaScript objects

An object used as a map has its own properties, in the order they were made, and
behind them `Object.prototype`, unless that was taken away. A read that finds no own
property sees what the prototype has under that name. A computed name in a literal,
and a spread, always make an own property; an assignment to `__proto__` reaches the
setter on the prototype instead.
-/

namespace Lib

structure JsObject (V : Type) where
  own : List (String × V)
  nodup : (own.map Prod.fst).Nodup
  hasPrototype : Bool
deriving DecidableEq

/-- What the read of a property gives. -/
inductive JsRead (V : Type)
  | value (v : V)
  | inherited
  | undefined
deriving DecidableEq

/-- The names that `Object.prototype` has something under. -/
def prototypeNames : List String :=
  ["constructor", "__defineGetter__", "__defineSetter__", "hasOwnProperty",
    "__lookupGetter__", "__lookupSetter__", "isPrototypeOf", "propertyIsEnumerable",
    "toString", "valueOf", "__proto__", "toLocaleString"]

namespace JsObject

variable {V : Type} (o : JsObject V) {k k' : String} {v : V}

/-- `{}`. -/
def empty : JsObject V := ⟨[], List.nodup_nil, true⟩

def keys : List String := o.own.map Prod.fst

def lookup (k : String) : Option V := o.own.lookup k

def hasOwn (k : String) : Bool := (o.lookup k).isSome

/-- `o[k]`. -/
def get (k : String) : JsRead V :=
  match o.lookup k with
  | some v => .value v
  | none => if o.hasPrototype && prototypeNames.contains k then .inherited else .undefined

private theorem map_fst_replace (l : List (String × V)) :
    (l.map fun p => if p.1 = k then (k, v) else p).map Prod.fst = l.map Prod.fst := by
  rw [List.map_map]
  refine List.map_congr_left fun p _ => ?_
  simp only [Function.comp_apply]
  split_ifs with h
  · exact h.symm
  · rfl

/-- `{ ...o, [k]: v }`, on the properties of `o`. -/
def define (k : String) (v : V) : JsObject V where
  own := if k ∈ o.keys then o.own.map fun p => if p.1 = k then (k, v) else p else o.own ++ [(k, v)]
  nodup := by
    split_ifs with h
    · rw [map_fst_replace]
      exact o.nodup
    · rw [List.map_append]
      exact List.Nodup.append o.nodup (List.nodup_singleton _) (List.disjoint_singleton.mpr h)
  hasPrototype := o.hasPrototype

/-- `delete o[k]`. -/
def delete (k : String) : JsObject V where
  own := o.own.filter fun p => p.1 ≠ k
  nodup := o.nodup.sublist (List.filter_sublist.map _)
  hasPrototype := o.hasPrototype

/-- `{ ...o }`. -/
def spread : JsObject V := { o with hasPrototype := true }

/-- `Object.fromEntries(Object.entries(o).map(([k, v]) => [k, f(v)]))`, up to the order. -/
def mapValues {W : Type} (f : V → W) : JsObject W where
  own := o.own.map fun p => (p.1, f p.2)
  nodup := by
    rw [List.map_map]
    exact o.nodup
  hasPrototype := true

/-- `o[k] = v`, for a value that is a primitive or `null`. -/
def assign {α : Type} (o : JsObject (Option α)) (k : String) (v : Option α) : JsObject (Option α) :=
  if o.hasOwn k || k ≠ "__proto__" || !o.hasPrototype then o.define k v
  else if v.isNone then { o with hasPrototype := false }
  else o

/-- The number that a name written in decimal stands for, if it counts as an index. -/
def arrayIndex (k : String) : Option Nat :=
  let digits := k.toList
  let n := digits.foldl (fun n c => 10 * n + (c.toNat - '0'.toNat)) 0
  if digits ≠ [] ∧ digits.all Char.isDigit ∧ (digits.head? = some '0' → digits = ['0']) ∧
    n < 2 ^ 32 - 1 then some n else none

/-- `Object.entries(o)`: the indices upwards, then the other names in the order they were made. -/
def entries : List (String × V) :=
  (o.own.filter fun p => (arrayIndex p.1).isSome).insertionSort
    (fun p q => (arrayIndex p.1).getD 0 ≤ (arrayIndex q.1).getD 0)
    ++ o.own.filter fun p => (arrayIndex p.1).isNone

/-! ## Rules -/

private theorem lookup_cons_ite (l : List (String × V)) (k₀ : String) (v₀ : V) :
    ((k₀, v₀) :: l).lookup k = if k = k₀ then some v₀ else l.lookup k := by
  by_cases h : k = k₀
  · subst h
    simp
  · rw [List.lookup_cons, beq_false_of_ne h, if_neg h]

theorem lookup_map_snd {W : Type} (f : V → W) (l : List (String × V)) :
    (l.map fun p => (p.1, f p.2)).lookup k = (l.lookup k).map f := by
  induction l with
  | nil => rfl
  | cons p l ih =>
    rw [List.map_cons, lookup_cons_ite, ih, ← Prod.eta p, lookup_cons_ite]
    split_ifs <;> rfl

@[simp] theorem lookup_mapValues {W : Type} (f : V → W) :
    (o.mapValues f).lookup k = (o.lookup k).map f := lookup_map_snd f o.own

theorem mem_own : (k, v) ∈ o.own ↔ o.lookup k = some v := by
  obtain ⟨own, nodup, b⟩ := o
  change _ ↔ own.lookup k = some v
  induction own with
  | nil => simp
  | cons p l ih =>
    obtain ⟨k₀, v₀⟩ := p
    have hnodup := List.nodup_cons.mp nodup
    rw [List.mem_cons, lookup_cons_ite, ih hnodup.2, Prod.mk.injEq]
    by_cases h : k = k₀
    · subst h
      have hnot : l.lookup k ≠ some v := fun hsome =>
        hnodup.1 (List.mem_map.mpr ⟨(k, v), (ih hnodup.2).mpr hsome, rfl⟩)
      simp [hnot, eq_comm]
    · simp [h]

theorem mem_keys : k ∈ o.keys ↔ ∃ v, o.lookup k = some v := by
  rw [keys, List.mem_map]
  constructor
  · rintro ⟨⟨k, v⟩, h, rfl⟩
    exact ⟨v, (mem_own o).mp h⟩
  · rintro ⟨v, h⟩
    exact ⟨(k, v), (mem_own o).mpr h, rfl⟩

theorem lookup_eq_none : o.lookup k = none ↔ k ∉ o.keys := by
  rw [mem_keys, Option.eq_none_iff_forall_ne_some, not_exists]

theorem mem_entries : (k, v) ∈ o.entries ↔ o.lookup k = some v := by
  rw [entries, List.mem_append, List.mem_insertionSort, List.mem_filter, List.mem_filter,
    ← and_or_left, mem_own]
  refine and_iff_left ?_
  cases arrayIndex k with
  | none => exact .inr rfl
  | some _ => exact .inl rfl

@[simp] theorem keys_empty : (empty : JsObject V).keys = [] := rfl

@[simp] theorem lookup_empty : (empty : JsObject V).lookup k = none := rfl

theorem own_define_of_mem (h : k ∈ o.keys) :
    (o.define k v).own = o.own.map fun p => if p.1 = k then (k, v) else p := if_pos h

theorem own_define_of_not_mem (h : k ∉ o.keys) : (o.define k v).own = o.own ++ [(k, v)] := if_neg h

theorem keys_define : (o.define k v).keys = if k ∈ o.keys then o.keys else o.keys ++ [k] := by
  split_ifs with h
  · rw [keys, own_define_of_mem o h, map_fst_replace, keys]
  · rw [keys, own_define_of_not_mem o h, List.map_append, keys, List.map_singleton]

theorem mem_keys_define : k' ∈ (o.define k v).keys ↔ k' = k ∨ k' ∈ o.keys := by
  rw [keys_define]
  split_ifs with h
  · refine ⟨.inr, ?_⟩
    rintro (rfl | h')
    · exact h
    · exact h'
  · rw [List.mem_append, List.mem_singleton, or_comm]

private theorem lookup_replace (l : List (String × V)) :
    (l.map fun p => if p.1 = k then (k, v) else p).lookup k' =
      if k' = k ∧ k ∈ l.map Prod.fst then some v else l.lookup k' := by
  induction l with
  | nil => simp
  | cons p l ih =>
    obtain ⟨k₀, v₀⟩ := p
    simp only [List.map_cons, lookup_cons_ite, List.mem_cons]
    by_cases h₀ : k₀ = k
    · subst h₀
      rw [if_pos rfl, lookup_cons_ite, ih]
      by_cases h : k' = k₀
      · simp [h]
      · simp [h]
    · rw [if_neg h₀, lookup_cons_ite, ih]
      by_cases h : k' = k
      · subst h
        have hne : k' ≠ k₀ := fun heq => h₀ heq.symm
        simp only [hne, if_false, true_and, false_or]
      · simp [h]

@[simp] theorem lookup_define :
    (o.define k v).lookup k' = if k' = k then some v else o.lookup k' := by
  by_cases h : k ∈ o.keys
  · rw [lookup, own_define_of_mem o h, lookup_replace]
    simp only [show k ∈ o.own.map Prod.fst from h, and_true]
    rfl
  · rw [lookup, own_define_of_not_mem o h, List.lookup_append, lookup_cons_ite]
    by_cases h' : k' = k
    · subst h'
      rw [show o.own.lookup k' = none from (lookup_eq_none o).mpr h]
      simp
    · simp [h', lookup]

theorem mem_keys_delete : k' ∈ (o.delete k).keys ↔ k' ∈ o.keys ∧ k' ≠ k := by
  simp only [keys, delete, List.mem_map, List.mem_filter, decide_eq_true_eq]
  constructor
  · rintro ⟨p, ⟨hmem, hne⟩, rfl⟩
    exact ⟨⟨p, hmem, rfl⟩, hne⟩
  · rintro ⟨⟨p, hmem, rfl⟩, hne⟩
    exact ⟨p, ⟨hmem, hne⟩, rfl⟩

theorem lookup_delete :
    (o.delete k).lookup k' = if k' = k then none else o.lookup k' := by
  split_ifs with h
  · rw [lookup_eq_none, mem_keys_delete]
    exact fun hmem => hmem.2 h
  · refine Option.ext fun v => ?_
    rw [← mem_own, ← mem_own, delete, List.mem_filter]
    simp [h]

theorem lookup_foldl_delete (names : List String) :
    (names.foldl delete o).lookup k = if k ∈ names then none else o.lookup k := by
  induction names generalizing o with
  | nil => simp
  | cons name names ih =>
    rw [List.foldl_cons, ih, lookup_delete]
    by_cases h : k = name
    · simp [h]
    · simp [h]

@[simp] theorem lookup_spread : o.spread.lookup k = o.lookup k := rfl

@[simp] theorem keys_spread : o.spread.keys = o.keys := rfl

theorem get_of_lookup (h : o.lookup k = some v) : o.get k = .value v := by rw [get, h]

theorem hasOwn_iff : o.hasOwn k ↔ k ∈ o.keys := by
  rw [hasOwn, Option.isSome_iff_exists, mem_keys]

/-- Only `__proto__` can be assigned without becoming an own property. -/
theorem assign_of_ne {α : Type} {o : JsObject (Option α)} {v : Option α} (h : k ≠ "__proto__") :
    o.assign k v = o.define k v := by
  rw [assign, if_pos]
  simp [h]

theorem assign_of_mem {α : Type} {o : JsObject (Option α)} {v : Option α} (h : k ∈ o.keys) :
    o.assign k v = o.define k v := by
  rw [assign, if_pos]
  simp [(hasOwn_iff o).mpr h]

theorem lookup_assign {α : Type} {o : JsObject (Option α)} {v : Option α} (h : k ≠ "__proto__") :
    (o.assign k v).lookup k' = if k' = k then some v else o.lookup k' := by
  rw [assign_of_ne h, lookup_define]

theorem lookup_assign_proto {α : Type} {o : JsObject (Option α)} {v : Option α}
    (ho : o.hasPrototype) (h : "__proto__" ∉ o.keys) :
    (o.assign "__proto__" v).lookup k = o.lookup k := by
  have hown : ¬ o.hasOwn "__proto__" := fun h' => h ((hasOwn_iff o).mp h')
  rw [assign, if_neg (by simp [ho, hown])]
  split_ifs <;> rfl

/-- The object that assignments to distinct names build up. -/
def assignAll {α : Type} (f : String → Option α) (names : List String) : JsObject (Option α) :=
  names.foldl (fun o k => o.assign k (f k)) empty

theorem assignAll_concat {α : Type} (f : String → Option α) (names : List String) (k : String) :
    assignAll f (names ++ [k]) = (assignAll f names).assign k (f k) := by
  rw [assignAll, List.foldl_append]
  rfl

theorem hasPrototype_assign {α : Type} {o : JsObject (Option α)} {v : Option α}
    (h : k ≠ "__proto__") : (o.assign k v).hasPrototype = o.hasPrototype := by
  rw [assign_of_ne h]
  rfl

theorem hasPrototype_assignAll {α : Type} (f : String → Option α) {names : List String}
    (h : "__proto__" ∉ names) : (assignAll f names).hasPrototype := by
  induction names using List.reverseRecOn with
  | nil => rfl
  | append_singleton names k ih =>
    rw [List.mem_append, List.mem_singleton, not_or] at h
    rw [assignAll_concat, hasPrototype_assign (Ne.symm h.2)]
    exact ih h.1

theorem lookup_assignAll {α : Type} (f : String → Option α) {names : List String}
    (hnodup : names.Nodup) :
    (assignAll f names).lookup k =
      if k ∈ names ∧ k ≠ "__proto__" then some (f k) else none := by
  induction names using List.reverseRecOn generalizing k with
  | nil => simp [assignAll]
  | append_singleton names last ih =>
    have hnodup' := hnodup.of_append_left
    have hlast : last ∉ names := fun hmem =>
      List.disjoint_of_nodup_append hnodup hmem (List.mem_singleton_self last)
    rw [assignAll_concat]
    simp only [List.mem_append, List.mem_singleton]
    by_cases hproto : last = "__proto__"
    · subst hproto
      have hown : "__proto__" ∉ (assignAll f names).keys := by
        rw [← lookup_eq_none, ih hnodup', if_neg (fun h => h.2 rfl)]
      rw [lookup_assign_proto (hasPrototype_assignAll f hlast) hown, ih hnodup']
      refine if_congr ?_ rfl rfl
      refine ⟨fun h => ⟨.inl h.1, h.2⟩, fun h => ⟨h.1.resolve_right h.2, h.2⟩⟩
    · rw [lookup_assign hproto, ih hnodup']
      by_cases hk : k = last
      · subst hk
        simp [hproto]
      · simp [hk]

theorem mem_keys_assignAll {α : Type} (f : String → Option α) {names : List String}
    (hnodup : names.Nodup) : k ∈ (assignAll f names).keys ↔ k ∈ names ∧ k ≠ "__proto__" := by
  rw [mem_keys, lookup_assignAll f hnodup]
  split_ifs with h
  · exact iff_of_true ⟨_, rfl⟩ h
  · exact iff_of_false (fun ⟨_, h'⟩ => nomatch h') h

end JsObject

/-! ## Values read from JSON -/

inductive JsNumber
  | finite (value : ℚ)
  | infinite (negative : Bool)
deriving DecidableEq

/-- What `JSON.parse` gives. An object is listed by its own properties, and has
`Object.prototype` behind it; a literal such as `1e999` is an infinite number. -/
inductive JsonValue
  | null
  | bool (b : Bool)
  | number (n : JsNumber)
  | string (s : String)
  | array (items : List JsonValue)
  | object (properties : List (String × JsonValue))

/-- A property of a parsed object. -/
def JsonValue.property (properties : List (String × JsonValue)) (k : String) : JsRead JsonValue :=
  match properties.lookup k with
  | some v => .value v
  | none => if prototypeNames.contains k then .inherited else .undefined

end Lib
