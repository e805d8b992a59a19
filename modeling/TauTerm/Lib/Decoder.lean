import Mathlib

/-!
# Decoders of a growing buffer

A `Decoder` reads a value off the front of a buffer and says how much of the
buffer that took, or that the buffer ends too early, or that it is malformed. It
is `Stable` if more input can only change the second answer.
-/

namespace Lib

def Decoder (α ε β : Type) := List α → Except ε (Option (β × Nat))

namespace Decoder

variable {α ε β γ : Type}

instance : Monad (Decoder α ε) where
  pure b _ := .ok (some (b, 0))
  bind x f data :=
    match x data with
    | .error e => .error e
    | .ok none => .ok none
    | .ok (some (b, n)) =>
      match f b (data.drop n) with
      | .error e => .error e
      | .ok none => .ok none
      | .ok (some (c, m)) => .ok (some (c, n + m))

def fail (e : ε) : Decoder α ε β := fun _ => .error e

/-- The next `n` elements. -/
def take (n : Nat) : Decoder α ε (List α) := fun data =>
  if data.length < n then .ok none else .ok (some (data.take n, n))

def replicate (x : Decoder α ε β) : Nat → Decoder α ε (List β)
  | 0 => pure []
  | n + 1 => do
    let b ← x
    let bs ← replicate x n
    pure (b :: bs)

theorem bind_error {x : Decoder α ε β} {data : List α} {e : ε} (h : x data = .error e)
    (f : β → Decoder α ε γ) : (x >>= f) data = .error e := by
  simp only [bind, h]

theorem bind_none {x : Decoder α ε β} {data : List α} (h : x data = .ok none)
    (f : β → Decoder α ε γ) : (x >>= f) data = .ok none := by
  simp only [bind, h]

theorem bind_some {x : Decoder α ε β} {data : List α} {b : β} {n : Nat}
    (h : x data = .ok (some (b, n))) (f : β → Decoder α ε γ) :
    (x >>= f) data =
      match f b (data.drop n) with
      | .error e => .error e
      | .ok none => .ok none
      | .ok (some (c, m)) => .ok (some (c, n + m)) := by
  simp only [bind, h]

theorem bind_eq_some {x : Decoder α ε β} {f : β → Decoder α ε γ} {data : List α} {c : γ} {k : Nat} :
    (x >>= f) data = .ok (some (c, k)) ↔
      ∃ b n m, x data = .ok (some (b, n)) ∧ f b (data.drop n) = .ok (some (c, m)) ∧ k = n + m := by
  constructor
  · intro h
    rcases hx : x data with e | _ | ⟨b, n⟩
    · rw [bind_error hx] at h
      cases h
    · rw [bind_none hx] at h
      cases h
    · rw [bind_some hx] at h
      rcases hf : f b (data.drop n) with e | _ | ⟨c', m⟩
      · rw [hf] at h
        cases h
      · rw [hf] at h
        cases h
      · rw [hf] at h
        cases h
        exact ⟨b, n, m, rfl, hf, rfl⟩
  · rintro ⟨b, n, m, hx, hf, rfl⟩
    rw [bind_some hx, hf]

/-! ## Stability -/

structure Stable (x : Decoder α ε β) : Prop where
  le : ∀ {data b n}, x data = .ok (some (b, n)) → n ≤ data.length
  some : ∀ {data r} more, x data = .ok (some r) → x (data ++ more) = .ok (some r)
  error : ∀ {data e} more, x data = .error e → x (data ++ more) = .error e

theorem stable_pure (b : β) : Stable (pure b : Decoder α ε β) where
  le h := by cases h; exact Nat.zero_le _
  some _ h := h
  error _ h := by cases h

theorem stable_fail (e : ε) : Stable (fail e : Decoder α ε β) where
  le h := by cases h
  some _ h := by cases h
  error _ h := h

theorem stable_take (n : Nat) : Stable (take n : Decoder α ε (List α)) where
  le {data b k} h := by
    unfold take at h
    split_ifs at h with hn
    · cases h
    · cases h
      omega
  some {data r} more h := by
    unfold take at h ⊢
    split_ifs at h with hn
    · cases h
    rw [← h, if_neg (by rw [List.length_append]; omega), List.take_append_of_le_length (by omega)]
  error {data e} more h := by
    unfold take at h
    split_ifs at h

theorem Stable.bind {x : Decoder α ε β} {f : β → Decoder α ε γ} (hx : Stable x)
    (hf : ∀ b, Stable (f b)) : Stable (x >>= f) where
  le {data c k} h := by
    obtain ⟨b, n, m, hb, hc, rfl⟩ := bind_eq_some.mp h
    have hn := hx.le hb
    have hm := (hf b).le hc
    rw [List.length_drop] at hm
    omega
  some {data r} more h := by
    obtain ⟨c, k⟩ := r
    obtain ⟨b, n, m, hb, hc, rfl⟩ := bind_eq_some.mp h
    refine bind_eq_some.mpr ⟨b, n, m, hx.some more hb, ?_, rfl⟩
    rw [List.drop_append_of_le_length (hx.le hb)]
    exact (hf b).some more hc
  error {data e} more h := by
    rcases hb : x data with e' | _ | ⟨b, n⟩
    · rw [bind_error hb] at h
      cases h
      exact bind_error (hx.error more hb) f
    · rw [bind_none hb] at h
      cases h
    · rw [bind_some hb] at h
      rw [bind_some (hx.some more hb), List.drop_append_of_le_length (hx.le hb)]
      rcases hc : f b (data.drop n) with e' | _ | ⟨c, m⟩
      · rw [hc] at h
        cases h
        rw [(hf b).error more hc]
      · rw [hc] at h
        cases h
      · rw [hc] at h
        cases h

theorem Stable.replicate {x : Decoder α ε β} (hx : Stable x) (n : Nat) : Stable (replicate x n) := by
  induction n with
  | zero => exact stable_pure []
  | succ n ih => exact hx.bind fun b => ih.bind fun bs => stable_pure (b :: bs)

theorem Stable.ite {p : Prop} [Decidable p] {x y : Decoder α ε β} (hx : Stable x) (hy : Stable y) :
    Stable (if p then x else y) := by
  split_ifs
  · exact hx
  · exact hy

end Decoder

end Lib
