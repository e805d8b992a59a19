import Mathlib

/-!
# Go-back-N over channels that lose nothing

A sender of `n` numbered blocks keeps a window of at most `w` blocks behind its
base, sends what is in it from the front, and starts again at each cumulative
acknowledgement that moves the base. A receiver accepts the next block, drops any
other, and acknowledges what it has accepted: at the latest when it has accepted
`w` blocks since its last acknowledgement, or the last block, or dropped one.
Every packet may be repeated.

Nothing is ever lost (`State.Inv`), there is no deadlock (`State.Inv.live`), and the
steps run out (`Step.decreases`).
-/

namespace Lib.GoBackN

/-- What the sender does: send, or wait with the last acknowledgement it has seen. -/
inductive Phase where
  | sending
  | collecting (lastAck : Option Nat)
  deriving DecidableEq

structure State where
  base : Nat
  /-- How much of the window has been sent. -/
  sent : Nat
  phase : Phase
  /-- The numbers of the data packets under way. -/
  data : List Nat
  accepted : Nat
  acknowledged : Nat
  acking : Bool
  /-- The numbers of the acknowledgements under way. -/
  acks : List Nat

variable (n w : Nat)

def State.window (s : State) : Nat := min w (n - s.base)

inductive Step : State → State → Prop
  | send {s : State} (repeats : Nat) : s.phase = .sending → s.sent < s.window n w → 0 < repeats →
    Step s { s with
      data := s.data ++ List.replicate repeats (s.base + s.sent + 1)
      sent := s.sent + 1, phase := .collecting none }
  | pause {s : State} : s.phase = .sending → s.base < n → s.sent = s.window n w →
    Step s { s with phase := .collecting none }
  | resume {s : State} : s.phase = .collecting none → s.sent < s.window n w →
    Step s { s with phase := .sending }
  | take {s : State} {lastAck : Option Nat} {ack : Nat} {acks : List Nat} :
    s.phase = .collecting lastAck → s.acks = ack :: acks →
    Step s { s with phase := .collecting (some ack), acks }
  | stale {s : State} : s.phase = .collecting (some s.base) → Step s { s with phase := .sending }
  | slide {s : State} {ack : Nat} : s.phase = .collecting (some ack) → s.base < ack →
    Step s { s with base := ack, sent := 0, phase := .sending }
  | accept {s : State} {data : List Nat} (acking : Bool) :
    s.data = (s.accepted + 1) :: data → s.acking = false →
    (s.accepted + 1 = s.acknowledged + w ∨ s.accepted + 1 = n → acking = true) →
    Step s { s with data, accepted := s.accepted + 1, acking }
  | drop {s : State} {block : Nat} {data : List Nat} :
    s.data = block :: data → s.acking = false → block ≠ s.accepted + 1 →
    Step s { s with data, acking := true }
  | acknowledge {s : State} (repeats : Nat) : s.acking = true → 0 < repeats →
    Step s { s with
      acks := s.acks ++ List.replicate repeats s.accepted
      acknowledged := s.accepted, acking := false }

/-! ## The invariant -/

/-- Where the receiver will be once it has seen the packets under way. -/
def reach (accepted : Nat) (data : List Nat) : Nat :=
  data.foldl (fun k block => if block = k + 1 then k + 1 else k) accepted

theorem le_reach (accepted : Nat) (data : List Nat) : accepted ≤ reach accepted data := by
  induction data generalizing accepted with
  | nil => exact le_rfl
  | cons block data ih =>
    rw [reach, List.foldl_cons]
    refine le_trans ?_ (ih _)
    split_ifs <;> omega

theorem reach_append (accepted : Nat) (data data' : List Nat) :
    reach accepted (data ++ data') = reach (reach accepted data) data' := by
  simp [reach, List.foldl_append]

/-- The first copy of a block is accepted, if it is the next one. -/
theorem le_reach_replicate {k block repeats : Nat} (hk : block ≤ k + 1) (hr : 0 < repeats) :
    block ≤ reach k (List.replicate repeats block) := by
  obtain ⟨r, rfl⟩ : ∃ r, repeats = r + 1 := ⟨repeats - 1, by omega⟩
  rw [List.replicate_succ, reach, List.foldl_cons]
  refine le_trans ?_ (le_reach _ _)
  split_ifs <;> omega

/-- No packet under way skips a block. -/
def Steady : Nat → List Nat → Prop
  | _, [] => True
  | k, block :: data => block ≤ k + 1 ∧ Steady (if block = k + 1 then k + 1 else k) data

theorem Steady.append {k : Nat} {data data' : List Nat} (h : Steady k data)
    (h' : Steady (reach k data) data') : Steady k (data ++ data') := by
  induction data generalizing k with
  | nil => exact h'
  | cons block data ih => exact ⟨h.1, ih h.2 h'⟩

theorem steady_replicate {k block : Nat} (h : block ≤ k + 1) (repeats : Nat) :
    Steady k (List.replicate repeats block) := by
  induction repeats generalizing k with
  | zero => trivial
  | succ repeats ih =>
    refine ⟨h, ih ?_⟩
    split_ifs <;> omega

def Phase.lastAck : Phase → Option Nat
  | .sending => none
  | .collecting lastAck => lastAck

/-- The base, and the acknowledgements that will move it. -/
def State.ackLine (s : State) : List Nat := s.base :: (s.phase.lastAck.toList ++ s.acks)

structure State.Inv (s : State) : Prop where
  base_le : s.base ≤ n
  sent_le : s.sent ≤ s.window n w
  /-- What the sender has sent of its window reaches the receiver. -/
  reach : s.base + s.sent ≤ GoBackN.reach s.accepted s.data
  steady : Steady s.accepted s.data
  data_le : ∀ block ∈ s.data, block ≤ s.base + s.window n w
  accepted_le : s.accepted ≤ s.base + s.window n w
  acknowledged_le : s.acknowledged ≤ s.accepted
  /-- The acknowledgements come in order, and the last one is the receiver's last. -/
  ordered : s.ackLine.Pairwise (· ≤ ·)
  last : s.ackLine.getLast? = some s.acknowledged
  due : s.acking = false →
    s.accepted < s.acknowledged + w ∧ (s.accepted = n → s.acknowledged = n)

variable {n w} {s s' : State}

theorem window_add_le (h : s.base ≤ n) : s.base + s.window n w ≤ n := by
  unfold State.window
  omega

theorem le_last_of_pairwise {l : List Nat} {x : Nat} (hl : l.Pairwise (· ≤ ·))
    (hx : l.getLast? = some x) : ∀ a ∈ l, a ≤ x := by
  obtain ⟨front, rfl⟩ := List.getLast?_eq_some_iff.mp hx
  intro a ha
  rcases List.mem_append.mp ha with hfront | hlast
  · exact (List.pairwise_append.mp hl).2.2 a hfront x (List.mem_singleton_self x)
  · exact (List.mem_singleton.mp hlast).le

theorem State.Inv.base_le_acknowledged (h : s.Inv n w) : s.base ≤ s.acknowledged :=
  le_last_of_pairwise h.ordered h.last s.base List.mem_cons_self

/-- An acknowledgement that the sender has seen lies in its window. -/
theorem State.Inv.lastAck_mem (h : s.Inv n w) {ack : Nat} (hp : s.phase = .collecting (some ack)) :
    s.base ≤ ack ∧ ack ≤ s.acknowledged := by
  have hline : s.ackLine = s.base :: ack :: s.acks := by simp [State.ackLine, hp, Phase.lastAck]
  have hordered := h.ordered
  have hlast := h.last
  rw [hline] at hordered hlast
  exact ⟨List.rel_of_pairwise_cons hordered List.mem_cons_self,
    le_last_of_pairwise hordered hlast ack (by simp)⟩

theorem State.Inv.init (hw : 0 < w) :
    State.Inv n w ⟨0, 0, .sending, [], 0, 0, false, []⟩ where
  base_le := Nat.zero_le _
  sent_le := Nat.zero_le _
  reach := le_rfl
  steady := trivial
  data_le := by simp
  accepted_le := Nat.zero_le _
  acknowledged_le := le_rfl
  ordered := by simp [State.ackLine, Phase.lastAck]
  last := rfl
  due _ := ⟨by simpa using hw, id⟩

theorem State.Inv.step (hw : 0 < w) (h : s.Inv n w) (hs : Step n w s s') : s'.Inv n w := by
  have hbound := h.base_le_acknowledged
  have hacc := h.acknowledged_le
  cases hs with
  | send repeats hp hsent hr =>
    have hreach := h.reach
    refine ⟨h.base_le, hsent, ?_, h.steady.append (steady_replicate (by omega) repeats),
      fun block hb => ?_, h.accepted_le, hacc, ?_, ?_, h.due⟩
    · show s.base + (s.sent + 1) ≤ _
      rw [reach_append]
      exact le_reach_replicate (k := GoBackN.reach s.accepted s.data) (by omega) hr
    · rcases List.mem_append.mp hb with hb | hb
      · exact h.data_le block hb
      · rw [(List.mem_replicate.mp hb).2]
        show s.base + s.sent + 1 ≤ s.base + s.window n w
        omega
    · simpa [State.ackLine, hp, Phase.lastAck] using h.ordered
    · simpa [State.ackLine, hp, Phase.lastAck] using h.last
  | pause hp hb hsent =>
    exact ⟨h.base_le, h.sent_le, h.reach, h.steady, h.data_le, h.accepted_le, hacc,
      by simpa [State.ackLine, hp, Phase.lastAck] using h.ordered,
      by simpa [State.ackLine, hp, Phase.lastAck] using h.last, h.due⟩
  | resume hp hsent =>
    exact ⟨h.base_le, h.sent_le, h.reach, h.steady, h.data_le, h.accepted_le, hacc,
      by simpa [State.ackLine, hp, Phase.lastAck] using h.ordered,
      by simpa [State.ackLine, hp, Phase.lastAck] using h.last, h.due⟩
  | @take lastAck ack acks hp hacks =>
    have hline : s.ackLine = s.base :: (lastAck.toList ++ ack :: acks) := by
      simp [State.ackLine, hp, hacks, Phase.lastAck]
    have hordered := h.ordered
    have hlast := h.last
    rw [hline] at hordered hlast
    refine ⟨h.base_le, h.sent_le, h.reach, h.steady, h.data_le, h.accepted_le, hacc, ?_, ?_, h.due⟩
    · refine hordered.sublist (List.Sublist.cons_cons _ ?_)
      exact List.sublist_append_right _ _
    · rw [← hlast]
      cases lastAck <;> simp [State.ackLine, Phase.lastAck, List.getLast?_cons_cons]
  | stale hp =>
    have hline : s.ackLine = s.base :: s.base :: s.acks := by
      simp [State.ackLine, hp, Phase.lastAck]
    have hordered := h.ordered
    have hlast := h.last
    rw [hline] at hordered hlast
    exact ⟨h.base_le, h.sent_le, h.reach, h.steady, h.data_le, h.accepted_le, hacc, hordered.of_cons,
      by rwa [List.getLast?_cons_cons] at hlast, h.due⟩
  | @slide ack hp hb =>
    have hmem := h.lastAck_mem hp
    have hline : s.ackLine = s.base :: ack :: s.acks := by simp [State.ackLine, hp, Phase.lastAck]
    have hordered := h.ordered
    have hlast := h.last
    rw [hline] at hordered hlast
    have haccepted := h.accepted_le
    have hn := window_add_le (w := w) h.base_le
    have hwindow : s.base + s.window n w ≤ ack + min w (n - ack) := by
      unfold State.window
      omega
    refine ⟨by show ack ≤ n; omega, Nat.zero_le _, ?_, h.steady, fun block hblock => ?_, ?_, hacc,
      hordered.of_cons, by rwa [List.getLast?_cons_cons] at hlast, h.due⟩
    · have hreach := le_reach s.accepted s.data
      show ack + 0 ≤ GoBackN.reach s.accepted s.data
      omega
    · exact le_trans (h.data_le block hblock) hwindow
    · exact le_trans h.accepted_le hwindow
  | @accept data acking hdata hidle hdue =>
    have hle : s.accepted + 1 ≤ s.base + s.window n w :=
      h.data_le _ (by rw [hdata]; exact List.mem_cons_self)
    have hsteady := h.steady
    rw [hdata] at hsteady
    refine ⟨h.base_le, h.sent_le, ?_, by simpa using hsteady.2, fun block hb => h.data_le block (by
      rw [hdata]; exact List.mem_cons_of_mem _ hb), hle, by show s.acknowledged ≤ s.accepted + 1; omega,
      h.ordered, h.last, fun hack => ?_⟩
    · have hreach := h.reach
      rw [hdata, GoBackN.reach, List.foldl_cons, if_pos rfl] at hreach
      exact hreach
    · obtain ⟨hlt, -⟩ := h.due hidle
      have hnot : ¬ (s.accepted + 1 = s.acknowledged + w ∨ s.accepted + 1 = n) := fun hd => by
        have htrue := hdue hd
        rw [show acking = false from hack] at htrue
        cases htrue
      exact ⟨by show s.accepted + 1 < s.acknowledged + w; omega, fun heq => absurd (.inr heq) hnot⟩
  | @drop block data hdata hidle hne =>
    have hsteady := h.steady
    rw [hdata, Steady, if_neg hne] at hsteady
    refine ⟨h.base_le, h.sent_le, ?_, hsteady.2, fun block hb => h.data_le block (by
      rw [hdata]; exact List.mem_cons_of_mem _ hb), h.accepted_le, hacc, h.ordered, h.last, nofun⟩
    have hreach := h.reach
    rw [hdata, GoBackN.reach, List.foldl_cons, if_neg hne] at hreach
    exact hreach
  | acknowledge repeats hack hr =>
    have hle : ∀ a ∈ s.ackLine, a ≤ s.accepted := fun a ha =>
      le_trans (le_last_of_pairwise h.ordered h.last a ha) hacc
    refine ⟨h.base_le, h.sent_le, h.reach, h.steady, h.data_le, h.accepted_le, le_rfl, ?_, ?_, fun _ =>
      ⟨by show s.accepted < s.accepted + w; omega, id⟩⟩
    · show (s.base :: (s.phase.lastAck.toList ++ (s.acks ++ List.replicate repeats s.accepted))).Pairwise
        (· ≤ ·)
      rw [← List.append_assoc, ← List.cons_append]
      refine List.pairwise_append.mpr ⟨h.ordered, List.pairwise_replicate.mpr (.inr le_rfl), ?_⟩
      intro a ha b hb
      rw [(List.mem_replicate.mp hb).2]
      exact hle a ha
    · show (s.base :: (s.phase.lastAck.toList ++ (s.acks ++ List.replicate repeats s.accepted))).getLast?
        = some s.accepted
      obtain ⟨r, rfl⟩ : ∃ r, repeats = r + 1 := ⟨repeats - 1, by omega⟩
      rw [List.replicate_succ', ← List.append_assoc, ← List.append_assoc, ← List.cons_append,
        List.getLast?_append]
      rfl

/-! ## Progress -/

/-- As long as the sender is not through, one of the two has something to do. What
reaches a receiver that is through need not be looked at. -/
theorem State.Inv.live (h : s.Inv n w) (hbase : s.base < n) :
    s.acking = true ∨ (s.acknowledged < n ∧ s.data ≠ []) ∨ s.phase = .sending ∨
      (∃ ack, s.phase = .collecting (some ack)) ∨
      (s.phase = .collecting none ∧ (s.acks ≠ [] ∨ s.sent < s.window n w)) := by
  by_contra hstuck
  push Not at hstuck
  obtain ⟨hack, hdata, hsending, hlastAck, hcollecting⟩ := hstuck
  have hp : s.phase = .collecting none := by
    cases hp : s.phase with
    | sending => exact absurd hp hsending
    | collecting lastAck =>
      cases lastAck with
      | none => rfl
      | some ack => exact absurd hp (hlastAck ack)
  obtain ⟨hacks, hsent⟩ := hcollecting hp
  -- the last acknowledgement has arrived, and everything sent is accepted
  have hlast := h.last
  simp only [State.ackLine, hp, hacks, Phase.lastAck, Option.toList_none, List.append_nil,
    List.getLast?_singleton, Option.some.injEq] at hlast
  have hreach := h.reach
  rw [hdata (by omega), GoBackN.reach, List.foldl_nil] at hreach
  -- so one more acknowledgement was due
  obtain ⟨hdue, hend⟩ := h.due (Bool.eq_false_iff.mpr hack)
  have haccepted := h.accepted_le
  unfold State.window at hsent haccepted
  omega

/-! ## Termination -/

def Phase.rank (unsent : Bool) : Phase → Nat
  | .sending => 1
  | .collecting (some _) => 3
  | .collecting none => if unsent then 2 else 0

/-- What is left to do, the rarer first: moves of the base, sends of the window,
data packets, an acknowledgement to send, acknowledgements under way. -/
def State.measure (n w : Nat) (s : State) : ℕ ×ₗ ℕ ×ₗ ℕ ×ₗ ℕ ×ₗ ℕ ×ₗ ℕ :=
  toLex (n - s.base, toLex (s.window n w - s.sent, toLex (s.data.length, toLex (s.acking.toNat,
    toLex (s.acks.length, s.phase.rank (s.sent < s.window n w))))))

theorem Step.decreases (h : s.Inv n w) (hs : Step n w s s') : s'.measure n w < s.measure n w := by
  cases hs with
  | send repeats hp hsent hr =>
    have hlt : s.window n w - (s.sent + 1) < s.window n w - s.sent := by omega
    simp only [State.measure, Prod.Lex.toLex_lt_toLex]
    exact .inr ⟨trivial, .inl hlt⟩
  | pause hp hb hsent =>
    simp [State.measure, State.window, Prod.Lex.toLex_lt_toLex, hp, Phase.rank] at hsent ⊢
    omega
  | resume hp hsent =>
    simp [State.measure, State.window, Prod.Lex.toLex_lt_toLex, hp, Phase.rank] at hsent ⊢
    simp [hsent]
  | take hp hacks =>
    simp [State.measure, State.window, Prod.Lex.toLex_lt_toLex, hacks]
  | stale hp =>
    simp [State.measure, State.window, Prod.Lex.toLex_lt_toLex, hp, Phase.rank]
  | slide hp hb =>
    have hmem := h.lastAck_mem hp
    have hacc := h.acknowledged_le
    have haccepted := h.accepted_le
    have hn := window_add_le (w := w) h.base_le
    simp only [State.measure, Prod.Lex.toLex_lt_toLex]
    exact .inl (by omega)
  | accept acking hdata hidle hdue =>
    simp [State.measure, State.window, Prod.Lex.toLex_lt_toLex, hdata]
  | drop hdata hidle hne =>
    simp [State.measure, State.window, Prod.Lex.toLex_lt_toLex, hdata]
  | acknowledge repeats hack hr =>
    simp [State.measure, State.window, Prod.Lex.toLex_lt_toLex, hack]

end Lib.GoBackN
