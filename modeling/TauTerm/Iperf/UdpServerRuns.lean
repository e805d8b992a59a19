import Mathlib
import TauTerm.Iperf.UdpServer

/-!
# Runs of the UDP server loop

A `Ledger` is what counts of a server: which test each peer has, which reports may still be sent
again, and how often each test has been begun, ended and reported. The turns of the loop are its
operations, and `Counted` is kept by each of them.
-/

namespace TauTerm.Iperf

variable {Addr : Type}

/-! ## Tables -/

section Tables

variable [DecidableEq Addr] {α : Type} {table : Addr → Option α} {addr addr' : Addr} {value value' : α}

theorem update_some_iff :
    Function.update table addr (some value) addr' = some value' ↔
      (addr' = addr ∧ value = value') ∨ (addr' ≠ addr ∧ table addr' = some value') := by
  by_cases h : addr' = addr
  · subst h
    simp
  · simp [h]

theorem update_none_iff :
    Function.update table addr none addr' = some value' ↔
      addr' ≠ addr ∧ table addr' = some value' := by
  by_cases h : addr' = addr
  · subst h
    simp
  · simp [h]

theorem map_update {β : Type} (g : α → β) (table : Addr → Option α) (addr : Addr) (value : Option α) :
    (fun a => (Function.update table addr value a).map g) =
      Function.update (fun a => (table a).map g) addr (value.map g) := by
  funext a
  by_cases h : a = addr
  · subst h
    simp
  · simp [h]

theorem lookup_insert_eq (table : AList fun _ : Addr => α) (addr : Addr) (value : α) :
    (fun a => (table.insert addr value).lookup a) =
      Function.update (fun a => table.lookup a) addr (some value) := by
  funext a
  by_cases h : a = addr
  · subst h
    simp
  · simp [h, AList.lookup_insert_ne h]

theorem lookup_erase_eq (table : AList fun _ : Addr => α) (addr : Addr) :
    (fun a => (table.erase addr).lookup a) = Function.update (fun a => table.lookup a) addr none := by
  funext a
  by_cases h : a = addr
  · subst h
    simp
  · simp [h, AList.lookup_erase_ne h]

end Tables

/-! ## The ledger -/

/-- `closing` holds a test and the re-sends it has left. -/
@[ext]
structure Ledger (Addr : Type) where
  running : Addr → Option Nat
  closing : Addr → Option (Nat × Nat)
  last : Nat
  begins : Nat → Nat
  ends : Nat → Nat
  reports : Nat → Nat

namespace Ledger

def Running (l : Ledger Addr) (test : Nat) : Prop := ∃ addr, l.running addr = some test

/-- One more for a test. -/
def more (count : Nat → Nat) (test : Nat) : Nat → Nat :=
  Function.update count test (count test + 1)

structure Counted (l : Ledger Addr) : Prop where
  range : ∀ test, l.Running test → 1 ≤ test ∧ test ≤ l.last
  unique : ∀ addr addr' test, l.running addr = some test → l.running addr' = some test → addr = addr'
  begun : ∀ test, l.begins test = if 1 ≤ test ∧ test ≤ l.last then 1 else 0
  running : ∀ test, l.Running test → l.ends test = 0 ∧ l.reports test = 0
  unknown : ∀ test, ¬ (1 ≤ test ∧ test ≤ l.last) → l.ends test = 0 ∧ l.reports test = 0
  ended : ∀ test, 1 ≤ test → test ≤ l.last → ¬ l.Running test → l.ends test = 1
  reported : ∀ test, l.reports test ≤ 1 + REPORT_MAX_RETRIES
  closing : ∀ addr test retries, l.closing addr = some (test, retries) →
    (1 ≤ test ∧ test ≤ l.last) ∧ ¬ l.Running test ∧
      l.reports test + retries ≤ 1 + REPORT_MAX_RETRIES
  closingUnique : ∀ addr addr' test retries retries', l.closing addr = some (test, retries) →
    l.closing addr' = some (test, retries') → addr = addr'

/-- Reports that are not kept any longer. -/
def forget (l : Ledger Addr) (closing : Addr → Option (Nat × Nat)) : Ledger Addr := { l with closing }

variable [DecidableEq Addr]

def accept (l : Ledger Addr) (addr : Addr) : Ledger Addr where
  running := Function.update l.running addr (some (l.last + 1))
  closing := Function.update l.closing addr none
  last := l.last + 1
  begins := more l.begins (l.last + 1)
  ends := l.ends
  reports := l.reports

def finish (l : Ledger Addr) (addr : Addr) (test : Nat) : Ledger Addr where
  running := Function.update l.running addr none
  closing := Function.update l.closing addr (some (test, REPORT_MAX_RETRIES))
  last := l.last
  begins := l.begins
  ends := more l.ends test
  reports := more l.reports test

def resend (l : Ledger Addr) (addr : Addr) (test retries : Nat) : Ledger Addr :=
  { l with
    closing := Function.update l.closing addr (some (test, retries))
    reports := more l.reports test }

variable {l : Ledger Addr} {addr : Addr} {test : Nat}

theorem more_self (count : Nat → Nat) (test : Nat) : more count test test = count test + 1 :=
  Function.update_self ..

theorem more_of_ne {count : Nat → Nat} {other : Nat} (h : other ≠ test) :
    more count test other = count other :=
  Function.update_of_ne h ..

omit [DecidableEq Addr] in
theorem Counted.forget (h : l.Counted) {closing : Addr → Option (Nat × Nat)}
    (hsub : ∀ addr entry, closing addr = some entry → l.closing addr = some entry) :
    (l.forget closing).Counted :=
  { h with
    closing := fun addr test retries hc => h.closing addr test retries (hsub _ _ hc)
    closingUnique := fun addr addr' test retries retries' hc hc' =>
      h.closingUnique addr addr' test retries retries' (hsub _ _ hc) (hsub _ _ hc') }

theorem running_accept (hnone : l.running addr = none) :
    (l.accept addr).Running test ↔ test = l.last + 1 ∨ l.Running test := by
  constructor
  · rintro ⟨addr', hrunning⟩
    obtain ⟨-, heq⟩ | ⟨-, hrunning⟩ := (update_some_iff).mp hrunning
    · exact .inl heq.symm
    · exact .inr ⟨addr', hrunning⟩
  · rintro (rfl | ⟨addr', hrunning⟩)
    · exact ⟨addr, (update_some_iff).mpr (.inl ⟨rfl, rfl⟩)⟩
    · refine ⟨addr', (update_some_iff).mpr (.inr ⟨?_, hrunning⟩)⟩
      rintro rfl
      rw [hnone] at hrunning
      cases hrunning

theorem Counted.accept (h : l.Counted) (hnone : l.running addr = none) : (l.accept addr).Counted where
  range test htest := by
    change 1 ≤ test ∧ test ≤ l.last + 1
    obtain rfl | htest := (running_accept hnone).mp htest
    · omega
    · have := h.range test htest
      omega
  unique a a' test ha ha' := by
    obtain ⟨rfl, hnew⟩ | ⟨-, hold⟩ := (update_some_iff).mp ha <;>
      obtain ⟨rfl, hnew'⟩ | ⟨-, hold'⟩ := (update_some_iff).mp ha'
    · rfl
    · have := h.range _ ⟨a', hold'⟩
      omega
    · have := h.range _ ⟨a, hold⟩
      omega
    · exact h.unique a a' test hold hold'
  begun test := by
    change more l.begins (l.last + 1) test = if 1 ≤ test ∧ test ≤ l.last + 1 then 1 else 0
    by_cases hnew : test = l.last + 1
    · subst hnew
      rw [more_self, h.begun, if_neg (by omega), if_pos (by omega)]
    · rw [more_of_ne hnew, h.begun]
      exact if_congr (by omega) rfl rfl
  running test htest := by
    obtain rfl | htest := (running_accept hnone).mp htest
    · exact h.unknown _ (by omega)
    · exact h.running test htest
  unknown test htest := h.unknown test fun hin => htest (by change 1 ≤ test ∧ test ≤ l.last + 1; omega)
  ended test hpos hle hnot := by
    rw [running_accept hnone, not_or] at hnot
    change test ≤ l.last + 1 at hle
    exact h.ended test hpos (by omega) hnot.2
  reported := h.reported
  closing a test retries hc := by
    obtain ⟨hrange, hnot, hsent⟩ := h.closing a test retries ((update_none_iff).mp hc).2
    refine ⟨by change 1 ≤ test ∧ test ≤ l.last + 1; omega, ?_, hsent⟩
    rw [running_accept hnone, not_or]
    exact ⟨by omega, hnot⟩
  closingUnique a a' test retries retries' hc hc' :=
    h.closingUnique a a' test retries retries' ((update_none_iff).mp hc).2 ((update_none_iff).mp hc').2

theorem running_finish (h : l.Counted) (hrunning : l.running addr = some test) {other : Nat} :
    (l.finish addr test).Running other ↔ l.Running other ∧ other ≠ test := by
  constructor
  · rintro ⟨addr', hother⟩
    obtain ⟨hne, hold⟩ := (update_none_iff).mp hother
    refine ⟨⟨addr', hold⟩, ?_⟩
    rintro rfl
    exact hne (h.unique addr' addr other hold hrunning)
  · rintro ⟨⟨addr', hother⟩, hne⟩
    refine ⟨addr', (update_none_iff).mpr ⟨?_, hother⟩⟩
    rintro rfl
    exact hne (Option.some.inj (hother.symm.trans hrunning))

theorem Counted.finish (h : l.Counted) (hrunning : l.running addr = some test) :
    (l.finish addr test).Counted where
  range other hother := h.range other ((running_finish h hrunning).mp hother).1
  unique a a' other ha ha' :=
    h.unique a a' other ((update_none_iff).mp ha).2 ((update_none_iff).mp ha').2
  begun := h.begun
  running other hother := by
    obtain ⟨hother, hne⟩ := (running_finish h hrunning).mp hother
    change more l.ends test other = 0 ∧ more l.reports test other = 0
    rw [more_of_ne hne, more_of_ne hne]
    exact h.running other hother
  unknown other hother := by
    have hne : other ≠ test := by
      rintro rfl
      exact hother (h.range other ⟨addr, hrunning⟩)
    change more l.ends test other = 0 ∧ more l.reports test other = 0
    rw [more_of_ne hne, more_of_ne hne]
    exact h.unknown other hother
  ended other hpos hle hnot := by
    change more l.ends test other = 1
    by_cases hsame : other = test
    · subst hsame
      rw [more_self, (h.running other ⟨addr, hrunning⟩).1]
    · rw [more_of_ne hsame]
      refine h.ended other hpos hle fun hother => hnot ?_
      exact (running_finish h hrunning).mpr ⟨hother, hsame⟩
  reported other := by
    change more l.reports test other ≤ _
    by_cases hsame : other = test
    · subst hsame
      rw [more_self, (h.running other ⟨addr, hrunning⟩).2]
      decide
    · rw [more_of_ne hsame]
      exact h.reported other
  closing a other retries hc := by
    change _ ∧ _ ∧ more l.reports test other + retries ≤ _
    obtain ⟨-, heq⟩ | ⟨-, hc⟩ := (update_some_iff).mp hc
    · cases heq
      refine ⟨h.range _ ⟨addr, hrunning⟩, ?_, ?_⟩
      · rw [running_finish h hrunning]
        exact fun hother => hother.2 rfl
      · rw [more_self, (h.running _ ⟨addr, hrunning⟩).2]
    · obtain ⟨hrange, hnot, hsent⟩ := h.closing a other retries hc
      have hne : other ≠ test := by
        rintro rfl
        exact hnot ⟨addr, hrunning⟩
      refine ⟨hrange, ?_, ?_⟩
      · rw [running_finish h hrunning]
        exact fun hother => hnot hother.1
      · rwa [more_of_ne hne]
  closingUnique a a' other retries retries' hc hc' := by
    have hfresh : ∀ a retries, l.closing a ≠ some (test, retries) := fun a retries hc =>
      (h.closing a test retries hc).2.1 ⟨addr, hrunning⟩
    obtain ⟨rfl, heq⟩ | ⟨-, hold⟩ := (update_some_iff).mp hc <;>
      obtain ⟨rfl, heq'⟩ | ⟨-, hold'⟩ := (update_some_iff).mp hc'
    · rfl
    · cases heq
      exact absurd hold' (hfresh _ _)
    · cases heq'
      exact absurd hold (hfresh _ _)
    · exact h.closingUnique a a' other retries retries' hold hold'

theorem Counted.resend (h : l.Counted) {retries : Nat}
    (hclosing : l.closing addr = some (test, retries + 1)) :
    (l.resend addr test retries).Counted := by
  obtain ⟨hrange, hnot, hsent⟩ := h.closing addr test _ hclosing
  have hother : ∀ other, other ≠ test → (l.resend addr test retries).reports other = l.reports other :=
    fun other hne => more_of_ne hne
  have hself : (l.resend addr test retries).reports test = l.reports test + 1 := more_self _ _
  exact
    { range := h.range
      unique := h.unique
      begun := h.begun
      running := fun other hrunning => by
        have hne : other ≠ test := by
          rintro rfl
          exact hnot hrunning
        rw [hother other hne]
        exact h.running other hrunning
      unknown := fun other hunknown => by
        have hne : other ≠ test := by
          rintro rfl
          exact hunknown hrange
        rw [hother other hne]
        exact h.unknown other hunknown
      ended := h.ended
      reported := fun other => by
        by_cases hsame : other = test
        · subst hsame
          rw [hself]
          omega
        · rw [hother other hsame]
          exact h.reported other
      closing := fun a other retries' hc => by
        obtain ⟨-, heq⟩ | ⟨hne, hold⟩ := (update_some_iff).mp hc
        · cases heq
          exact ⟨hrange, hnot, by rw [hself]; omega⟩
        · have hdifferent : other ≠ test := by
            rintro rfl
            exact hne (h.closingUnique a addr other retries' (retries + 1) hold hclosing)
          rw [hother other hdifferent]
          exact h.closing a other retries' hold
      closingUnique := fun a a' other r r' hc hc' => by
        obtain ⟨rfl, heq⟩ | ⟨hne, hold⟩ := (update_some_iff).mp hc <;>
          obtain ⟨rfl, heq'⟩ | ⟨hne', hold'⟩ := (update_some_iff).mp hc'
        · rfl
        · cases heq
          exact h.closingUnique _ a' _ _ _ hclosing hold'
        · cases heq'
          exact h.closingUnique a _ _ _ _ hold hclosing
        · exact h.closingUnique a a' other r r' hold hold' }

end Ledger

/-! ## The turns of the loop -/

namespace Output

def begins (test : Nat) : Output Addr → Bool
  | .started seq => seq == test
  | _ => false

def ends (test : Nat) : Output Addr → Bool
  | .done seq _ => seq == test
  | _ => false

def reports (test : Nat) : Output Addr → Bool
  | .sent _ seq _ => seq == test
  | _ => false

end Output

namespace UdpServer

open Ledger (Counted more)

section

variable [DecidableEq Addr]

def ledger (s : UdpServer Addr) : Ledger Addr where
  running addr := (s.clients.lookup addr).map fun client => client.st.seq
  closing addr := (s.closing addr).map fun c => (c.test, c.retries)
  last := s.seqCounter
  begins test := s.outputs.countP (Output.begins test)
  ends test := s.outputs.countP (Output.ends test)
  reports test := s.outputs.countP (Output.reports test)

variable {s : UdpServer Addr} {addr : Addr} {client : Client} {now : ℚ}

omit [DecidableEq Addr] in
theorem countP_intervals {f : Output Addr → Bool} (hf : ∀ seq i, f (.interval seq i) = false)
    (seq : Nat) (intervals : List Iperf2Interval) : (intervals.map (.interval seq)).countP f = 0 := by
  rw [List.countP_eq_zero]
  intro output houtput
  obtain ⟨i, -, rfl⟩ := List.mem_map.mp houtput
  simp [hf]

theorem ledger_settle (s : UdpServer Addr) : s.settle.ledger = s.ledger := by
  unfold settle
  split <;> rfl

theorem ledger_tcp (s : UdpServer Addr) (step : TcpStep) : (s.tcp step).ledger = s.ledger := by
  cases step with
  | begun => rfl
  | announced =>
    unfold tcp
    dsimp only
    split <;> rfl
  | ended => rfl

theorem seq_record (st : UdpClientState) (d : Datagram) : (st.record d).1.seq = st.seq := by
  unfold UdpClientState.record UdpClientState.maybeReportInterval
  split <;> rfl

/-- The tests after the table of clients has been given an entry. -/
theorem running_insert (s : UdpServer Addr) (addr : Addr) (client : Client) :
    (fun a => ((s.clients.insert addr client).lookup a).map fun client => client.st.seq) =
      Function.update s.ledger.running addr (some client.st.seq) := by
  have h := map_update (fun client : Client => client.st.seq) (fun a => s.clients.lookup a) addr
    (some client)
  rwa [← lookup_insert_eq] at h

theorem running_erase (s : UdpServer Addr) (addr : Addr) :
    (fun a => ((s.clients.erase addr).lookup a).map fun client => client.st.seq) =
      Function.update s.ledger.running addr none := by
  have h := map_update (fun client : Client => client.st.seq) (fun a => s.clients.lookup a) addr none
  rwa [← lookup_erase_eq] at h

theorem ledger_count (h : s.clients.lookup addr = some client) (d : Datagram) :
    (s.count addr client d now).ledger = s.ledger := by
  have hintervals (f : Output Addr → Bool) (hf : ∀ seq i, f (.interval seq i) = false) :
      (s.count addr client d now).outputs.countP f = s.outputs.countP f := by
    change (s.outputs ++ _).countP f = _
    rw [List.countP_append, countP_intervals hf, Nat.add_zero]
  have hrunning : s.ledger.running addr = some client.st.seq := congrArg (Option.map _) h
  ext1
  · refine (running_insert s addr
      { client with st := (client.st.record d).1, lastActivity := now }).trans ?_
    rw [seq_record, ← hrunning, Function.update_eq_self]
  · rfl
  · rfl
  · exact funext fun _ => hintervals _ fun _ _ => rfl
  · exact funext fun _ => hintervals _ fun _ _ => rfl
  · exact funext fun _ => hintervals _ fun _ _ => rfl

omit [DecidableEq Addr] in
/-- An output about a test is counted there. -/
theorem countP_concat {f : Nat → Output Addr → Bool} {output : Output Addr} {seq : Nat}
    (hf : ∀ test, f test output = (seq == test)) (outputs : List (Output Addr)) :
    (fun test => (outputs ++ [output]).countP (f test)) =
      more (fun test => outputs.countP (f test)) seq := by
  funext test
  rw [List.countP_append, List.countP_singleton, hf]
  by_cases hsame : test = seq
  · subst hsame
    rw [Ledger.more_self, beq_self_eq_true, if_pos rfl]
  · rw [Ledger.more_of_ne hsame, beq_false_of_ne (Ne.symm hsame),
      if_neg Bool.false_ne_true, Nat.add_zero]

omit [DecidableEq Addr] in
theorem countP_concat_other {f : Nat → Output Addr → Bool} {output : Output Addr}
    (hf : ∀ test, f test output = false) (outputs : List (Output Addr)) :
    (fun test => (outputs ++ [output]).countP (f test)) = fun test => outputs.countP (f test) := by
  funext test
  rw [List.countP_append, List.countP_singleton, hf, if_neg Bool.false_ne_true, Nat.add_zero]

theorem ledger_accept (s : UdpServer Addr) (addr : Addr) (d : Datagram) (now : ℚ) :
    (s.accept addr d now).ledger = s.ledger.accept addr := by
  ext1
  · exact running_insert s addr _
  · exact map_update (fun c : ClosingClient => (c.test, c.retries)) s.closing addr none
  · rfl
  · exact countP_concat (fun _ => rfl) s.outputs
  · exact countP_concat_other (fun _ => rfl) s.outputs
  · exact countP_concat_other (fun _ => rfl) s.outputs

theorem ledger_resend {c : ClosingClient} {retries : Nat} (hretries : c.retries = retries + 1) :
    (resendReport now addr c s).ledger = s.ledger.resend addr c.test retries := by
  unfold resendReport
  rw [if_neg (by omega), hretries]
  ext1
  · rfl
  · exact map_update (fun c : ClosingClient => (c.test, c.retries)) s.closing addr _
  · rfl
  · exact countP_concat_other (fun _ => rfl) s.outputs
  · exact countP_concat_other (fun _ => rfl) s.outputs
  · exact countP_concat (fun _ => rfl) s.outputs

theorem ledger_finish (h : s.clients.lookup addr = some client) (now : ℚ) :
    (s.finish now addr).ledger = s.ledger.finish addr client.st.seq := by
  have hintervals {f : Output Addr → Bool} (hf : ∀ seq i, f (.interval seq i) = false) :
      (s.outputs ++ (client.st.closingInterval (now - client.start)).toList.map
        (Output.interval client.st.seq)).countP f = s.outputs.countP f := by
    rw [List.countP_append, countP_intervals hf, Nat.add_zero]
  have hfinish : s.finish now addr =
      finalizeUdpClient now addr client { s with clients := s.clients.erase addr } := by
    rw [finish, h]
  have houtputs : (s.finish now addr).outputs =
      ((s.outputs ++ (client.st.closingInterval (now - client.start)).toList.map
        (Output.interval client.st.seq)) ++ [.done client.st.seq (client.st.summary (now - client.start))]) ++
          [.sent addr client.st.seq (serverReport client.st)] := by
    rw [hfinish]
    simp only [finalizeUdpClient, emit, List.append_assoc, List.cons_append, List.nil_append]
  ext1
  · rw [hfinish]
    exact running_erase s addr
  · rw [hfinish]
    exact map_update (fun c : ClosingClient => (c.test, c.retries)) s.closing addr _
  · rw [hfinish]
    rfl
  · change (fun test => (s.finish now addr).outputs.countP (Output.begins test)) = _
    rw [houtputs, countP_concat_other fun _ => rfl, countP_concat_other fun _ => rfl]
    exact funext fun _ => hintervals fun _ _ => rfl
  · change (fun test => (s.finish now addr).outputs.countP (Output.ends test)) = _
    rw [houtputs, countP_concat_other fun _ => rfl, countP_concat fun _ => rfl]
    exact congrArg (more · client.st.seq) (funext fun _ => hintervals fun _ _ => rfl)
  · change (fun test => (s.finish now addr).outputs.countP (Output.reports test)) = _
    rw [houtputs, countP_concat fun _ => rfl, countP_concat_other fun _ => rfl]
    exact congrArg (more · client.st.seq) (funext fun _ => hintervals fun _ _ => rfl)

/-! ### What every turn keeps -/

theorem counted_finish (h : Counted s.ledger) (now : ℚ) (addr : Addr) :
    Counted (s.finish now addr).ledger := by
  cases hlookup : s.clients.lookup addr with
  | none =>
    rw [finish, hlookup]
    exact h
  | some client =>
    rw [ledger_finish hlookup]
    exact h.finish (congrArg (Option.map _) hlookup)

theorem counted_foldl (h : Counted s.ledger) (now : ℚ) (addrs : List Addr) :
    Counted (addrs.foldl (finish now) s).ledger := by
  induction addrs generalizing s with
  | nil => exact h
  | cons addr addrs ih => exact ih (counted_finish h now addr)

theorem counted_receive (h : Counted s.ledger) (addr : Addr) (length : Nat) (seqno : Int)
    (transitMs now : ℚ) : Counted (s.receive addr length seqno transitMs now).ledger := by
  unfold receive
  cases hlookup : s.clients.lookup addr with
  | some client =>
    dsimp only
    split
    · rw [ledger_count hlookup]
      exact h
    · rw [ledger_settle]
      exact counted_finish h now addr
  | none =>
    dsimp only
    split
    · rw [ledger_accept]
      exact h.accept (congrArg (Option.map _) hlookup)
    · cases hclosing : s.closing addr with
      | none => exact h
      | some c =>
        dsimp only
        cases hretries : c.retries with
        | zero =>
          rw [resendReport, if_pos hretries]
          exact h
        | succ retries =>
          rw [ledger_resend hretries]
          refine h.resend ?_
          change (s.closing addr).map _ = _
          rw [hclosing, Option.map_some, hretries]

theorem counted_sweep (h : Counted s.ledger) (order : Order Addr) (now : ℚ) :
    Counted (s.sweep order now).ledger := by
  have hsettled := counted_foldl h now ((order.arrange s.clients.keys).filter (s.idle now))
  rw [← ledger_settle] at hsettled
  refine @hsettled.forget _ _ (fun addr =>
    ((((order.arrange s.clients.keys).filter (s.idle now)).foldl (finish now) s).settle.closing addr
      |>.filter fun c => now < c.deadline).map fun c => (c.test, c.retries))
      fun addr entry hentry => ?_
  obtain ⟨c, hc, rfl⟩ := Option.map_eq_some_iff.mp hentry
  exact congrArg (Option.map _) (Option.filter_eq_some_iff.mp hc).1

theorem counted_turn (h : Counted s.ledger) (input : Input Addr) : Counted (s.turn input).ledger := by
  cases input with
  | datagram addr length packet now =>
    cases packet with
    | none => exact h
    | some packet => exact counted_receive h addr length packet.1 packet.2 now
  | timedOut order now => exact counted_sweep h order now
  | tcp step =>
    change Counted (s.tcp step).ledger
    rw [ledger_tcp]
    exact h

theorem counted_start : Counted (start : UdpServer Addr).ledger where
  range := fun test ⟨addr, h⟩ => nomatch h
  unique := fun addr addr' test h => nomatch h
  begun test := by
    change 0 = if 1 ≤ test ∧ test ≤ 0 then 1 else 0
    rw [if_neg (by omega)]
  running := fun test ⟨addr, h⟩ => nomatch h
  unknown _ _ := ⟨rfl, rfl⟩
  ended test hpos hle := by
    change test ≤ 0 at hle
    omega
  reported _ := Nat.zero_le _
  closing := fun addr test retries h => nomatch h
  closingUnique := fun addr addr' test retries retries' h => nomatch h

theorem counted_run (inputs : List (Input Addr)) : Counted (run inputs).ledger :=
  List.foldlRecOn (motive := fun s => Counted s.ledger) inputs turn counted_start
    fun _ h input _ => counted_turn h input

/-! ### The flag -/

/-- The flag is up for a test of the TCP engine or for the clients there are. -/
structure Flagged (s : UdpServer Addr) : Prop where
  active : s.udpActive = true ↔ s.clients.keys ≠ []
  running : s.testRunning = true → s.started = true ∨ s.udpActive = true

theorem finish_frame (s : UdpServer Addr) (now : ℚ) (addr : Addr) :
    (s.finish now addr).udpActive = s.udpActive ∧ (s.finish now addr).testRunning = s.testRunning ∧
      (s.finish now addr).started = s.started := by
  unfold finish
  split <;> exact ⟨rfl, rfl, rfl⟩

theorem foldl_frame (s : UdpServer Addr) (now : ℚ) (addrs : List Addr) :
    (addrs.foldl (finish now) s).udpActive = s.udpActive ∧
      (addrs.foldl (finish now) s).testRunning = s.testRunning ∧
      (addrs.foldl (finish now) s).started = s.started := by
  induction addrs generalizing s with
  | nil => exact ⟨rfl, rfl, rfl⟩
  | cons addr addrs ih =>
    obtain ⟨h1, h2, h3⟩ := finish_frame s now addr
    obtain ⟨h1', h2', h3'⟩ := ih (s.finish now addr)
    exact ⟨h1'.trans h1, h2'.trans h2, h3'.trans h3⟩

theorem lookup_finish (s : UdpServer Addr) (now : ℚ) (addr a : Addr) :
    (s.finish now addr).clients.lookup a = if a = addr then none else s.clients.lookup a := by
  unfold finish
  cases hlookup : s.clients.lookup addr with
  | none =>
    dsimp only
    by_cases hsame : a = addr
    · rw [if_pos hsame, hsame, hlookup]
    · rw [if_neg hsame]
  | some client =>
    change (s.clients.erase addr).lookup a = _
    by_cases hsame : a = addr
    · rw [if_pos hsame, hsame, AList.lookup_erase]
    · rw [if_neg hsame, AList.lookup_erase_ne hsame]

/-- The clients that are finished, and no others, are taken out of the table. -/
theorem lookup_foldl (s : UdpServer Addr) (now : ℚ) (addrs : List Addr) (a : Addr) :
    (addrs.foldl (finish now) s).clients.lookup a =
      if a ∈ addrs then none else s.clients.lookup a := by
  induction addrs generalizing s with
  | nil => simp
  | cons addr addrs ih =>
    rw [List.foldl_cons, ih, lookup_finish]
    by_cases hrest : a ∈ addrs
    · rw [if_pos hrest, if_pos (List.mem_cons_of_mem _ hrest)]
    · rw [if_neg hrest]
      exact if_congr (by simp [hrest]) rfl rfl

theorem keys_eq_nil (s : UdpServer Addr) :
    s.clients.keys = [] ↔ ∀ addr, s.clients.lookup addr = none := by
  rw [List.eq_nil_iff_forall_not_mem]
  exact forall_congr' fun addr => by rw [AList.lookup_eq_none, AList.mem_keys]

omit [DecidableEq Addr] in
theorem flagged_settle {s' : UdpServer Addr} (h : Flagged s)
    (hframe : s'.udpActive = s.udpActive ∧ s'.testRunning = s.testRunning ∧ s'.started = s.started)
    (hsub : s'.clients.keys ≠ [] → s.clients.keys ≠ []) : Flagged s'.settle := by
  unfold settle
  split
  · rename_i hnone
    exact
      { active := iff_of_false Bool.false_ne_true fun hne => hne hnone
        running := fun hrunning => .inl (by simpa [updateTestRunning] using hrunning) }
  · rename_i hsome
    exact
      { active := iff_of_true (by rw [hframe.1]; exact h.active.mpr (hsub hsome)) hsome
        running := by
          rw [hframe.1, hframe.2.1, hframe.2.2]
          exact h.running }

theorem flagged_receive (h : Flagged s) (addr : Addr) (length : Nat) (seqno : Int)
    (transitMs now : ℚ) : Flagged (s.receive addr length seqno transitMs now) := by
  unfold receive
  have hinsert (client : Client) : (s.clients.insert addr client).keys ≠ [] := by
    rw [AList.keys_insert]
    exact List.cons_ne_nil _ _
  cases hlookup : s.clients.lookup addr with
  | some client =>
    have hkeys : s.clients.keys ≠ [] := by
      rw [ne_eq, keys_eq_nil]
      intro hnone
      rw [hnone addr] at hlookup
      cases hlookup
    dsimp only
    split
    · exact
        { active := iff_of_true (h.active.mpr hkeys) (hinsert _)
          running := h.running }
    · exact flagged_settle h (finish_frame s now addr) fun _ => hkeys
  | none =>
    dsimp only
    split
    · exact
        { active := iff_of_true rfl (hinsert _)
          running := fun _ => .inr rfl }
    · cases s.closing addr with
      | none => exact h
      | some c =>
        dsimp only [resendReport]
        split
        · exact h
        · exact ⟨h.active, h.running⟩

theorem flagged_turn (h : Flagged s) (input : Input Addr) : Flagged (s.turn input) := by
  cases input with
  | datagram addr length packet now =>
    cases packet with
    | none => exact h
    | some packet => exact flagged_receive h addr length packet.1 packet.2 now
  | timedOut order now =>
    have hsettled := flagged_settle h
      (foldl_frame s now ((order.arrange s.clients.keys).filter (s.idle now))) fun hne hnil => by
        refine hne ((keys_eq_nil _).mpr fun addr => ?_)
        rw [lookup_foldl, (keys_eq_nil s).mp hnil addr, ite_self]
    exact ⟨hsettled.active, hsettled.running⟩
  | tcp step =>
    cases step with
    | begun => exact ⟨h.active, fun _ => .inl rfl⟩
    | announced =>
      dsimp only [turn, tcp]
      split
      · rename_i hstarted
        exact ⟨h.active, fun _ => .inl hstarted⟩
      · exact h
    | ended => exact ⟨h.active, fun hrunning => .inr hrunning⟩

theorem flagged_run (inputs : List (Input Addr)) : Flagged (run inputs) := by
  refine List.foldlRecOn inputs turn ?_ fun _ h input _ => flagged_turn h input
  exact ⟨iff_of_false Bool.false_ne_true fun h => h rfl, fun h => absurd h Bool.false_ne_true⟩

/-! ### Whose packets are counted -/

/-- What an input adds to a test of a peer that began at `start`. -/
def counted (addr : Addr) (start : ℚ) : Input Addr → Option Datagram
  | .datagram addr' length (some (seqno, transitMs)) now =>
    if addr' = addr ∧ 0 < seqno then some ⟨length, seqno, transitMs, now - start⟩ else none
  | _ => none

/-- The statistics of a client are those of the packets of its address, from the one with which its
test began. -/
def Held (inputs : List (Input Addr)) (addr : Addr) (client : Client) : Prop :=
  ∃ before length seqno transitMs mid,
    inputs = before ++ .datagram addr length (some (seqno, transitMs)) client.start :: mid ∧
    0 < seqno ∧ (run before).clients.lookup addr = none ∧
    (run before).seqCounter + 1 = client.st.seq ∧
    client.st = received client.st.seq ⟨length, seqno, transitMs, 0⟩
      (mid.filterMap (counted addr client.start))

theorem Held.skip {inputs : List (Input Addr)} (h : Held inputs addr client) {input : Input Addr}
    (hskip : counted addr client.start input = none) : Held (inputs ++ [input]) addr client := by
  obtain ⟨before, length, seqno, transitMs, mid, rfl, hpos, hnone, hseq, hst⟩ := h
  refine ⟨before, length, seqno, transitMs, mid ++ [input], by simp, hpos, hnone, hseq, ?_⟩
  rw [List.filterMap_append, List.filterMap_cons_none hskip, List.filterMap_nil, List.append_nil]
  exact hst

theorem Held.add {inputs : List (Input Addr)} (h : Held inputs addr client) {length : Nat}
    {seqno : Int} (transitMs : ℚ) (hpos : 0 < seqno) :
    Held (inputs ++ [.datagram addr length (some (seqno, transitMs)) now]) addr
      { client with
        st := (client.st.record ⟨length, seqno, transitMs, now - client.start⟩).1
        lastActivity := now } := by
  obtain ⟨before, length', seqno', transitMs', mid, rfl, hpos', hnone, hseq, hst⟩ := h
  refine ⟨before, length', seqno', transitMs',
    mid ++ [.datagram addr length (some (seqno, transitMs)) now], by simp, hpos', hnone, ?_, ?_⟩
  · rw [seq_record]
    exact hseq
  · rw [List.filterMap_append]
    dsimp only
    have hcounted : List.filterMap (counted addr client.start)
        [.datagram addr length (some (seqno, transitMs)) now] =
        [⟨length, seqno, transitMs, now - client.start⟩] := by
      simp [counted, hpos]
    rw [hcounted, received, List.foldl_append, seq_record]
    exact congrArg (fun st => (UdpClientState.record st _).1) hst

/-- Every client holds what is its own, and so did every client whose test is done. -/
structure Apart (inputs : List (Input Addr)) (s : UdpServer Addr) : Prop where
  clients : ∀ addr client, s.clients.lookup addr = some client → Held inputs addr client
  done : ∀ seq summary, .done seq summary ∈ s.outputs →
    ∃ front rest addr client now, inputs = front ++ rest ∧ Held front addr client ∧
      client.st.seq = seq ∧ summary = client.st.summary (now - client.start)

theorem done_finish {seq : Nat} {summary : IperfSummary}
    (h : .done seq summary ∈ (s.finish now addr).outputs) :
    .done seq summary ∈ s.outputs ∨ ∃ client, s.clients.lookup addr = some client ∧
      client.st.seq = seq ∧ summary = client.st.summary (now - client.start) := by
  unfold finish at h
  cases hlookup : s.clients.lookup addr with
  | none =>
    rw [hlookup] at h
    exact .inl h
  | some client =>
    rw [hlookup] at h
    simp only [finalizeUdpClient, emit, List.mem_append, List.mem_map, List.mem_cons,
      List.not_mem_nil, or_false, reduceCtorEq, and_false, exists_false, false_or, Output.done.injEq] at h
    obtain h | ⟨rfl, rfl⟩ := h
    · exact .inl h
    · exact .inr ⟨client, rfl, rfl, rfl⟩

/-- What is done after some clients are finished was done before, or was the test of one of them. -/
theorem done_foldl {seq : Nat} {summary : IperfSummary} {addrs : List Addr}
    (h : .done seq summary ∈ (addrs.foldl (finish now) s).outputs) :
    .done seq summary ∈ s.outputs ∨ ∃ addr client, s.clients.lookup addr = some client ∧
      client.st.seq = seq ∧ summary = client.st.summary (now - client.start) := by
  induction addrs generalizing s with
  | nil => exact .inl h
  | cons addr addrs ih =>
    obtain hdone | ⟨a, client, hlookup, hclient⟩ := ih h
    · obtain hdone | ⟨client, hlookup, hclient⟩ := done_finish hdone
      · exact .inl hdone
      · exact .inr ⟨addr, client, hlookup, hclient⟩
    · rw [lookup_finish] at hlookup
      split at hlookup
      · cases hlookup
      · exact .inr ⟨a, client, hlookup, hclient⟩

theorem Apart.foldl {inputs : List (Input Addr)} (h : Apart inputs s) {input : Input Addr}
    (hskip : ∀ addr start, counted addr start input = none) (now : ℚ) (addrs : List Addr) :
    Apart (inputs ++ [input]) (addrs.foldl (finish now) s) where
  clients addr client hlookup := by
    rw [lookup_foldl] at hlookup
    split at hlookup
    · cases hlookup
    · exact (h.clients addr client hlookup).skip (hskip _ _)
  done seq summary hdone := by
    obtain hdone | ⟨addr, client, hlookup, hseq, hsummary⟩ := done_foldl hdone
    · obtain ⟨front, rest, addr, client, now, rfl, hrest⟩ := h.done seq summary hdone
      exact ⟨front, rest ++ [input], addr, client, now, List.append_assoc .., hrest⟩
    · exact ⟨inputs, [input], addr, client, now, rfl, h.clients addr client hlookup, hseq, hsummary⟩

omit [DecidableEq Addr] in
theorem settle_frame (s : UdpServer Addr) :
    s.settle.clients = s.clients ∧ s.settle.outputs = s.outputs := by
  unfold settle
  split <;> exact ⟨rfl, rfl⟩

/-- An input that counts for nobody, and after which the clients are what they were. -/
theorem Apart.skip {inputs : List (Input Addr)} (h : Apart inputs s) {input : Input Addr}
    (hskip : ∀ addr start, counted addr start input = none) {s' : UdpServer Addr}
    (hclients : s'.clients = s.clients)
    (hdone : ∀ seq summary, .done seq summary ∈ s'.outputs → .done seq summary ∈ s.outputs) :
    Apart (inputs ++ [input]) s' where
  clients addr client hlookup := by
    rw [hclients] at hlookup
    exact (h.clients addr client hlookup).skip (hskip _ _)
  done seq summary hmem := by
    obtain ⟨front, rest, addr, client, now, rfl, hrest⟩ := h.done seq summary (hdone seq summary hmem)
    exact ⟨front, rest ++ [input], addr, client, now, List.append_assoc .., hrest⟩

/-- A client is put into the table, which its own input is counted for. -/
theorem Apart.insert {inputs : List (Input Addr)} (h : Apart inputs s) {input : Input Addr}
    (hother : ∀ a start, a ≠ addr → counted a start input = none) {s' : UdpServer Addr}
    (hclients : s'.clients = s.clients.insert addr client)
    (hclient : Held (inputs ++ [input]) addr client)
    (hdone : ∀ seq summary, .done seq summary ∈ s'.outputs → .done seq summary ∈ s.outputs) :
    Apart (inputs ++ [input]) s' where
  clients a client' hlookup := by
    rw [hclients] at hlookup
    by_cases hsame : a = addr
    · subst hsame
      rw [AList.lookup_insert] at hlookup
      cases hlookup
      exact hclient
    · rw [AList.lookup_insert_ne hsame] at hlookup
      exact (h.clients a client' hlookup).skip (hother _ _ hsame)
  done seq summary hmem := by
    obtain ⟨front, rest, a, client', now, rfl, hrest⟩ := h.done seq summary (hdone seq summary hmem)
    exact ⟨front, rest ++ [input], a, client', now, List.append_assoc .., hrest⟩

theorem apart_receive {inputs : List (Input Addr)} (h : Apart inputs (run inputs)) (addr : Addr)
    (length : Nat) (seqno : Int) (transitMs now : ℚ) :
    Apart (inputs ++ [.datagram addr length (some (seqno, transitMs)) now])
      ((run inputs).receive addr length seqno transitMs now) := by
  have hother : ∀ a start, a ≠ addr →
      counted a start (.datagram addr length (some (seqno, transitMs)) now) = none :=
    fun a start hne => if_neg fun hsame => hne hsame.1.symm
  unfold receive
  cases hlookup : (run inputs).clients.lookup addr with
  | some client =>
    dsimp only
    by_cases hpos : 0 < seqno
    · rw [if_pos hpos]
      refine h.insert hother rfl ((h.clients addr client hlookup).add transitMs hpos) ?_
      intro seq summary hmem
      simpa [count, emit] using hmem
    · rw [if_neg hpos]
      have hskip : ∀ a start,
          counted a start (.datagram addr length (some (seqno, transitMs)) now) = none :=
        fun a start => if_neg fun hdata => hpos hdata.2
      have hfinished := h.foldl hskip now [addr]
      obtain ⟨hclients, houtputs⟩ := settle_frame ((run inputs).finish now addr)
      exact
        { clients := fun a client => by
            rw [hclients]
            exact hfinished.clients a client
          done := fun seq summary => by
            rw [houtputs]
            exact hfinished.done seq summary }
  | none =>
    dsimp only
    by_cases hpos : 0 < seqno
    · rw [if_pos hpos]
      refine h.insert hother rfl ?_ ?_
      · exact ⟨inputs, length, seqno, transitMs, [], rfl, hpos, hlookup, rfl, rfl⟩
      · intro seq summary hmem
        simpa [accept, emit, updateTestRunning] using hmem
    · rw [if_neg hpos]
      have hskip : ∀ a start,
          counted a start (.datagram addr length (some (seqno, transitMs)) now) = none :=
        fun a start => if_neg fun hdata => hpos hdata.2
      cases (run inputs).closing addr with
      | none => exact h.skip hskip rfl fun _ _ hmem => hmem
      | some c =>
        dsimp only [resendReport]
        split
        · exact h.skip hskip rfl fun _ _ hmem => hmem
        · refine h.skip hskip rfl fun seq summary hmem => ?_
          simpa [emit] using hmem

theorem apart_turn {inputs : List (Input Addr)} (h : Apart inputs (run inputs)) (input : Input Addr) :
    Apart (inputs ++ [input]) ((run inputs).turn input) := by
  cases input with
  | datagram addr length packet now =>
    cases packet with
    | none => exact h.skip (fun _ _ => rfl) rfl fun _ _ hmem => hmem
    | some packet => exact apart_receive h addr length packet.1 packet.2 now
  | timedOut order now =>
    have hfinished := @Apart.foldl _ _ _ _ h (.timedOut order now) (fun _ _ => rfl) now
      ((order.arrange (run inputs).clients.keys).filter ((run inputs).idle now))
    obtain ⟨hclients, houtputs⟩ := settle_frame
      (((order.arrange (run inputs).clients.keys).filter ((run inputs).idle now)).foldl (finish now)
        (run inputs))
    exact
      { clients := fun a client hlookup => hfinished.clients a client (by rwa [← hclients])
        done := fun seq summary hmem => hfinished.done seq summary (by rwa [← houtputs]) }
  | tcp step =>
    refine h.skip (fun _ _ => rfl) ?_ ?_
    · cases step with
      | announced =>
        dsimp only [turn, tcp]
        split <;> rfl
      | _ => rfl
    · intro seq summary hmem
      cases step with
      | announced =>
        dsimp only [turn, tcp] at hmem
        split at hmem <;> exact hmem
      | _ => exact hmem

theorem apart_run (inputs : List (Input Addr)) : Apart inputs (run inputs) := by
  induction inputs using List.reverseRecOn with
  | nil =>
    exact
      { clients := fun _ _ h => nomatch h
        done := fun _ _ h => nomatch h }
  | append_singleton inputs input ih =>
    rw [run, List.foldl_append]
    exact apart_turn ih input

/-! ### The end -/

/-- What is said of a run, whatever has been received, and of the end it comes to then. -/
structure WellRun (inputs : List (Input Addr)) (final : UdpServer Addr) : Prop where
  /-- Each test that was begun is done once, and no other one is. -/
  once : ∀ test, (run inputs).ledger.ends test ≤ (run inputs).ledger.begins test ∧
    final.ledger.begins test ≤ 1 ∧ final.ledger.ends test = final.ledger.begins test
  /-- What is said of a test is counted from the packets of one peer. -/
  apart : ∀ seq summary, .done seq summary ∈ final.outputs →
    ∃ front rest addr client now, inputs = front ++ rest ∧ Held front addr client ∧
      client.st.seq = seq ∧ summary = client.st.summary (now - client.start)
  reports : ∀ test, final.ledger.reports test ≤ 1 + REPORT_MAX_RETRIES ∧
    (final.ledger.ends test = 0 → final.ledger.reports test = 0)
  /-- The flag is up for a test that is running. -/
  flag : (run inputs).testRunning = true →
    (run inputs).started = true ∨ ∃ test, (run inputs).ledger.Running test
  flagEnd : final.testRunning = true → final.started = true

theorem lookup_shutdown (s : UdpServer Addr) (order : Order Addr) (now : ℚ) (addr : Addr) :
    (s.shutdown order now).clients.lookup addr = none := by
  change (((order.arrange s.clients.keys).foldl (finish now) s).clients.lookup addr) = none
  rw [lookup_foldl]
  split
  · rfl
  · rename_i hnot
    rw [(order.perm s.clients.keys).mem_iff] at hnot
    exact AList.lookup_eq_none.mpr fun hmem => hnot (AList.mem_keys.mp hmem)

theorem counted_shutdown (inputs : List (Input Addr)) (order : Order Addr) (now : ℚ) :
    Counted ((run inputs).shutdown order now).ledger :=
  counted_foldl (counted_run inputs) now (order.arrange (run inputs).clients.keys)

omit [DecidableEq Addr] in
/-- A test that counts has no end before its beginning. -/
theorem ends_le_begins {l : Ledger Addr} (h : Counted l) (test : Nat) : l.ends test ≤ l.begins test := by
  rw [h.begun]
  by_cases hin : 1 ≤ test ∧ test ≤ l.last
  · rw [if_pos hin]
    by_cases hrunning : l.Running test
    · rw [(h.running test hrunning).1]
      exact Nat.zero_le 1
    · exact (h.ended test hin.1 hin.2 hrunning).le
  · rw [if_neg hin]
    exact (h.unknown test hin).1.le

omit [DecidableEq Addr] in
/-- Where nothing runs, what was begun is done. -/
theorem ends_eq_begins {l : Ledger Addr} (h : Counted l) (hnone : ∀ test, ¬ l.Running test)
    (test : Nat) : l.ends test = l.begins test := by
  rw [h.begun]
  by_cases hin : 1 ≤ test ∧ test ≤ l.last
  · rw [if_pos hin]
    exact h.ended test hin.1 hin.2 (hnone test)
  · rw [if_neg hin]
    exact (h.unknown test hin).1

theorem wellRun (inputs : List (Input Addr)) (order : Order Addr) (now : ℚ) :
    WellRun inputs ((run inputs).shutdown order now) := by
  have hend := counted_shutdown inputs order now
  have hnone : ∀ test, ¬ ((run inputs).shutdown order now).ledger.Running test := by
    rintro test ⟨addr, hrunning⟩
    obtain ⟨client, hlookup, -⟩ := Option.map_eq_some_iff.mp hrunning
    rw [lookup_shutdown] at hlookup
    cases hlookup
  constructor
  case once =>
    intro test
    refine ⟨ends_le_begins (counted_run inputs) test, ?_, ends_eq_begins hend hnone test⟩
    rw [hend.begun]
    split <;> omega
  case apart =>
    intro seq summary hdone
    obtain hdone | ⟨addr, client, hlookup, hseq, hsummary⟩ := done_foldl hdone
    · exact (apart_run inputs).done seq summary hdone
    · have hheld := (apart_run inputs).clients addr client hlookup
      exact ⟨inputs, [], addr, client, now, (List.append_nil inputs).symm, hheld, hseq, hsummary⟩
  case reports =>
    intro test
    refine ⟨hend.reported test, fun hnever => (hend.unknown test fun hin => ?_).2⟩
    have hdone := hend.ended test hin.1 hin.2 (hnone test)
    omega
  case flag =>
    intro hup
    obtain hstarted | hactive := (flagged_run inputs).running hup
    · exact .inl hstarted
    · refine .inr ?_
      by_contra hidle
      refine (flagged_run inputs).active.mp hactive ((keys_eq_nil _).mpr fun addr => ?_)
      cases hlookup : (run inputs).clients.lookup addr with
      | none => rfl
      | some client => exact absurd ⟨client.st.seq, addr, congrArg (Option.map _) hlookup⟩ hidle
  case flagEnd =>
    intro hup
    change (_ || false) = true at hup
    rwa [Bool.or_false] at hup

end

end UdpServer

end TauTerm.Iperf
