import Mathlib
import TauTerm.Lib.Run

/-!
# The transaction history of a server

The peers of a server record their transactions in two steps: `record_server` takes the
next sequence number, then pushes the record under the lock (`server.rs`). A poller reads the
history with a cursor, the number of the last record returned to it.
-/

namespace TauTerm.Modbus

open Lib (Run execute stepWhere run_of_execute run_of_executeWhere)

def SERVER_HISTORY_LIMIT : Nat := 1000
def HISTORY_QUERY_LIMIT : Nat := 500

/-- A record is numbered by a 64-bit counter that starts at 1. -/
structure TransactionRecord (ρ : Type) where
  sequence : Nat
  result : ρ
  deriving DecidableEq

structure TransactionHistoryBatch (ρ : Type) where
  records : List (TransactionRecord ρ)
  latestSequence : Nat
  deriving DecidableEq

variable {ρ : Type}

/-- What `record_server` does under the lock. -/
def pushRecord (history : List (TransactionRecord ρ)) (record : TransactionRecord ρ) :
    List (TransactionRecord ρ) :=
  (if SERVER_HISTORY_LIMIT ≤ history.length then history.drop 1 else history) ++ [record]

/-- The limit that a query is answered with. -/
def queryLimit (limit : Nat) : Nat := max 1 (min limit HISTORY_QUERY_LIMIT)

def historySince (history : List (TransactionRecord ρ)) (afterSequence limit : Nat) :
    TransactionHistoryBatch ρ where
  records :=
    if afterSequence = 0 then (history.reverse.take (queryLimit limit)).reverse
    else (history.filter (afterSequence < ·.sequence)).take (queryLimit limit)
  latestSequence := history.getLast?.elim afterSequence (·.sequence)

/-! ## Peers and a poller -/

/-- `pending` holds the records with a number that are not pushed yet. `due` are the records
pushed since the poller's first call, and `behind` counts the pushes since it was last told
less than its limit. -/
structure HistorySystem (ρ : Type) where
  next : Nat := 1
  pending : List (TransactionRecord ρ) := []
  history : List (TransactionRecord ρ) := []
  cursor : Nat := 0
  started : Bool := false
  returned : List (TransactionRecord ρ) := []
  due : List (TransactionRecord ρ) := []
  behind : Nat := 0
  deriving DecidableEq

inductive HistoryAction (ρ : Type) where
  | allocate (result : ρ)
  | push (peer : Nat)
  | poll
  deriving DecidableEq

namespace HistorySystem

def allocate (s : HistorySystem ρ) (result : ρ) : HistorySystem ρ :=
  { s with next := s.next + 1, pending := s.pending ++ [⟨s.next, result⟩] }

def push (s : HistorySystem ρ) (peer : Nat) (record : TransactionRecord ρ) : HistorySystem ρ :=
  { s with
    pending := s.pending.eraseIdx peer
    history := pushRecord s.history record
    due := if s.started then s.due ++ [record] else s.due
    behind := if s.started then s.behind + 1 else s.behind }

/-- A call of `history_since`, and the cursor set to the last record returned. -/
def poll (s : HistorySystem ρ) (limit : Nat) : HistorySystem ρ :=
  let records := (historySince s.history s.cursor limit).records
  { s with
    cursor := records.getLast?.elim s.cursor (·.sequence)
    started := true
    returned := s.returned ++ records
    behind := if s.started ∧ queryLimit limit ≤ records.length then s.behind else 0 }

def step (limit : Nat) (s : HistorySystem ρ) : HistoryAction ρ → Option (HistorySystem ρ)
  | .allocate result => some (s.allocate result)
  | .push peer => s.pending[peer]?.map (s.push peer)
  | .poll => some (s.poll limit)

/-- Fewer records than the history holds are pushed until the poller is told less than its limit. -/
def Prompt (s : HistorySystem ρ) : HistoryAction ρ → Prop
  | .push _ => s.behind + 1 < SERVER_HISTORY_LIMIT
  | _ => True

def timesReturned (s : HistorySystem ρ) (record : TransactionRecord ρ) : Nat :=
  s.returned.countP (·.sequence = record.sequence)

/-- A record pushed after the first call is returned once before it is evicted, and at the latest
by the call that tells less than its limit. -/
def ReturnedOnce (s : HistorySystem ρ) : Prop :=
  ∀ record ∈ s.due, s.timesReturned record ≤ 1 ∧
    (s.behind = 0 ∨ record ∉ s.history → s.timesReturned record = 1)

/-- The records of the history that are numbered above the cursor. -/
def unread (s : HistorySystem ρ) : List (TransactionRecord ρ) :=
  s.history.filter (s.cursor < ·.sequence)

/-- A record pushed is numbered above those returned, a call finds the records that it has to
return in the order of their numbers, and one that returns the recent window again finds the
whole history in it. -/
def InSequence (limit : Nat) (s : HistorySystem ρ) : HistoryAction ρ → Prop
  | .allocate _ => True
  | .push peer => ∀ record ∈ s.pending[peer]?, s.cursor < record.sequence
  | .poll => s.unread.Pairwise (·.sequence < ·.sequence) ∧
      (s.started → s.cursor = 0 → s.history.length ≤ queryLimit limit)

instance (s : HistorySystem ρ) : DecidablePred s.Prompt := fun a => by
  cases a <;> unfold Prompt <;> infer_instance

instance (limit : Nat) (s : HistorySystem ρ) : DecidablePred (s.InSequence limit) := fun a => by
  cases a <;> unfold InSequence <;> infer_instance

variable {s t : HistorySystem ρ} {limit : Nat}

theorem step_push {peer : Nat} (h : s.step limit (.push peer) = some t) :
    ∃ record, s.pending[peer]? = some record ∧ t = s.push peer record := by
  obtain ⟨record, hrecord, rfl⟩ := Option.map_eq_some_iff.mp h
  exact ⟨record, hrecord, rfl⟩

theorem queryLimit_pos (limit : Nat) : 0 < queryLimit limit := by
  unfold queryLimit
  omega

/-! ## Reading on from the cursor -/

/-- The history is in two parts, that up to the cursor and that behind it. -/
structure Split (s : HistorySystem ρ) (seen : List (TransactionRecord ρ)) : Prop where
  history : s.history = seen ++ s.unread
  seen : ∀ record ∈ seen, record.sequence ≤ s.cursor

structure Numbered (s : HistorySystem ρ) : Prop where
  next : 0 < s.next
  pending : ∀ record ∈ s.pending, 0 < record.sequence
  history : ∀ record ∈ s.history, 0 < record.sequence

/-- The poller has what is due up to its cursor; the rest is in the history and not too much. -/
structure Reading (s : HistorySystem ρ) : Prop where
  numbered : s.Numbered
  split : ∃ seen, s.Split seen
  returned : ∀ record ∈ s.returned, record.sequence ≤ s.cursor
  behind : s.started → s.unread.length ≤ s.behind
  due : ∀ record ∈ s.due,
    if record.sequence ≤ s.cursor then s.timesReturned record = 1 else record ∈ s.history
  waiting : s.started = false → s.cursor = 0 ∧ s.due = [] ∧ s.behind = 0

theorem Reading.start : (({} : HistorySystem ρ)).Reading where
  numbered := ⟨Nat.one_pos, nofun, nofun⟩
  split := ⟨[], rfl, nofun⟩
  returned := nofun
  behind := nofun
  due := nofun
  waiting _ := ⟨rfl, rfl, rfl⟩

theorem mem_unread {record : TransactionRecord ρ} :
    record ∈ s.unread ↔ record ∈ s.history ∧ s.cursor < record.sequence := by
  simp [unread]

theorem timesReturned_eq_zero {record : TransactionRecord ρ}
    (h : ∀ r ∈ s.returned, r.sequence ≠ record.sequence) : s.timesReturned record = 0 := by
  unfold timesReturned
  simpa using h

theorem Reading.started_of_due (h : s.Reading) {record : TransactionRecord ρ}
    (hdue : record ∈ s.due) : s.started = true := by
  by_contra hnot
  rw [(h.waiting (by simpa using hnot)).2.1] at hdue
  cases hdue

theorem Reading.returnedOnce (h : s.Reading) : s.ReturnedOnce := by
  intro record hdue
  have hrecord := h.due record hdue
  split_ifs at hrecord with hcursor
  · exact ⟨hrecord.le, fun _ => hrecord⟩
  · have hzero : s.timesReturned record = 0 := timesReturned_eq_zero fun r hr heq => by
      have := h.returned r hr
      omega
    refine ⟨by omega, ?_⟩
    rintro (hbehind | hevicted)
    · have hlen := h.behind (h.started_of_due hdue)
      have hunread : record ∈ s.unread := (mem_unread).mpr ⟨hrecord, by omega⟩
      have := List.length_pos_of_mem hunread
      omega
    · exact absurd hrecord hevicted

theorem unread_of_append {seen rest : List (TransactionRecord ρ)} (h : s.history = seen ++ rest)
    (hseen : ∀ record ∈ seen, record.sequence ≤ s.cursor)
    (hrest : ∀ record ∈ rest, s.cursor < record.sequence) : s.unread = rest := by
  have hnone : seen.filter (s.cursor < ·.sequence) = [] := by
    rw [List.filter_eq_nil_iff]
    intro record hrecord
    simpa using hseen record hrecord
  have hall : rest.filter (s.cursor < ·.sequence) = rest := by
    rw [List.filter_eq_self]
    intro record hrecord
    simpa using hrest record hrecord
  rw [unread, h, List.filter_append, hnone, hall, List.nil_append]

theorem Split.of_append {seen rest : List (TransactionRecord ρ)} (h : s.history = seen ++ rest)
    (hseen : ∀ record ∈ seen, record.sequence ≤ s.cursor)
    (hrest : ∀ record ∈ rest, s.cursor < record.sequence) : s.Split seen :=
  ⟨by rw [unread_of_append h hseen hrest]; exact h, hseen⟩

/-! ## One step -/

theorem Reading.allocate (h : s.Reading) (result : ρ) : (s.allocate result).Reading where
  numbered := by
    obtain ⟨hnext, hpending, hhistory⟩ := h.numbered
    refine ⟨Nat.succ_pos _, fun record hrecord => ?_, hhistory⟩
    rcases List.mem_append.mp hrecord with hold | hnew
    · exact hpending record hold
    · rw [List.mem_singleton.mp hnew]
      exact hnext
  split := by
    obtain ⟨seen, hsplit⟩ := h.split
    exact ⟨seen, hsplit.1, hsplit.2⟩
  returned := h.returned
  behind := h.behind
  due := h.due
  waiting := h.waiting

theorem mem_pushRecord {history : List (TransactionRecord ρ)} {record r : TransactionRecord ρ}
    (h : r ∈ pushRecord history record) : r ∈ history ∨ r = record := by
  unfold pushRecord at h
  rcases List.mem_append.mp h with hold | hnew
  · left
    split_ifs at hold
    · exact List.mem_of_mem_drop hold
    · exact hold
  · exact Or.inr (List.mem_singleton.mp hnew)

/-- Where there are records up to the cursor, or room, a push evicts nothing that is unread. -/
theorem Split.pushRecord {seen : List (TransactionRecord ρ)} (h : s.Split seen)
    (hroom : s.unread.length < SERVER_HISTORY_LIMIT) (record : TransactionRecord ρ) :
    ∃ seen', seen' ⊆ seen ∧
      Modbus.pushRecord s.history record = seen' ++ (s.unread ++ [record]) := by
  unfold Modbus.pushRecord
  split_ifs with hfull
  · cases seen with
    | nil =>
      rw [h.history, List.nil_append] at hfull
      omega
    | cons oldest seen' =>
      refine ⟨seen', List.subset_cons_self _ _, ?_⟩
      conv_lhs => rw [h.history]
      simp
  · refine ⟨seen, List.Subset.refl _, ?_⟩
    conv_lhs => rw [h.history]
    rw [List.append_assoc]

theorem Reading.push_waiting (h : s.Reading) (hstarted : s.started = false) {peer : Nat}
    {record : TransactionRecord ρ} (hpending : s.pending[peer]? = some record) :
    (s.push peer record).Reading := by
  obtain ⟨hcursor, hdue, hbehind⟩ := h.waiting hstarted
  have hpositive : ∀ r ∈ (s.push peer record).history, 0 < r.sequence := fun r hr => by
    rcases mem_pushRecord hr with hold | rfl
    · exact h.numbered.history r hold
    · exact h.numbered.pending _ (List.mem_of_getElem? hpending)
  exact {
    numbered := ⟨h.numbered.next, fun r hr => h.numbered.pending r (List.mem_of_mem_eraseIdx hr),
      hpositive⟩
    split := ⟨[], @.of_append _ _ _ ((s.push peer record).history) rfl nofun fun r hr => by
      show s.cursor < _
      rw [hcursor]
      exact hpositive r hr⟩
    returned := h.returned
    behind := fun hnow => by
      have : s.started = true := hnow
      simp [hstarted] at this
    due := by simp [push, hstarted, hdue]
    waiting := fun _ => by simp [push, hstarted, hcursor, hdue, hbehind] }

theorem Reading.push_started (h : s.Reading) (hstarted : s.started = true) {peer : Nat}
    {record : TransactionRecord ρ} (hpending : s.pending[peer]? = some record)
    (hprompt : s.Prompt (.push peer)) (habove : s.cursor < record.sequence) :
    (s.push peer record).Reading := by
  obtain ⟨seen, hsplit⟩ := h.split
  have hlen := h.behind hstarted
  obtain ⟨seen', hsub, hhistory⟩ := hsplit.pushRecord
    (show s.unread.length < SERVER_HISTORY_LIMIT by unfold Prompt at hprompt; omega) record
  have hseen : ∀ r ∈ seen', r.sequence ≤ s.cursor := fun r hr => hsplit.seen r (hsub hr)
  have hrest : ∀ r ∈ s.unread ++ [record], s.cursor < r.sequence := fun r hr => by
    rcases List.mem_append.mp hr with hold | hnew
    · exact ((mem_unread).mp hold).2
    · rw [List.mem_singleton.mp hnew]
      exact habove
  have hunread : (s.push peer record).unread = s.unread ++ [record] :=
    unread_of_append (s := s.push peer record) hhistory hseen hrest
  exact {
    numbered := by
      refine ⟨h.numbered.next, fun r hr => h.numbered.pending r (List.mem_of_mem_eraseIdx hr),
        fun r hr => ?_⟩
      rcases mem_pushRecord hr with hold | rfl
      · exact h.numbered.history r hold
      · exact h.numbered.pending _ (List.mem_of_getElem? hpending)
    split := ⟨seen', .of_append (s := s.push peer record) hhistory hseen hrest⟩
    returned := h.returned
    behind := fun _ => by
      rw [hunread]
      simp only [push, hstarted, if_true, List.length_append, List.length_singleton]
      omega
    due := fun r hr => by
      simp only [push, hstarted, if_true, List.mem_append, List.mem_singleton] at hr
      show if r.sequence ≤ s.cursor then s.timesReturned r = 1 else r ∈ Modbus.pushRecord _ _
      rcases hr with hold | rfl
      · have hdue := h.due r hold
        split_ifs at hdue ⊢ with hcursor
        · exact hdue
        · rw [hhistory]
          have hunread : r ∈ s.unread := (mem_unread).mpr ⟨hdue, by omega⟩
          simp [hunread]
      · rw [if_neg (by omega), hhistory]
        simp
    waiting := fun hnow => by
      have : s.started = false := hnow
      simp [hstarted] at this }

/-! ## One call -/

/-- A call returns a part of what is unread: before it is only what no call returns any more,
and what is behind it is left for the next one. -/
structure Batch (s : HistorySystem ρ) (limit : Nat)
    (older records rest : List (TransactionRecord ρ)) : Prop where
  unread : s.unread = older ++ (records ++ rest)
  readsOn : s.started → older = []
  drained : s.started = false ∨ records.length < queryLimit limit → rest = []
  empty : records = [] → older = [] ∧ rest = []

theorem Reading.unread_zero (h : s.Reading) (hcursor : s.cursor = 0) : s.unread = s.history := by
  rw [unread, List.filter_eq_self]
  intro record hrecord
  have := h.numbered.history record hrecord
  simpa [hcursor] using this

theorem Reading.batch (h : s.Reading) (hquery : s.InSequence limit .poll) :
    ∃ older rest, s.Batch limit older (historySince s.history s.cursor limit).records rest := by
  have hpos := queryLimit_pos limit
  by_cases hcursor : s.cursor = 0
  · -- the recent window: everything, or all that the first call is to return
    have hunread := h.unread_zero hcursor
    refine ⟨s.history.take (s.history.length - queryLimit limit), [], ?_⟩
    simp only [historySince, hcursor, if_true, List.take_reverse, List.reverse_reverse]
    refine ⟨by rw [hunread, List.append_nil, List.take_append_drop], fun hstarted => ?_,
      fun _ => rfl, fun hnone => ⟨?_, rfl⟩⟩
    · have := hquery.2 hstarted hcursor
      rw [show s.history.length - queryLimit limit = 0 by omega, List.take_zero]
    · have := List.drop_eq_nil_iff.mp hnone
      rw [List.take_eq_nil_iff]
      exact Or.inr (List.length_eq_zero_iff.mp (by omega))
  · have hstarted : s.started = true := by
      by_contra hnot
      exact hcursor (h.waiting (by simpa using hnot)).1
    refine ⟨[], s.unread.drop (queryLimit limit), ?_⟩
    simp only [historySince, hcursor, if_false]
    refine ⟨(List.take_append_drop _ _).symm, fun _ => rfl, ?_, fun hnone => ⟨rfl, ?_⟩⟩
    · rintro (hwaiting | hshort)
      · rw [hstarted] at hwaiting
        cases hwaiting
      · rw [List.length_take] at hshort
        exact List.drop_eq_nil_of_le (by unfold unread; omega)
    · rcases List.take_eq_nil_iff.mp hnone with hzero | hempty
      · omega
      · show s.unread.drop _ = []
        rw [show s.unread = [] from hempty, List.drop_nil]

variable {older records rest : List (TransactionRecord ρ)}

/-- The cursor after the records. -/
def cursorAfter (s : HistorySystem ρ) (records : List (TransactionRecord ρ)) : Nat :=
  records.getLast?.elim s.cursor (·.sequence)

theorem Batch.above (h : s.Batch limit older records rest) :
    ∀ record ∈ older ++ (records ++ rest), s.cursor < record.sequence := fun record hrecord => by
  rw [← h.unread] at hrecord
  exact ((mem_unread).mp hrecord).2

/-- What is returned, and what is before it, is up to the new cursor; what is left is above it. -/
theorem Batch.cursorAfter (h : s.Batch limit older records rest)
    (hsorted : s.unread.Pairwise (·.sequence < ·.sequence)) :
    s.cursor ≤ s.cursorAfter records ∧
      (∀ record ∈ older ++ records, record.sequence ≤ s.cursorAfter records) ∧
      ∀ record ∈ rest, s.cursorAfter records < record.sequence := by
  rcases List.eq_nil_or_concat' records with rfl | ⟨front, last, rfl⟩
  · obtain ⟨rfl, rfl⟩ := h.empty rfl
    exact ⟨le_rfl, nofun, nofun⟩
  · have hlast : s.cursorAfter (front ++ [last]) = last.sequence := by
      simp [HistorySystem.cursorAfter]
    rw [h.unread] at hsorted
    rw [hlast]
    refine ⟨(h.above last (by simp)).le, fun record hrecord => ?_, fun record hrecord => ?_⟩
    · rw [← List.append_assoc, ← List.append_assoc, List.append_assoc, List.singleton_append,
        List.pairwise_append] at hsorted
      rw [← List.append_assoc] at hrecord
      rcases List.mem_append.mp hrecord with hbefore | hit
      · exact (hsorted.2.2 record hbefore last (by simp)).le
      · rw [List.mem_singleton.mp hit]
    · rw [← List.append_assoc, List.pairwise_append] at hsorted
      exact hsorted.2.2 last (by simp) record hrecord

theorem countP_sequence {record : TransactionRecord ρ}
    (hsorted : records.Pairwise (·.sequence < ·.sequence)) (hmem : record ∈ records) :
    records.countP (·.sequence = record.sequence) = 1 := by
  have hnodup : (records.map (·.sequence)).Nodup := by
    rw [List.nodup_iff_pairwise_ne, List.pairwise_map]
    exact hsorted.imp fun h => h.ne
  have hcount := List.count_eq_one_of_mem hnodup (List.mem_map_of_mem hmem)
  rw [List.count, List.countP_map] at hcount
  exact hcount

/-- A record that is due is returned with the records once, or was before, or is left. -/
theorem Reading.due_batch (h : s.Reading) (hbatch : s.Batch limit older records rest)
    (hsorted : s.unread.Pairwise (·.sequence < ·.sequence)) {record : TransactionRecord ρ}
    (hrecord : record ∈ s.due) :
    if record.sequence ≤ s.cursorAfter records then
      s.timesReturned record + records.countP (·.sequence = record.sequence) = 1
    else record ∈ s.history := by
  obtain ⟨hle, hread, hrest⟩ := hbatch.cursorAfter hsorted
  have hdue := h.due record hrecord
  by_cases hold : record.sequence ≤ s.cursor
  · -- returned before: what a call returns is above the cursor
    rw [if_pos hold] at hdue
    rw [if_pos (hold.trans hle), hdue, List.countP_eq_zero.mpr]
    intro r hr
    have := hbatch.above r (by simp [hr])
    simp only [decide_eq_true_eq]
    omega
  · rw [if_neg hold] at hdue
    have hunread : record ∈ s.unread := (mem_unread).mpr ⟨hdue, by omega⟩
    have hzero : s.timesReturned record = 0 := timesReturned_eq_zero fun r hr heq => by
      have := h.returned r hr
      omega
    rw [hbatch.unread] at hunread hsorted
    rw [hbatch.readsOn (h.started_of_due hrecord), List.nil_append] at hunread hsorted
    rcases List.mem_append.mp hunread with hnow | hlater
    · rw [if_pos (hread record (List.mem_append_right _ hnow)), hzero,
        countP_sequence (List.pairwise_append.mp hsorted).1 hnow]
    · have := hrest record hlater
      rw [if_neg (by omega)]
      exact hdue

theorem Reading.poll (h : s.Reading) (hquery : s.InSequence limit .poll) :
    (s.poll limit).Reading := by
  obtain ⟨older, rest, hbatch⟩ := h.batch hquery
  obtain ⟨seen, hsplit⟩ := h.split
  generalize hrecords : (historySince s.history s.cursor limit).records = records at hbatch
  obtain ⟨hle, hread, hrest⟩ := hbatch.cursorAfter hquery.1
  have hcursor : (s.poll limit).cursor = s.cursorAfter records := by rw [← hrecords]; rfl
  have hreturned : (s.poll limit).returned = s.returned ++ records := by rw [← hrecords]; rfl
  have hhistory : (s.poll limit).history = (seen ++ (older ++ records)) ++ rest := by
    show s.history = _
    rw [hsplit.history, hbatch.unread]
    simp only [List.append_assoc]
  have hseen : ∀ r ∈ seen ++ (older ++ records), r.sequence ≤ (s.poll limit).cursor := by
    intro r hr
    rw [hcursor]
    rcases List.mem_append.mp hr with hold | hnew
    · exact (hsplit.seen r hold).trans hle
    · exact hread r hnew
  have hleft : ∀ r ∈ rest, (s.poll limit).cursor < r.sequence := by rwa [hcursor]
  have hcount : ∀ record : TransactionRecord ρ, (s.poll limit).timesReturned record =
      s.timesReturned record + records.countP (·.sequence = record.sequence) := fun record => by
    unfold timesReturned
    rw [hreturned, List.countP_append]
  refine ⟨⟨h.numbered.next, h.numbered.pending, h.numbered.history⟩,
    ⟨_, .of_append hhistory hseen hleft⟩, fun r hr => ?_, fun _ => ?_, fun r hr => ?_, nofun⟩
  · rw [hcursor]
    rw [hreturned] at hr
    rcases List.mem_append.mp hr with hold | hnew
    · exact (h.returned r hold).trans hle
    · exact hread r (List.mem_append_right _ hnew)
  · rw [unread_of_append hhistory hseen hleft]
    have hbehind : (s.poll limit).behind =
        if s.started ∧ queryLimit limit ≤ records.length then s.behind else 0 := by
      rw [← hrecords]; rfl
    rw [hbehind]
    split_ifs with hmore
    · have hlen := h.behind hmore.1
      rw [hbatch.unread] at hlen
      simp only [List.length_append] at hlen
      omega
    · rw [hbatch.drained ?_, List.length_nil]
      by_cases hstarted : s.started
      · exact Or.inr (by simpa [hstarted] using hmore)
      · exact Or.inl (by simpa using hstarted)
  · rw [hcount, hcursor]
    exact h.due_batch hbatch hquery.1 hr

theorem Reading.step (h : s.Reading) {a : HistoryAction ρ} (hstep : s.step limit a = some t)
    (hprompt : s.Prompt a) (hsequence : s.InSequence limit a) : t.Reading := by
  cases a with
  | allocate result =>
    obtain rfl := Option.some.inj hstep
    exact h.allocate result
  | push peer =>
    obtain ⟨record, hpending, rfl⟩ := step_push hstep
    cases hstarted : s.started with
    | false => exact h.push_waiting hstarted hpending
    | true => exact h.push_started hstarted hpending hprompt (hsequence record hpending)
  | poll =>
    obtain rfl := Option.some.inj hstep
    exact h.poll hsequence

/-! ## Runs -/

/-- **Incremental reading misses nothing.** Whatever the order of the peers and of the calls,
every record pushed after the first call is returned once before it is evicted, if the records
are pushed and found in the order of their numbers. -/
theorem history_returnedOnce {as : List (HistoryAction ρ)}
    (hrun : Run (fun s a t => step limit s a = some t ∧ s.Prompt a ∧ s.InSequence limit a) {} as t) :
    t.ReturnedOnce :=
  have hreading : t.Reading :=
    hrun.invariant (fun _ _ _ h hs => h.step hs.1 hs.2.1 hs.2.2) .start
  hreading.returnedOnce

/-- Two peers have numbers at the same time, and a call comes between their pushes. -/
theorem history_returnedOnce_between :
    ∃ t : HistorySystem Bool, t.returned.map (·.result) = [true, false] ∧ t.ReturnedOnce := by
  have hdone : (Lib.execute (stepWhere (step 250) fun s a _ => s.Prompt a ∧ s.InSequence 250 a)
      ({} : HistorySystem Bool)
      [.poll, .allocate true, .allocate false, .push 0, .poll, .push 0, .poll]).map
        (fun t => t.returned.map (·.result)) = some [true, false] := by decide
  obtain ⟨t, ht, hreturned⟩ := Option.map_eq_some_iff.mp hdone
  exact ⟨t, hreturned, history_returnedOnce (run_of_executeWhere ht)⟩

/-- The peer with the higher number pushes first: the other record is below the cursor then. -/
theorem history_overtaken :
    ¬ ∀ (limit : Nat) (as : List (HistoryAction Bool)) (t : HistorySystem Bool),
      Run (fun s a t => step limit s a = some t ∧ s.Prompt a) {} as t → t.ReturnedOnce := by
  intro hall
  have hdone : (Lib.execute (stepWhere (step 250) fun s a _ => s.Prompt a) ({} : HistorySystem Bool)
      [.poll, .allocate true, .allocate false, .push 1, .poll, .push 0, .poll]).map
        (fun t => (t.due, t.returned, t.behind)) =
      some ([⟨2, false⟩, ⟨1, true⟩], [⟨2, false⟩], 0) := by decide
  obtain ⟨t, ht, heq⟩ := Option.map_eq_some_iff.mp hdone
  obtain ⟨hdue, hrest⟩ := Prod.mk.inj heq
  obtain ⟨hreturned, hbehind⟩ := Prod.mk.inj hrest
  have honce := (hall 250 _ t (run_of_executeWhere ht) ⟨1, true⟩ (by simp [hdue])).2 (.inl hbehind)
  simp [timesReturned, hreturned] at honce

end HistorySystem

end TauTerm.Modbus
