import Mathlib
import TauTerm.Iperf.UdpClient
import TauTerm.Lib.Run

/-!
# Losses in the UDP report

Losses are the ids skipped by a new highest one. An id that arrives late has been counted then, ids
in front of the first that arrives never are, and an interval knows nothing of the ids before it.
-/

namespace TauTerm.Iperf

open Lib (EachStep)

/-! ## What is lost -/

/-- The ids of a test in the order of their arrival. Ids begin with 1. -/
def arrivedIds (first : Datagram) (later : List Datagram) : List Int :=
  first.seqno :: later.map Datagram.seqno

noncomputable def highestId (ids : List Int) : Int := ids.foldl max 0

/-- The ids of the test up to the highest one that never arrived. -/
noncomputable def neverArrived (ids : List Int) : Finset Int :=
  (Finset.Ico 1 (highestId ids)).filter (· ∉ ids)

/-- The highest id so far, with the ids that `recordUdp` has counted as lost. -/
noncomputable def skip (r : Int × Finset Int) (id : Int) : Int × Finset Int :=
  (max r.1 id, r.2 ∪ if 0 ≤ r.1 then Finset.Ioo r.1 id else ∅)

noncomputable def countedAsLost (ids : List Int) : Finset Int := (ids.foldl skip (-1, ∅)).2

/-- Every packet arrives in order or is lost. -/
def InOrder (ids : List Int) : Prop := ids.Pairwise (· < ·)

def intervalLosses (intervals : List Iperf2Interval) : Nat :=
  (intervals.map fun i => i.lostPackets.getD 0).sum

/-- What the report of a test says about losses. -/
structure LossAccounting (ids : List Int) (report : IperfSummary) : Prop where
  lost_eq : report.lostPackets = some (neverArrived ids).card
  spared : ∀ id ∈ ids, id ∉ countedAsLost ids
  percent : ∀ p ∈ report.lostPercent, 0 ≤ p ∧ p ≤ 100
  intervals : InOrder ids → report.lostPackets = some (intervalLosses report.intervals)

/-! ## When it is right -/

/-- An id above the first does not arrive for the first time behind a higher one. -/
def NoneLate (first : Int) (ids : List Int) : Prop :=
  ∀ before id after, ids = before ++ id :: after → first < id → id < highestId before → id ∈ before

/-- What came since the last interval: when the next one is due, the ids, and the id before all
that comes. -/
structure Since where
  next : ℚ
  ids : List Int
  previous : Int

def Since.start (first : Int) : Since := ⟨1, [first], first⟩

def Since.add (s : Since) (d : Datagram) : Since :=
  if d.elapsedSecs < s.next then { s with ids := s.ids ++ [d.seqno], previous := d.seqno }
  else ⟨s.next + 1, [], d.seqno⟩

/-- The first id of an interval follows the last one of the interval before. -/
def Since.Joined (s : Since) (d : Datagram) : Prop := s.ids = [] → d.seqno = s.previous + 1

/-- What came since the last interval is long enough to be reported, or has no gap. -/
def Since.Closed (s : Since) (elapsedSecs : ℚ) : Prop :=
  s.next - 1 < UdpClientState.duration elapsedSecs - 3 / 10 ∨
    s.ids.IsChain fun id id' => id' = id + 1

/-- The intervals leave no gap out. -/
def IntervalsJoined (first : Datagram) (later : List Datagram) (elapsedSecs : ℚ) : Prop :=
  EachStep Since.add Since.Joined (.start first.seqno) later ∧
    (later.foldl Since.add (.start first.seqno)).Closed elapsedSecs

/-! ## The ids that are counted -/

section Counted

variable {first : Int} {later ids : List Int} {id : Int}

theorem foldl_skip_highest (first : Int) (later : List Int) (hfirst : 1 ≤ first) :
    ((first :: later).foldl skip (-1, ∅)).1 = highestId (first :: later) := by
  have hstart : ∀ (ids : List Int) (r : Int × Finset Int), (ids.foldl skip r).1 = ids.foldl max r.1 := by
    intro ids
    induction ids with
    | nil => exact fun _ => rfl
    | cons id ids ih => exact fun r => ih (skip r id)
  rw [hstart, highestId, List.foldl_cons, List.foldl_cons, max_eq_right (by omega),
    max_eq_right (by omega)]

theorem highestId_concat (ids : List Int) (id : Int) :
    highestId (ids ++ [id]) = max (highestId ids) id := by
  rw [highestId, List.foldl_concat]
  rfl

theorem le_highestId (h : id ∈ ids) : id ≤ highestId ids := by
  induction ids using List.reverseRecOn with
  | nil => cases h
  | append_singleton ids last ih =>
    rw [highestId_concat]
    obtain h | h := List.mem_append.mp h
    · exact (ih h).trans (le_max_left _ _)
    · rw [List.mem_singleton.mp h]
      exact le_max_right _ _

theorem highestId_mem (hfirst : 1 ≤ first) : highestId (first :: later) ∈ first :: later := by
  induction later using List.reverseRecOn with
  | nil =>
    rw [highestId, List.foldl_cons, List.foldl_nil, max_eq_right (by omega)]
    exact List.mem_cons_self
  | append_singleton later last ih =>
    rw [← List.cons_append, highestId_concat]
    rcases le_total (highestId (first :: later)) last with hle | hle
    · rw [max_eq_right hle]
      simp
    · rw [max_eq_left hle]
      exact List.mem_append_left _ ih

theorem countedAsLost_concat (hfirst : 1 ≤ first) (later : List Int) (id : Int) :
    countedAsLost (first :: later ++ [id]) =
      countedAsLost (first :: later) ∪ Finset.Ioo (highestId (first :: later)) id := by
  have hpos : 0 ≤ highestId (first :: later) := by
    have := @le_highestId (first :: later) _ List.mem_cons_self
    omega
  rw [countedAsLost, List.foldl_concat, skip, foldl_skip_highest first later hfirst, if_pos hpos]
  rfl

theorem countedAsLost_single (first : Int) : countedAsLost [first] = ∅ := by
  simp [countedAsLost, skip]

/-- Only ids between the first and the highest are counted, and each of these that never arrives. -/
theorem mem_countedAsLost (hfirst : 1 ≤ first) :
    (∀ id ∈ countedAsLost (first :: later), first < id ∧ id < highestId (first :: later)) ∧
      ∀ id, first < id → id < highestId (first :: later) → id ∉ first :: later →
        id ∈ countedAsLost (first :: later) := by
  induction later using List.reverseRecOn with
  | nil =>
    rw [countedAsLost_single, highestId, List.foldl_cons, List.foldl_nil, max_eq_right (by omega)]
    exact ⟨by simp, fun id h h' => by omega⟩
  | append_singleton later last ih =>
    obtain ⟨hrange, hall⟩ := ih
    have hle := @le_highestId (first :: later) _ List.mem_cons_self
    rw [← List.cons_append, countedAsLost_concat hfirst, highestId_concat]
    constructor
    · intro id hid
      obtain hid | hid := Finset.mem_union.mp hid
      · have := hrange id hid
        exact ⟨this.1, lt_max_of_lt_left this.2⟩
      · obtain ⟨hlow, hup⟩ := Finset.mem_Ioo.mp hid
        exact ⟨by omega, lt_max_of_lt_right hup⟩
    · intro id hlow hup hnew
      rw [Finset.mem_union, Finset.mem_Ioo]
      rw [List.mem_append, not_or] at hnew
      rcases lt_trichotomy id (highestId (first :: later)) with hlt | heq | hgt
      · exact .inl (hall id hlow hlt hnew.1)
      · exact absurd (heq ▸ highestId_mem hfirst) hnew.1
      · exact .inr ⟨hgt, by omega⟩

theorem noneLate_concat (first : Int) (ids : List Int) (id : Int) :
    NoneLate first (ids ++ [id]) ↔
      NoneLate first ids ∧ (first < id → id < highestId ids → id ∈ ids) := by
  constructor
  · intro h
    refine ⟨fun before id' after hids => ?_, h ids id [] rfl⟩
    exact h before id' (after ++ [id]) (by rw [hids]; simp)
  · rintro ⟨h, hlast⟩ before id' after hids
    rcases List.eq_nil_or_concat after with rfl | ⟨after, last, rfl⟩
    · obtain ⟨rfl, hid⟩ := List.append_inj' hids rfl
      obtain rfl := List.singleton_injective hid
      exact hlast
    · rw [List.concat_eq_append, ← List.cons_append, ← List.append_assoc] at hids
      exact h before id' after (List.append_inj' hids rfl).1

/-- No id that arrives is counted, exactly if none is late. -/
theorem disjoint_countedAsLost (hfirst : 1 ≤ first) :
    (∀ id ∈ first :: later, id ∉ countedAsLost (first :: later)) ↔
      NoneLate first (first :: later) := by
  induction later using List.reverseRecOn with
  | nil =>
    rw [countedAsLost_single]
    refine iff_of_true (by simp) fun before id after hids hlow _ => ?_
    cases before with
    | nil =>
      obtain rfl := (List.cons.inj hids).1
      omega
    | cons _ before => simp at hids
  | append_singleton later last ih =>
    obtain ⟨hrange, hall⟩ := @mem_countedAsLost _ later hfirst
    have hle := fun {id} (h : id ∈ first :: later) => le_highestId h
    rw [← List.cons_append, noneLate_concat, countedAsLost_concat hfirst, ← ih]
    constructor
    · intro h
      refine ⟨fun id hid hcounted => h id (List.mem_append_left _ hid)
        (Finset.mem_union_left _ hcounted), fun hlow hup => ?_⟩
      by_contra hnew
      exact h last (by simp) (Finset.mem_union_left _ (hall last hlow hup hnew))
    · rintro ⟨h, hlast⟩ id hid hcounted
      obtain hbefore | hnow := Finset.mem_union.mp hcounted
      · obtain hid | hid := List.mem_append.mp hid
        · exact h id hid hbefore
        · obtain rfl := List.mem_singleton.mp hid
          obtain ⟨hlow, hup⟩ := hrange id hbefore
          exact h id (hlast hlow hup) hbefore
      · obtain ⟨hlow, hup⟩ := Finset.mem_Ioo.mp hnow
        obtain hid | hid := List.mem_append.mp hid
        · have := hle hid
          omega
        · rw [List.mem_singleton.mp hid] at hup
          omega

/-- Where none is late, the count is right exactly if nothing in front of the first is missing. -/
theorem card_countedAsLost_iff (hfirst : 1 ≤ first) (hlate : NoneLate first (first :: later)) :
    (countedAsLost (first :: later)).card = (neverArrived (first :: later)).card ↔
      ∀ id, 1 ≤ id → id < first → id ∈ later := by
  have hspared := (disjoint_countedAsLost hfirst).mpr hlate
  obtain ⟨hrange, hall⟩ := @mem_countedAsLost _ later hfirst
  have hle := @le_highestId (first :: later) _ List.mem_cons_self
  have hsub : countedAsLost (first :: later) ⊆ neverArrived (first :: later) := by
    intro id hid
    obtain ⟨hlow, hup⟩ := hrange id hid
    exact Finset.mem_filter.mpr ⟨Finset.mem_Ico.mpr ⟨by omega, hup⟩, fun h => hspared id h hid⟩
  constructor
  · intro hcard id hlow hup
    have heq := Finset.eq_of_subset_of_card_le hsub hcard.symm.le
    by_contra hnew
    have hmem : id ∈ neverArrived (first :: later) := by
      refine Finset.mem_filter.mpr ⟨Finset.mem_Ico.mpr ⟨hlow, by omega⟩, ?_⟩
      rw [List.mem_cons, not_or]
      exact ⟨by omega, hnew⟩
    rw [← heq] at hmem
    have := (hrange id hmem).1
    omega
  · intro h
    refine congrArg Finset.card (Finset.Subset.antisymm hsub fun id hid => ?_)
    obtain ⟨hico, hnew⟩ := Finset.mem_filter.mp hid
    obtain ⟨hlow, hup⟩ := Finset.mem_Ico.mp hico
    rw [List.mem_cons, not_or] at hnew
    refine hall id ?_ hup (by rw [List.mem_cons, not_or]; exact hnew)
    by_contra hbelow
    exact hnew.2 (h id hlow (by omega))

end Counted

/-! ## The accumulators -/

section Accumulators

variable {first d : Datagram} {later : List Datagram} {seq : Nat} {st : UdpClientState}

/-- The accumulator of the test has counted these ids. -/
structure Tracks (st : UdpClientState) (ids : List Int) : Prop where
  highest : st.acc.highestId = (ids.foldl skip (-1, ∅)).1
  lost : st.acc.lost = (countedAsLost ids).card
  packets : st.acc.packets = ids.length
  below : ∀ id ∈ countedAsLost ids, id < (ids.foldl skip (-1, ∅)).1

theorem acc_record (st : UdpClientState) (d : Datagram) :
    (st.record d).1.acc = st.acc.recordUdp false d.seqno d.transitMs := by
  unfold UdpClientState.record UdpClientState.maybeReportInterval
  split <;> rfl

theorem highestId_recordUdp (acc : IntervalAccumulator) (id : Int) (transit : ℚ) :
    (acc.recordUdp false id transit).highestId = max acc.highestId id := by
  change (if acc.highestId < id then id else acc.highestId) = _
  split <;> omega

theorem Tracks.recordUdp {ids : List Int} (h : Tracks st ids) {st' : UdpClientState}
    (hacc : st'.acc = st.acc.recordUdp false d.seqno d.transitMs) :
    Tracks st' (ids ++ [d.seqno]) where
  highest := by
    rw [hacc, highestId_recordUdp, List.foldl_concat, h.highest]
    rfl
  lost := by
    have hdisjoint : Disjoint (countedAsLost ids)
        (if 0 ≤ (ids.foldl skip (-1, ∅)).1 then
          Finset.Ioo (ids.foldl skip (-1, ∅)).1 d.seqno else ∅) := by
      rw [Finset.disjoint_left]
      intro id hid hid'
      have hlt := h.below id hid
      split at hid'
      · have := (Finset.mem_Ioo.mp hid').1
        omega
      · exact absurd hid' (Finset.notMem_empty id)
    have hcard : (countedAsLost (ids ++ [d.seqno])).card = (countedAsLost ids).card +
        (if 0 ≤ (ids.foldl skip (-1, ∅)).1 then
          Finset.Ioo (ids.foldl skip (-1, ∅)).1 d.seqno else ∅).card := by
      rw [← Finset.card_union_of_disjoint hdisjoint, countedAsLost, List.foldl_concat]
      rfl
    rw [hcard, hacc]
    change st.acc.lost + st.acc.gap d.seqno = _
    rw [h.lost, IntervalAccumulator.gap, h.highest]
    congr 1
    by_cases hstarted : 0 ≤ (ids.foldl skip (-1, ∅)).1
    · rw [if_pos hstarted, Int.card_Ioo]
      split <;> omega
    · rw [if_neg hstarted, if_neg (fun h => hstarted h.1), Finset.card_empty]
  packets := by
    rw [hacc, List.length_append]
    exact congrArg (· + 1) h.packets
  below := by
    intro id hid
    rw [countedAsLost, List.foldl_concat, skip] at hid
    rw [List.foldl_concat, skip]
    obtain hid | hid := Finset.mem_union.mp hid
    · exact lt_max_of_lt_left (h.below id hid)
    · split at hid
      · exact lt_max_of_lt_right (Finset.mem_Ioo.mp hid).2
      · exact absurd hid (Finset.notMem_empty id)

theorem tracks_received (seq : Nat) (first : Datagram) (later : List Datagram) :
    Tracks (received seq first later) (arrivedIds first later) := by
  induction later using List.reverseRecOn with
  | nil =>
    have hempty : Tracks { seq } [] := ⟨rfl, rfl, rfl, by simp [countedAsLost]⟩
    exact hempty.recordUdp rfl
  | append_singleton later d ih =>
    have hstep := ih.recordUdp (acc_record (received seq first later) d)
    rw [received, List.foldl_concat]
    rwa [arrivedIds, List.cons_append, ← List.map_singleton, ← List.map_append] at hstep

end Accumulators

/-! ## The intervals -/

section Intervals

variable {st : UdpClientState} {s : Since} {d : Datagram}

/-- The state of a client whose packets have come in order. -/
structure Follows (st : UdpClientState) (s : Since) : Prop where
  next : st.nextReportSecs = s.next
  lastEnd : st.lastEnd = s.next - 1
  previous : st.acc.highestId = s.previous
  one_le : 1 ≤ s.previous
  packets : st.intervalAcc.packets = s.ids.length
  fresh : s.ids = [] → st.intervalAcc.highestId = -1
  highest : s.ids ≠ [] → st.intervalAcc.highestId = s.previous
  last : s.ids ≠ [] → s.ids.getLast? = some s.previous
  chain : st.intervalAcc.lost = 0 ↔ s.ids.IsChain fun id id' => id' = id + 1
  le : intervalLosses st.intervals + st.intervalAcc.lost ≤ st.acc.lost

/-- The intervals and what came since the last one have all the losses of the test. -/
def AllReported (st : UdpClientState) : Prop :=
  intervalLosses st.intervals + st.intervalAcc.lost = st.acc.lost

/-- What came since the last interval, with one more datagram. -/
def Since.count (s : Since) (d : Datagram) : Since :=
  { s with ids := s.ids ++ [d.seqno], previous := d.seqno }

theorem count_acc_lost (h : Follows st s) (hlt : s.previous < d.seqno) :
    (st.count d).acc.lost = st.acc.lost + (d.seqno - s.previous - 1).toNat := by
  have hone := h.one_le
  change st.acc.lost + st.acc.gap d.seqno = _
  rw [IntervalAccumulator.gap, h.previous, if_pos ⟨by omega, hlt⟩]

/-- The gap in front of a datagram counts for its interval only if the interval has begun. -/
theorem count_intervalAcc_lost (h : Follows st s) (hlt : s.previous < d.seqno) :
    (st.count d).intervalAcc.lost =
      st.intervalAcc.lost + if s.ids = [] then 0 else (d.seqno - s.previous - 1).toNat := by
  have hone := h.one_le
  change st.intervalAcc.lost + st.intervalAcc.gap d.seqno = _
  rw [IntervalAccumulator.gap]
  by_cases hids : s.ids = []
  · rw [h.fresh hids, if_pos hids, if_neg (by omega)]
  · rw [h.highest hids, if_neg hids, if_pos ⟨by omega, hlt⟩]

theorem Follows.count (h : Follows st s) (hlt : s.previous < d.seqno) :
    Follows (st.count d) (s.count d) where
  next := h.next
  lastEnd := h.lastEnd
  previous := by
    change ((st.acc.recordUdp false d.seqno d.transitMs).highestId : Int) = d.seqno
    rw [highestId_recordUdp, h.previous]
    omega
  one_le := by
    have := h.one_le
    change 1 ≤ d.seqno
    omega
  packets := by
    change st.intervalAcc.packets + 1 = (s.ids ++ [d.seqno]).length
    rw [List.length_append, h.packets]
    rfl
  fresh := fun hnil => absurd hnil (by simp [Since.count])
  highest := by
    intro _
    change ((st.intervalAcc.recordUdp false d.seqno d.transitMs).highestId : Int) = d.seqno
    have hone := h.one_le
    rw [highestId_recordUdp]
    by_cases hids : s.ids = []
    · rw [h.fresh hids]
      omega
    · rw [h.highest hids]
      omega
  last := fun _ => List.getLast?_concat
  chain := by
    have hchain : (s.ids ++ [d.seqno]).IsChain (fun id id' => id' = id + 1) ↔
        s.ids.IsChain (fun id id' => id' = id + 1) ∧ (s.ids ≠ [] → d.seqno = s.previous + 1) := by
      rw [List.isChain_append]
      refine and_congr_right fun _ => ?_
      by_cases hids : s.ids = []
      · simp [hids]
      · simp [h.last hids, hids]
    rw [count_intervalAcc_lost h hlt]
    change _ ↔ (s.ids ++ [d.seqno]).IsChain _
    rw [hchain, ← h.chain]
    by_cases hids : s.ids = []
    · simp [hids]
    · rw [if_neg hids]
      constructor
      · intro hzero
        exact ⟨by omega, fun _ => by omega⟩
      · rintro ⟨hlost, hnext⟩
        have := hnext hids
        omega
  le := by
    have hle := h.le
    change intervalLosses st.intervals + _ ≤ _
    rw [count_acc_lost h hlt, count_intervalAcc_lost h hlt]
    split <;> omega

theorem allReported_count (h : Follows st s) (hlt : s.previous < d.seqno) :
    AllReported (st.count d) ↔ AllReported st ∧ s.Joined d := by
  have hle := h.le
  unfold AllReported Since.Joined
  change intervalLosses st.intervals + _ = _ ↔ _
  rw [count_acc_lost h hlt, count_intervalAcc_lost h hlt]
  by_cases hids : s.ids = []
  · simp only [hids, if_true, true_implies]
    omega
  · simp only [hids, if_false, false_implies, and_true]
    omega

theorem intervalLosses_append (intervals : List Iperf2Interval) (st : UdpClientState)
    (startSecs endSecs seconds : ℚ) :
    intervalLosses (intervals ++ [st.interval startSecs endSecs seconds]) =
      intervalLosses intervals + if 0 < st.intervalAcc.packets then st.intervalAcc.lost else 0 := by
  have hlost : (st.interval startSecs endSecs seconds).lostPackets.getD 0 =
      if 0 < st.intervalAcc.packets then st.intervalAcc.lost else 0 := by
    change (UdpClientState.given st.intervalAcc st.intervalAcc.lost).getD 0 = _
    unfold UdpClientState.given
    split <;> rfl
  simp [intervalLosses, hlost]

theorem Follows.report (h : Follows st s) (hids : s.ids ≠ []) (elapsedSecs : ℚ) :
    Follows (st.maybeReportInterval elapsedSecs).1
        (if elapsedSecs < s.next then s else ⟨s.next + 1, [], s.previous⟩) ∧
      (AllReported (st.maybeReportInterval elapsedSecs).1 ↔ AllReported st) := by
  have hpackets : 0 < st.intervalAcc.packets := by
    rw [h.packets]
    exact List.length_pos_of_ne_nil hids
  unfold UdpClientState.maybeReportInterval
  rw [h.next]
  by_cases hdue : elapsedSecs < s.next
  · rw [if_pos hdue, if_pos hdue]
    exact ⟨h, .rfl⟩
  · rw [if_neg hdue, if_neg hdue]
    have hsum := intervalLosses_append st.intervals st (s.next - 1) s.next 1
    rw [if_pos hpackets] at hsum
    refine ⟨?_, ?_⟩
    · exact {
        next := rfl
        lastEnd := by simp [UdpClientState.lastEnd, UdpClientState.interval]
        previous := h.previous
        one_le := h.one_le
        packets := rfl
        fresh := fun _ => rfl
        highest := fun hne => absurd rfl hne
        last := fun hne => absurd rfl hne
        chain := iff_of_true rfl .nil
        le := by
          have hle := h.le
          change intervalLosses (_ ++ [_]) + 0 ≤ _
          rw [hsum]
          exact hle }
    · unfold AllReported
      change intervalLosses (_ ++ [_]) + 0 = _ ↔ _
      rw [hsum]
      exact .rfl

theorem Follows.record (h : Follows st s) (hlt : s.previous < d.seqno) :
    Follows (st.record d).1 (s.add d) ∧
      (AllReported (st.record d).1 ↔ AllReported st ∧ s.Joined d) := by
  obtain ⟨hfollows, hreported⟩ :=
    (h.count hlt).report (by simp [Since.count]) d.elapsedSecs
  rw [allReported_count h hlt] at hreported
  exact ⟨hfollows, hreported⟩

/-- The run in order: every gap that is left out is one between two intervals. -/
theorem Follows.foldl {later : List Datagram} (h : Follows st s)
    (horder : (s.previous :: later.map Datagram.seqno).Pairwise (· < ·)) :
    Follows (later.foldl (fun st d => (st.record d).1) st) (later.foldl Since.add s) ∧
      (AllReported (later.foldl (fun st d => (st.record d).1) st) ↔
        AllReported st ∧ EachStep Since.add Since.Joined s later) := by
  induction later generalizing st s with
  | nil => exact ⟨h, (and_iff_left trivial).symm⟩
  | cons d later ih =>
    rw [List.map_cons, List.pairwise_cons] at horder
    obtain ⟨hbefore, hrest⟩ := horder
    obtain ⟨hfollows, hreported⟩ := h.record (d := d) (hbefore d.seqno List.mem_cons_self)
    have hprevious : (s.add d).previous = d.seqno := by
      unfold Since.add
      split <;> rfl
    obtain ⟨hend, hall⟩ := ih hfollows (by rwa [hprevious])
    refine ⟨hend, ?_⟩
    rw [List.foldl_cons, hall, hreported, and_assoc]
    exact .rfl

theorem follows_new (seq : Nat) (first : Datagram) (hfirst : 1 ≤ first.seqno) :
    Follows (.new seq first) (.start first.seqno) ∧ AllReported (.new seq first) := by
  have hmax : ((.new seq first : UdpClientState).acc.highestId : Int) = first.seqno := by
    change ((IntervalAccumulator.recordUdp {} false first.seqno first.transitMs).highestId : Int) = _
    rw [highestId_recordUdp]
    change max (-1) first.seqno = _
    omega
  refine ⟨?_, rfl⟩
  exact {
    next := rfl
    lastEnd := by simp [UdpClientState.lastEnd, UdpClientState.new, UdpClientState.count, Since.start]
    previous := hmax
    one_le := hfirst
    packets := rfl
    fresh := fun hnil => absurd hnil (by simp [Since.start])
    highest := fun _ => hmax
    last := fun _ => rfl
    chain := iff_of_true rfl (.singleton _)
    le := le_rfl }

/-- In order, the intervals have all the losses exactly if they leave no gap out. -/
theorem intervalLosses_eq_iff {first : Datagram} {later : List Datagram} (seq : Nat)
    (elapsedSecs : ℚ) (hfirst : 1 ≤ first.seqno) (horder : InOrder (arrivedIds first later)) :
    intervalLosses (finalReport seq first later elapsedSecs).intervals =
        (received seq first later).acc.lost ↔ IntervalsJoined first later elapsedSecs := by
  obtain ⟨hstart, hnone⟩ := follows_new seq first hfirst
  obtain ⟨hend, hall⟩ := @hstart.foldl _ _ later horder
  rw [and_iff_right hnone] at hall
  change Follows (received seq first later) _ at hend
  change AllReported (received seq first later) ↔ _ at hall
  have hle := hend.le
  unfold IntervalsJoined Since.Closed
  rw [← hall, ← hend.chain]
  unfold AllReported finalReport UdpClientState.summary UdpClientState.closingInterval
  rw [← hend.lastEnd]
  simp only
  by_cases hclosing : (received seq first later).lastEnd <
      UdpClientState.duration elapsedSecs - 3 / 10
  · rw [if_pos hclosing, Option.toList_some, intervalLosses_append]
    simp only [hclosing, true_or, and_true]
    by_cases hpackets : 0 < (received seq first later).intervalAcc.packets
    · rw [if_pos hpackets]
    · -- no packet since the last interval, so nothing is lost there
      have hids : (later.foldl Since.add (.start first.seqno)).ids = [] := by
        rw [hend.packets] at hpackets
        exact List.length_eq_zero_iff.mp (by omega)
      have hzero : (received seq first later).intervalAcc.lost = 0 := by
        rw [hend.chain, hids]
        exact .nil
      rw [if_neg hpackets, hzero]
  · rw [if_neg hclosing, Option.toList_none, List.append_nil]
    simp only [hclosing, false_or]
    omega

end Intervals

/-! ## The report -/

section Report

variable {seq : Nat} {first : Datagram} {later : List Datagram} {elapsedSecs : ℚ}

theorem lostPackets_finalReport (seq : Nat) (first : Datagram) (later : List Datagram)
    (elapsedSecs : ℚ) :
    (finalReport seq first later elapsedSecs).lostPackets =
      some (countedAsLost (arrivedIds first later)).card := by
  have htracks := tracks_received seq first later
  have hpackets : 0 < (received seq first later).acc.packets := by
    rw [htracks.packets]
    exact Nat.succ_pos _
  rw [← htracks.lost]
  exact if_pos hpackets

theorem lostPercent_finalReport (seq : Nat) (first : Datagram) (later : List Datagram)
    (elapsedSecs : ℚ) :
    (finalReport seq first later elapsedSecs).lostPercent =
      some ((countedAsLost (arrivedIds first later)).card * 100 /
        (arrivedIds first later).length : ℚ) := by
  have htracks := tracks_received seq first later
  have hpackets : 0 < (received seq first later).acc.packets := by
    rw [htracks.packets]
    exact Nat.succ_pos _
  rw [← htracks.lost, ← htracks.packets]
  exact if_pos hpackets

/-- A share of the packets that arrived is no percentage once more are lost than arrive. -/
theorem percent_iff {lost packets : Nat} (hpackets : 0 < packets) :
    (0 ≤ (lost * 100 / packets : ℚ) ∧ (lost * 100 / packets : ℚ) ≤ 100) ↔ lost ≤ packets := by
  have hpos : (0 : ℚ) < packets := by exact_mod_cast hpackets
  rw [and_iff_right (by positivity), div_le_iff₀ hpos]
  constructor
  · intro h
    have : (lost : ℚ) ≤ packets := by linarith
    exact_mod_cast this
  · intro h
    have : (lost : ℚ) ≤ packets := by exact_mod_cast h
    linarith

/-- The report is right exactly if no id is late, none in front of the first one is missing, no more
ids are lost than packets arrive, and the intervals of a test in order leave no gap out. -/
theorem lossAccounting_iff (hids : ∀ id ∈ arrivedIds first later, 1 ≤ id) :
    LossAccounting (arrivedIds first later) (finalReport seq first later elapsedSecs) ↔
      NoneLate first.seqno (arrivedIds first later) ∧
        (∀ id, 1 ≤ id → id < first.seqno → id ∈ later.map Datagram.seqno) ∧
        (neverArrived (arrivedIds first later)).card ≤ (arrivedIds first later).length ∧
        (InOrder (arrivedIds first later) → IntervalsJoined first later elapsedSecs) := by
  have hfirst : 1 ≤ first.seqno := hids first.seqno List.mem_cons_self
  have hlost := lostPackets_finalReport seq first later elapsedSecs
  have hpercent := lostPercent_finalReport seq first later elapsedSecs
  have hacc := (tracks_received seq first later).lost
  have hlen : 0 < (arrivedIds first later).length := Nat.succ_pos _
  have hintervals : InOrder (arrivedIds first later) →
      ((finalReport seq first later elapsedSecs).lostPackets =
          some (intervalLosses (finalReport seq first later elapsedSecs).intervals) ↔
        IntervalsJoined first later elapsedSecs) := by
    intro horder
    rw [← intervalLosses_eq_iff seq elapsedSecs hfirst horder, hlost, ← hacc, Option.some.injEq]
    exact eq_comm
  constructor
  · intro h
    have hnone := (disjoint_countedAsLost hfirst).mp h.spared
    have hcard := Option.some.inj (hlost.symm.trans h.lost_eq)
    refine ⟨hnone, (card_countedAsLost_iff hfirst hnone).mp hcard, ?_,
      fun horder => (hintervals horder).mp (h.intervals horder)⟩
    rw [← hcard]
    exact (percent_iff hlen).mp (h.percent _ hpercent)
  · rintro ⟨hnone, hfront, hshare, hjoined⟩
    have hcard := (card_countedAsLost_iff hfirst hnone).mpr hfront
    change (countedAsLost (arrivedIds first later)).card =
      (neverArrived (arrivedIds first later)).card at hcard
    refine ⟨by rw [hlost, hcard], (disjoint_countedAsLost hfirst).mpr hnone, ?_,
      fun horder => (hintervals horder).mpr (hjoined horder)⟩
    intro p hp
    rw [hpercent, Option.mem_some_iff] at hp
    rw [← hp, hcard]
    exact (percent_iff hlen).mpr hshare

end Report

/-- Datagrams of a test of a second. -/
def sample (seqno : Int) : Datagram := ⟨1470, seqno, 0, 1 / 2⟩

theorem lossAccounting_gap :
    LossAccounting [1, 3] (finalReport 1 (sample 1) [sample 3] 1) := by
  refine (@lossAccounting_iff 1 (sample 1) [sample 3] 1 (by decide)).mpr ⟨?_, ?_, ?_, fun _ => ⟨⟨?_, trivial⟩, .inl ?_⟩⟩
  · refine (disjoint_countedAsLost (by decide)).mp
      fun id hid hcounted => ?_
    have hcounted' : id ∈ Finset.Ioo 1 3 := by simpa [countedAsLost, skip, sample] using hcounted
    rw [Finset.mem_Ioo] at hcounted'
    simp only [sample, List.map_cons, List.map_nil, List.mem_cons, List.not_mem_nil, or_false] at hid
    omega
  · intro id hlow hup
    change id < 1 at hup
    omega
  · have hsub : neverArrived (arrivedIds (sample 1) [sample 3]) ⊆ {2} := by
      intro id hid
      obtain ⟨hico, hnew⟩ := Finset.mem_filter.mp hid
      have hhigh : highestId (arrivedIds (sample 1) [sample 3]) = 3 := by
        simp [highestId, arrivedIds, sample]
      rw [hhigh, Finset.mem_Ico] at hico
      simp only [arrivedIds, sample, List.map_cons, List.map_nil, List.mem_cons, List.not_mem_nil,
        or_false, not_or] at hnew
      rw [Finset.mem_singleton]
      omega
    exact (Finset.card_le_card hsub).trans (by decide)
  · exact fun hnil => absurd hnil (by simp [Since.start])
  · simp [Since.start, Since.add, sample, UdpClientState.duration]
    norm_num

/-- Three packets of which none is lost, the last two in the other order. -/
theorem late_packet_counts_as_lost :
    ¬ LossAccounting [1, 3, 2] (finalReport 1 (sample 1) [sample 3, sample 2] 1) := fun h =>
  h.spared 2 (by decide) (by simp [countedAsLost, skip])

end TauTerm.Iperf
