import Mathlib
import TauTerm.Lib.Run

/-!
# The missed-telegram counter

A flow compares the sequence counter of each telegram with that of the telegram before. `Arrivals`
numbers the telegrams without the wrap of the 32-bit counter, and says which ones are missing.
-/

namespace TauTerm.Trdp

open Lib (Always EachStep)

def u64Max : Nat := 2 ^ 64 - 1

/-- `u64::saturating_add` -/
def saturatingAdd64 (a b : Nat) : Nat := min (a + b) u64Max

/-- What `observe` reads of a packet. -/
structure TrdpPacket where
  timestampUs : Nat
  seqCount : UInt32
  dataLen : UInt32
  crcValid : Option Bool
  protocolValid : Option Bool
  replyStatus : Option Int

/-- What `observe` keeps. -/
structure FlowAccumulator where
  count : Nat := 0
  lastSeq : Option UInt32 := none
  previousSeq : Option UInt32 := none
  size : Option UInt32 := none
  missed : Nat := 0
  errors : Nat := 0
  previousTimestamp : Option Nat := none
  intervalCount : Nat := 0
  intervalSum : Nat := 0
  minIntervalUs : Option Nat := none
  maxIntervalUs : Option Nat := none
  jitterSum : Float := 0
  jitterCount : Nat := 0

namespace FlowAccumulator

def observeErrors (self : FlowAccumulator) (packet : TrdpPacket) : FlowAccumulator :=
  if packet.replyStatus.any (· ≠ 0) ∨ packet.crcValid = some false ∨ packet.protocolValid = some false then
    { self with errors := saturatingAdd64 self.errors 1 }
  else self

/-- The counters of the telegrams between two that follow each other. -/
def gap (previous seqCount : UInt32) : Nat :=
  let distance := seqCount - previous
  if 1 < distance ∧ distance < 0x80000000 then (distance - 1).toNat else 0

def observeSeq (self : FlowAccumulator) (packet : TrdpPacket) : FlowAccumulator :=
  let missed :=
    match self.previousSeq with
    | some previous => saturatingAdd64 self.missed (gap previous packet.seqCount)
    | none => self.missed
  { self with
    missed := missed
    previousSeq := some packet.seqCount
    lastSeq := some packet.seqCount }

def observeInterval (self : FlowAccumulator) (interval : Nat) (expectedCycleUs : Option Nat) :
    FlowAccumulator :=
  let self := { self with
    intervalCount := saturatingAdd64 self.intervalCount 1
    intervalSum := min (self.intervalSum + interval) (2 ^ 128 - 1)
    minIntervalUs := some (self.minIntervalUs.elim interval (min · interval))
    maxIntervalUs := some (self.maxIntervalUs.elim interval (max · interval)) }
  match expectedCycleUs with
  | some expected =>
    { self with
      jitterSum := self.jitterSum + (Float.ofNat interval - Float.ofNat expected).abs
      jitterCount := saturatingAdd64 self.jitterCount 1 }
  | none => self

def observeTimestamp (self : FlowAccumulator) (packet : TrdpPacket) (expectedCycleUs : Option Nat) :
    FlowAccumulator :=
  match self.previousTimestamp with
  | some previous =>
    if previous ≤ packet.timestampUs then
      self.observeInterval (packet.timestampUs - previous) expectedCycleUs
    else self
  | none => self

def observe (self : FlowAccumulator) (packet : TrdpPacket) (expectedCycleUs : Option Nat) :
    FlowAccumulator :=
  let self := { self with count := saturatingAdd64 self.count 1 }
  let self := (self.observeErrors packet).observeSeq packet
  let self := self.observeTimestamp packet expectedCycleUs
  { self with
    previousTimestamp := some packet.timestampUs
    size := some packet.dataLen }

variable (self : FlowAccumulator) (packet : TrdpPacket) (expectedCycleUs : Option Nat)

@[simp] theorem observeErrors_missed : (self.observeErrors packet).missed = self.missed := by
  unfold observeErrors
  split <;> rfl

@[simp] theorem observeErrors_previousSeq :
    (self.observeErrors packet).previousSeq = self.previousSeq := by
  unfold observeErrors
  split <;> rfl

@[simp] theorem observeTimestamp_missed :
    (self.observeTimestamp packet expectedCycleUs).missed = self.missed := by
  unfold observeTimestamp observeInterval
  cases self.previousTimestamp <;> cases expectedCycleUs <;> simp only <;> split <;> rfl

@[simp] theorem observeTimestamp_previousSeq :
    (self.observeTimestamp packet expectedCycleUs).previousSeq = self.previousSeq := by
  unfold observeTimestamp observeInterval
  cases self.previousTimestamp <;> cases expectedCycleUs <;> simp only <;> split <;> rfl

theorem observe_previousSeq :
    (self.observe packet expectedCycleUs).previousSeq = some packet.seqCount := by
  simp [observe, observeSeq]

theorem observe_missed {previous : UInt32} (h : self.previousSeq = some previous) :
    (self.observe packet expectedCycleUs).missed =
      saturatingAdd64 self.missed (gap previous packet.seqCount) := by
  simp [observe, observeSeq, h]

theorem observe_missed_first (h : self.previousSeq = none) :
    (self.observe packet expectedCycleUs).missed = self.missed := by
  simp [observe, observeSeq, h]

end FlowAccumulator

/-! ## Telegrams without the wrap -/

/-- The numbers of the telegrams that have arrived, the last one in front of `later`. -/
structure Arrivals where
  first : Nat
  later : List Nat
  deriving DecidableEq

namespace Arrivals

def add (a : Arrivals) (n : Nat) : Arrivals := { a with later := n :: a.later }

def highest (a : Arrivals) : Nat := a.later.foldr max a.first

def previous (a : Arrivals) : Nat := a.later.headD a.first

/-- The numbers between the first and the highest that have not arrived. -/
def missing (a : Arrivals) : Finset Nat := (Finset.Ioo a.first a.highest).filter (· ∉ a.later)

/-- The telegram fills a gap. -/
def FillsGap (a : Arrivals) (n : Nat) : Prop := n ∈ a.missing

/-- A new highest number directly behind the one before, within half the range of the counter; or
one that has been passed already and is not ahead of the telegram before it. The highest number may
also be too far behind for the distance to count. -/
def InPlace (a : Arrivals) (n : Nat) : Prop :=
  (a.highest < n ∧ (a.previous = a.highest ∧ n - a.previous < 2 ^ 31 ∨
    n = a.highest + 1 ∧ a.highest = a.previous + (2 ^ 31 - 1))) ∨
  (n ≤ a.highest ∧ n ≤ a.previous + 1 ∧ ¬ a.FillsGap n)

/-- The number of missing telegrams is as large as the counter gets. -/
def AtLimit (a : Arrivals) (n : Nat) : Prop :=
  (a.add n).missing.card = u64Max ∧ ¬ a.FillsGap n ∧ (a.highest < n → n - a.previous < 2 ^ 31)

def Counted (a : Arrivals) (n : Nat) : Prop :=
  (a.add n).missing.card ≤ u64Max ∧ a.InPlace n ∨ a.AtLimit n

variable {a : Arrivals} {n : Nat}

theorem first_le_highest (a : Arrivals) : a.first ≤ a.highest := by
  unfold highest
  induction a.later with
  | nil => exact le_rfl
  | cons n later ih => exact ih.trans (le_max_right _ _)

theorem le_highest (h : n ∈ a.later) : n ≤ a.highest := by
  unfold highest
  generalize a.later = later at h
  induction later with
  | nil => cases h
  | cons m later ih =>
    obtain rfl | h := List.mem_cons.mp h
    · exact le_max_left _ _
    · exact (ih h).trans (le_max_right _ _)

theorem previous_le_highest (a : Arrivals) : a.previous ≤ a.highest := by
  unfold previous
  cases hlater : a.later with
  | nil => exact a.first_le_highest
  | cons n later => exact le_highest (by simp [hlater])

/-- The highest number has arrived. -/
theorem highest_arrived (a : Arrivals) : a.highest = a.first ∨ a.highest ∈ a.later := by
  unfold highest
  induction a.later with
  | nil => exact .inl rfl
  | cons n later ih =>
    simp only [List.foldr_cons, List.mem_cons]
    rcases le_total n (later.foldr max a.first) with hle | hle
    · rw [max_eq_right hle]
      exact ih.imp_right .inr
    · rw [max_eq_left hle]
      exact .inr (.inl rfl)

/-- A new highest number leaves everything between out. -/
theorem card_missing_add_highest (h : a.highest < n) :
    (a.add n).missing.card = a.missing.card + (n - a.highest - 1) := by
  have hunion : (a.add n).missing = a.missing ∪ Finset.Ioo a.highest n := by
    ext m
    have hm : m ∈ a.later → m ≤ a.highest := le_highest
    have hfirst := a.first_le_highest
    have harrived := a.highest_arrived
    have hhigh : (a.add n).highest = n := max_eq_left h.le
    unfold missing
    rw [hhigh]
    simp only [add, Finset.mem_filter, Finset.mem_Ioo, Finset.mem_union, List.mem_cons, not_or]
    constructor
    · rintro ⟨⟨hlow, hup⟩, hne, hnew⟩
      rcases lt_trichotomy m a.highest with hlt | rfl | hgt
      · exact .inl ⟨⟨hlow, hlt⟩, hnew⟩
      · exact absurd harrived (by rintro (heq | hmem); exacts [by omega, hnew hmem])
      · exact .inr ⟨hgt, hup⟩
    · rintro (⟨⟨hlow, hup⟩, hnew⟩ | ⟨hlow, hup⟩)
      · exact ⟨⟨hlow, by omega⟩, by omega, hnew⟩
      · exact ⟨⟨by omega, hup⟩, by omega, fun hmem => by have := hm hmem; omega⟩
  have hdisjoint : Disjoint a.missing (Finset.Ioo a.highest n) := by
    rw [Finset.disjoint_left]
    intro m hm hm'
    have hup := (Finset.mem_Ioo.mp (Finset.mem_filter.mp hm).1).2
    have hlow := (Finset.mem_Ioo.mp hm').1
    omega
  rw [hunion, Finset.card_union_of_disjoint hdisjoint, Nat.card_Ioo]

/-- Any other number only fills a gap. -/
theorem missing_add (h : n ≤ a.highest) : (a.add n).missing = a.missing.erase n := by
  ext m
  have hhigh : (a.add n).highest = a.highest := max_eq_right h
  unfold missing
  rw [hhigh]
  simp only [add, Finset.mem_filter, Finset.mem_Ioo, Finset.mem_erase, List.mem_cons, not_or]
  tauto

end Arrivals

/-! ## The distance of two counters -/

section Gap

variable {previous n : Nat}

theorem toNat_gap (previous n : Nat) :
    FlowAccumulator.gap (.ofNat previous) (.ofNat n) =
      if 1 < (n % 2 ^ 32 + 2 ^ 32 - previous % 2 ^ 32) % 2 ^ 32 ∧
          (n % 2 ^ 32 + 2 ^ 32 - previous % 2 ^ 32) % 2 ^ 32 < 2 ^ 31 then
        (n % 2 ^ 32 + 2 ^ 32 - previous % 2 ^ 32) % 2 ^ 32 - 1
      else 0 := by
  have hdistance : (UInt32.ofNat n - UInt32.ofNat previous).toNat =
      (n % 2 ^ 32 + 2 ^ 32 - previous % 2 ^ 32) % 2 ^ 32 := by
    rw [UInt32.toNat_sub, UInt32.toNat_ofNat', UInt32.toNat_ofNat']
    omega
  have hone : (1 : UInt32).toNat = 1 := rfl
  have hhalf : (0x80000000 : UInt32).toNat = 2 ^ 31 := rfl
  unfold FlowAccumulator.gap
  simp only [UInt32.lt_iff_toNat_lt, hdistance, hone, hhalf]
  by_cases h : 1 < (n % 2 ^ 32 + 2 ^ 32 - previous % 2 ^ 32) % 2 ^ 32 ∧
      (n % 2 ^ 32 + 2 ^ 32 - previous % 2 ^ 32) % 2 ^ 32 < 2 ^ 31
  · rw [if_pos h, if_pos h, UInt32.toNat_sub_of_le, hdistance]
    · rfl
    · rw [UInt32.le_iff_toNat_le, hdistance]
      exact h.1.le
  · rw [if_neg h, if_neg h]

/-- Ahead of the telegram before, within half the range. -/
theorem gap_ahead (h : previous ≤ n) (hnear : n - previous < 2 ^ 31) :
    FlowAccumulator.gap (.ofNat previous) (.ofNat n) = n - previous - 1 := by
  rw [toNat_gap]
  split <;> omega

/-- Behind the telegram before. -/
theorem gap_behind (h : n ≤ previous) (hnear : previous < n + 2 ^ 31) :
    FlowAccumulator.gap (.ofNat previous) (.ofNat n) = 0 := by
  rw [toNat_gap]
  split <;> omega

theorem gap_le (previous n : Nat) :
    FlowAccumulator.gap (.ofNat previous) (.ofNat n) ≤ 2 ^ 31 - 2 := by
  rw [toNat_gap]
  split <;> omega

/-- Too far ahead for half the range, but within the range. -/
theorem gap_far (h : previous + 2 ^ 31 ≤ n) (hnear : n < previous + 2 ^ 32) :
    FlowAccumulator.gap (.ofNat previous) (.ofNat n) = 0 := by
  rw [toNat_gap]
  split <;> omega

end Gap

/-! ## Runs of a flow -/

/-- A telegram with its number, of which the packet has the last 32 bits. -/
structure Telegram where
  number : Nat
  packet : TrdpPacket
  expectedCycleUs : Option Nat
  seqCount_eq : packet.seqCount = .ofNat number

/-- The accumulator of a flow, and what has arrived. -/
structure Flow where
  acc : FlowAccumulator
  arrivals : Arrivals

namespace Flow

def observe (f : Flow) (t : Telegram) : Flow where
  acc := f.acc.observe t.packet t.expectedCycleUs
  arrivals := f.arrivals.add t.number

def start (t : Telegram) : Flow where
  acc := FlowAccumulator.observe {} t.packet t.expectedCycleUs
  arrivals := ⟨t.number, []⟩

/-- The counter is the number of telegrams that are missing. -/
def CountsMissing (f : Flow) : Prop := f.acc.missed = f.arrivals.missing.card

/-- The telegram was overtaken by less than half the range of the counter. -/
def Near (f : Flow) (t : Telegram) : Prop := f.arrivals.highest < t.number + 2 ^ 31

/-- What the accumulator knows of the arrivals. -/
structure Agrees (f : Flow) : Prop where
  previous : f.acc.previousSeq = some (.ofNat f.arrivals.previous)
  near : f.arrivals.highest < f.arrivals.previous + 2 ^ 31
  bounded : f.acc.missed ≤ u64Max

variable {f : Flow} {t : Telegram}

theorem agrees_start (t : Telegram) : Agrees (start t) where
  previous := by
    rw [start, FlowAccumulator.observe_previousSeq, t.seqCount_eq]
    rfl
  near := by
    change t.number < t.number + 2 ^ 31
    omega
  bounded := by
    rw [start, FlowAccumulator.observe_missed_first _ _ _ rfl]
    exact Nat.zero_le _

theorem missed_observe (h : Agrees f) (t : Telegram) :
    (f.observe t).acc.missed =
      saturatingAdd64 f.acc.missed
        (FlowAccumulator.gap (.ofNat f.arrivals.previous) (.ofNat t.number)) := by
  rw [observe, FlowAccumulator.observe_missed _ _ _ h.previous, t.seqCount_eq]

theorem Agrees.observe (h : Agrees f) (hnear : f.Near t) : Agrees (f.observe t) where
  previous := by
    rw [Flow.observe, FlowAccumulator.observe_previousSeq, t.seqCount_eq]
    rfl
  near := by
    change max t.number f.arrivals.highest < t.number + 2 ^ 31
    unfold Near at hnear
    omega
  bounded := by
    rw [missed_observe h]
    exact min_le_right _ _

/-- A telegram adds as many to the counter as it adds to what is missing, exactly if it is counted. -/
theorem countsMissing_observe (h : Agrees f) (hcount : f.CountsMissing) (hnear : f.Near t) :
    (f.observe t).CountsMissing ↔ f.arrivals.Counted t.number := by
  have hprevious := f.arrivals.previous_le_highest
  have hfirst := f.arrivals.first_le_highest
  have hbounded := h.bounded
  have hnearPrevious := h.near
  unfold Near at hnear
  unfold CountsMissing at hcount ⊢
  rw [missed_observe h, saturatingAdd64]
  change _ = (f.arrivals.add t.number).missing.card ↔ _
  unfold Arrivals.Counted Arrivals.InPlace Arrivals.AtLimit
  generalize hgap : FlowAccumulator.gap (.ofNat f.arrivals.previous) (.ofNat t.number) = gap
  rcases lt_or_ge f.arrivals.highest t.number with hnew | hold
  · have hfill : ¬ f.arrivals.FillsGap t.number := fun hfill => by
      have := (Finset.mem_Ioo.mp (Finset.mem_filter.mp hfill).1).2
      omega
    rw [Arrivals.card_missing_add_highest hnew]
    by_cases hhalf : t.number - f.arrivals.previous < 2 ^ 31
    · -- the distance counts, and says at least what is missing now
      rw [gap_ahead (by omega) hhalf] at hgap
      simp only [hfill, not_false_eq_true, true_and]
      omega
    · simp only [hfill, not_false_eq_true, true_and]
      by_cases hrange : t.number < f.arrivals.previous + 2 ^ 32
      · rw [gap_far (by omega) hrange] at hgap
        omega
      · have := gap_le f.arrivals.previous t.number
        omega
  · by_cases hfill : f.arrivals.FillsGap t.number
    · -- one missing telegram less, and the counter never goes back
      have hcard := Finset.card_erase_of_mem hfill
      have hpos : 0 < f.arrivals.missing.card := Finset.card_pos.mpr ⟨_, hfill⟩
      rw [Arrivals.missing_add hold, hcard]
      simp only [hfill, not_true_eq_false, and_false, false_and, or_false]
      omega
    · rw [Arrivals.missing_add hold, Finset.erase_eq_of_notMem hfill]
      simp only [hfill, not_false_eq_true, true_and, and_true]
      rcases Nat.lt_or_ge (f.arrivals.previous + 1) t.number with hahead | hbehind
      · rw [gap_ahead (by omega) (by omega)] at hgap
        omega
      · rcases Nat.lt_or_ge f.arrivals.previous t.number with hnext | hback
        · rw [gap_ahead (by omega) (by omega)] at hgap
          omega
        · rw [gap_behind hback (by omega)] at hgap
          omega

/-- The telegram is less than half the range of the counter ahead of the one before. -/
def HalfRange (f : Flow) (t : Telegram) : Prop := t.number < f.arrivals.previous + 2 ^ 31

/-- Within half the range a telegram never adds less to the counter than to what is missing. -/
theorem excess_observe (h : Agrees f) (hhalf : f.HalfRange t)
    (hunsaturated : (f.observe t).acc.missed < u64Max) :
    (f.observe t).arrivals.missing.card + f.acc.missed ≤
      (f.observe t).acc.missed + f.arrivals.missing.card := by
  have hprevious := f.arrivals.previous_le_highest
  have hnearPrevious := h.near
  unfold HalfRange at hhalf
  rw [missed_observe h, saturatingAdd64] at hunsaturated ⊢
  change (f.arrivals.add t.number).missing.card + _ ≤ _
  generalize hgap : FlowAccumulator.gap (.ofNat f.arrivals.previous) (.ofNat t.number) = gap at *
  rcases lt_or_ge f.arrivals.highest t.number with hnew | hold
  · rw [Arrivals.card_missing_add_highest hnew]
    rw [gap_ahead (by omega) (by omega)] at hgap
    omega
  · have hcard := Finset.card_erase_le (s := f.arrivals.missing) (a := t.number)
    rw [Arrivals.missing_add hold]
    omega

theorem missed_le_observe (h : Agrees f) (t : Telegram) : f.acc.missed ≤ (f.observe t).acc.missed := by
  have := h.bounded
  rw [missed_observe h, saturatingAdd64]
  omega

theorem missed_le_foldl {ts : List Telegram} (h : Agrees f) (hnear : EachStep observe Near f ts) :
    f.acc.missed ≤ (ts.foldl observe f).acc.missed := by
  induction ts generalizing f with
  | nil => exact le_rfl
  | cons t ts ih => exact (missed_le_observe h t).trans (ih (h.observe hnear.1) hnear.2)

/-- A counter that is right in the end was right all the time: what it has counted too much stays. -/
theorem always_of_last {ts : List Telegram} (h : Agrees f) (hnear : EachStep observe Near f ts)
    (hhalf : EachStep observe HalfRange f ts) (hle : f.arrivals.missing.card ≤ f.acc.missed)
    (hlast : (ts.foldl observe f).CountsMissing)
    (hroom : (ts.foldl observe f).arrivals.missing.card < u64Max) :
    Always observe CountsMissing f ts := by
  induction ts generalizing f with
  | nil => exact hlast
  | cons t ts ih =>
    obtain ⟨hnear, hnears⟩ := hnear
    obtain ⟨hhalf, hhalfs⟩ := hhalf
    have hmono : (f.observe t).acc.missed ≤ (ts.foldl observe (f.observe t)).acc.missed :=
      missed_le_foldl (h.observe hnear) hnears
    have hend : (ts.foldl observe (f.observe t)).acc.missed =
      (ts.foldl observe (f.observe t)).arrivals.missing.card := hlast
    have hroom' : (ts.foldl observe (f.observe t)).arrivals.missing.card < u64Max := hroom
    have hexcess := excess_observe h hhalf (by omega)
    have hrest := ih (h.observe hnear) hnears hhalfs (by omega) hlast hroom
    refine ⟨?_, hrest⟩
    have hnow : (f.observe t).acc.missed = (f.observe t).arrivals.missing.card := by
      cases ts with
      | nil => exact hrest
      | cons _ _ => exact hrest.1
    unfold CountsMissing
    omega

theorem countsMissing_start (t : Telegram) : (start t).CountsMissing := by
  unfold CountsMissing
  rw [start, FlowAccumulator.observe_missed_first _ _ _ rfl]
  simp [Arrivals.missing, Arrivals.highest]

theorem always_countsMissing_iff (t : Telegram) {ts : List Telegram}
    (hnear : EachStep observe Near (start t) ts) :
    Always observe CountsMissing (start t) ts ↔
      EachStep observe (fun f t => f.arrivals.Counted t.number) (start t) ts := by
  rw [Lib.always_iff_of_invariant (fun f t h hnear => Agrees.observe h hnear)
    (fun f t h hcount hnear => countsMissing_observe h hcount hnear) hnear (agrees_start t)]
  exact and_iff_right (countsMissing_start t)

/-- The counter is right after every telegram exactly if each one is counted as what it is. Where no
telegram is half the range ahead and fewer are missing than the counter can hold, it is right in the
end under the same condition. -/
theorem countsMissing_iff (t : Telegram) {ts : List Telegram}
    (hnear : EachStep observe Near (start t) ts) :
    (Always observe CountsMissing (start t) ts ↔
        EachStep observe (fun f t => f.arrivals.Counted t.number) (start t) ts) ∧
      (EachStep observe HalfRange (start t) ts →
        (ts.foldl observe (start t)).arrivals.missing.card < u64Max →
        ((ts.foldl observe (start t)).CountsMissing ↔
          EachStep observe (fun f t => f.arrivals.Counted t.number) (start t) ts)) := by
  refine ⟨always_countsMissing_iff t hnear, fun hhalf hroom => ?_⟩
  rw [← always_countsMissing_iff t hnear]
  refine ⟨fun hlast => ?_, Always.last⟩
  have hstart : (start t).arrivals.missing.card ≤ (start t).acc.missed :=
    (countsMissing_start t).symm.le
  exact always_of_last (agrees_start t) hnear hhalf hstart hlast hroom

/-- A telegram with nothing but its counter. -/
def bare (n : Nat) : Telegram where
  number := n
  packet := ⟨0, .ofNat n, 0, none, none, none⟩
  expectedCycleUs := none
  seqCount_eq := rfl

theorem countsMissing_gap :
    Always observe CountsMissing (start (bare 4294967295)) [bare 4294967296, bare 4294967298] ∧
      ([bare 4294967296, bare 4294967298].foldl observe (start (bare 4294967295))).CountsMissing := by
  have hnear : EachStep observe Near (start (bare 4294967295)) [bare 4294967296, bare 4294967298] :=
    ⟨by unfold Near; decide, by unfold Near; decide, trivial⟩
  have hhalf : EachStep observe HalfRange (start (bare 4294967295))
      [bare 4294967296, bare 4294967298] :=
    ⟨by unfold HalfRange; decide, by unfold HalfRange; decide, trivial⟩
  have hcounted : EachStep observe (fun f t => f.arrivals.Counted t.number)
      (start (bare 4294967295)) [bare 4294967296, bare 4294967298] :=
    ⟨.inl ⟨by decide, .inl ⟨by decide, .inl (by decide)⟩⟩,
      .inl ⟨by decide, .inl ⟨by decide, .inl (by decide)⟩⟩, trivial⟩
  have h := countsMissing_iff (bare 4294967295) hnear
  exact ⟨h.1.mpr hcounted, (h.2 hhalf (by decide)).mpr hcounted⟩

/-- Three telegrams of which none is missing, the last two in the other order. -/
theorem reordered_counts_as_missed :
    EachStep observe Near (start (bare 1)) [bare 3, bare 2] ∧
      ¬ ([bare 3, bare 2].foldl observe (start (bare 1))).CountsMissing := by
  have hmissed : ([bare 3, bare 2].foldl observe (start (bare 1))).acc.missed = 1 := rfl
  have hmissing : ([bare 3, bare 2].foldl observe (start (bare 1))).arrivals.missing.card = 0 := by
    decide
  refine ⟨⟨by unfold Near; decide, by unfold Near; decide, trivial⟩, fun h => ?_⟩
  unfold CountsMissing at h
  omega

end Flow

end TauTerm.Trdp
