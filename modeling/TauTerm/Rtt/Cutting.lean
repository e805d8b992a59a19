import Mathlib
import TauTerm.Rtt.Chunking

/-!
# Exactly when the cutting matters

`push` on the chunks of a stream is compared with `push` on the whole. A `Reading`
is a run over the whole stream that may take a NOP packet where a marker stands,
which is what cutting the marker does. Such a reading never catches up: it
returns more packets than the run that takes the marker, or marks another one as
the first behind a marker.
-/

namespace TauTerm.Rtt

open Lib

namespace SystemViewDecoder

def packets (out : List Decoded) : List ParsedPacket :=
  out.filterMap fun
    | .packet packet => some packet
    | .error => none

def errors (out : List Decoded) : Nat := out.count .error

/-- The packets and the number of errors that `push` returns, and the decoder behind it. -/
def push (d : SystemViewDecoder) (bytes : List UInt8) :
    (List ParsedPacket × Nat) × SystemViewDecoder :=
  let r := pump.run (d.feed bytes)
  if MAX_DECODER_BUFFER < r.2.buffer.length then
    ((packets r.1, errors r.1 + 1), { r.2 with buffer := [] })
  else ((packets r.1, errors r.1), r.2)

/-- The chunks one after the other, the packets concatenated and the errors added up. -/
def pushAll (d : SystemViewDecoder) : List (List UInt8) →
    (List ParsedPacket × Nat) × SystemViewDecoder
  | [] => (([], 0), d)
  | chunk :: chunks =>
    let first := d.push chunk
    let rest := first.2.pushAll chunks
    ((first.1.1 ++ rest.1.1, first.1.2 + rest.1.2), rest.2)

theorem packets_append (out out' : List Decoded) : packets (out ++ out') = packets out ++ packets out' :=
  List.filterMap_append

theorem errors_append (out out' : List Decoded) : errors (out ++ out') = errors out + errors out' :=
  List.count_append

/-! ## `push` is the pump on a short stream -/

theorem turn_stop_length {d d' : SystemViewDecoder} (h : d.turn = .stop d') :
    d'.buffer.length ≤ d.buffer.length := by
  by_cases hb : d.buffer = []
  · rw [turn_empty hb] at h
    cases h
    exact Nat.le_refl _
  cases hs : d.synchronized with
  | false =>
    cases hf : findSyncMarker d.buffer with
    | none =>
      rw [turn_lost hs hf] at h
      cases h
      exact (List.drop_sublist _ _).length_le
    | some k => rw [turn_found hs hf] at h; cases h
  | true =>
    rcases turn_stop_cases h with rfl | ⟨hs', -, -⟩
    · exact Nat.le_refl _
    · rw [hs] at hs'
      cases hs'

theorem run_length (d : SystemViewDecoder) : (pump.run d).2.buffer.length ≤ d.buffer.length :=
  @Pump.run_invariant _ _ _ pump _ (fun t => t.buffer.length ≤ d.buffer.length)
      (fun h hle => Nat.le_trans (Nat.le_of_lt (turn_go_lt h)) hle)
      (fun h hle => Nat.le_trans (turn_stop_length h) hle) (Nat.le_refl _)

theorem push_eq {d : SystemViewDecoder} {bytes : List UInt8}
    (h : d.buffer.length + bytes.length < MAX_DECODER_BUFFER) :
    d.push bytes =
      ((packets (pump.run (d.feed bytes)).1, errors (pump.run (d.feed bytes)).1),
        (pump.run (d.feed bytes)).2) := by
  have hle := run_length (d.feed bytes)
  rw [feed_buffer, List.length_append] at hle
  unfold push
  dsimp only
  rw [if_neg (by omega)]

theorem pushAll_eq {d : SystemViewDecoder} {chunks : List (List UInt8)}
    (h : d.buffer.length + chunks.flatten.length < MAX_DECODER_BUFFER) :
    d.pushAll chunks =
      ((packets (pump.pump d chunks).1, errors (pump.pump d chunks).1), (pump.pump d chunks).2) := by
  induction chunks generalizing d with
  | nil => rfl
  | cons chunk chunks ih =>
    rw [List.flatten_cons, List.length_append] at h
    have hle := run_length (d.feed chunk)
    rw [feed_buffer, List.length_append] at hle
    unfold pushAll Pump.pump
    dsimp only
    rw [push_eq (by omega)]
    show ((_ ++ (pushAll (pump.run (d.feed chunk)).2 chunks).1.1, _), _) = _
    rw [ih (d := (pump.run (d.feed chunk)).2) (by omega)]
    rw [packets_append, errors_append]
    rfl

/-! ## Readings -/

/-- A run over a whole stream that takes NOP packets off some of the markers; the flag tells
whether it did so at all. -/
inductive Reading : SystemViewDecoder → List Decoded → SystemViewDecoder → Bool → Prop
  | stop {d d'} : d.turn = .stop d' → Reading d [] d' false
  | go {d d' f out outs cut} : d.turn = .go out d' → Reading d' outs f cut →
      Reading d (out ++ outs) f cut
  | skip {d d' f outs cut} : d.synchronized = false → d.turn = d'.turn → Reading d' outs f cut →
      Reading d outs f cut
  | split {d f outs cut} : d.synchronized = true → isSyncMarker (d.buffer.take 10) = true →
      Reading { d with buffer := d.buffer.drop 2, markNextSyncBoundary := false } outs f cut →
      Reading d (.packet { nop with syncBoundary := d.markNextSyncBoundary } :: outs) f true

/-- Nothing that is still to come completes a marker that the decoder is taking apart. -/
def Whole (d : SystemViewDecoder) (more : List UInt8) : Prop := ¬d.SplitsMarker more

theorem reading_run {d f : SystemViewDecoder} {more : List UInt8} {outs : List Decoded} {cut : Bool}
    (h : Reading ((pump.run d).2.feed more) outs f cut) :
    ∃ cut', Reading (d.feed more) ((pump.run d).1 ++ outs) f cut' ∧
      (cut' = false ↔ pump.Throughout (Whole · more) d ∧ cut = false) := by
  induction hn : d.buffer.length using Nat.strongRecOn generalizing d with
  | _ n ih =>
    subst hn
    cases ht : d.turn with
    | stop d' =>
      have hwhole : d.Whole more := by
        intro hsplit
        rw [turn_splitsMarker hsplit] at ht
        cases ht
      rw [Pump.run_stop (P := pump) ht] at h ⊢
      rw [Pump.throughout_stop (P := pump) ht]
      refine ⟨cut, ?_, by simp [hwhole]⟩
      rcases turn_stop_cases ht with rfl | ⟨hs, -, hfeed⟩
      · exact h
      · exact .skip hs (hfeed more) h
    | go out d' =>
      rw [Pump.run_go (P := pump) ht] at h ⊢
      rw [Pump.throughout_go (P := pump) ht]
      obtain ⟨cut', hread, hcut⟩ := ih _ (turn_go_lt ht) h rfl
      by_cases hsplit : d.SplitsMarker more
      · have hturn := turn_splitsMarker hsplit
        rw [ht] at hturn
        cases hturn
        refine ⟨true, ?_, by simp [Whole, hsplit]⟩
        obtain ⟨hs, h2, -, hmore⟩ := hsplit
        refine @Reading.split (d.feed more) _ _ cut' hs hmore ?_
        rw [feed_buffer, List.drop_append_of_le_length h2]
        exact hread
      · refine ⟨cut', ?_, by rw [hcut]; simp [Whole, hsplit]⟩
        rw [List.append_assoc]
        exact .go ((Pump.firm_go (P := pump) ht).mp (firm_of_not_splitsMarker hsplit)) hread

theorem reading_pump {d : SystemViewDecoder} (hd : d.turn = .stop d) (chunks : List (List UInt8)) :
    ∃ cut, Reading (d.feed chunks.flatten) (pump.pump d chunks).1 (pump.pump d chunks).2 cut ∧
      (cut = false ↔ pump.EachTurn Whole d chunks) := by
  induction chunks generalizing d with
  | nil =>
    refine ⟨false, ?_, by simp [Pump.EachTurn]⟩
    rw [List.flatten_nil]
    show Reading (pump.feed d []) [] d false
    rw [pump.feed_nil]
    exact .stop hd
  | cons chunk chunks ih =>
    obtain ⟨cut, hread, hcut⟩ := ih (d := (pump.run (d.feed chunk)).2) (Pump.turn_run (P := pump) _)
    obtain ⟨cut', hread', hcut'⟩ := reading_run hread
    refine ⟨cut', ?_, by rw [hcut', hcut]; rfl⟩
    rw [List.flatten_cons]
    show Reading (pump.feed d (chunk ++ chunks.flatten)) _ _ _
    rw [pump.feed_append]
    exact hread'

theorem Reading.run_of_uncut {d f : SystemViewDecoder} {outs : List Decoded} {cut : Bool}
    (h : Reading d outs f cut) (hcut : cut = false) : pump.run d = (outs, f) := by
  induction h with
  | stop ht => exact Pump.run_stop (P := pump) ht
  | go ht _ ih => rw [Pump.run_go (P := pump) ht, ih hcut]
  | skip _ ht _ ih => exact (Pump.run_congr (P := pump) ht).trans (ih hcut)
  | split => cases hcut

/-! ## A reading that cuts a marker -/

/-- The decoder that stands behind a marker. -/
def behind (buffer : List UInt8) (mark : Bool) : SystemViewDecoder :=
  { buffer, synchronized := true, markNextSyncBoundary := mark }

/-- The zeros in front and what is behind them. -/
theorem exists_zeros (data : List UInt8) : ∃ n rest,
    data = List.replicate n 0 ++ rest ∧ rest.head? ≠ some 0 := by
  induction data with
  | nil => exact ⟨0, [], rfl, nofun⟩
  | cons byte data ih =>
    by_cases hb : byte = 0
    · obtain ⟨n, rest, rfl, hrest⟩ := ih
      exact ⟨n + 1, rest, by rw [hb, List.replicate_succ, List.cons_append], hrest⟩
    · exact ⟨0, byte :: data, rfl, by simpa using hb⟩

variable {rest : List UInt8} {n : Nat} {mark : Bool}

theorem isSyncMarker_zeros (hrest : rest.head? ≠ some 0) :
    isSyncMarker ((List.replicate n 0 ++ rest).take 10) = decide (10 ≤ n) := by
  by_cases hn : 10 ≤ n
  · rw [decide_eq_true hn, isSyncMarker_iff, List.take_append_of_le_length (by simpa using hn),
      List.take_replicate, min_eq_left hn]
  · rw [decide_eq_false hn]
    by_contra hm
    rw [Bool.not_eq_false] at hm
    cases rest with
    | nil =>
      have hlen := isSyncMarker_length hm
      simp at hlen
      omega
    | cons byte rest =>
      apply hrest
      rw [show List.replicate n 0 ++ byte :: rest = (List.replicate n 0 ++ [byte]) ++ rest by simp] at hm
      have hbyte := zeros_of_marker (by simp; omega) hm byte (by simp)
      rw [hbyte]
      rfl

theorem turn_zeros_marker (hrest : rest.head? ≠ some 0) (hn : 10 ≤ n) :
    (behind (List.replicate n 0 ++ rest) mark).turn =
      .go [] (behind (List.replicate (n - 10) 0 ++ rest) true) := by
  have hm := isSyncMarker_zeros hrest (n := n)
  rw [decide_eq_true hn] at hm
  rw [turn_marker rfl hm]
  unfold behind
  dsimp only
  rw [List.drop_append_of_le_length (by simpa using hn), List.drop_replicate]

theorem turn_zeros_nop (hrest : rest.head? ≠ some 0) (h2 : 2 ≤ n) (hn : n < 10) :
    (behind (List.replicate n 0 ++ rest) mark).turn =
      .go [.packet { nop with syncBoundary := mark }]
        (behind (List.replicate (n - 2) 0 ++ rest) false) := by
  have hm := isSyncMarker_zeros hrest (n := n)
  rw [decide_eq_false (by omega)] at hm
  obtain ⟨k, rfl⟩ : ∃ k, n = k + 2 := ⟨n - 2, by omega⟩
  have hp : decodePacket (List.replicate (k + 2) 0 ++ rest) = .ok (some (nop, 2)) :=
    decodePacket_zeros (List.replicate k 0 ++ rest)
  rw [turn_decode rfl (by simp [behind, List.replicate_succ]) hm]
  unfold behind
  dsimp only
  rw [hp]
  rfl

theorem run_markers (hrest : rest.head? ≠ some 0) (a : Nat) :
    pump.run (behind (List.replicate (10 * a + n) 0 ++ rest) true) =
      pump.run (behind (List.replicate n 0 ++ rest) true) := by
  induction a with
  | zero => rw [Nat.mul_zero, Nat.zero_add]
  | succ a ih =>
    rw [Pump.run_go (P := pump) (turn_zeros_marker hrest (by omega)),
      show 10 * (a + 1) + n - 10 = 10 * a + n by omega, ih]
    rfl

theorem run_zeros_nop (hrest : rest.head? ≠ some 0) (h2 : 2 ≤ n) (hn : n < 10) :
    pump.run (behind (List.replicate n 0 ++ rest) mark) =
      (.packet { nop with syncBoundary := mark } ::
        (pump.run (behind (List.replicate (n - 2) 0 ++ rest) false)).1,
        (pump.run (behind (List.replicate (n - 2) 0 ++ rest) false)).2) := by
  rw [Pump.run_go (P := pump) (turn_zeros_nop hrest h2 hn)]
  rfl

/-! ### Counting packets -/

def count (buffer : List UInt8) (mark : Bool) : Nat :=
  (packets (pump.run (behind buffer mark)).1).length

/-- The mark of the next packet does not change how many there are. -/
theorem count_mark (buffer : List UInt8) (mark mark' : Bool) : count buffer mark = count buffer mark' := by
  induction hn : buffer.length using Nat.strongRecOn generalizing buffer mark mark' with
  | _ n ih =>
    subst hn
    by_cases hb : buffer = []
    · subst hb
      unfold count
      rw [Pump.run_stop (P := pump) (turn_empty rfl), Pump.run_stop (P := pump) (turn_empty rfl)]
    unfold count
    cases hm : isSyncMarker (buffer.take 10) with
    | true =>
      rw [Pump.run_go (P := pump) (turn_marker (d := behind buffer mark) rfl hm),
        Pump.run_go (P := pump) (turn_marker (d := behind buffer mark') rfl hm)]
      rfl
    | false =>
      have h := turn_decode (d := behind buffer mark) rfl hb hm
      have h' := turn_decode (d := behind buffer mark') rfl hb hm
      cases hp : decodePacket buffer with
      | error e =>
        rw [show (behind buffer mark).buffer = buffer from rfl, hp] at h
        rw [show (behind buffer mark').buffer = buffer from rfl, hp] at h'
        rw [Pump.run_go (P := pump) h, Pump.run_go (P := pump) h']
        rw [packets_append, packets_append, List.length_append, List.length_append]
        congr 1
        refine ih _ ?_ buffer.tail mark mark' rfl
        have := List.length_pos_iff.mpr hb
        rw [List.length_tail]
        omega
      | ok r =>
        rw [show (behind buffer mark).buffer = buffer from rfl, hp] at h
        rw [show (behind buffer mark').buffer = buffer from rfl, hp] at h'
        cases r with
        | none => rw [Pump.run_stop (P := pump) h, Pump.run_stop (P := pump) h']
        | some r =>
          rw [Pump.run_go (P := pump) h, Pump.run_go (P := pump) h']
          rw [packets_append, packets_append, List.length_append, List.length_append]
          rfl

theorem count_nops (hrest : rest.head? ≠ some 0) (k e : Nat) (h : 2 * k + e < 10) :
    count (List.replicate (2 * k + e) 0 ++ rest) mark = k + count (List.replicate e 0 ++ rest) mark := by
  induction k generalizing mark with
  | zero => rw [Nat.mul_zero, Nat.zero_add, Nat.zero_add]
  | succ k ih =>
    unfold count
    rw [run_zeros_nop hrest (by omega) h, show 2 * (k + 1) + e - 2 = 2 * k + e by omega]
    have := @ih false (by omega)
    rw [count_mark (List.replicate e 0 ++ rest) false mark] at this
    unfold count at this
    show (packets _).length + 1 = _
    rw [this]
    omega

/-- Behind the markers there are half as many packets as zeros, then the rest. -/
theorem count_zeros (hrest : rest.head? ≠ some 0) (n : Nat) :
    count (List.replicate n 0 ++ rest) mark =
      n % 10 / 2 + count (List.replicate (n % 2) 0 ++ rest) mark := by
  rw [count_mark _ mark true, count_mark _ mark true]
  have hn : n = 10 * (n / 10) + n % 10 := by omega
  unfold count
  conv_lhs => rw [hn, run_markers hrest (n / 10)]
  have := @count_nops _ true hrest (n % 10 / 2) (n % 2) (by omega)
  rw [show 2 * (n % 10 / 2) + n % 2 = n % 10 by omega] at this
  exact this

theorem turn_go_synchronized {d d' : SystemViewDecoder} {out : List Decoded}
    (h : d.turn = .go out d') (hs : d.synchronized = true) : d'.synchronized = true := by
  by_cases hb : d.buffer = []
  · rw [turn_empty hb] at h
    cases h
  cases hm : isSyncMarker (d.buffer.take 10) with
  | true =>
    rw [turn_marker hs hm] at h
    cases h
    exact hs
  | false =>
    rw [turn_decode hs hb hm] at h
    split at h
    · cases h
      exact hs
    · cases h
    · cases h
      exact hs

theorem eq_behind {d : SystemViewDecoder} (hs : d.synchronized = true) :
    d = behind d.buffer d.markNextSyncBoundary := by
  obtain ⟨buffer, synchronized, mark⟩ := d
  subst hs
  rfl

/-- Where a marker stands there are ten zeros or more, and behind them something else. -/
theorem zeros_of_isSyncMarker {buffer : List UInt8} (h : isSyncMarker (buffer.take 10) = true) :
    ∃ n rest, 10 ≤ n ∧ buffer = List.replicate n 0 ++ rest ∧ rest.head? ≠ some 0 := by
  obtain ⟨n, rest, rfl, hrest⟩ := exists_zeros buffer
  rw [isSyncMarker_zeros hrest] at h
  exact ⟨n, rest, of_decide_eq_true h, rfl, hrest⟩

theorem drop_two_zeros (h : 10 ≤ n) :
    (List.replicate n (0 : UInt8) ++ rest).drop 2 = List.replicate (n - 2) 0 ++ rest := by
  rw [List.drop_append_of_le_length (by rw [List.length_replicate]; omega), List.drop_replicate]

/-- A reading returns at least the packets of the run. -/
theorem Reading.count_le {d f : SystemViewDecoder} {outs : List Decoded} {cut : Bool}
    (h : Reading d outs f cut) (hs : d.synchronized = true) :
    (packets (pump.run d).1).length ≤ (packets outs).length := by
  induction h with
  | stop ht => rw [Pump.run_stop (P := pump) ht]
  | go ht _ ih =>
    rw [Pump.run_go (P := pump) ht, packets_append, packets_append, List.length_append,
      List.length_append]
    exact Nat.add_le_add_left (ih (turn_go_synchronized ht hs)) _
  | skip hs' => exact absurd (hs'.symm.trans hs) Bool.false_ne_true
  | @split d f outs cut _ hm _ ih =>
    obtain ⟨n, rest, hn, hbuf, hrest⟩ := zeros_of_isSyncMarker hm
    have hle := ih hs
    rw [hbuf, drop_two_zeros hn, hs] at hle
    have hrun := @count_zeros _ d.markNextSyncBoundary hrest n
    have hrun' := @count_zeros _ d.markNextSyncBoundary hrest (n - 2)
    rw [show (n - 2) % 2 = n % 2 by omega] at hrun'
    have hd : d = behind (List.replicate n 0 ++ rest) d.markNextSyncBoundary := by
      rw [← hbuf]
      exact eq_behind hs
    rw [hd]
    show count _ _ ≤ (packets outs).length + 1
    have hle' : count (List.replicate (n - 2) 0 ++ rest) d.markNextSyncBoundary ≤
        (packets outs).length := by
      rw [count_mark _ _ false]
      exact hle
    rw [hrun]
    rw [hrun'] at hle'
    omega

/-! ### The mark behind a marker -/

/-- What a sequence of bytes returns once it is read to its end: the packets and the state left. -/
def result (d : SystemViewDecoder) : List ParsedPacket × SystemViewDecoder :=
  (packets (pump.run d).1, (pump.run d).2)

set_option maxRecDepth 20000 in
/-- A byte in front of a marker always begins a packet. -/
theorem decodePacket_before_marker {byte : UInt8} {data : List UInt8}
    (h : isSyncMarker (data.take 10) = true) : ∃ r, decodePacket (byte :: data) = .ok (some r) := by
  have hall : ∀ k : Fin 256,
      (decodePacket (UInt8.ofNat k :: List.replicate 10 0)).toOption.join.isSome = true := by
    decide
  have hbyte := hall ⟨byte.toNat, byte.toNat_lt⟩
  simp only [UInt8.ofNat_toNat] at hbyte
  obtain ⟨r, hjoin⟩ := Option.isSome_iff_exists.mp hbyte
  have hr : decodePacket (byte :: List.replicate 10 0) = .ok (some r) := by
    cases hd : decodePacket (byte :: List.replicate 10 0) with
    | error e => rw [hd] at hjoin; cases hjoin
    | ok packet =>
      rw [hd] at hjoin
      exact congrArg Except.ok hjoin
  refine ⟨r, ?_⟩
  rw [← List.take_append_drop 10 data, isSyncMarker_iff.mp h, ← List.cons_append]
  exact stable_decodePacket.some _ hr

/-- The first step of the reading of a synchronized decoder. -/
theorem Reading.first {d f : SystemViewDecoder} {outs : List Decoded} {cut : Bool}
    (h : Reading d outs f cut) (hs : d.synchronized = true) :
    (d.turn = .stop f ∧ outs = []) ∨
    (∃ out d' outs', d.turn = .go out d' ∧ outs = out ++ outs' ∧ Reading d' outs' f cut) ∨
    (isSyncMarker (d.buffer.take 10) = true ∧ ∃ outs' cut',
      outs = .packet { nop with syncBoundary := d.markNextSyncBoundary } :: outs' ∧
      Reading (behind (d.buffer.drop 2) false) outs' f cut') := by
  cases h with
  | stop ht => exact .inl ⟨ht, rfl⟩
  | go ht hrest => exact .inr (.inl ⟨_, _, _, ht, rfl, hrest⟩)
  | skip hs' => exact absurd (hs'.symm.trans hs) Bool.false_ne_true
  | @split _ _ _ cut' _ hm hrest =>
    refine .inr (.inr ⟨hm, _, cut', rfl, ?_⟩)
    rw [hs] at hrest
    exact hrest

/-- Away from a marker a pending mark shows: on the next packet, or in the state that is left. -/
theorem Reading.ne_of_mark {buffer : List UInt8} (hm : isSyncMarker (buffer.take 10) = false)
    {f : SystemViewDecoder} {outs : List Decoded} {cut : Bool}
    (h : Reading (behind buffer true) outs f cut) :
    (packets outs, f) ≠ result (behind buffer false) := by
  induction hn : buffer.length using Nat.strongRecOn generalizing buffer outs with
  | _ n ih =>
    subst hn
    unfold result
    by_cases hb : buffer = []
    · subst hb
      have ht : (behind [] true).turn = .stop (behind [] true) := turn_empty rfl
      rw [Pump.run_stop (P := pump) (turn_empty rfl)]
      rcases h.first rfl with ⟨hf, rfl⟩ | ⟨out, d', outs', hgo, -, -⟩ | ⟨hm', -⟩
      · rw [ht] at hf
        cases hf
        intro heq
        cases (Prod.mk.inj heq).2
      · rw [ht] at hgo
        cases hgo
      · exact absurd (hm.symm.trans hm') Bool.false_ne_true
    have hturn := turn_decode (d := behind buffer true) rfl hb hm
    have hturn' := turn_decode (d := behind buffer false) rfl hb hm
    rw [show (behind buffer true).buffer = buffer from rfl] at hturn
    rw [show (behind buffer false).buffer = buffer from rfl] at hturn'
    rcases h.first rfl with ⟨hstop, rfl⟩ | ⟨out, d', outs', hgo, rfl, hread⟩ | ⟨hm', -⟩
    · cases hp : decodePacket buffer with
      | error e => rw [hp] at hturn; rw [hturn] at hstop; cases hstop
      | ok r =>
        cases r with
        | some r => rw [hp] at hturn; rw [hturn] at hstop; cases hstop
        | none =>
          rw [hp] at hturn hturn'
          rw [hturn] at hstop
          cases hstop
          rw [Pump.run_stop (P := pump) hturn']
          intro heq
          cases (Prod.mk.inj heq).2
    · cases hp : decodePacket buffer with
      | error e =>
        rw [hp] at hturn hturn'
        rw [hturn] at hgo
        cases hgo
        rw [Pump.run_go (P := pump) hturn']
        have hpos := List.length_pos_iff.mpr hb
        show (packets outs', f) ≠ result (behind buffer.tail false)
        refine ih buffer.tail.length ?_ ?_ hread rfl
        · rw [List.length_tail]
          omega
        · cases buffer with
          | nil => exact absurd rfl hb
          | cons byte data =>
            by_contra hmark
            obtain ⟨r, hr⟩ := @decodePacket_before_marker byte _ (by simpa using hmark)
            rw [hr] at hp
            cases hp
      | ok r =>
        cases r with
        | none => rw [hp] at hturn; rw [hturn] at hgo; cases hgo
        | some r =>
          rw [hp] at hturn hturn'
          rw [hturn] at hgo
          cases hgo
          rw [Pump.run_go (P := pump) hturn']
          intro heq
          have hhead := List.cons.inj (Prod.mk.inj heq).1
          cases congrArg ParsedPacket.syncBoundary hhead.1
    · exact absurd (hm.symm.trans hm') Bool.false_ne_true

/-! ### Readings that cut differ -/

/-- A NOP off a marker is one packet too many, or the packets that follow differ. -/
theorem split_ne (hrest : rest.head? ≠ some 0) {a s : Nat} (ha : 0 < a) (hs : s < 10)
    {outs : List Decoded} {f : SystemViewDecoder} {cut : Bool} {packet : ParsedPacket}
    (h : Reading (behind (List.replicate (10 * a + s - 2) 0 ++ rest) false) outs f cut)
    (hne : 2 ≤ s → (packets outs, f) ≠ result (behind (List.replicate (s - 2) 0 ++ rest) false)) :
    (packet :: packets outs, f) ≠ result (behind (List.replicate s 0 ++ rest) mark) := by
  intro heq
  unfold result at heq
  by_cases h2 : 2 ≤ s
  · rw [run_zeros_nop hrest h2 hs] at heq
    obtain ⟨hlist, hf⟩ := Prod.mk.inj heq
    exact hne h2 (Prod.ext (List.cons.inj hlist).2 hf)
  · have hle : count _ false ≤ _ := h.count_le rfl
    have hrun := @count_zeros _ false hrest (10 * a + s - 2)
    rw [show (10 * a + s - 2) % 2 = s by omega] at hrun
    have hlen := congrArg List.length (Prod.mk.inj heq).1
    rw [List.length_cons, show (packets (pump.run (behind (List.replicate s 0 ++ rest) mark)).1).length =
      count (List.replicate s 0 ++ rest) mark from rfl, count_mark _ mark false] at hlen
    omega

/-- Once a NOP has been taken off a marker, the reading does not return what the run returns. -/
theorem Reading.ne_behind_nop (hrest : rest.head? ≠ some 0) {a s : Nat} (hs : s < 10)
    (ha : 0 < a ∨ mark = true) {outs : List Decoded} {f : SystemViewDecoder} {cut : Bool}
    (h : Reading (behind (List.replicate (10 * a + s) 0 ++ rest) mark) outs f cut) :
    (packets outs, f) ≠ result (behind (List.replicate s 0 ++ rest) false) := by
  induction hn : 10 * a + s using Nat.strongRecOn generalizing a s mark outs cut with
  | _ n ih =>
    subst hn
    by_cases ha0 : a = 0
    · subst ha0
      rw [Nat.mul_zero, Nat.zero_add] at h
      rw [ha.resolve_left (Nat.lt_irrefl 0)] at h
      exact h.ne_of_mark (by rw [isSyncMarker_zeros hrest, decide_eq_false (by omega)])
    have hturn := @turn_zeros_marker _ _ mark hrest (show 10 ≤ 10 * a + s by omega)
    rcases h.first rfl with ⟨hstop, -⟩ | ⟨out, d', outs', hgo, rfl, hread⟩ |
      ⟨-, outs', cut', rfl, hread⟩
    · rw [hturn] at hstop
      cases hstop
    · rw [hturn] at hgo
      cases hgo
      rw [show 10 * a + s - 10 = 10 * (a - 1) + s by omega] at hread
      exact ih _ (by omega) hs (.inr rfl) hread rfl
    · rw [show (behind (List.replicate (10 * a + s) 0 ++ rest) mark).buffer =
        List.replicate (10 * a + s) 0 ++ rest from rfl, drop_two_zeros (by omega)] at hread
      refine split_ne hrest (by omega) hs hread fun h2 => ?_
      rw [show 10 * a + s - 2 = 10 * a + (s - 2) by omega] at hread
      exact ih _ (by omega) (by omega) (.inl (by omega)) hread rfl

/-- A reading that cuts a marker returns other packets than the run, or leaves another state. -/
theorem Reading.ne_of_cut {d f : SystemViewDecoder} {outs : List Decoded} {cut : Bool}
    (h : Reading d outs f cut) (hcut : cut = true) : (packets outs, f) ≠ result d := by
  induction h with
  | stop => cases hcut
  | go ht _ ih =>
    intro heq
    unfold result at heq
    rw [Pump.run_go (P := pump) ht, packets_append, packets_append] at heq
    obtain ⟨hlist, hf⟩ := Prod.mk.inj heq
    exact ih hcut (Prod.ext (List.append_cancel_left hlist) hf)
  | skip _ ht _ ih =>
    unfold result
    rw [Pump.run_congr (P := pump) ht]
    exact ih hcut
  | @split d f outs cut hs hm hread =>
    obtain ⟨n, rest, hn, hbuf, hrest⟩ := zeros_of_isSyncMarker hm
    obtain ⟨a, s, rfl, hs10⟩ : ∃ a s, n = 10 * a + s ∧ s < 10 :=
      ⟨n / 10, n % 10, by omega, by omega⟩
    rw [hbuf, drop_two_zeros hn, hs] at hread
    have hd : d = behind (List.replicate (10 * a + s) 0 ++ rest) d.markNextSyncBoundary := by
      rw [← hbuf]
      exact eq_behind hs
    have hres : result d = result (behind (List.replicate s 0 ++ rest) true) := by
      rw [hd]
      unfold result
      obtain ⟨b, rfl⟩ : ∃ b, a = b + 1 := ⟨a - 1, by omega⟩
      rw [Pump.run_go (P := pump) (turn_zeros_marker hrest hn),
        show 10 * (b + 1) + s - 10 = 10 * b + s by omega, run_markers hrest]
      rfl
    rw [hres]
    refine split_ne hrest (by omega) hs10 hread fun h2 => ?_
    rw [show 10 * a + s - 2 = 10 * a + (s - 2) by omega] at hread
    exact Reading.ne_behind_nop hrest (by omega) (.inl (by omega)) hread

/-! ## The theorem -/

/-- **Chunks do not matter** exactly if no turn takes a packet off a marker that a later chunk
completes. -/
theorem pushAll_eq_push_iff (chunks : List (List UInt8))
    (h : chunks.flatten.length < MAX_DECODER_BUFFER) :
    ({} : SystemViewDecoder).pushAll chunks = ({} : SystemViewDecoder).push chunks.flatten ↔
      pump.EachTurn (fun d more => ¬d.SplitsMarker more) {} chunks := by
  have hlen : ({} : SystemViewDecoder).buffer.length + chunks.flatten.length <
      MAX_DECODER_BUFFER := by
    rw [show ({} : SystemViewDecoder).buffer.length = 0 from rfl]
    omega
  obtain ⟨cut, hread, hcut⟩ := reading_pump (d := {}) (turn_empty rfl) chunks
  rw [pushAll_eq hlen, push_eq hlen]
  show _ ↔ pump.EachTurn Whole {} chunks
  rw [← hcut]
  constructor
  · intro heq
    by_contra hne
    refine hread.ne_of_cut (by simpa using hne) ?_
    obtain ⟨hout, hf⟩ := Prod.mk.inj heq
    exact Prod.ext (Prod.mk.inj hout).1 hf
  · intro huncut
    rw [hread.run_of_uncut huncut]

/-- Two zeros that are the beginning of a marker, read before the rest has come. -/
theorem split_marker_differs :
    let chunks : List (List UInt8) :=
      [[0, 0, 0, 0, 0, 0, 0, 0, 0, 0], [0, 0], [0, 0, 0, 0, 0, 0, 0, 0]]
    (({} : SystemViewDecoder).pushAll chunks).1.1.length = 5 ∧
      (({} : SystemViewDecoder).push chunks.flatten).1.1 = [] := by
  decide

/-- A packet cut in the middle and a marker cut behind its first byte: nothing is taken off it. -/
theorem pushAll_eq_push_small :
    let chunks : List (List UInt8) :=
      [[0, 0, 0, 0, 0, 0, 0, 0, 0, 0, 4], [5, 8, 0], [0, 0, 0, 0, 0, 0, 0, 0, 0]]
    (({} : SystemViewDecoder).push chunks.flatten).1.1 ≠ [] ∧
      pump.EachTurn (fun d more => ¬d.SplitsMarker more) {} chunks :=
  ⟨by decide, (pushAll_eq_push_iff _ (by decide)).mp (by decide)⟩

end SystemViewDecoder

end TauTerm.Rtt
