import Mathlib
import TauTerm.Rtt.Decoder

/-!
# The decoder and the cutting of its input

The decoders of packets are stable, so more input can only complete a packet. The
turn of a synchronized decoder is not: a buffer of two to nine zeros is a row of
NOP packets unless the bytes to come make it a marker. That is the one way in
which the result of `push` depends on how the stream was cut.
-/

namespace TauTerm.Rtt

open Lib

/-! ## Stability -/

theorem decodeVarintFrom_bounds {index : Nat} {value v : UInt32} {data : List UInt8} {n : Nat}
    (h : decodeVarintFrom index value data = some (v, n)) :
    index < n ∧ n ≤ index + data.length := by
  induction data generalizing index value with
  | nil => cases h
  | cons byte data ih =>
    rw [decodeVarintFrom] at h
    rw [List.length_cons]
    split_ifs at h with hb
    · cases h
      omega
    · have := ih h
      omega

theorem decodeVarintFrom_append {index : Nat} {value : UInt32} {data : List UInt8}
    {r : UInt32 × Nat} (more : List UInt8) (h : decodeVarintFrom index value data = some r) :
    decodeVarintFrom index value (data ++ more) = some r := by
  induction data generalizing index value with
  | nil => cases h
  | cons byte data ih =>
    rw [List.cons_append]
    rw [decodeVarintFrom] at h ⊢
    split_ifs at h ⊢ with hb
    · exact h
    · exact ih h

theorem decodeVarint_pos {data : List UInt8} {v : UInt32} {n : Nat}
    (h : decodeVarint data = .ok (some (v, n))) : 0 < n := by
  rw [decodeVarint] at h
  split at h
  · rename_i r hr
    cases h
    exact (decodeVarintFrom_bounds hr).1
  · split_ifs at h
    cases h

theorem stable_decodeVarint : decodeVarint.Stable where
  le {data v n} h := by
    rw [decodeVarint] at h
    split at h
    · rename_i r hr
      cases h
      have := (decodeVarintFrom_bounds hr).2
      rw [List.length_take] at this
      omega
    · split_ifs at h
      cases h
  some {data r} more h := by
    rw [decodeVarint] at h ⊢
    split at h
    · rename_i r hr
      cases h
      rw [List.take_append, decodeVarintFrom_append _ hr]
    · split_ifs at h
      cases h
  error {data e} more h := by
    rw [decodeVarint] at h ⊢
    split at h
    · cases h
    · rename_i hr
      split_ifs at h with hl
      cases h
      rw [List.take_append_of_le_length (by omega), hr]
      dsimp only
      rw [if_neg (by rw [List.length_append]; omega)]

theorem stringLength_append {data : List UInt8} {r : Nat × Nat} (more : List UInt8)
    (h : stringLength data = some r) : stringLength (data ++ more) = some r := by
  rcases data with _ | ⟨first, _ | ⟨high, _ | ⟨low, data⟩⟩⟩
  · cases h
  all_goals
    unfold stringLength at h ⊢
    simp only [List.cons_append, List.nil_append] at h ⊢
    split_ifs at h ⊢ with h255
    all_goals exact h

theorem stable_decodeString : decodeString.Stable where
  le {data v n} h := by
    rw [decodeString] at h
    split at h
    · cases h
    · split_ifs at h with hl
      · cases h
      · cases h
        omega
  some {data r} more h := by
    rw [decodeString] at h ⊢
    split at h
    · cases h
    · rename_i hlen
      split_ifs at h with hl
      · cases h
      cases h
      rw [stringLength_append more hlen]
      dsimp only
      rw [if_neg (by rw [List.length_append]; omega),
        List.drop_append_of_le_length (by omega), List.take_append_of_le_length
          (by rw [List.length_drop]; omega)]
  error {data e} more h := by
    rw [decodeString] at h
    split at h
    · cases h
    · split_ifs at h

theorem stable_decodeText (eventId : UInt32) : (decodeText eventId).Stable :=
  .ite (((stable_decodeVarint).replicate 2).bind fun _ => stable_decodeString.bind fun _ =>
      Decoder.stable_pure _)
    (.ite (stable_decodeString.bind fun _ => Decoder.stable_pure _) (Decoder.stable_pure _))

theorem stable_decodeStandardPacket (eventId : UInt32) :
    (decodeStandardPacket eventId).Stable := by
  unfold decodeStandardPacket
  split
  · exact Decoder.stable_fail ()
  · refine ((stable_decodeVarint).replicate _).bind fun fields => ?_
    refine (stable_decodeText eventId).bind fun more => ?_
    exact (stable_decodeVarint).bind fun deltaCycles => Decoder.stable_pure _

theorem stable_decodePacket : decodePacket.Stable := by
  refine (stable_decodeVarint).bind fun eventId => .ite (stable_decodeStandardPacket eventId) ?_
  refine (stable_decodeVarint).bind fun payloadLen => .ite (Decoder.stable_fail ()) ?_
  refine (Decoder.stable_take _).bind fun payload => ?_
  exact (stable_decodeVarint).bind fun deltaCycles => Decoder.stable_pure _

theorem decodePacket_pos {data : List UInt8} {p : ParsedPacket} {n : Nat}
    (h : decodePacket data = .ok (some (p, n))) : 0 < n := by
  obtain ⟨eventId, k, m, hid, -, rfl⟩ := Decoder.bind_eq_some.mp h
  have := decodeVarint_pos hid
  omega

/-! ## Markers -/

theorem isSyncMarker_iff {window : List UInt8} : isSyncMarker window = true ↔
    window = List.replicate 10 0 := by
  unfold isSyncMarker
  rw [List.eq_replicate_iff]
  simp

theorem isSyncMarker_length {window : List UInt8} (h : isSyncMarker window = true) :
    window.length = 10 := by
  rw [isSyncMarker_iff.mp h, List.length_replicate]

theorem isSyncMarker_take_append {data : List UInt8} (more : List UInt8)
    (h : isSyncMarker (data.take 10) = true) : isSyncMarker ((data ++ more).take 10) = true := by
  have hlen := isSyncMarker_length h
  rw [List.length_take] at hlen
  rwa [List.take_append_of_le_length (by omega)]

theorem isSyncMarker_take_of_le {data more : List UInt8} (hlen : 10 ≤ data.length)
    (h : isSyncMarker ((data ++ more).take 10) = true) : isSyncMarker (data.take 10) = true := by
  rwa [List.take_append_of_le_length hlen] at h

theorem zeros_of_marker {data more : List UInt8} (hlen : data.length ≤ 10)
    (h : isSyncMarker ((data ++ more).take 10) = true) : ∀ b ∈ data, b = 0 := by
  intro b hb
  rw [isSyncMarker_iff, List.take_append, List.take_of_length_le hlen] at h
  exact List.eq_of_mem_replicate (h ▸ List.mem_append_left _ hb)

theorem findSyncMarker_le {data : List UInt8} {k : Nat} (h : findSyncMarker data = some k) :
    k + 10 ≤ data.length := by
  induction data generalizing k with
  | nil => cases h
  | cons byte data ih =>
    rw [findSyncMarker] at h
    rw [List.length_cons]
    split_ifs at h with hm
    · cases h
      have hlen := isSyncMarker_length hm
      rw [List.length_take, List.length_cons] at hlen
      omega
    · obtain ⟨j, hj, rfl⟩ := Option.map_eq_some_iff.mp h
      have := ih hj
      omega

theorem findSyncMarker_append {data : List UInt8} {k : Nat} (more : List UInt8)
    (h : findSyncMarker data = some k) : findSyncMarker (data ++ more) = some k := by
  induction data generalizing k with
  | nil => cases h
  | cons byte data ih =>
    rw [findSyncMarker] at h
    rw [List.cons_append]
    rw [findSyncMarker]
    split_ifs at h with hm
    · rw [← List.cons_append, if_pos (isSyncMarker_take_append more hm)]
      exact h
    · obtain ⟨j, hj, rfl⟩ := Option.map_eq_some_iff.mp h
      rw [if_neg, ih hj]
      · rfl
      · intro hm'
        refine hm (@isSyncMarker_take_of_le (byte :: data) _ ?_ hm')
        have := findSyncMarker_le hj
        rw [List.length_cons]
        omega

/-- The bytes that an unsynchronized decoder keeps. -/
def splitSuffix (data : List UInt8) : List UInt8 :=
  data.drop (data.length - min (trailingZeros data) 9)

theorem splitSuffix_eq (data : List UInt8) :
    splitSuffix data = data.drop (data.length - min (trailingZeros data) 9) := rfl

theorem trailingZeros_le (data : List UInt8) : trailingZeros data ≤ data.length := by
  rw [trailingZeros]
  have := (List.takeWhile_prefix (l := data.reverse) (· == 0)).length_le
  rwa [List.length_reverse] at this

theorem trailingZeros_cons {byte : UInt8} {data : List UInt8} (h : ∃ b ∈ byte :: data, b ≠ 0) :
    trailingZeros (byte :: data) = trailingZeros data := by
  rw [trailingZeros, trailingZeros, List.reverse_cons]
  by_cases hd : ∀ b ∈ data, b = 0
  · have hb : byte ≠ 0 := by
      obtain ⟨b, hb, hne⟩ := h
      rcases List.mem_cons.mp hb with rfl | hb
      · exact hne
      · exact absurd (hd b hb) hne
    rw [List.takeWhile_append_of_pos (by simpa using hd), List.takeWhile_cons_of_neg (by simpa using hb),
      List.append_nil, List.takeWhile_eq_self_iff.mpr (by simpa using hd)]
  · rw [List.takeWhile_append, if_neg]
    intro hlen
    have heq := (List.takeWhile_prefix (l := data.reverse) (· == 0)).eq_of_length hlen
    exact hd (by simpa using List.takeWhile_eq_self_iff.mp heq)

theorem trailingZeros_zeros {data : List UInt8} (h : ∀ b ∈ data, b = 0) :
    trailingZeros data = data.length := by
  rw [trailingZeros]
  rw [List.takeWhile_eq_self_iff.mpr (by simpa using h), List.length_reverse]

theorem splitSuffix_cons {byte : UInt8} {data : List UInt8} (h : ∃ b ∈ byte :: data, b ≠ 0) :
    splitSuffix (byte :: data) = splitSuffix data := by
  have := trailingZeros_le data
  rw [splitSuffix_eq, splitSuffix_eq, trailingZeros_cons h, List.length_cons, show data.length + 1 - min (trailingZeros data) 9 =
    data.length - min (trailingZeros data) 9 + 1 by omega, List.drop_succ_cons]

/-- Without a nonzero byte and without a marker there are at most nine bytes. -/
theorem length_of_findSyncMarker_none {data : List UInt8} (hz : ∀ b ∈ data, b = 0)
    (h : findSyncMarker data = none) : data.length ≤ 9 := by
  by_contra hlen
  cases data with
  | nil => exact hlen (Nat.zero_le _)
  | cons byte data =>
    rw [findSyncMarker] at h
    rw [if_pos] at h
    · cases h
    · rw [List.eq_replicate_of_mem hz, isSyncMarker_iff, List.take_replicate, min_eq_left (by omega)]

theorem splitSuffix_zeros {data : List UInt8} (hz : ∀ b ∈ data, b = 0) (h : data.length ≤ 9) :
    splitSuffix data = data := by
  rw [splitSuffix_eq, trailingZeros_zeros hz, min_eq_left h, Nat.sub_self, List.drop_zero]

namespace SystemViewDecoder

variable {d : SystemViewDecoder}

/-! ## The turns -/

theorem turn_empty (h : d.buffer = []) : d.turn = .stop d := by
  rw [turn]
  rw [h]
  rfl

theorem turn_found (hs : d.synchronized = false) {k : Nat}
    (h : findSyncMarker d.buffer = some k) :
    d.turn = .go [] { buffer := d.buffer.drop (k + 10), synchronized := true,
                      markNextSyncBoundary := true } := by
  rw [turn]
  cases hb : d.buffer with
  | nil => rw [hb] at h; cases h
  | cons byte data => rw [hb] at h; simp [hs, h]

theorem turn_lost (hs : d.synchronized = false) (h : findSyncMarker d.buffer = none) :
    d.turn = .stop { d with buffer := splitSuffix d.buffer } := by
  obtain ⟨buffer, synchronized, mark⟩ := d
  subst hs
  rw [turn]
  cases buffer with
  | nil => rfl
  | cons byte data =>
    dsimp only at h
    simp [h, splitSuffix]

theorem turn_marker (hs : d.synchronized = true) (h : isSyncMarker (d.buffer.take 10) = true) :
    d.turn = .go [] { d with buffer := d.buffer.drop 10, markNextSyncBoundary := true } := by
  have hb : d.buffer ≠ [] := by
    intro hb
    rw [hb] at h
    cases h
  rw [turn]
  rw [if_neg (by simpa using hb), if_neg (by simp [hs]), if_pos h]

theorem turn_decode (hs : d.synchronized = true) (hb : d.buffer ≠ [])
    (h : isSyncMarker (d.buffer.take 10) = false) :
    d.turn =
      match decodePacket d.buffer with
      | .ok (some (packet, consumed)) =>
        .go [.packet { packet with syncBoundary := d.markNextSyncBoundary }]
          { d with buffer := d.buffer.drop consumed, markNextSyncBoundary := false }
      | .ok none => .stop d
      | .error () => .go [.error] { d with buffer := d.buffer.tail } := by
  rw [turn]
  exact (if_neg (by simpa using hb)).trans
    ((if_neg (by simp [hs])).trans ((if_neg (by simp [h])).trans rfl))

/-- In front of the first possible beginning of a marker an unsynchronized decoder skips. -/
theorem turn_skip (hs : d.synchronized = false) {byte : UInt8} {data : List UInt8}
    (hb : d.buffer = byte :: data) (hm : isSyncMarker (d.buffer.take 10) = false)
    (hne : ∃ b ∈ d.buffer, b ≠ 0) : d.turn = ({ d with buffer := data } : SystemViewDecoder).turn := by
  have hfind : findSyncMarker d.buffer = (findSyncMarker data).map (· + 1) := by
    rw [hb] at hm ⊢
    rw [findSyncMarker, hm]
    rfl
  cases hf : findSyncMarker data with
  | none =>
    rw [turn_lost hs (by rw [hfind, hf]; rfl), turn_lost (d := { d with buffer := data }) hs hf, hb,
      splitSuffix_cons (hb ▸ hne)]
  | some k =>
    rw [turn_found hs (by rw [hfind, hf]; rfl), turn_found (d := { d with buffer := data }) hs hf, hb]
    rfl

/-- What an unsynchronized decoder throws away does not matter to its next turn. -/
theorem turn_splitSuffix (hs : d.synchronized = false) (data more : List UInt8)
    (h : findSyncMarker data = none) :
    ({ d with buffer := data ++ more } : SystemViewDecoder).turn =
      ({ d with buffer := splitSuffix data ++ more } : SystemViewDecoder).turn := by
  induction data with
  | nil => rfl
  | cons byte data ih =>
    by_cases hz : ∀ b ∈ byte :: data, b = 0
    · rw [splitSuffix_zeros hz (length_of_findSyncMarker_none hz h)]
    · push Not at hz
      obtain ⟨b, hb, hne⟩ := hz
      rw [findSyncMarker] at h
      split_ifs at h with hm
      have hm' : isSyncMarker (((byte :: data) ++ more).take 10) = false := by
        by_contra hm'
        rw [Bool.not_eq_false] at hm'
        rcases Nat.le_total 10 (byte :: data).length with hlen | hlen
        · exact hm (isSyncMarker_take_of_le hlen hm')
        · exact hne (zeros_of_marker hlen hm' b hb)
      rw [splitSuffix_cons ⟨b, hb, hne⟩, turn_skip (d := { d with buffer := byte :: data ++ more })
        hs (List.cons_append ..) hm' ⟨b, List.mem_append_left _ hb, hne⟩]
      exact ih (Option.map_eq_none_iff.mp h)

theorem turn_go_lt {d d' : SystemViewDecoder} {out : List Decoded} (h : d.turn = .go out d') :
    d'.buffer.length < d.buffer.length := by
  by_cases hb : d.buffer = []
  · rw [turn_empty hb] at h
    cases h
  have hpos := List.length_pos_iff.mpr hb
  cases hs : d.synchronized with
  | false =>
    cases hf : findSyncMarker d.buffer with
    | none => rw [turn_lost hs hf] at h; cases h
    | some k =>
      rw [turn_found hs hf] at h
      cases h
      rw [List.length_drop]
      omega
  | true =>
    cases hm : isSyncMarker (d.buffer.take 10) with
    | true =>
      rw [turn_marker hs hm] at h
      cases h
      rw [List.length_drop]
      omega
    | false =>
      rw [turn_decode hs hb hm] at h
      split at h
      · rename_i packet consumed hp
        cases h
        have := decodePacket_pos hp
        rw [List.length_drop]
        omega
      · cases h
      · cases h
        rw [List.length_tail]
        omega

theorem turn_stop_stop {d d' : SystemViewDecoder} (h : d.turn = .stop d') : d'.turn = .stop d' := by
  by_cases hb : d.buffer = []
  · rw [turn_empty hb] at h
    cases h
    exact turn_empty hb
  cases hs : d.synchronized with
  | false =>
    cases hf : findSyncMarker d.buffer with
    | none =>
      have hskip := turn_splitSuffix hs d.buffer [] hf
      rw [turn_lost hs hf] at h
      cases h
      rw [List.append_nil, List.append_nil] at hskip
      rw [← hskip]
      exact turn_lost hs hf
    | some k => rw [turn_found hs hf] at h; cases h
  | true =>
    cases hm : isSyncMarker (d.buffer.take 10) with
    | true => rw [turn_marker hs hm] at h; cases h
    | false =>
      rw [turn_decode hs hb hm] at h
      split at h
      · cases h
      · rename_i hp
        cases h
        rw [turn_decode hs hb hm, hp]
      · cases h

/-- The loop of `push`. -/
def pump : Pump SystemViewDecoder UInt8 Decoded where
  turn := turn
  feed := feed
  size d := d.buffer.length
  go_lt := turn_go_lt
  stop_stop := turn_stop_stop
  feed_nil d := by simp [feed]
  feed_append d xs ys := by simp [feed]

/-! ## Markers that are cut -/

/-- The decoder is about to take the zeros in its buffer for packets, although with the input to
come they are the beginning of a marker. -/
def SplitsMarker (d : SystemViewDecoder) (more : List UInt8) : Prop :=
  d.synchronized = true ∧ 2 ≤ d.buffer.length ∧ d.buffer.length < 10 ∧
    isSyncMarker ((d.buffer ++ more).take 10) = true

instance (d : SystemViewDecoder) (more : List UInt8) : Decidable (d.SplitsMarker more) :=
  inferInstanceAs (Decidable (_ ∧ _ ∧ _ ∧ _))

def nop : ParsedPacket := { eventId := 0 }

theorem decodePacket_zeros (data : List UInt8) : decodePacket (0 :: 0 :: data) = .ok (some (nop, 2)) :=
  @stable_decodePacket.some [0, 0] _ data (by decide)

theorem decodePacket_zero : decodePacket [0] = .ok none := by decide

/-- Only a synchronized decoder in front of a marker that is cut reads packets off the marker. -/
theorem splitsMarker_of_decode {more : List UInt8} (hs : d.synchronized = true)
    (hb : d.buffer ≠ []) (hm : isSyncMarker (d.buffer.take 10) = false)
    (hmore : isSyncMarker ((d.buffer ++ more).take 10) = true)
    (hdec : decodePacket d.buffer ≠ .ok none) : d.SplitsMarker more := by
  have hlen : d.buffer.length < 10 := by
    by_contra hlen
    rw [isSyncMarker_take_of_le (Nat.le_of_not_lt hlen) hmore] at hm
    cases hm
  have hz := zeros_of_marker (Nat.le_of_lt hlen) hmore
  refine ⟨hs, ?_, hlen, hmore⟩
  by_contra h2
  apply hdec
  have hone : d.buffer.length = 1 := by
    have := List.length_pos_iff.mpr hb
    omega
  rw [List.eq_replicate_of_mem hz, hone]
  exact decodePacket_zero

theorem firm_of_not_splitsMarker {more : List UInt8} (h : ¬d.SplitsMarker more) :
    pump.Firm d more := by
  by_cases hb : d.buffer = []
  · exact (Pump.firm_stop (P := pump) (turn_empty hb)).mpr rfl
  cases hs : d.synchronized with
  | false =>
    cases hf : findSyncMarker d.buffer with
    | none =>
      refine (Pump.firm_stop (P := pump) (turn_lost hs hf)).mpr ?_
      exact Pump.run_congr (turn_splitSuffix hs d.buffer more hf)
    | some k =>
      have hle := findSyncMarker_le hf
      refine (Pump.firm_go (P := pump) (turn_found hs hf)).mpr ?_
      show (d.feed more).turn = _
      rw [turn_found (d := d.feed more) hs (findSyncMarker_append more hf), feed_buffer,
        List.drop_append_of_le_length hle]
      rfl
  | true =>
    cases hm : isSyncMarker (d.buffer.take 10) with
    | true =>
      have hlen := isSyncMarker_length hm
      rw [List.length_take] at hlen
      refine (Pump.firm_go (P := pump) (turn_marker hs hm)).mpr ?_
      show (d.feed more).turn = _
      rw [turn_marker (d := d.feed more) hs (isSyncMarker_take_append more hm), feed_buffer,
        List.drop_append_of_le_length (by omega)]
      rfl
    | false =>
      have hm' : decodePacket d.buffer ≠ .ok none →
          isSyncMarker ((d.feed more).buffer.take 10) = false := by
        intro hdec
        by_contra hmore
        exact h (splitsMarker_of_decode hs hb hm (by simpa using hmore) hdec)
      have hturn := turn_decode hs hb hm
      have hfed := turn_decode (d := d.feed more) hs (by simp [hb])
      cases hp : decodePacket d.buffer with
      | error e =>
        rw [hp] at hturn hm'
        refine (Pump.firm_go (P := pump) hturn).mpr ((hfed (hm' nofun)).trans ?_)
        rw [feed_buffer, stable_decodePacket.error more hp]
        dsimp only
        rw [List.tail_append_of_ne_nil hb]
        rfl
      | ok r =>
        cases r with
        | none =>
          rw [hp] at hturn
          exact (Pump.firm_stop (P := pump) hturn).mpr rfl
        | some r =>
          rw [hp] at hturn hm'
          refine (Pump.firm_go (P := pump) hturn).mpr ((hfed (hm' nofun)).trans ?_)
          rw [feed_buffer, stable_decodePacket.some more hp]
          dsimp only
          rw [List.drop_append_of_le_length (stable_decodePacket.le hp)]
          rfl

/-- A turn that stops loses nothing that the input to come could need. -/
theorem turn_stop_cases {d' : SystemViewDecoder} (h : d.turn = .stop d') :
    d' = d ∨ (d.synchronized = false ∧ d'.synchronized = false ∧
      ∀ more, (d.feed more).turn = (d'.feed more).turn) := by
  by_cases hb : d.buffer = []
  · rw [turn_empty hb] at h
    cases h
    exact .inl rfl
  cases hs : d.synchronized with
  | false =>
    cases hf : findSyncMarker d.buffer with
    | none =>
      rw [turn_lost hs hf] at h
      cases h
      exact .inr ⟨rfl, hs, fun more => turn_splitSuffix hs d.buffer more hf⟩
    | some k => rw [turn_found hs hf] at h; cases h
  | true =>
    cases hm : isSyncMarker (d.buffer.take 10) with
    | true => rw [turn_marker hs hm] at h; cases h
    | false =>
      rw [turn_decode hs hb hm] at h
      split at h
      · cases h
      · cases h
        exact .inl rfl
      · cases h

/-- At a marker that is cut the decoder takes a NOP packet. -/
theorem turn_splitsMarker {more : List UInt8} (h : d.SplitsMarker more) :
    d.turn = .go [.packet { nop with syncBoundary := d.markNextSyncBoundary }]
      { d with buffer := d.buffer.drop 2, markNextSyncBoundary := false } := by
  obtain ⟨hs, h2, h10, hmore⟩ := h
  have hz := zeros_of_marker (Nat.le_of_lt h10) hmore
  have hb : d.buffer = 0 :: 0 :: List.replicate (d.buffer.length - 2) 0 := by
    conv_lhs => rw [List.eq_replicate_of_mem hz]
    rw [← List.replicate_succ, ← List.replicate_succ]
    congr 1
    omega
  have hm : isSyncMarker (d.buffer.take 10) = false := by
    by_contra hm
    have hlen := isSyncMarker_length (Bool.not_eq_false _ ▸ hm)
    rw [List.length_take] at hlen
    omega
  have hp : decodePacket d.buffer = .ok (some (nop, 2)) := by
    rw [hb]
    exact decodePacket_zeros _
  rw [turn_decode hs (by rw [hb]; nofun) hm, hp]

end SystemViewDecoder

end TauTerm.Rtt
