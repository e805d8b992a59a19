import Mathlib
import TauTerm.Lib.Replay
import TauTerm.Rtt.Cutting

/-!
# Where packets begin

The stream is cut into what each turn of `push` took off the buffer: markers, packets and bytes
that were thrown away. A packet stands where the code knows a packet to begin if a marker or
another packet is directly in front of it. Behind an error `push` throws one byte away and goes on
decoding, so that the next packet begins at a guess.
-/

namespace TauTerm.Rtt

open Lib

/-- A stretch of the stream. -/
inductive Piece where
  | marker
  | packet (packet : ParsedPacket) (bytes : List UInt8)
  | dropped (bytes : List UInt8)
  deriving DecidableEq

namespace Piece

def bytes : Piece → List UInt8
  | marker => List.replicate 10 0
  | packet _ bytes | dropped bytes => bytes

/-- Behind a marker or a packet a packet may begin. -/
def isBoundary : Piece → Bool
  | marker | packet _ _ => true
  | dropped _ => false

def toPacket? : Piece → Option ParsedPacket
  | packet p _ => some p
  | _ => none

end Piece

/-- What is thrown away, if it is anything at all. -/
def drops (bytes : List UInt8) : List Piece := if bytes = [] then [] else [.dropped bytes]

def bytesOf (ps : List Piece) : List UInt8 := ps.flatMap Piece.bytes

def packetsOf (ps : List Piece) : List ParsedPacket := ps.filterMap Piece.toPacket?

/-- The stream is at a boundary. -/
def AtBoundary (ps : List Piece) : Prop := ps.getLast?.any Piece.isBoundary = true

/-- Every packet begins at a boundary. -/
def Anchored (ps : List Piece) : Prop :=
  ∀ before p bytes behind, ps = before ++ Piece.packet p bytes :: behind → AtBoundary before

@[simp] theorem bytesOf_append (ps qs : List Piece) : bytesOf (ps ++ qs) = bytesOf ps ++ bytesOf qs :=
  List.flatMap_append

@[simp] theorem packetsOf_append (ps qs : List Piece) :
    packetsOf (ps ++ qs) = packetsOf ps ++ packetsOf qs :=
  List.filterMap_append

theorem bytesOf_drops (bytes : List UInt8) : bytesOf (drops bytes) = bytes := by
  unfold drops
  split_ifs with h
  · exact h.symm
  · simp [bytesOf, Piece.bytes]

theorem packetsOf_drops (bytes : List UInt8) : packetsOf (drops bytes) = [] := by
  unfold drops
  split_ifs <;> rfl

section Anchored

variable {ps : List Piece}

theorem anchored_nil : Anchored [] := fun before p bytes behind h => by simp at h

/-- Another piece: if it is a packet, the stream is at a boundary in front of it. -/
theorem Anchored.concat (h : Anchored ps) {piece : Piece}
    (hpiece : piece.toPacket?.isSome → AtBoundary ps) : Anchored (ps ++ [piece]) := by
  intro before p bytes behind heq
  rcases List.eq_nil_or_concat behind with rfl | ⟨behind', last, rfl⟩
  · obtain ⟨rfl, hlast⟩ := List.append_inj' heq rfl
    obtain rfl := (List.cons.inj hlast).1
    exact hpiece rfl
  · rw [List.concat_eq_append, ← List.cons_append, ← List.append_assoc] at heq
    obtain ⟨rfl, -⟩ := List.append_inj' heq rfl
    exact h before p bytes behind' rfl

theorem Anchored.drops (h : Anchored ps) (bytes : List UInt8) : Anchored (ps ++ drops bytes) := by
  unfold Rtt.drops
  split_ifs
  · rwa [List.append_nil]
  · exact h.concat nofun

theorem atBoundary_concat (piece : Piece) : AtBoundary (ps ++ [piece]) ↔ piece.isBoundary = true := by
  simp [AtBoundary]

/-- What is thrown away and a later packet have a marker between them. -/
theorem Anchored.marker_between {before between behind : List Piece} {bytes bytes' : List UInt8}
    {p : ParsedPacket} (h : Anchored ps)
    (heq : ps = before ++ .dropped bytes :: (between ++ .packet p bytes' :: behind)) :
    Piece.marker ∈ between := by
  induction between using List.reverseRecOn generalizing p bytes' behind with
  | nil =>
    have hboundary := h (before ++ [.dropped bytes]) p bytes' behind (by rw [heq]; simp)
    rw [atBoundary_concat] at hboundary
    cases hboundary
  | append_singleton between piece ih =>
    cases piece with
    | marker => exact List.mem_append_right _ (List.mem_singleton_self _)
    | packet q bytes'' =>
      exact List.mem_append_left _ (@ih (.packet p bytes' :: behind) bytes'' q (by rw [heq]; simp))
    | dropped bytes'' =>
      have hboundary := h (before ++ .dropped bytes :: (between ++ [.dropped bytes''])) p bytes'
        behind (by rw [heq]; simp)
      rw [← List.cons_append, ← List.append_assoc, atBoundary_concat] at hboundary
      cases hboundary

end Anchored

/-! ## What the turns take -/

theorem isSyncMarker_findSyncMarker {data : List UInt8} {k : Nat}
    (h : findSyncMarker data = some k) : isSyncMarker ((data.drop k).take 10) = true := by
  induction data generalizing k with
  | nil => cases h
  | cons byte data ih =>
    unfold findSyncMarker at h
    split_ifs at h with hm
    · cases h
      exact hm
    · obtain ⟨k', hk', rfl⟩ := Option.map_eq_some_iff.mp h
      exact ih hk'

theorem marker_append_drop {data : List UInt8} (h : isSyncMarker (data.take 10) = true) :
    data = List.replicate 10 0 ++ data.drop 10 := by
  conv_lhs => rw [← List.take_append_drop 10 data, isSyncMarker_iff.mp h]

namespace SystemViewDecoder

variable {d d' : SystemViewDecoder}

/-- What a turn takes off the buffer. -/
def taken (d : SystemViewDecoder) : List Piece :=
  if d.buffer.isEmpty then []
  else if !d.synchronized then
    match findSyncMarker d.buffer with
    | some syncOffset => drops (d.buffer.take syncOffset) ++ [.marker]
    | none => drops (d.buffer.take (d.buffer.length - min (trailingZeros d.buffer) 9))
  else if isSyncMarker (d.buffer.take 10) then [.marker]
  else
    match decodePacket d.buffer with
    | .ok (some (packet, consumed)) =>
      [.packet { packet with syncBoundary := d.markNextSyncBoundary } (d.buffer.take consumed)]
    | .ok none => []
    | .error () => drops (d.buffer.take 1)

theorem taken_empty (h : d.buffer = []) : d.taken = [] := by
  unfold taken
  exact if_pos (by rw [h]; rfl)

theorem ne_nil_of_findSyncMarker {k : Nat} (h : findSyncMarker d.buffer = some k) :
    d.buffer ≠ [] := by
  intro hb
  rw [hb] at h
  cases h

theorem taken_found (hs : d.synchronized = false) {k : Nat} (h : findSyncMarker d.buffer = some k) :
    d.taken = drops (d.buffer.take k) ++ [.marker] := by
  have hb := ne_nil_of_findSyncMarker h
  unfold taken
  rw [if_neg (by simpa using hb), if_pos (by simp [hs]), h]

theorem taken_lost (hs : d.synchronized = false) (hb : d.buffer ≠ [])
    (h : findSyncMarker d.buffer = none) :
    d.taken = drops (d.buffer.take (d.buffer.length - min (trailingZeros d.buffer) 9)) := by
  unfold taken
  rw [if_neg (by simpa using hb), if_pos (by simp [hs]), h]

theorem taken_marker (hs : d.synchronized = true) (h : isSyncMarker (d.buffer.take 10) = true) :
    d.taken = [.marker] := by
  have hb : d.buffer ≠ [] := by
    intro hb
    rw [hb] at h
    cases h
  unfold taken
  rw [if_neg (by simpa using hb), if_neg (by simp [hs]), if_pos h]

theorem taken_decode (hs : d.synchronized = true) (hb : d.buffer ≠ [])
    (h : isSyncMarker (d.buffer.take 10) = false) :
    d.taken =
      match decodePacket d.buffer with
      | .ok (some (packet, consumed)) =>
        [.packet { packet with syncBoundary := d.markNextSyncBoundary } (d.buffer.take consumed)]
      | .ok none => []
      | .error () => drops (d.buffer.take 1) := by
  unfold taken
  exact (if_neg (by simpa using hb)).trans
    ((if_neg (by simp [hs])).trans ((if_neg (by simp [h])).trans rfl))

/-- What a turn can do, and what it takes. -/
inductive Turn (d : SystemViewDecoder) : PumpTurn SystemViewDecoder Decoded → List Piece → Prop
  | empty : d.buffer = [] → Turn d (.stop d) []
  | wait : d.synchronized = true → isSyncMarker (d.buffer.take 10) = false →
      decodePacket d.buffer = .ok none → Turn d (.stop d) []
  | lost (n : Nat) : d.synchronized = false → d.buffer.length ≤ n + 9 →
      Turn d (.stop { d with buffer := d.buffer.drop n }) (drops (d.buffer.take n))
  | found (n : Nat) : d.synchronized = false → isSyncMarker ((d.buffer.drop n).take 10) = true →
      Turn d (.go [] ⟨d.buffer.drop (n + 10), true, true⟩) (drops (d.buffer.take n) ++ [.marker])
  | marker : d.synchronized = true → isSyncMarker (d.buffer.take 10) = true →
      Turn d (.go [] { d with buffer := d.buffer.drop 10, markNextSyncBoundary := true }) [.marker]
  | packet (p : ParsedPacket) (n : Nat) : d.synchronized = true →
      Turn d (.go [.packet p] { d with buffer := d.buffer.drop n, markNextSyncBoundary := false })
        [.packet p (d.buffer.take n)]
  | error : d.synchronized = true → isSyncMarker (d.buffer.take 10) = false →
      decodePacket d.buffer = .error () →
      Turn d (.go [.error] { d with buffer := d.buffer.tail }) (drops (d.buffer.take 1))

theorem turn_taken (d : SystemViewDecoder) : Turn d d.turn d.taken := by
  by_cases hb : d.buffer = []
  · rw [turn_empty hb, taken_empty hb]
    exact .empty hb
  cases hs : d.synchronized with
  | false =>
    cases hf : findSyncMarker d.buffer with
    | some k =>
      rw [turn_found hs hf, taken_found hs hf]
      exact .found k hs (isSyncMarker_findSyncMarker hf)
    | none =>
      rw [turn_lost hs hf, taken_lost hs hb hf]
      exact .lost _ hs (by omega)
  | true =>
    cases hm : isSyncMarker (d.buffer.take 10) with
    | true =>
      rw [turn_marker hs hm, taken_marker hs hm]
      exact .marker hs hm
    | false =>
      rw [turn_decode hs hb hm, taken_decode hs hb hm]
      cases hdec : decodePacket d.buffer with
      | error e => exact .error hs hm hdec
      | ok r =>
        cases r with
        | none => exact .wait hs hm hdec
        | some r =>
          exact .packet { r.1 with syncBoundary := d.markNextSyncBoundary } r.2 hs

/-! ## The loop -/

/-- The decoder and the pieces it was fed with so far, as the stream `bytes`. -/
structure Tiled (bytes : List UInt8) (outs : List Decoded) (ps : List Piece)
    (d : SystemViewDecoder) : Prop where
  bytes : bytesOf ps ++ d.buffer = bytes
  packets : packetsOf ps = packets outs

theorem Turn.tiled {bytes : List UInt8} {outs : List Decoded} {ps qs : List Piece}
    {r : PumpTurn SystemViewDecoder Decoded} (ht : Turn d r qs) (h : Tiled bytes outs ps d) :
    match r with
    | .stop d' => Tiled bytes outs (ps ++ qs) d'
    | .go out d' => Tiled bytes (outs ++ out) (ps ++ qs) d' := by
  obtain ⟨hbytes, hpackets⟩ := h
  cases ht with
  | empty _ | wait _ _ _ =>
    rw [List.append_nil]
    exact ⟨hbytes, hpackets⟩
  | lost n _ _ =>
    refine ⟨?_, ?_⟩
    · rw [bytesOf_append, bytesOf_drops, List.append_assoc, List.take_append_drop, hbytes]
    · rw [packetsOf_append, packetsOf_drops, List.append_nil, hpackets]
  | found n _ hm =>
    refine ⟨?_, ?_⟩
    · have hmarker := marker_append_drop hm
      rw [List.drop_drop] at hmarker
      rw [bytesOf_append, bytesOf_append, bytesOf_drops, ← hbytes, List.append_assoc,
        List.append_assoc]
      conv_rhs => rw [← List.take_append_drop n d.buffer, hmarker]
      rfl
    · rw [packetsOf_append, packetsOf_append, packetsOf_drops, hpackets, packets_append]
      rfl
  | marker _ hm =>
    refine ⟨?_, ?_⟩
    · rw [bytesOf_append, ← hbytes, List.append_assoc]
      conv_rhs => rw [marker_append_drop hm]
      rfl
    · rw [packetsOf_append, hpackets, packets_append]
      rfl
  | packet p n _ =>
    refine ⟨?_, ?_⟩
    · rw [bytesOf_append, ← hbytes, List.append_assoc]
      conv_rhs => rw [← List.take_append_drop n d.buffer]
      simp [bytesOf, Piece.bytes]
    · rw [packetsOf_append, hpackets, packets_append]
      rfl
  | error _ _ _ =>
    refine ⟨?_, ?_⟩
    · rw [bytesOf_append, bytesOf_drops, ← hbytes, List.append_assoc, ← List.drop_one,
        List.take_append_drop]
    · rw [packetsOf_append, packetsOf_drops, hpackets, packets_append]
      rfl

/-- No turn of the loop has to throw bytes of a synchronized stream away: what is in front decodes,
or it is the beginning of something that fits into the buffer. -/
def Decodes (d : SystemViewDecoder) : Prop :=
  d.synchronized = true → isSyncMarker (d.buffer.take 10) = false →
    match decodePacket d.buffer with
    | .ok (some _) => True
    | .ok none => d.buffer.length ≤ MAX_DECODER_BUFFER
    | .error _ => False

/-- The packets so far begin where they should, and so will the next one. -/
structure Located (ps : List Piece) (d : SystemViewDecoder) : Prop where
  anchored : Anchored ps
  boundary : d.synchronized = true → AtBoundary ps

theorem Turn.located {ps qs : List Piece} {r : PumpTurn SystemViewDecoder Decoded}
    (ht : Turn d r qs) (h : Located ps d) (hd : d.Decodes) :
    match r with
    | .stop d' => Located (ps ++ qs) d'
    | .go _ d' => Located (ps ++ qs) d' := by
  cases ht with
  | empty _ | wait _ _ _ => exact (List.append_nil ps).symm ▸ h
  | lost n hs _ => exact ⟨h.anchored.drops _, fun hs' => absurd (hs.symm.trans hs') nofun⟩
  | found n _ _ =>
    rw [← List.append_assoc]
    exact ⟨(h.anchored.drops _).concat nofun, fun _ => (atBoundary_concat _).mpr rfl⟩
  | marker _ _ => exact ⟨h.anchored.concat nofun, fun _ => (atBoundary_concat _).mpr rfl⟩
  | packet p n hs =>
    exact ⟨h.anchored.concat fun _ => h.boundary hs, fun _ => (atBoundary_concat _).mpr rfl⟩
  | error hs hm hdec =>
    have hfalse := hd hs hm
    rw [hdec] at hfalse
    exact hfalse.elim

theorem turn_taken_go {s s' : SystemViewDecoder} {out : List Decoded} (h : pump.turn s = .go out s') :
    Turn s (.go out s') s.taken := by
  rw [← h]
  exact turn_taken s

theorem turn_taken_stop {s s' : SystemViewDecoder} (h : pump.turn s = .stop s') :
    Turn s (.stop s') s.taken := by
  rw [← h]
  exact turn_taken s

theorem Located.run {ps : List Piece} (h : Located ps d) (hd : pump.Throughout Decodes d) :
    Located (ps ++ pump.logged taken d) (pump.run d).2 := by
  refine @Pump.run_logged _ _ _ pump d _ taken Decodes (fun _ ps d => Located ps d) hd ?_ ?_ [] ps h
  · intro outs ps s out s' ht hq hs
    exact (turn_taken_go ht).located hs hq
  · intro outs ps s s' ht hq hs
    exact (turn_taken_stop ht).located hs hq

theorem Tiled.run {bytes : List UInt8} {outs : List Decoded} {ps : List Piece}
    (h : Tiled bytes outs ps d) :
    Tiled bytes (outs ++ (pump.run d).1) (ps ++ pump.logged taken d) (pump.run d).2 := by
  refine Pump.run_logged (Pump.throughout_true d) ?_ ?_ h
  · intro outs ps s out s' ht _ hs
    exact (turn_taken_go ht).tiled hs
  · intro outs ps s s' ht _ hs
    exact (turn_taken_stop ht).tiled hs

theorem Turn.length_le {d' : SystemViewDecoder} {qs : List Piece} (ht : Turn d (.stop d') qs)
    (hd : d.Decodes) : d'.buffer.length ≤ MAX_DECODER_BUFFER := by
  cases ht with
  | empty hb =>
    rw [hb]
    exact Nat.zero_le _
  | wait hs hm hdec =>
    have hle := hd hs hm
    rw [hdec] at hle
    exact hle
  | lost n hs hle =>
    rw [List.length_drop]
    unfold MAX_DECODER_BUFFER
    omega

theorem length_run_le (hd : pump.Throughout Decodes d) :
    (pump.run d).2.buffer.length ≤ MAX_DECODER_BUFFER := by
  induction hd with
  | @stop s s' ht hq =>
    rw [Pump.run_stop ht]
    exact (turn_taken_stop ht).length_le hq
  | go ht _ _ ih =>
    rw [Pump.run_go ht]
    exact ih

end SystemViewDecoder

/-! ## Whole runs -/

inductive Input where
  | push (bytes : List UInt8)
  | resetAfterGap
  deriving DecidableEq

/-- A decoder, the pieces of the stream behind it, what it has returned and what it was given. -/
structure Observed where
  decoder : SystemViewDecoder := {}
  pieces : List Piece := []
  returned : List ParsedPacket := []
  stream : List UInt8 := []
  deriving DecidableEq

namespace Observed

open SystemViewDecoder (pump taken Decodes Located Tiled packets packets_append)

/-- What is thrown away when the buffer has grown too long. -/
def overflow (d : SystemViewDecoder) : List Piece :=
  if MAX_DECODER_BUFFER < d.buffer.length then drops d.buffer else []

def step (o : Observed) : Input → Observed
  | .push bytes =>
    { decoder := (o.decoder.push bytes).2
      pieces := o.pieces ++ pump.logged taken (o.decoder.feed bytes) ++
        overflow (pump.run (o.decoder.feed bytes)).2
      returned := o.returned ++ (o.decoder.push bytes).1.1
      stream := o.stream ++ bytes }
  | .resetAfterGap =>
    { o with
      decoder := SystemViewDecoder.resetAfterGap
      pieces := o.pieces ++ drops o.decoder.buffer }

/-- Nothing has to be thrown away once the stream is synchronized. -/
def Sound (o : Observed) : Input → Prop
  | .push bytes => pump.Throughout Decodes (o.decoder.feed bytes)
  | .resetAfterGap => True

/-- The pieces are all of the stream that has left the buffer, and the packets among them are those
that were returned. -/
structure Cut (o : Observed) : Prop where
  bytes : bytesOf o.pieces ++ o.decoder.buffer = o.stream
  packets : packetsOf o.pieces = o.returned

variable {o : Observed}

theorem packets_map (ps : List ParsedPacket) : packets (ps.map .packet) = ps := by
  induction ps with
  | nil => rfl
  | cons p ps ih => exact congrArg (p :: ·) ih

theorem Cut.step (h : Cut o) (i : Input) : Cut (o.step i) := by
  cases i with
  | push bytes =>
    have hfed : Tiled (o.stream ++ bytes) (o.returned.map .packet) o.pieces (o.decoder.feed bytes) := by
      refine ⟨?_, ?_⟩
      · rw [SystemViewDecoder.feed_buffer, ← List.append_assoc, h.bytes]
      · rw [h.packets, packets_map]
    obtain ⟨hbytes, hpackets⟩ := hfed.run
    rw [packets_append, packets_map] at hpackets
    unfold Observed.step overflow SystemViewDecoder.push
    by_cases hlong : MAX_DECODER_BUFFER < (pump.run (o.decoder.feed bytes)).2.buffer.length
    · simp only [if_pos hlong]
      refine ⟨?_, ?_⟩
      · rw [bytesOf_append, bytesOf_drops, List.append_nil, hbytes]
      · rw [packetsOf_append, packetsOf_drops, List.append_nil, hpackets]
    · simp only [if_neg hlong, List.append_nil]
      exact ⟨hbytes, hpackets⟩
  | resetAfterGap =>
    refine ⟨?_, ?_⟩
    · show bytesOf (o.pieces ++ drops o.decoder.buffer) ++ [] = o.stream
      rw [bytesOf_append, bytesOf_drops, List.append_nil, h.bytes]
    · show packetsOf (o.pieces ++ drops o.decoder.buffer) = o.returned
      rw [packetsOf_append, packetsOf_drops, List.append_nil, h.packets]

theorem Cut.run (h : Cut o) (inputs : List Input) : Cut (inputs.foldl Observed.step o) := by
  induction inputs generalizing o with
  | nil => exact h
  | cons i inputs ih => exact ih (h.step i)

theorem located_step (h : Located o.pieces o.decoder) {i : Input} (hi : Sound o i) :
    Located (o.step i).pieces (o.step i).decoder := by
  cases i with
  | push bytes =>
    have hfed : Located o.pieces (o.decoder.feed bytes) := ⟨h.anchored, h.boundary⟩
    have hlooped := hfed.run hi
    -- what waits in the buffer fits, so nothing is cleared away
    have hfits := Nat.not_lt.mpr (SystemViewDecoder.length_run_le hi)
    unfold Observed.step overflow SystemViewDecoder.push
    simp only [if_neg hfits, List.append_nil]
    exact hlooped
  | resetAfterGap => exact ⟨h.anchored.drops _, nofun⟩

theorem located_run {inputs : List Input} (h : Located o.pieces o.decoder)
    (hm : Meets Observed.step Sound o inputs) :
    Located (inputs.foldl Observed.step o).pieces (inputs.foldl Observed.step o).decoder := by
  induction inputs generalizing o with
  | nil => exact h
  | cons i inputs ih => exact ih (located_step h hm.1) hm.2

end Observed

/-- **The packets in the stream.** What has left the buffer are markers, the packets that were
returned, and bytes that were thrown away. As long as a synchronized stream decodes, every packet
begins behind a marker or another packet, and behind bytes that were thrown away no packet comes
before a marker. -/
theorem packets_behind_boundaries (inputs : List Input) :
    let o := inputs.foldl Observed.step {}
    (bytesOf o.pieces ++ o.decoder.buffer = o.stream ∧ packetsOf o.pieces = o.returned) ∧
      (Meets Observed.step Observed.Sound {} inputs →
        Anchored o.pieces ∧
        ∀ before bytes between p bytes' behind,
          o.pieces = before ++ .dropped bytes :: (between ++ .packet p bytes' :: behind) →
            Piece.marker ∈ between) := by
  have hcut : Observed.Cut {} := ⟨rfl, rfl⟩
  have hrun := hcut.run inputs
  refine ⟨⟨hrun.bytes, hrun.packets⟩, fun hm => ?_⟩
  have hstart : SystemViewDecoder.Located ({} : Observed).pieces ({} : Observed).decoder :=
    ⟨anchored_nil, nofun⟩
  have hanchored := (Observed.located_run hstart hm).anchored
  exact ⟨hanchored, fun before bytes between p bytes' behind heq => hanchored.marker_between heq⟩

/-- A marker and an event without fields. -/
def idleEvent : List UInt8 := List.replicate 10 0 ++ [17, 0]

theorem packets_behind_boundaries_idle :
    Anchored ([Input.push idleEvent].foldl Observed.step {}).pieces := by
  refine ((packets_behind_boundaries [.push idleEvent]).2 ⟨?_, trivial⟩).1
  refine .go rfl (fun h => nomatch h) ?_
  refine .go rfl (fun _ _ => ?_) (.stop rfl fun _ _ => Nat.zero_le _)
  exact trivial

/-- Behind the marker stands an event whose payload is announced to be one byte longer than is
allowed. One byte is thrown away, and the length is taken for an event id. -/
def guessed : List UInt8 := List.replicate 10 0 ++ [24, 0x81, 0x80, 0x04, 0x00, 0x05]

theorem guessed_boundary : ¬ Anchored ([Input.push guessed].foldl Observed.step {}).pieces := by
  intro h
  have hpieces : ([Input.push guessed].foldl Observed.step {}).pieces =
      [.marker, .dropped [24]] ++ .packet { eventId := 65537, deltaCycles := 5, syncBoundary := true }
        [0x81, 0x80, 0x04, 0x00, 0x05] :: [] := by
    decide
  have hboundary := h _ _ _ _ hpieces
  revert hboundary
  unfold AtBoundary
  decide

end TauTerm.Rtt
