import Mathlib
import TauTerm.Modbus.Pdu
import TauTerm.Lib.Framing

/-!
# Modbus TCP frames

The MBAP codec of `codec/tcp.rs` and its `TcpFramer`. A stream has the same
valid frames however it is cut, but `push` answers a malformed header with an
error in place of the frames it collected before it; `deliver_chunking_iff` says
on which streams a caller can tell.
-/

namespace TauTerm.Modbus.Tcp

open Lib

def MBAP_LEN : Nat := 7

def encode (transactionId : UInt16) (unitId : UInt8) (pdu : List UInt8) :
    Except String (List UInt8) :=
  if pdu = [] ∨ pdu.length > MAX_PDU_LEN then .error "invalid TCP PDU length"
  else
    let length := pdu.length + 1
    .ok (toBeBytes transactionId ++ toBeBytes 0 ++ toBeBytes (UInt16.ofNat length) ++ unitId :: pdu)

def protocolId (buffer : List UInt8) : UInt16 := ofBeBytes (buffer.getD 2 0) (buffer.getD 3 0)

/-- The length field, which counts the bytes behind it: the unit and the PDU. -/
def mbapLength (buffer : List UInt8) : Nat :=
  (ofBeBytes (buffer.getD 4 0) (buffer.getD 5 0)).toNat

def frameTotal (buffer : List UInt8) : Nat := 6 + mbapLength buffer

def decode (frame : List UInt8) : Except String (UInt16 × UInt8 × List UInt8) :=
  if frame.length < MBAP_LEN + 1 then .error "TCP ADU too short"
  else if protocolId frame ≠ 0 then .error s!"invalid Protocol Identifier {protocolId frame}"
  else
    let length := mbapLength frame
    if ¬ (2 ≤ length ∧ length ≤ 254) then .error s!"invalid MBAP length {length}"
    else if frame.length ≠ 6 + length then
      .error s!"MBAP length mismatch: header={length}, actual={frame.length - 6}"
    else
      let pdu := frame.drop 7
      if pdu = [] ∨ pdu.length > MAX_PDU_LEN then .error "invalid TCP PDU length"
      else .ok (ofBeBytes (frame.getD 0 0) (frame.getD 1 0), frame.getD 6 0, pdu)

/-- One turn of the loop of `TcpFramer::push`. -/
def framerTurn (buffer : List UInt8) : Turn UInt8 (List UInt8) String :=
  if buffer.length < MBAP_LEN then .wait buffer
  else if protocolId buffer ≠ 0 then .fail s!"invalid Protocol Identifier {protocolId buffer}"
  else if ¬ (2 ≤ mbapLength buffer ∧ mbapLength buffer ≤ 254) then
    .fail s!"invalid MBAP length {mbapLength buffer}"
  else if buffer.length < frameTotal buffer then .wait buffer
  else .emit (buffer.take (frameTotal buffer)) (buffer.drop (frameTotal buffer))

def framer : Framer UInt8 (List UInt8) String where
  turn := framerTurn
  skip_lt {xs rest} h := by
    unfold framerTurn at h
    split_ifs at h
  emit_lt {xs frame rest} h := by
    unfold framerTurn frameTotal MBAP_LEN at h
    split_ifs at h
    obtain ⟨-, rfl⟩ := Turn.emit.inj h
    rw [List.length_drop]
    omega

/-- `TcpFramer::push`. The early return of an error drops the frames collected
before it. -/
def push (buffer data : List UInt8) : Except String (List (List UInt8) × List UInt8) :=
  match framer.run (buffer ++ data) with
  | (frames, .ok buffer) => .ok (frames, buffer)
  | (_, .error e) => .error e

/-- A caller that pushes chunks until the first `Err`: the frames it was given,
and whether there was an error. -/
def deliver (buffer : List UInt8) : List (List UInt8) → List (List UInt8) × Bool
  | [] => ([], false)
  | chunk :: chunks =>
    match push buffer chunk with
    | .error _ => ([], true)
    | .ok (frames, buffer) => (frames ++ (deliver buffer chunks).1, (deliver buffer chunks).2)

/-! ## Headers -/

structure ValidFrame (frame : List UInt8) : Prop where
  protocol : protocolId frame = 0
  two_le : 2 ≤ mbapLength frame
  le_max : mbapLength frame ≤ 254
  length : frame.length = frameTotal frame

def MalformedHeader (buffer : List UInt8) : Prop :=
  7 ≤ buffer.length ∧
    (protocolId buffer ≠ 0 ∨ ¬ (2 ≤ mbapLength buffer ∧ mbapLength buffer ≤ 254))

theorem ValidFrame.seven_le {frame : List UInt8} (h : ValidFrame frame) : 7 ≤ frame.length := by
  have h1 := h.length
  have h2 := h.two_le
  unfold frameTotal at h1
  omega

theorem protocolId_append {xs : List UInt8} (ys : List UInt8) (h : 7 ≤ xs.length) :
    protocolId (xs ++ ys) = protocolId xs := by
  unfold protocolId
  rw [List.getD_append _ _ _ _ (by omega), List.getD_append _ _ _ _ (by omega)]

theorem mbapLength_append {xs : List UInt8} (ys : List UInt8) (h : 7 ≤ xs.length) :
    mbapLength (xs ++ ys) = mbapLength xs := by
  unfold mbapLength
  rw [List.getD_append _ _ _ _ (by omega), List.getD_append _ _ _ _ (by omega)]

theorem frameTotal_append {xs : List UInt8} (ys : List UInt8) (h : 7 ≤ xs.length) :
    frameTotal (xs ++ ys) = frameTotal xs := by
  rw [frameTotal, frameTotal, mbapLength_append ys h]

/-- A turn waits with the buffer as it is, fails on a malformed header, or takes
a valid frame off the front. -/
theorem framerTurn_cases (xs : List UInt8) :
    (framerTurn xs = .wait xs ∧ (xs.length < 7 ∨ xs.length < frameTotal xs)) ∨
    (MalformedHeader xs ∧ ∃ e, framerTurn xs = .fail e) ∨
    ∃ frame rest, xs = frame ++ rest ∧ ValidFrame frame ∧ framerTurn xs = .emit frame rest := by
  unfold framerTurn MBAP_LEN MalformedHeader
  by_cases h7 : xs.length < 7
  · left
    exact ⟨if_pos h7, .inl h7⟩
  rw [if_neg h7]
  by_cases hp : protocolId xs ≠ 0
  · right; left
    exact ⟨⟨by omega, .inl hp⟩, _, if_pos hp⟩
  rw [if_neg hp]
  by_cases hl : ¬ (2 ≤ mbapLength xs ∧ mbapLength xs ≤ 254)
  · right; left
    exact ⟨⟨by omega, .inr hl⟩, _, if_pos hl⟩
  rw [if_neg hl]
  by_cases ht : xs.length < frameTotal xs
  · left
    exact ⟨if_pos ht, .inr ht⟩
  rw [if_neg ht]
  right; right
  have hlen : (xs.take (frameTotal xs)).length = frameTotal xs := by
    rw [List.length_take]
    omega
  have h7' : 7 ≤ (xs.take (frameTotal xs)).length := by
    rw [hlen]
    unfold frameTotal
    omega
  have hsplit : xs.take (frameTotal xs) ++ xs.drop (frameTotal xs) = xs := List.take_append_drop _ _
  refine ⟨_, _, hsplit.symm, ?_, rfl⟩
  have e1 := protocolId_append (xs.drop (frameTotal xs)) h7'
  have e2 := mbapLength_append (xs.drop (frameTotal xs)) h7'
  have e3 := frameTotal_append (xs.drop (frameTotal xs)) h7'
  rw [hsplit] at e1 e2 e3
  exact ⟨e1 ▸ not_not.mp hp, by omega, by omega, by omega⟩

theorem framerTurn_validFrame {frame : List UInt8} (rest : List UInt8) (h : ValidFrame frame) :
    framerTurn (frame ++ rest) = .emit frame rest := by
  have h7 := h.seven_le
  have hlen := h.length
  have h2 := h.two_le
  have h254 := h.le_max
  unfold framerTurn MBAP_LEN
  rw [protocolId_append rest h7, mbapLength_append rest h7, frameTotal_append rest h7,
    List.length_append, if_neg (by omega), if_neg (by simp [h.protocol]), if_neg (by omega),
    if_neg (by omega), ← hlen, List.take_left, List.drop_left]

theorem framerTurn_malformed {xs : List UInt8} (h : MalformedHeader xs) :
    ∃ e, framerTurn xs = .fail e := by
  obtain ⟨h7, h⟩ := h
  unfold framerTurn MBAP_LEN
  rw [if_neg (by omega)]
  by_cases hp : protocolId xs ≠ 0
  · exact ⟨_, if_pos hp⟩
  · rw [if_neg hp]
    exact ⟨_, if_pos (h.resolve_left hp)⟩

/-! ## Runs -/

theorem framer_resumable : framer.Resumable where
  skip {xs rest} ys h := by
    rcases framerTurn_cases xs with ⟨e, -⟩ | ⟨-, e', e⟩ | ⟨_, _, -, -, e⟩ <;> cases e.symm.trans h
  emit {xs frame rest} ys h := by
    rcases framerTurn_cases xs with ⟨e, -⟩ | ⟨-, e', e⟩ | ⟨frame', rest', rfl, hv, e⟩
    · cases e.symm.trans h
    · cases e.symm.trans h
    · obtain ⟨rfl, rfl⟩ := Turn.emit.inj (e.symm.trans h)
      rw [List.append_assoc]
      exact framerTurn_validFrame _ hv
  fail {xs e} ys h := by
    have h7 : 7 ≤ xs.length := by
      by_contra h7
      have hw : framerTurn xs = .wait xs := if_pos (by unfold MBAP_LEN; omega)
      cases hw.symm.trans h
    change framerTurn (xs ++ ys) = .fail e
    change framerTurn xs = .fail e at h
    unfold framerTurn MBAP_LEN at h ⊢
    rw [protocolId_append ys h7, mbapLength_append ys h7]
    split_ifs at h ⊢ <;> first | assumption | (simp only [List.length_append] at *; omega)
  wait {xs keep} ys h := by
    rcases framerTurn_cases xs with ⟨e, -⟩ | ⟨-, e', e⟩ | ⟨_, _, -, -, e⟩
    · rw [← Turn.wait.inj (e.symm.trans h)]
    · cases e.symm.trans h
    · cases e.symm.trans h

theorem framer_run_nil : framer.run [] = ([], .ok []) := Framer.run_wait rfl

theorem framer_run_validFrame {frame : List UInt8} (rest : List UInt8) (h : ValidFrame frame) :
    framer.run (frame ++ rest) = (frame :: (framer.run rest).1, (framer.run rest).2) :=
  Framer.run_emit (framerTurn_validFrame rest h)

theorem framer_run_flatten (frames : List (List UInt8)) (rest : List UInt8)
    (h : ∀ frame ∈ frames, ValidFrame frame) :
    framer.run (frames.flatten ++ rest) =
      (frames ++ (framer.run rest).1, (framer.run rest).2) := by
  induction frames with
  | nil => rfl
  | cons frame frames ih =>
    rw [List.forall_mem_cons] at h
    rw [List.flatten_cons, List.append_assoc, framer_run_validFrame _ h.1, ih h.2]
    rfl

/-- A stream splits into the valid frames of its run and, when the run fails, a
malformed header. -/
theorem framer_run_split (s : List UInt8) :
    (∀ frame ∈ (framer.run s).1, ValidFrame frame) ∧
    match (framer.run s).2 with
    | .ok rest => s = (framer.run s).1.flatten ++ rest
    | .error _ => ∃ bad, MalformedHeader bad ∧ s = (framer.run s).1.flatten ++ bad := by
  induction hn : s.length using Nat.strongRecOn generalizing s with
  | _ n ih =>
    subst hn
    rcases framerTurn_cases s with ⟨e, -⟩ | ⟨hbad, e', e⟩ | ⟨frame, rest, rfl, hv, e⟩
    · simp [Framer.run_wait (F := framer) e]
    · rw [Framer.run_fail (F := framer) e]
      exact ⟨by simp, s, hbad, rfl⟩
    · obtain ⟨hall, hsplit⟩ := ih rest.length (framer.emit_lt e) rest rfl
      rw [framer_run_validFrame rest hv]
      refine ⟨List.forall_mem_cons.mpr ⟨hv, hall⟩, ?_⟩
      rcases h2 : (framer.run rest).2 with e' | keep
      · rw [h2] at hsplit
        obtain ⟨bad, hbad, hsplit⟩ := hsplit
        exact ⟨bad, hbad, by rw [List.flatten_cons, List.append_assoc, ← hsplit]⟩
      · rw [h2] at hsplit
        change frame ++ rest = (frame :: (framer.run rest).1).flatten ++ keep
        rw [List.flatten_cons, List.append_assoc, ← hsplit]

theorem framer_run_malformed {bad : List UInt8} (h : MalformedHeader bad) :
    ∃ e, framer.run bad = ([], .error e) := by
  obtain ⟨e, he⟩ := framerTurn_malformed h
  exact ⟨e, Framer.run_fail he⟩

/-! ## What the caller is given -/

/-- The error is never lost, and before it a caller is given some of the frames. -/
theorem deliver_of_feed (chunks : List (List UInt8)) (buffer : List UInt8) :
    match framer.feed buffer chunks with
    | (frames, .ok _) => deliver buffer chunks = (frames, false)
    | (frames, .error _) => (deliver buffer chunks).2 = true ∧ (deliver buffer chunks).1 <+: frames := by
  induction chunks generalizing buffer with
  | nil => rfl
  | cons chunk chunks ih =>
    simp only [Framer.feed, deliver, push]
    rcases framer.run (buffer ++ chunk) with ⟨frames, e | keep⟩
    · exact ⟨rfl, List.nil_prefix⟩
    · have hk := ih keep
      simp only [Framer.resume]
      generalize framer.feed keep chunks = r at hk ⊢
      rcases r with ⟨frames', e | keep'⟩
      · exact ⟨hk.1, (List.prefix_append_right_inj frames).mpr hk.2⟩
      · simp only at hk ⊢
        rw [hk]

/-- The same for a stream: `deliver` on any cutting of it against one run. -/
theorem deliver_of_run (chunks : List (List UInt8)) :
    match framer.run chunks.flatten with
    | (frames, .ok _) => deliver [] chunks = (frames, false)
    | (frames, .error _) => (deliver [] chunks).2 = true ∧ (deliver [] chunks).1 <+: frames := by
  rw [← framer_resumable.feed_eq_run rfl]
  exact deliver_of_feed chunks []

/-- A caller cannot tell how `s` was cut: every cutting gives the same frames and
the same presence of an error, and the frames are all those before the first
malformed header. -/
def ChunkingInvisible (s : List UInt8) : Prop :=
  (∀ c₁ c₂ : List (List UInt8), c₁.flatten = s → c₂.flatten = s → deliver [] c₁ = deliver [] c₂) ∧
  ∀ (c frames : List (List UInt8)) (bad : List UInt8), c.flatten = s →
    (∀ frame ∈ frames, ValidFrame frame) → MalformedHeader bad → s = frames.flatten ++ bad →
    (deliver [] c).1 = frames

/-- The stream starts with one or more valid frames, then a malformed header. -/
def FramesThenMalformed (s : List UInt8) : Prop :=
  ∃ (frames : List (List UInt8)) (bad : List UInt8), frames ≠ [] ∧
    (∀ frame ∈ frames, ValidFrame frame) ∧ MalformedHeader bad ∧ s = frames.flatten ++ bad

theorem deliver_one_malformed {frames : List (List UInt8)} {bad : List UInt8}
    (hv : ∀ frame ∈ frames, ValidFrame frame) (hb : MalformedHeader bad) :
    deliver [] [frames.flatten ++ bad] = ([], true) := by
  obtain ⟨e, he⟩ := framer_run_malformed hb
  simp only [deliver, push, List.nil_append, framer_run_flatten frames bad hv, he]

theorem deliver_two_malformed {frames : List (List UInt8)} {bad : List UInt8}
    (hv : ∀ frame ∈ frames, ValidFrame frame) (hb : MalformedHeader bad) :
    deliver [] [frames.flatten, bad] = (frames, true) := by
  obtain ⟨e, he⟩ := framer_run_malformed hb
  have hf := framer_run_flatten frames [] hv
  rw [List.append_nil, framer_run_nil, List.append_nil] at hf
  simp only [deliver, push, List.nil_append, hf, he, List.append_nil]

/-- A stream whose run fails at once gives nothing but the error, however it is cut. -/
theorem deliver_of_run_error {s : List UInt8} {e : String} (h : framer.run s = ([], .error e))
    {c : List (List UInt8)} (hc : c.flatten = s) : deliver [] c = ([], true) := by
  have hd := deliver_of_run c
  rw [hc, h] at hd
  exact Prod.ext (List.prefix_nil.mp hd.2) hd.1

/-- Chunking shows exactly on the streams that carry valid frames before a
malformed header. -/
theorem deliver_chunking_iff (s : List UInt8) : ChunkingInvisible s ↔ ¬ FramesThenMalformed s := by
  constructor
  · rintro ⟨hagree, -⟩ ⟨frames, bad, hne, hv, hb, rfl⟩
    have h := hagree [frames.flatten ++ bad] [frames.flatten, bad] (by simp) (by simp)
    rw [deliver_one_malformed hv hb, deliver_two_malformed hv hb, Prod.mk.injEq] at h
    exact hne h.1.symm
  · intro hnot
    obtain ⟨hv, hsplit⟩ := framer_run_split s
    have hnone : ∀ (frames : List (List UInt8)) (bad : List UInt8),
        (∀ frame ∈ frames, ValidFrame frame) → MalformedHeader bad → s = frames.flatten ++ bad →
        frames = [] := by
      intro frames bad hv hb hs
      by_contra hne
      exact hnot ⟨frames, bad, hne, hv, hb, hs⟩
    rcases hr : framer.run s with ⟨frames, e | keep⟩
    · rw [hr] at hv hsplit
      obtain ⟨bad, hb, hs⟩ := hsplit
      obtain rfl := hnone frames bad hv hb hs
      refine ⟨fun c₁ c₂ h₁ h₂ => ?_, fun c fs b hc hfs hb' hs' => ?_⟩
      · rw [deliver_of_run_error hr h₁, deliver_of_run_error hr h₂]
      · rw [deliver_of_run_error hr hc, hnone fs b hfs hb' hs']
    · have hall : ∀ c : List (List UInt8), c.flatten = s → deliver [] c = (frames, false) := by
        intro c hc
        have hd := deliver_of_run c
        rwa [hc, hr] at hd
      refine ⟨fun c₁ c₂ h₁ h₂ => by rw [hall c₁ h₁, hall c₂ h₂], fun c fs b hc hfs hb' hs' => ?_⟩
      -- a malformed header would have ended the run with an error
      obtain ⟨e, he⟩ := framer_run_malformed hb'
      rw [hs', framer_run_flatten fs b hfs, he] at hr
      cases (Prod.mk.inj hr).2

/-- A valid frame is lost when the malformed header behind it arrives in the
same chunk. -/
theorem deliver_depends_on_chunking :
    ¬ ∀ (s : List UInt8) (c₁ c₂ : List (List UInt8)), c₁.flatten = s → c₂.flatten = s →
      deliver [] c₁ = deliver [] c₂ := by
  intro h
  have hv : ∀ frame ∈ [[0, 1, 0, 0, 0, 2, 1, 7]], ValidFrame frame := by
    rw [List.forall_mem_singleton]
    exact ⟨by decide, by decide, by decide, by decide⟩
  have hb : MalformedHeader [0, 2, 0, 1, 0, 2, 1] := ⟨by decide, .inl (by decide)⟩
  have hcut := h [0, 1, 0, 0, 0, 2, 1, 7, 0, 2, 0, 1, 0, 2, 1]
    [[[0, 1, 0, 0, 0, 2, 1, 7]].flatten ++ [0, 2, 0, 1, 0, 2, 1]]
    [[[0, 1, 0, 0, 0, 2, 1, 7]].flatten, [0, 2, 0, 1, 0, 2, 1]] rfl rfl
  rw [deliver_one_malformed hv hb, deliver_two_malformed hv hb] at hcut
  cases hcut

end TauTerm.Modbus.Tcp
