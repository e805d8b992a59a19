import Mathlib
import TauTerm.Modbus.Response
import TauTerm.Lib.Framing

/-!
# Modbus ASCII frames

The codec of `codec/ascii.rs` and its `AsciiFramer`. No decision of the framing
loop depends on where a chunk ended, so a stream gives the same frames and the
same buffer however it is cut (`feed_eq_push`).
-/

namespace TauTerm.Modbus.Ascii

open Lib

def COLON : UInt8 := 0x3A

def CR : UInt8 := 0x0D

def LF : UInt8 := 0x0A

def MAX_ASCII_ADU_LEN : Nat := (MAX_PDU_LEN + 2) * 2 + 3

/-- `(!sum).wrapping_add(1)`, the two's complement of the sum of the bytes. -/
def lrc (data : List UInt8) : UInt8 := ~~~(data.foldl (· + ·) 0) + 1

/-- A digit of `format!("{byte:02X}")`. -/
def hexDigit (nibble : Nat) : UInt8 := UInt8.ofNat (if nibble < 10 then 0x30 + nibble else 0x37 + nibble)

def hexByte (byte : UInt8) : List UInt8 := [hexDigit (byte.toNat / 16), hexDigit (byte.toNat % 16)]

def encode (unitId : UInt8) (pdu : List UInt8) : Except String (List UInt8) :=
  if pdu = [] ∨ pdu.length > MAX_PDU_LEN then .error "invalid ASCII PDU length"
  else
    let raw := unitId :: pdu ++ [lrc (unitId :: pdu)]
    .ok (COLON :: raw.flatMap hexByte ++ [CR, LF])

def hexNibble (value : UInt8) : Except String UInt8 :=
  if 0x30 ≤ value ∧ value ≤ 0x39 then .ok (value - 0x30)
  else if 0x61 ≤ value ∧ value ≤ 0x66 then .ok (value - 0x61 + 10)
  else if 0x41 ≤ value ∧ value ≤ 0x46 then .ok (value - 0x41 + 10)
  else .error s!"invalid ASCII hex character 0x{hexUpper 2 value.toNat}"

/-- The bytes of pairs of digits. -/
def hexPairs : List UInt8 → Except String (List UInt8)
  | hi :: lo :: rest => do
    let hi ← hexNibble hi
    let lo ← hexNibble lo
    let rest ← hexPairs rest
    .ok ((hi <<< 4 ||| lo) :: rest)
  | _ => .ok []

def decode (frame : List UInt8) : Except String (UInt8 × List UInt8) :=
  if frame.length < 9 ∨ frame.length > MAX_ASCII_ADU_LEN then .error "invalid ASCII frame length"
  else if frame.head? ≠ some COLON ∨ ¬ [CR, LF] <:+ frame then
    .error "invalid ASCII frame delimiters"
  else
    let hex := (frame.take (frame.length - 2)).drop 1
    if hex.length % 2 ≠ 0 then .error "ASCII frame contains odd hex digit count"
    else
      (hexPairs hex).bind fun raw =>
        if raw.length < 3 then .error "ASCII frame payload too short"
        else
          let actual := raw.getLastD 0
          let raw := raw.dropLast
          let expected := lrc raw
          if actual ≠ expected then
            .error (s!"LRC mismatch: expected 0x{hexUpper 2 expected.toNat}, " ++
              s!"got 0x{hexUpper 2 actual.toNat}")
          else
            let pdu := raw.drop 1
            if pdu = [] ∨ pdu.length > MAX_PDU_LEN then .error "invalid ASCII PDU length"
            else .ok (raw.headD 0, pdu)

/-- `windows(2).position(|window| window == b"\r\n")`. -/
def crlfPosition : List UInt8 → Option Nat
  | [] => none
  | b :: rest =>
    if b = CR ∧ rest.head? = some LF then some 0 else (crlfPosition rest).map (· + 1)

/-- A second `:` with no line end before it: the frame begun at the first one is
given up. -/
def resyncAt (buffer : List UInt8) : Option Nat :=
  match (buffer.drop 1).findIdx? (· == COLON) with
  | none => none
  | some i => if crlfPosition (buffer.take (i + 1)) = none then some (i + 1) else none

/-- The loop body of `AsciiFramer::push` on a buffer that starts with `:`. -/
def frameTurn (buffer : List UInt8) : Turn UInt8 (List UInt8) Empty :=
  match resyncAt buffer with
  | some nextStart => .skip (buffer.drop nextStart)
  | none =>
    match crlfPosition buffer with
    | none => if buffer.length > MAX_ASCII_ADU_LEN then .wait [] else .wait buffer
    | some stop =>
      let frameLen := stop + 2
      if frameLen > MAX_ASCII_ADU_LEN then .skip (buffer.drop frameLen)
      else .emit (buffer.take frameLen) (buffer.drop frameLen)

/-- One turn of the loop of `AsciiFramer::push`. -/
def framerTurn (buffer : List UInt8) : Turn UInt8 (List UInt8) Empty :=
  match buffer.findIdx? (· == COLON) with
  | none => .wait []
  | some start => frameTurn (buffer.drop start)

/-! ## Line ends -/

theorem crlfPosition_append {xs : List UInt8} {n : Nat} (ys : List UInt8)
    (h : crlfPosition xs = some n) : crlfPosition (xs ++ ys) = some n := by
  induction xs generalizing n with
  | nil => cases h
  | cons b rest ih =>
    rw [List.cons_append, crlfPosition]
    rw [crlfPosition] at h
    split_ifs at h with hb
    · obtain ⟨rfl, hl⟩ := hb
      rw [if_pos ⟨rfl, by rw [List.head?_append, hl]; rfl⟩]
      exact h
    · obtain ⟨m, hm, rfl⟩ := Option.map_eq_some_iff.mp h
      rw [if_neg, ih hm]
      · rfl
      · rintro ⟨rfl, hl⟩
        cases rest with
        | nil => cases hm
        | cons c rest => exact hb ⟨rfl, hl⟩

/-- A line end in front of which there is no other one is the first. -/
theorem crlfPosition_of_split {front : List UInt8} (back : List UInt8)
    (h : crlfPosition (front ++ [CR]) = none) :
    crlfPosition (front ++ CR :: LF :: back) = some front.length := by
  induction front with
  | nil => rfl
  | cons b front ih =>
    rw [List.cons_append, crlfPosition] at h ⊢
    split_ifs at h with hb
    rw [if_neg, ih (Option.map_eq_none_iff.mp h)]
    · rfl
    · rintro ⟨rfl, hl⟩
      cases front with
      | nil => cases hl
      | cons c front => exact hb ⟨rfl, hl⟩

theorem split_of_crlfPosition {xs : List UInt8} {n : Nat} (h : crlfPosition xs = some n) :
    ∃ front back, xs = front ++ CR :: LF :: back ∧ front.length = n ∧
      crlfPosition (front ++ [CR]) = none := by
  induction xs generalizing n with
  | nil => cases h
  | cons b rest ih =>
    rw [crlfPosition] at h
    split_ifs at h with hb
    · obtain ⟨rfl, hl⟩ := hb
      obtain rfl := Option.some.inj h
      cases rest with
      | nil => cases hl
      | cons c rest =>
        obtain rfl := Option.some.inj hl
        exact ⟨[], rest, rfl, rfl, rfl⟩
    · obtain ⟨m, hm, rfl⟩ := Option.map_eq_some_iff.mp h
      obtain ⟨front, back, rfl, rfl, hn⟩ := ih hm
      refine ⟨b :: front, back, rfl, rfl, ?_⟩
      rw [List.cons_append, crlfPosition, if_neg, hn]
      · rfl
      · rintro ⟨rfl, hl⟩
        cases front with
        | nil => cases hl
        | cons d front => exact hb ⟨rfl, hl⟩

theorem crlfPosition_left {xs ys : List UInt8} (h : crlfPosition (xs ++ ys) = none) :
    crlfPosition xs = none := by
  by_contra hne
  obtain ⟨n, hn⟩ := Option.ne_none_iff_exists'.mp hne
  rw [crlfPosition_append ys hn] at h
  cases h

/-! ## One turn -/

theorem findIdx?_colon_eq_none {xs : List UInt8} : xs.findIdx? (· == COLON) = none ↔ COLON ∉ xs := by
  rw [List.findIdx?_eq_none_iff]
  constructor
  · intro h hm
    simpa using h COLON hm
  · intro h x hx
    rw [beq_eq_false_iff_ne]
    rintro rfl
    exact h hx

/-- A colon-free list in front of a colon. -/
theorem findIdx?_colon_append {noise : List UInt8} (rest : List UInt8) (h : COLON ∉ noise) :
    (noise ++ COLON :: rest).findIdx? (· == COLON) = some noise.length := by
  rw [List.findIdx?_append, (findIdx?_colon_eq_none).mpr h, List.findIdx?_cons]
  simp

theorem exists_first_colon {xs : List UInt8} (h : COLON ∈ xs) :
    ∃ noise rest, xs = noise ++ COLON :: rest ∧ COLON ∉ noise := by
  obtain ⟨noise, rest, hx, hn⟩ := List.mem_iff_append.mp h |>.elim fun a ⟨b, hb⟩ =>
    List.eq_append_cons_of_mem h
  exact ⟨noise, rest, hx, hn⟩

/-- Bytes in front of the first `:` do not change a turn. -/
theorem framerTurn_noise {noise : List UInt8} (ys : List UInt8) (h : COLON ∉ noise) :
    framerTurn (noise ++ ys) = framerTurn ys := by
  by_cases hy : COLON ∈ ys
  · obtain ⟨noise', rest, rfl, hn⟩ := exists_first_colon hy
    have hnn : COLON ∉ noise ++ noise' := by simp [h, hn]
    unfold framerTurn
    rw [← List.append_assoc, findIdx?_colon_append rest hnn, findIdx?_colon_append rest hn]
    simp only [List.drop_left]
  · unfold framerTurn
    rw [(findIdx?_colon_eq_none).mpr hy, (findIdx?_colon_eq_none).mpr (by simp [h, hy])]

theorem framerTurn_no_colon {xs : List UInt8} (h : COLON ∉ xs) : framerTurn xs = .wait [] := by
  unfold framerTurn
  rw [(findIdx?_colon_eq_none).mpr h]

theorem framerTurn_colon (body : List UInt8) :
    framerTurn (COLON :: body) = frameTurn (COLON :: body) := rfl

/-- What can follow a `:`: another `:` before any line end, a line end before any
`:`, or neither. -/
theorem frame_shapes (body : List UInt8) :
    (∃ front back, body = front ++ COLON :: back ∧ COLON ∉ front ∧
      crlfPosition (COLON :: front) = none) ∨
    (∃ front back, body = front ++ CR :: LF :: back ∧ COLON ∉ front ∧
      crlfPosition (COLON :: front ++ [CR]) = none) ∨
    (COLON ∉ body ∧ crlfPosition (COLON :: body) = none) := by
  rcases hpos : crlfPosition (COLON :: body) with _ | n
  · by_cases hb : COLON ∈ body
    · obtain ⟨front, back, rfl, hf⟩ := exists_first_colon hb
      exact .inl ⟨front, back, rfl, hf, crlfPosition_left hpos⟩
    · exact .inr (.inr ⟨hb, rfl⟩)
  · obtain ⟨_ | ⟨c, front⟩, back, hsplit, -, hn⟩ := split_of_crlfPosition hpos
    · exact absurd (List.cons.inj hsplit).1 (by decide)
    obtain ⟨rfl, rfl⟩ := List.cons.inj hsplit
    by_cases hf : COLON ∈ front
    · obtain ⟨front, mid, rfl, hf'⟩ := exists_first_colon hf
      refine .inl ⟨front, mid ++ CR :: LF :: back, by simp, hf', ?_⟩
      rw [← List.cons_append, List.append_assoc] at hn
      exact crlfPosition_left hn
    · exact .inr (.inl ⟨front, back, rfl, hf, hn⟩)

theorem frameTurn_resync {front : List UInt8} (back : List UInt8) (hf : COLON ∉ front)
    (hn : crlfPosition (COLON :: front) = none) :
    frameTurn (COLON :: (front ++ COLON :: back)) = .skip (COLON :: back) := by
  have hr : resyncAt (COLON :: (front ++ COLON :: back)) = some (front.length + 1) := by
    unfold resyncAt
    rw [List.drop_one, List.tail_cons, findIdx?_colon_append back hf]
    simp only [List.take_succ_cons, List.take_left, hn, if_true]
  unfold frameTurn
  rw [hr]
  simp

theorem resyncAt_line {front : List UInt8} (back : List UInt8) (hf : COLON ∉ front)
    (hn : crlfPosition (COLON :: front ++ [CR]) = none) :
    resyncAt (COLON :: (front ++ CR :: LF :: back)) = none := by
  have hcr : COLON ≠ CR := by decide
  have hlf : COLON ≠ LF := by decide
  unfold resyncAt
  rw [List.drop_one, List.tail_cons]
  by_cases hb : COLON ∈ back
  · obtain ⟨mid, rest, rfl, hm⟩ := exists_first_colon hb
    have hfm : COLON ∉ front ++ CR :: LF :: mid := by simp [hf, hcr, hlf, hm]
    have hsplit : front ++ CR :: LF :: (mid ++ COLON :: rest) =
        (front ++ CR :: LF :: mid) ++ COLON :: rest := by simp
    rw [hsplit, findIdx?_colon_append rest hfm]
    -- the line end is in front of the second `:`
    simp only [List.take_succ_cons, List.take_left]
    rw [← List.cons_append, crlfPosition_of_split mid hn]
    rfl
  · rw [(findIdx?_colon_eq_none).mpr (by simp [hf, hcr, hlf, hb])]

theorem frameTurn_line {front : List UInt8} (back : List UInt8) (hf : COLON ∉ front)
    (hn : crlfPosition (COLON :: front ++ [CR]) = none) :
    frameTurn (COLON :: (front ++ CR :: LF :: back)) =
      if front.length + 3 > MAX_ASCII_ADU_LEN then .skip back
      else .emit (COLON :: front ++ [CR, LF]) back := by
  have hsplit : COLON :: (front ++ CR :: LF :: back) = (COLON :: front ++ [CR, LF]) ++ back := by simp
  have hlen : (COLON :: front).length + 2 = (COLON :: front ++ [CR, LF]).length := by simp
  have hlen' : (COLON :: front).length + 2 = front.length + 3 := by simp
  unfold frameTurn
  rw [resyncAt_line back hf hn, ← List.cons_append, crlfPosition_of_split back hn]
  simp only [List.cons_append, hlen']
  rw [← hlen', hlen, hsplit, List.take_left, List.drop_left]
  rfl

theorem frameTurn_open {body : List UInt8} (hb : COLON ∉ body)
    (hn : crlfPosition (COLON :: body) = none) :
    frameTurn (COLON :: body) =
      if body.length + 1 > MAX_ASCII_ADU_LEN then .wait [] else .wait (COLON :: body) := by
  have hr : resyncAt (COLON :: body) = none := by
    unfold resyncAt
    rw [List.drop_one, List.tail_cons, (findIdx?_colon_eq_none).mpr hb]
  unfold frameTurn
  rw [hr, hn]
  rfl

/-! ## The framer -/

/-- The four turns, each with the split of the buffer that makes it. -/
theorem framerTurn_cases (xs : List UInt8) :
    (COLON ∉ xs ∧ framerTurn xs = .wait []) ∨
    (∃ noise front back, xs = noise ++ COLON :: (front ++ COLON :: back) ∧ COLON ∉ noise ∧
      COLON ∉ front ∧ crlfPosition (COLON :: front) = none ∧
      framerTurn xs = .skip (COLON :: back)) ∨
    (∃ noise front back, xs = noise ++ COLON :: (front ++ CR :: LF :: back) ∧ COLON ∉ noise ∧
      COLON ∉ front ∧ crlfPosition (COLON :: front ++ [CR]) = none ∧
      framerTurn xs = if front.length + 3 > MAX_ASCII_ADU_LEN then .skip back
        else .emit (COLON :: front ++ [CR, LF]) back) ∨
    (∃ noise body, xs = noise ++ COLON :: body ∧ COLON ∉ noise ∧ COLON ∉ body ∧
      crlfPosition (COLON :: body) = none ∧
      framerTurn xs = if body.length + 1 > MAX_ASCII_ADU_LEN then .wait []
        else .wait (COLON :: body)) := by
  by_cases h : COLON ∈ xs
  · right
    obtain ⟨noise, body, rfl, hnoise⟩ := exists_first_colon h
    rw [framerTurn_noise _ hnoise, framerTurn_colon]
    rcases frame_shapes body with ⟨front, back, rfl, hf, hn⟩ | ⟨front, back, rfl, hf, hn⟩ | ⟨hb, hn⟩
    · exact .inl ⟨noise, front, back, rfl, hnoise, hf, hn, frameTurn_resync back hf hn⟩
    · exact .inr (.inl ⟨noise, front, back, rfl, hnoise, hf, hn, frameTurn_line back hf hn⟩)
    · exact .inr (.inr ⟨noise, body, rfl, hnoise, hb, hn, frameTurn_open hb hn⟩)
  · exact .inl ⟨h, framerTurn_no_colon h⟩

theorem framerTurn_skip_lt {xs rest : List UInt8} (h : framerTurn xs = .skip rest) :
    rest.length < xs.length := by
  rcases framerTurn_cases xs with ⟨-, e⟩ | ⟨noise, front, back, rfl, -, -, -, e⟩ |
    ⟨noise, front, back, rfl, -, -, -, e⟩ | ⟨noise, body, rfl, -, -, -, e⟩
  · cases e.symm.trans h
  · rw [← Turn.skip.inj (e.symm.trans h)]
    simp only [List.length_append, List.length_cons]
    omega
  · rw [h] at e
    split_ifs at e
    rw [Turn.skip.inj e]
    simp only [List.length_append, List.length_cons]
    omega
  · rw [h] at e
    split_ifs at e

/-- An emitted frame and the input behind it. -/
theorem framerTurn_emit {xs frame rest : List UInt8} (h : framerTurn xs = .emit frame rest) :
    ∃ noise front, xs = noise ++ frame ++ rest ∧ COLON ∉ noise ∧ COLON ∉ front ∧
      frame = COLON :: front ++ [CR, LF] ∧ crlfPosition (COLON :: front ++ [CR]) = none ∧
      front.length + 3 ≤ MAX_ASCII_ADU_LEN := by
  rcases framerTurn_cases xs with ⟨-, e⟩ | ⟨noise, front, back, rfl, -, -, -, e⟩ |
    ⟨noise, front, back, rfl, hnoise, hf, hn, e⟩ | ⟨noise, body, rfl, -, -, -, e⟩
  · cases e.symm.trans h
  · cases e.symm.trans h
  · rw [h] at e
    split_ifs at e with hlen
    obtain ⟨rfl, rfl⟩ := Turn.emit.inj e
    exact ⟨noise, front, by simp, hnoise, hf, rfl, hn, by omega⟩
  · rw [h] at e
    split_ifs at e

theorem framerTurn_emit_lt {xs frame rest : List UInt8} (h : framerTurn xs = .emit frame rest) :
    rest.length < xs.length := by
  obtain ⟨noise, front, rfl, -, -, rfl, -, -⟩ := framerTurn_emit h
  simp only [List.length_append, List.length_cons]
  omega

def framer : Framer UInt8 (List UInt8) Empty where
  turn := framerTurn
  skip_lt := framerTurn_skip_lt
  emit_lt := framerTurn_emit_lt

/-- `AsciiFramer::push`: the frames and the new buffer. -/
def push (buffer data : List UInt8) : List (List UInt8) × List UInt8 :=
  match framer.run (buffer ++ data) with
  | (frames, .ok buffer) => (frames, buffer)

/-- The chunks pushed one after the other: all frames, and the last buffer. -/
def feed (buffer : List UInt8) : List (List UInt8) → List (List UInt8) × List UInt8
  | [] => ([], buffer)
  | chunk :: chunks =>
    let (frames, buffer) := push buffer chunk
    (frames ++ (feed buffer chunks).1, (feed buffer chunks).2)

theorem framer_run_noise {noise : List UInt8} (ys : List UInt8) (h : COLON ∉ noise) :
    framer.run (noise ++ ys) = framer.run ys :=
  Framer.run_congr (framerTurn_noise ys h)

/-- An unterminated frame that outgrew the limit can be forgotten at once: what
follows it up to the next `:` is dropped whether or not it holds the line end. -/
theorem framer_run_oversize {body : List UInt8} (ys : List UInt8) (hb : COLON ∉ body)
    (hn : crlfPosition (COLON :: body) = none) (hlen : body.length + 1 > MAX_ASCII_ADU_LEN) :
    framer.run (COLON :: body ++ ys) = framer.run ys := by
  have hcr : COLON ≠ CR := by decide
  have hlf : COLON ≠ LF := by decide
  rcases frame_shapes (body ++ ys) with ⟨front, back, hsplit, hf, hn'⟩ |
    ⟨front, back, hsplit, hf, hn'⟩ | ⟨hby, hn'⟩
  · rw [List.cons_append, hsplit]
    have ht : framer.turn (COLON :: (front ++ COLON :: back)) = .skip (COLON :: back) :=
      (framerTurn_colon _).trans (frameTurn_resync back hf hn')
    rw [Framer.run_skip ht]
    rcases List.append_eq_append_iff.mp hsplit with ⟨noise, rfl, rfl⟩ | ⟨mid, rfl, hmid⟩
    · rw [List.mem_append, not_or] at hf
      rw [framer_run_noise _ hf.2]
    · cases mid with
      | nil => rw [List.nil_append] at hmid; rw [hmid]
      | cons c mid =>
        rw [List.mem_append, List.mem_cons, not_or, not_or] at hb
        exact absurd (List.cons.inj hmid).1 hb.2.1
  · rw [List.cons_append, hsplit]
    rw [show front ++ CR :: LF :: back = front ++ [CR, LF] ++ back by simp] at hsplit
    rcases List.append_eq_append_iff.mp hsplit with ⟨noise, hfront, rfl⟩ | ⟨mid, rfl, -⟩
    · have hnoise : COLON ∉ body ++ noise := by rw [← hfront]; simp [hf, hcr, hlf]
      rw [List.mem_append, not_or] at hnoise
      have hle := congrArg List.length hfront
      simp only [List.length_append, List.length_cons, List.length_nil] at hle
      have ht : framer.turn (COLON :: (front ++ CR :: LF :: back)) = .skip back :=
        ((framerTurn_colon _).trans (frameTurn_line back hf hn')).trans (if_pos (by omega))
      rw [Framer.run_skip ht, framer_run_noise _ hnoise.2]
    · -- the line end would lie inside `body`
      rw [show front ++ [CR, LF] ++ mid = front ++ CR :: LF :: mid by simp, ← List.cons_append,
        crlfPosition_of_split mid hn'] at hn
      cases hn
  · have ht : framer.turn (COLON :: (body ++ ys)) = .wait [] :=
      ((framerTurn_colon _).trans (frameTurn_open hby hn')).trans
        (if_pos (by rw [List.length_append]; omega))
    have hy : COLON ∉ ys := fun h => hby (List.mem_append_right body h)
    have ht' : framer.turn ys = .wait [] := framerTurn_no_colon hy
    rw [List.cons_append, Framer.run_wait ht, Framer.run_wait ht']

theorem framer_resumable : framer.Resumable where
  skip {xs rest} ys h := by
    change framerTurn (xs ++ ys) = _
    rcases framerTurn_cases xs with ⟨-, e⟩ | ⟨noise, front, back, rfl, hnoise, hf, hn, e⟩ |
      ⟨noise, front, back, rfl, hnoise, hf, hn, e⟩ | ⟨noise, body, rfl, -, -, -, e⟩
    · cases e.symm.trans h
    · rw [← Turn.skip.inj (e.symm.trans h), List.append_assoc, framerTurn_noise _ hnoise,
        List.cons_append, List.append_assoc, framerTurn_colon]
      exact frameTurn_resync (back ++ ys) hf hn
    · have e' := e.symm.trans h
      split_ifs at e' with hlen
      rw [← Turn.skip.inj e', List.append_assoc, framerTurn_noise _ hnoise,
        List.cons_append, List.append_assoc, framerTurn_colon]
      exact (frameTurn_line (back ++ ys) hf hn).trans (if_pos hlen)
    · have e' := e.symm.trans h
      split_ifs at e'
  emit {xs frame rest} ys h := by
    obtain ⟨noise, front, rfl, hnoise, hf, rfl, hn, hlen⟩ := framerTurn_emit h
    change framerTurn _ = _
    rw [List.append_assoc, List.append_assoc, framerTurn_noise _ hnoise]
    have hsplit : COLON :: front ++ [CR, LF] ++ (rest ++ ys) =
        COLON :: (front ++ CR :: LF :: (rest ++ ys)) := by simp
    rw [hsplit, framerTurn_colon, frameTurn_line (rest ++ ys) hf hn, if_neg (by omega)]
  fail {xs e} := e.elim
  wait {xs keep} ys h := by
    rcases framerTurn_cases xs with ⟨hx, e⟩ | ⟨noise, front, back, rfl, -, -, -, e⟩ |
      ⟨noise, front, back, rfl, -, -, -, e⟩ | ⟨noise, body, rfl, hnoise, hb, hn, e⟩
    · rw [← Turn.wait.inj (e.symm.trans h), List.nil_append, framer_run_noise ys hx]
    · cases e.symm.trans h
    · have e' := e.symm.trans h
      split_ifs at e'
    · have e' := e.symm.trans h
      rw [List.append_assoc, framer_run_noise _ hnoise]
      split_ifs at e' with hlen
      · rw [← Turn.wait.inj e', framer_run_oversize ys hb hn hlen, List.nil_append]
      · rw [← Turn.wait.inj e']

theorem framer_run_nil : framer.run [] = ([], .ok []) := Framer.run_wait rfl

theorem feed_eq_framer_feed (chunks : List (List UInt8)) (buffer : List UInt8) :
    framer.feed buffer chunks = ((feed buffer chunks).1, .ok (feed buffer chunks).2) := by
  induction chunks generalizing buffer with
  | nil => rfl
  | cons chunk chunks ih =>
    simp only [Framer.feed, feed, push]
    rcases framer.run (buffer ++ chunk) with ⟨frames, e | keep⟩
    · exact e.elim
    · simp only [Framer.resume, ih]

/-- **Chunks do not matter**: any cutting of a stream gives the frames and the
final buffer of one push. -/
theorem feed_eq_push (chunks : List (List UInt8)) : feed [] chunks = push [] chunks.flatten := by
  have h := framer_resumable.feed_eq_run rfl chunks
  rw [feed_eq_framer_feed] at h
  unfold push
  rw [List.nil_append, ← h]

/-! ## Frames -/

/-- A frame from `:` to the first line end, within the limit. -/
def WellDelimited (frame : List UInt8) : Prop :=
  frame.length ≤ 513 ∧
    ∃ body, frame = COLON :: body ++ [CR, LF] ∧ ¬ [CR, LF] <:+: COLON :: body ++ [CR]

theorem not_infix_of_crlfPosition {xs : List UInt8} (h : crlfPosition xs = none) :
    ¬ [CR, LF] <:+: xs := by
  rintro ⟨front, back, rfl⟩
  have hn : crlfPosition (front ++ [CR, LF]) = none := crlfPosition_left h
  induction front with
  | nil => cases hn
  | cons b front ih =>
    rw [List.cons_append, List.cons_append, crlfPosition] at h
    rw [List.cons_append, crlfPosition] at hn
    split_ifs at h hn
    exact ih (Option.map_eq_none_iff.mp h) (Option.map_eq_none_iff.mp hn)

theorem wellDelimited_of_emit {xs frame rest : List UInt8} (h : framer.turn xs = .emit frame rest) :
    WellDelimited frame := by
  obtain ⟨noise, front, -, -, -, rfl, hn, hlen⟩ := framerTurn_emit h
  refine ⟨?_, front, rfl, not_infix_of_crlfPosition hn⟩
  unfold MAX_ASCII_ADU_LEN MAX_PDU_LEN at hlen
  simp only [List.length_append, List.length_cons, List.length_nil]
  omega

theorem length_le_of_wait {xs keep : List UInt8} (h : framer.turn xs = .wait keep) :
    keep.length ≤ 513 := by
  rcases framerTurn_cases xs with ⟨-, e⟩ | ⟨noise, front, back, rfl, -, -, -, e⟩ |
    ⟨noise, front, back, rfl, -, -, -, e⟩ | ⟨noise, body, rfl, -, -, -, e⟩
  · rw [← Turn.wait.inj (e.symm.trans h)]
    simp
  · cases e.symm.trans h
  · have e' := e.symm.trans h
    split_ifs at e'
  · have e' := e.symm.trans h
    unfold MAX_ASCII_ADU_LEN MAX_PDU_LEN at e'
    split_ifs at e' with hlen
    · rw [← Turn.wait.inj e']
      simp
    · rw [← Turn.wait.inj e', List.length_cons]
      omega

theorem push_wellDelimited (buffer data : List UInt8) :
    (∀ frame ∈ (push buffer data).1, WellDelimited frame) ∧ (push buffer data).2.length ≤ 513 := by
  have hf := Framer.forall_mem_run (F := framer) wellDelimited_of_emit (buffer ++ data)
  have hk := @Framer.kept_of_run _ _ _ framer (fun keep => keep.length ≤ 513) length_le_of_wait
    (buffer ++ data)
  unfold push
  generalize framer.run (buffer ++ data) = r at hf hk ⊢
  rcases r with ⟨frames, e | keep⟩
  · exact e.elim
  · exact ⟨hf, hk rfl⟩

/-! ## Encoded frames in a noisy stream -/

theorem hexDigit_notMem {n : Nat} (h : n < 16) :
    hexDigit n ≠ COLON ∧ hexDigit n ≠ CR ∧ hexDigit n ≠ LF := by
  interval_cases n <;> decide

theorem notMem_hexBytes (raw : List UInt8) :
    COLON ∉ raw.flatMap hexByte ∧ CR ∉ raw.flatMap hexByte := by
  induction raw with
  | nil => simp
  | cons b raw ih =>
    have h1 := hexDigit_notMem (n := b.toNat / 16) (by have := b.toNat_lt; omega)
    have h2 := hexDigit_notMem (n := b.toNat % 16) (by omega)
    simp [hexByte, ih, h1.1.symm, h1.2.1.symm, h2.1.symm, h2.2.1.symm]

theorem length_hexBytes (raw : List UInt8) : (raw.flatMap hexByte).length = 2 * raw.length := by
  induction raw with
  | nil => rfl
  | cons b raw ih => simp only [List.flatMap_cons, List.length_append, ih, hexByte,
      List.length_cons, List.length_nil]; omega

theorem crlfPosition_hex (hex : List UInt8) (h : CR ∉ hex) :
    crlfPosition (COLON :: hex ++ [CR]) = none := by
  rw [List.cons_append, crlfPosition, if_neg (fun hb => absurd hb.1 (by decide))]
  induction hex with
  | nil => rfl
  | cons b hex ih =>
    rw [List.mem_cons, not_or] at h
    rw [Option.map_eq_none_iff] at ih ⊢
    rw [List.cons_append, crlfPosition, if_neg (fun hb => h.1 hb.1.symm), ih h.2]
    rfl

/-- An encoded frame is found behind any noise that has no `:`. -/
theorem framerTurn_encode {unitId : UInt8} {pdu frame noise : List UInt8} (rest : List UInt8)
    (henc : encode unitId pdu = .ok frame) (hnoise : COLON ∉ noise) :
    framerTurn (noise ++ frame ++ rest) = .emit frame rest := by
  unfold encode at henc
  split_ifs at henc with hpdu
  rw [not_or] at hpdu
  obtain rfl := Except.ok.inj henc
  obtain ⟨hcolon, hcr⟩ := notMem_hexBytes (unitId :: pdu ++ [lrc (unitId :: pdu)])
  have hlen := length_hexBytes (unitId :: pdu ++ [lrc (unitId :: pdu)])
  generalize (unitId :: pdu ++ [lrc (unitId :: pdu)]).flatMap hexByte = hex at *
  have hsplit : COLON :: hex ++ [CR, LF] ++ rest = COLON :: (hex ++ CR :: LF :: rest) := by simp
  rw [List.append_assoc, framerTurn_noise _ hnoise, hsplit, framerTurn_colon,
    frameTurn_line rest hcolon (crlfPosition_hex hex hcr), if_neg]
  unfold MAX_ASCII_ADU_LEN
  simp only [List.length_append, List.length_cons, List.length_nil] at hlen
  omega

/-- A stream of frames, each with the bytes in front of it. -/
def noisyStream (parts : List (List UInt8 × List UInt8)) : List UInt8 :=
  parts.flatMap fun (noise, frame) => noise ++ frame

theorem framer_run_noisyStream {parts : List (List UInt8 × List UInt8)}
    (h : ∀ p ∈ parts, COLON ∉ p.1 ∧ ∃ unitId pdu, encode unitId pdu = .ok p.2) :
    framer.run (noisyStream parts) = (parts.map Prod.snd, .ok []) := by
  induction parts with
  | nil => exact framer_run_nil
  | cons p parts ih =>
    obtain ⟨⟨hnoise, unitId, pdu, henc⟩, h⟩ := List.forall_mem_cons.mp h
    have ht : framer.turn (noisyStream (p :: parts)) = .emit p.2 (noisyStream parts) :=
      framerTurn_encode (noisyStream parts) henc hnoise
    rw [Framer.run_emit ht, ih h]
    rfl

/-- Framing does not depend on chunking; frames and buffer are bounded; encoded
frames are found in noise. -/
theorem asciiFramer_push :
    (∀ chunks : List (List UInt8), feed [] chunks = push [] chunks.flatten) ∧
    (∀ buffer data, (∀ frame ∈ (push buffer data).1, WellDelimited frame) ∧
      (push buffer data).2.length ≤ 513) ∧
    ∀ (parts : List (List UInt8 × List UInt8)) (chunks : List (List UInt8)),
      (∀ p ∈ parts, COLON ∉ p.1 ∧ ∃ unitId pdu, encode unitId pdu = .ok p.2) →
      chunks.flatten = noisyStream parts → (feed [] chunks).1 = parts.map Prod.snd := by
  refine ⟨feed_eq_push, push_wellDelimited, fun parts chunks h hc => ?_⟩
  rw [feed_eq_push, hc, push, List.nil_append, framer_run_noisyStream h]

/-- Two encoded frames, the second behind noise, cut inside the line end. -/
theorem asciiFramer_push_two :
    (feed [] [[0x3A, 0x30, 0x31, 0x30, 0x37, 0x46, 0x38, 0x0D], [0x0A, 0x41, 0x3A, 0x30, 0x32, 0x30,
      0x37, 0x46, 0x37, 0x0D, 0x0A]]).1 =
      [[0x3A, 0x30, 0x31, 0x30, 0x37, 0x46, 0x38, 0x0D, 0x0A],
        [0x3A, 0x30, 0x32, 0x30, 0x37, 0x46, 0x37, 0x0D, 0x0A]] :=
  asciiFramer_push.2.2
    [([], [0x3A, 0x30, 0x31, 0x30, 0x37, 0x46, 0x38, 0x0D, 0x0A]),
      ([0x41], [0x3A, 0x30, 0x32, 0x30, 0x37, 0x46, 0x37, 0x0D, 0x0A])] _
    (by
      simp only [List.forall_mem_cons]
      exact ⟨⟨by decide, 1, [7], by decide⟩, ⟨by decide, 2, [7], by decide⟩, by simp⟩)
    (by decide)

end TauTerm.Modbus.Ascii
