import Mathlib
import TauTerm.Lib.Lines
import TauTerm.Lib.Run
import TauTerm.Lib.RustText
import TauTerm.Lib.Transducer
import TauTerm.Lib.Utf8

/-!
# The journal stream

The SSH channel delivers the output of `journalctl -f` in chunks. A buffer holds the line that has
not ended, and is thrown away when a chunk makes it too long. The functions read a byte of `α` with
`byte`: the code has `α = UInt8`, and the proofs let every byte carry the record it belongs to.
-/

namespace TauTerm.Ssh

open Lib (splitLines IsLine transduce EachStep fromUtf8Lossy)
open Lib.Rust (isWhitespace trim)

def maxStreamLineBytes : Nat := 1024 * 1024

/-- What goes to the record parser: a drained line with its line feed, or what is left at the end. -/
inductive Handed (α : Type) where
  | line (drained : List α)
  | tail (lineBuffer : List α)
  deriving DecidableEq

variable {α β : Type} (byte : α → UInt8)

def Handed.bytes : Handed α → List α
  | .line drained => drained
  | .tail lineBuffer => lineBuffer

def Handed.map (f : α → β) : Handed α → Handed β
  | .line drained => .line (drained.map f)
  | .tail lineBuffer => .tail (lineBuffer.map f)

/-- `String::from_utf8_lossy(..).trim()`, if something is left. -/
def lineText (line : List UInt8) : Option (List Char) :=
  let line := trim (fromUtf8Lossy line)
  if line = [] then none else some line

/-- The text the record parser gets. -/
def Handed.text : Handed α → Option (List Char)
  | .line drained => lineText (drained.dropLast.map byte)
  | .tail lineBuffer => lineText (lineBuffer.map byte)

def isNewline (a : α) : Bool := byte a == 10

def pushCompleteLines (lineBuffer : List α) : List (Handed α) × List α :=
  match _ : lineBuffer.findIdx? (isNewline byte) with
  | some newline =>
    let rest := pushCompleteLines (lineBuffer.drop (newline + 1))
    (.line (lineBuffer.take (newline + 1)) :: rest.1, rest.2)
  | none => ([], lineBuffer)
  termination_by lineBuffer.length
  decreasing_by
    have := (List.findIdx?_eq_some_iff_findIdx_eq.mp ‹_›).1
    rw [List.length_drop]
    omega

def flushPartialLine (lineBuffer : List α) : List (Handed α) :=
  if lineBuffer.isEmpty then [] else [.tail lineBuffer]

/-- A chunk that makes the buffer too long is lost with it. -/
def receiveData (lineBuffer data : List α) : List α × List (Handed α) :=
  let lineBuffer := lineBuffer ++ data
  if maxStreamLineBytes < lineBuffer.length then ([], [])
  else
    let pushed := pushCompleteLines byte lineBuffer
    (pushed.2, pushed.1)

/-- Everything the loop hands on from a buffer, up to the end of the stream. -/
def streamFrom (lineBuffer : List α) (chunks : List (List α)) : List (Handed α) :=
  let run := transduce (receiveData byte) lineBuffer chunks
  run.2 ++ flushPartialLine run.1

def streamLines (chunks : List (List α)) : List (Handed α) := streamFrom byte [] chunks

/-- The buffer a chunk leaves behind. -/
def bufferAfter (lineBuffer data : List α) : List α := (receiveData byte lineBuffer data).1

/-! ## Records -/

/-- The bytes of a stream of records, each with the index of its record. -/
def stamp (records : List (List UInt8)) : List (List (Nat × UInt8)) :=
  records.mapIdx fun i record => (record ++ [10]).map (Prod.mk i)

/-- The record is shorter than the limit, and the parser gets it at all. -/
def isShort (records : List (List UInt8)) (i : Nat) : Bool :=
  match records[i]? with
  | some record => record.length < maxStreamLineBytes && (lineText record).isSome
  | none => false

/-- The byte belongs to a short record. -/
def ofShort (records : List (List UInt8)) (b : Nat × UInt8) : Bool := isShort records b.1

/-- Of what is handed on, the part with bytes of short records is these records, each one whole and
once, in order. -/
def HandsOnShort (records : List (List UInt8)) (chunks : List (List (Nat × UInt8))) : Prop :=
  (streamLines Prod.snd chunks).filter (fun h => h.bytes.any (ofShort records)) =
    ((stamp records).map Handed.line).filter fun h => h.bytes.any (ofShort records)

/-- A chunk that is lost with the buffer takes no byte of `K` along. -/
def Spares (K : α → Bool) (lineBuffer data : List α) : Prop :=
  maxStreamLineBytes < (lineBuffer ++ data).length → ∀ b ∈ lineBuffer ++ data, ¬ K b

/-! ## The loop splits lines -/

section Loop

variable {byte} {lineBuffer data : List α} {chunks : List (List α)}

theorem pushCompleteLines_eq (lineBuffer : List α) :
    pushCompleteLines byte lineBuffer =
      ((splitLines (isNewline byte) lineBuffer).1.map .line,
        (splitLines (isNewline byte) lineBuffer).2) := by
  induction lineBuffer using @pushCompleteLines.induct _ byte with
  | case1 lineBuffer newline hfind ih =>
    obtain ⟨hlt, hend, hbefore⟩ := List.findIdx?_eq_some_iff_getElem.mp hfind
    have hline : IsLine (isNewline byte) (lineBuffer.take (newline + 1)) := by
      refine ⟨lineBuffer.take newline, lineBuffer[newline], List.take_succ_eq_append_getElem hlt, hend, ?_⟩
      intro b hb
      obtain ⟨i, hi, rfl⟩ := List.mem_take_iff_getElem.mp hb
      exact hbefore i (by omega)
    have hsplit := Lib.splitLines_line hline (lineBuffer.drop (newline + 1))
    rw [List.take_append_drop] at hsplit
    rw [pushCompleteLines]
    split
    · rename_i newline' hfind'
      obtain rfl : newline = newline' := Option.some.inj (hfind.symm.trans hfind')
      rw [ih, hsplit]
      rfl
    · rename_i hnone
      rw [hnone] at hfind
      cases hfind
  | case2 lineBuffer hfind =>
    have hopen : ∀ a ∈ lineBuffer, ¬ isNewline byte a := fun a ha =>
      Bool.eq_false_iff.mp (List.findIdx?_eq_none_iff.mp hfind a ha)
    rw [Lib.splitLines_open hopen, pushCompleteLines]
    split
    · rename_i hsome
      rw [hsome] at hfind
      cases hfind
    · rfl

theorem receiveData_lost (h : maxStreamLineBytes < (lineBuffer ++ data).length) :
    receiveData byte lineBuffer data = ([], []) := if_pos h

theorem receiveData_split (h : ¬ maxStreamLineBytes < (lineBuffer ++ data).length) :
    receiveData byte lineBuffer data =
      ((splitLines (isNewline byte) (lineBuffer ++ data)).2,
        (splitLines (isNewline byte) (lineBuffer ++ data)).1.map .line) := by
  rw [receiveData, if_neg h, pushCompleteLines_eq]

theorem streamFrom_nil (lineBuffer : List α) :
    streamFrom byte lineBuffer [] = flushPartialLine lineBuffer := rfl

theorem streamFrom_cons (lineBuffer data : List α) (chunks : List (List α)) :
    streamFrom byte lineBuffer (data :: chunks) =
      (receiveData byte lineBuffer data).2 ++
        streamFrom byte (bufferAfter byte lineBuffer data) chunks := by
  rw [streamFrom, streamFrom, Lib.transduce_cons (Prod.mk.eta).symm, List.append_assoc]
  rfl

theorem bufferAfter_lost (h : maxStreamLineBytes < (lineBuffer ++ data).length) :
    bufferAfter byte lineBuffer data = [] := by
  rw [bufferAfter, receiveData_lost h]

theorem bufferAfter_split (h : ¬ maxStreamLineBytes < (lineBuffer ++ data).length) :
    bufferAfter byte lineBuffer data = (splitLines (isNewline byte) (lineBuffer ++ data)).2 := by
  rw [bufferAfter, receiveData_split h]

theorem streamFrom_lost (h : maxStreamLineBytes < (lineBuffer ++ data).length)
    (chunks : List (List α)) :
    streamFrom byte lineBuffer (data :: chunks) = streamFrom byte [] chunks := by
  rw [streamFrom_cons, bufferAfter_lost h, receiveData_lost h, List.nil_append]

theorem streamFrom_split (h : ¬ maxStreamLineBytes < (lineBuffer ++ data).length)
    (chunks : List (List α)) :
    streamFrom byte lineBuffer (data :: chunks) =
      (splitLines (isNewline byte) (lineBuffer ++ data)).1.map .line ++
        streamFrom byte (splitLines (isNewline byte) (lineBuffer ++ data)).2 chunks := by
  rw [streamFrom_cons, bufferAfter_split h, receiveData_split h]

/-- Chunks within one line only make the buffer longer. -/
theorem streamFrom_open {chunks : List (List α)}
    (hopen : ∀ a ∈ lineBuffer ++ chunks.flatten, ¬ isNewline byte a)
    (hfits : (lineBuffer ++ chunks.flatten).length ≤ maxStreamLineBytes) (later : List (List α)) :
    streamFrom byte lineBuffer (chunks ++ later) =
      streamFrom byte (lineBuffer ++ chunks.flatten) later := by
  induction chunks generalizing lineBuffer with
  | nil => simp
  | cons data chunks ih =>
    rw [List.flatten_cons, ← List.append_assoc] at hopen hfits ⊢
    have hdata : ∀ a ∈ lineBuffer ++ data, ¬ isNewline byte a := fun a ha =>
      hopen a (List.mem_append_left _ ha)
    have hlen : ¬ maxStreamLineBytes < (lineBuffer ++ data).length := by
      rw [List.length_append] at hfits
      omega
    rw [List.cons_append, streamFrom_split hlen, Lib.splitLines_open hdata]
    exact ih hopen hfits

/-- What else the bytes carry does not change what is handed on. -/
theorem streamFrom_map (lineBuffer : List α) (chunks : List (List α)) :
    streamFrom id (lineBuffer.map byte) (chunks.map (List.map byte)) =
      (streamFrom byte lineBuffer chunks).map (Handed.map byte) := by
  have hlines := fun xs => @Lib.splitLines_map _ _ (isNewline byte) byte (isNewline id)
      (fun _ => rfl) xs
  induction chunks generalizing lineBuffer with
  | nil => cases lineBuffer <;> rfl
  | cons data chunks ih =>
    rw [List.map_cons]
    by_cases hlost : maxStreamLineBytes < (lineBuffer ++ data).length
    · have hlost' : maxStreamLineBytes < (lineBuffer.map byte ++ data.map byte).length := by
        rwa [← List.map_append, List.length_map]
      rw [streamFrom_lost hlost, streamFrom_lost hlost', ← ih []]
      rfl
    · have hlost' : ¬ maxStreamLineBytes < (lineBuffer.map byte ++ data.map byte).length := by
        rwa [← List.map_append, List.length_map]
      rw [streamFrom_split hlost, streamFrom_split hlost', ← List.map_append, hlines, ih,
        List.map_append, List.map_map, List.map_map]
      rfl

end Loop

/-! ## What is lost with the buffer -/

section Spared

variable {byte} {K : α → Bool} {xs ys : List α}

/-- Every line has bytes of `K` only, or none of them. -/
def Uniform (byte : α → UInt8) (K : α → Bool) (xs : List α) : Prop :=
  ∀ l ∈ (splitLines (isNewline byte) xs).1, ∀ a ∈ l, ∀ b ∈ l, K a = K b

theorem splitLines_append_cases (xs ys : List α) :
    ∃ whole left, splitLines (isNewline byte) xs = (whole, left) ∧
      (((splitLines (isNewline byte) ys).1 = [] ∧
        splitLines (isNewline byte) (xs ++ ys) = (whole, left ++ (splitLines (isNewline byte) ys).2)) ∨
      ∃ l ls, (splitLines (isNewline byte) ys).1 = l :: ls ∧
        splitLines (isNewline byte) (xs ++ ys) =
          (whole ++ (left ++ l) :: ls, (splitLines (isNewline byte) ys).2)) := by
  refine ⟨_, _, rfl, ?_⟩
  have hopen := Lib.splitLines_open_append (@Lib.splitLines_spec _ (isNewline byte) xs).2.2 ys
  rw [Lib.splitLines_append xs ys]
  cases hy : splitLines (isNewline byte) ys with
  | mk ls rest =>
    rw [hy] at hopen
    rw [hopen]
    cases ls with
    | nil => exact .inl ⟨rfl, by simp⟩
    | cons l ls => exact .inr ⟨l, ls, rfl, rfl⟩

/-- The lines behind a cut, apart from the one that was cut. -/
theorem Uniform.right (h : Uniform byte K (xs ++ ys)) : Uniform byte K ys := by
  intro l hl a ha b hb
  obtain ⟨whole, left, -, ⟨hnone, -⟩ | ⟨l', ls, hys, hall⟩⟩ :=
    @splitLines_append_cases _ byte xs ys
  · rw [hnone] at hl
    cases hl
  · rw [hys] at hl
    unfold Uniform at h
    rw [hall] at h
    obtain rfl | hl := List.mem_cons.mp hl
    · exact h (left ++ l) (by simp) a (List.mem_append_right _ ha) b (List.mem_append_right _ hb)
    · exact h l (by simp [hl]) a ha b hb

/-- A front without bytes of `K` takes no line of `K` away. -/
theorem filter_lines_right (h : Uniform byte K (xs ++ ys)) (hxs : ∀ a ∈ xs, ¬ K a) :
    (splitLines (isNewline byte) (xs ++ ys)).1.filter (fun l => l.any K) =
      (splitLines (isNewline byte) ys).1.filter fun l => l.any K := by
  obtain ⟨whole, left, hsplit, hcases⟩ := @splitLines_append_cases _ byte xs ys
  have hflat : whole.flatten ++ left = xs := by
    have := @Lib.flatten_splitLines _ (isNewline byte) xs
    rwa [hsplit] at this
  have hwhole : whole.filter (fun l => l.any K) = [] := by
    rw [List.filter_eq_nil_iff]
    intro l hl hany
    obtain ⟨a, ha, hK⟩ := List.any_eq_true.mp hany
    apply hxs a _ hK
    rw [← hflat]
    exact List.mem_append_left _ (List.mem_flatten.mpr ⟨l, hl, ha⟩)
  obtain ⟨hnone, hall⟩ | ⟨l, ls, hys, hall⟩ := hcases
  · rw [hall, hnone, hwhole]
    rfl
  · rw [hall, hys, List.filter_append, hwhole, List.nil_append]
    cases left with
    | nil => rfl
    | cons a left =>
      -- the line that was cut has a byte outside `K`, so it has none of `K`
      have hline : ∀ b ∈ (a :: left) ++ l, ¬ K b := by
        intro b hb hK
        apply hxs a (hflat ▸ by simp)
        unfold Uniform at h
        rw [hall] at h
        rw [h ((a :: left) ++ l) (by simp) a (by simp) b hb]
        exact hK
      have hl : ¬ l.any K := by
        rw [Bool.not_eq_true, List.any_eq_false]
        exact fun b hb => hline b (List.mem_append_right _ hb)
      have hcut : ¬ ((a :: left) ++ l).any K := by
        rw [Bool.not_eq_true, List.any_eq_false]
        exact hline
      rw [List.filter_cons, if_neg hcut, List.filter_cons, if_neg hl]

/-- Nothing is left open behind a list that ends with a line. -/
theorem open_right (h : (splitLines (isNewline byte) (xs ++ ys)).2 = []) :
    (splitLines (isNewline byte) ys).2 = [] := by
  obtain ⟨whole, left, -, ⟨-, hall⟩ | ⟨l, ls, -, hall⟩⟩ := @splitLines_append_cases _ byte xs ys
  · rw [hall] at h
    exact (List.append_eq_nil_iff.mp h).2
  · rwa [hall] at h

theorem streamFrom_spared {lineBuffer : List α} {chunks : List (List α)}
    (hbuffer : ∀ a ∈ lineBuffer, ¬ isNewline byte a)
    (huniform : Uniform byte K (lineBuffer ++ chunks.flatten))
    (hends : (splitLines (isNewline byte) (lineBuffer ++ chunks.flatten)).2 = [])
    (h : EachStep (bufferAfter byte) (Spares K) lineBuffer chunks) :
    (streamFrom byte lineBuffer chunks).filter (fun x => x.bytes.any K) =
      ((splitLines (isNewline byte) (lineBuffer ++ chunks.flatten)).1.map Handed.line).filter
        fun x => x.bytes.any K := by
  induction chunks generalizing lineBuffer with
  | nil =>
    rw [List.flatten_nil, List.append_nil, Lib.splitLines_open hbuffer] at hends ⊢
    obtain rfl : lineBuffer = [] := hends
    rfl
  | cons data chunks ih =>
    obtain ⟨hspares, hrest⟩ := h
    rw [List.flatten_cons, ← List.append_assoc] at huniform hends ⊢
    by_cases hlost : maxStreamLineBytes < (lineBuffer ++ data).length
    · rw [bufferAfter_lost hlost] at hrest
      have hright := filter_lines_right huniform (hspares hlost)
      rw [streamFrom_lost hlost, ih (by simp) huniform.right (open_right hends) hrest,
        List.nil_append, List.filter_map, List.filter_map]
      exact congrArg (List.map Handed.line) hright.symm
    · rw [bufferAfter_split hlost] at hrest
      rw [streamFrom_split hlost]
      rw [Lib.splitLines_append (lineBuffer ++ data)] at hends ⊢
      have huniform' : Uniform byte K
          ((splitLines (isNewline byte) (lineBuffer ++ data)).2 ++ chunks.flatten) := by
        rw [← @Lib.flatten_splitLines _ (isNewline byte) (lineBuffer ++ data),
          List.append_assoc] at huniform
        exact huniform.right
      rw [List.filter_append, ih (Lib.splitLines_spec _).2.2 huniform' hends hrest, List.map_append,
        List.filter_append]

/-- The bytes of `K` among what is handed on. -/
def held (K : α → Bool) (hs : List (Handed α)) : Nat := (hs.map fun h => h.bytes.countP K).sum

theorem held_append (hs hs' : List (Handed α)) : held K (hs ++ hs') = held K hs + held K hs' := by
  simp [held]

theorem held_filter (hs : List (Handed α)) :
    held K (hs.filter fun h => h.bytes.any K) = held K hs := by
  induction hs with
  | nil => rfl
  | cons h hs ih =>
    have hsum : held K (h :: hs) = h.bytes.countP K + held K hs := rfl
    by_cases hany : h.bytes.any K
    · rw [List.filter_cons, if_pos hany, hsum, ← ih]
      rfl
    · have hzero : h.bytes.countP K = 0 := by
        rw [List.countP_eq_zero]
        exact fun a ha hK => hany (List.any_eq_true.mpr ⟨a, ha, hK⟩)
      rw [List.filter_cons, if_neg hany, ih, hsum, hzero, Nat.zero_add]

theorem held_lines (ls : List (List α)) : held K (ls.map .line) = ls.flatten.countP K := by
  induction ls with
  | nil => rfl
  | cons l ls ih =>
    rw [List.flatten_cons, List.countP_append, ← ih]
    rfl

/-- No byte is handed on twice, and if all of `K` are handed on, no buffer took one of them along. -/
theorem held_streamFrom (lineBuffer : List α) (chunks : List (List α)) :
    held K (streamFrom byte lineBuffer chunks) ≤ (lineBuffer ++ chunks.flatten).countP K ∧
      (held K (streamFrom byte lineBuffer chunks) = (lineBuffer ++ chunks.flatten).countP K →
        EachStep (bufferAfter byte) (Spares K) lineBuffer chunks) := by
  induction chunks generalizing lineBuffer with
  | nil =>
    refine ⟨?_, fun _ => trivial⟩
    rw [streamFrom_nil, flushPartialLine, List.flatten_nil, List.append_nil]
    split
    · exact Nat.zero_le _
    · simp [held, Handed.bytes]
  | cons data chunks ih =>
    rw [List.flatten_cons, ← List.append_assoc, List.countP_append]
    by_cases hlost : maxStreamLineBytes < (lineBuffer ++ data).length
    · obtain ⟨hle, heach⟩ := ih []
      rw [List.nil_append] at hle heach
      rw [streamFrom_lost hlost]
      refine ⟨by omega, fun heq => ⟨?_, ?_⟩⟩
      · intro _ b hb
        have hzero : (lineBuffer ++ data).countP K = 0 := by omega
        exact List.countP_eq_zero.mp hzero b hb
      · rw [bufferAfter_lost hlost]
        exact heach (by omega)
    · obtain ⟨hle, heach⟩ := ih (splitLines (isNewline byte) (lineBuffer ++ data)).2
      have hflat := congrArg (List.countP K)
        (@Lib.flatten_splitLines _ (isNewline byte) (lineBuffer ++ data))
      rw [List.countP_append] at hle heach hflat
      rw [streamFrom_split hlost, held_append, held_lines]
      refine ⟨by omega, fun heq => ⟨fun h => absurd h hlost, ?_⟩⟩
      rw [bufferAfter_split hlost]
      exact heach (by omega)

end Spared

/-! ## Short records -/

section Short

variable {records : List (List UInt8)} {chunks : List (List (Nat × UInt8))}

theorem mem_stamp {l : List (Nat × UInt8)} (h : l ∈ stamp records) :
    ∃ i record, record ∈ records ∧ l = (record ++ [10]).map (Prod.mk i) := by
  obtain ⟨i, hi, rfl⟩ := List.mem_mapIdx.mp h
  exact ⟨i, records[i], List.getElem_mem hi, rfl⟩

theorem isLine_stamp (hrecords : ∀ record ∈ records, 10 ∉ record) {l : List (Nat × UInt8)}
    (h : l ∈ stamp records) : IsLine (isNewline Prod.snd) l := by
  obtain ⟨i, record, hrecord, rfl⟩ := mem_stamp h
  refine ⟨record.map (Prod.mk i), (i, 10), by simp, rfl, ?_⟩
  intro b hb hend
  obtain ⟨c, hc, rfl⟩ := List.mem_map.mp hb
  obtain rfl : c = 10 := by simpa [isNewline] using hend
  exact hrecords record hrecord hc

theorem splitLines_stamp (hrecords : ∀ record ∈ records, 10 ∉ record) :
    splitLines (isNewline Prod.snd) (stamp records).flatten = (stamp records, []) := by
  have h := Lib.splitLines_flatten (fun l hl => isLine_stamp hrecords (l := l) hl) []
  rwa [List.append_nil, show splitLines (isNewline Prod.snd) ([] : List (Nat × UInt8)) = ([], []) from rfl,
    List.append_nil] at h

theorem uniform_stamp (hrecords : ∀ record ∈ records, 10 ∉ record) :
    Uniform Prod.snd (ofShort records) (stamp records).flatten := by
  intro l hl a ha b hb
  rw [splitLines_stamp hrecords] at hl
  obtain ⟨i, record, -, rfl⟩ := mem_stamp hl
  obtain ⟨_, _, rfl⟩ := List.mem_map.mp ha
  obtain ⟨_, _, rfl⟩ := List.mem_map.mp hb
  rfl

/-- However the stream is cut, its short records are handed on, each one whole and once, exactly if
no buffer that grows too long holds a byte of one. -/
theorem handsOnShort_iff (hrecords : ∀ record ∈ records, 10 ∉ record)
    (hcut : chunks.flatten = (stamp records).flatten) :
    HandsOnShort records chunks ↔
      EachStep (bufferAfter Prod.snd) (Spares (ofShort records)) [] chunks := by
  have hsplit := splitLines_stamp hrecords
  rw [← hcut] at hsplit
  constructor
  · intro h
    have hheld := congrArg (held (ofShort records)) h
    rw [held_filter, held_filter, held_lines, ← hcut] at hheld
    exact (held_streamFrom [] chunks).2 (by rwa [List.nil_append])
  · intro h
    have huniform := uniform_stamp hrecords
    rw [← hcut] at huniform
    have hall := streamFrom_spared (by simp) (by rwa [List.nil_append])
      (by rw [List.nil_append, hsplit]) h
    rwa [List.nil_append, hsplit] at hall

theorem handsOnShort_two :
    HandsOnShort [[97], [98]] [[(0, 97)], [(0, 10), (1, 98), (1, 10)]] := by
  refine (handsOnShort_iff (by decide) (by decide)).mpr ⟨fun h => absurd h (by decide), ?_, trivial⟩
  rw [bufferAfter_split (by decide)]
  exact fun h => absurd h (by decide)

end Short

/-- A text that begins with a letter is no blank line. -/
theorem lineText_isSome (line : List UInt8) : (lineText (97 :: line)).isSome := by
  have hne : trim (fromUtf8Lossy (97 :: line)) ≠ [] := by
    have hchars : fromUtf8Lossy (97 :: line) = 'a' :: fromUtf8Lossy line := rfl
    have hdrop : ('a' :: fromUtf8Lossy line).dropWhile isWhitespace = 'a' :: fromUtf8Lossy line := rfl
    rw [trim, hchars, hdrop]
    intro hnil
    exact absurd (List.rdropWhile_eq_nil_iff.mp hnil 'a' List.mem_cons_self) (by decide)
  unfold lineText
  simp only
  rw [if_neg hne]
  rfl

section Lost

variable {k size t m n : Nat}

/-- A record of `n` bytes that comes in chunks of `size` bytes, and one of `m` bytes in its last
chunk. -/
def longChunks (k size t m : Nat) : List (List (Nat × UInt8)) :=
  ([(0, 97)] :: List.replicate k (List.replicate size (0, 97))) ++
    [List.replicate t (0, 97) ++ (0, 10) :: (List.replicate m (1, 98) ++ [(1, 10)])]

theorem stamp_long (n m : Nat) :
    stamp [List.replicate n 97, List.replicate m 98] =
      [List.replicate n (0, 97) ++ [(0, 10)], List.replicate m (1, 98) ++ [(1, 10)]] := by
  simp [stamp]

theorem flatten_early (k size : Nat) :
    ([((0, 97) : Nat × UInt8)] :: List.replicate k (List.replicate size (0, 97))).flatten =
      List.replicate (1 + k * size) (0, 97) := by
  rw [List.flatten_cons, List.flatten_replicate_replicate]
  exact List.replicate_append_replicate (n := 1)

theorem flatten_longChunks (hn : n = 1 + k * size + t) :
    (longChunks k size t m).flatten =
      (stamp [List.replicate n 97, List.replicate m 98]).flatten := by
  rw [longChunks, List.flatten_append, flatten_early, stamp_long, hn]
  rw [List.flatten_singleton, ← List.append_assoc, List.replicate_append_replicate]
  simp

/-- The last chunk makes the buffer too long, whatever the length of the record was. -/
theorem longChunks_lost (hn : n = 1 + k * size + t) (hshort : n < maxStreamLineBytes)
    (hlong : maxStreamLineBytes < n + m + 2) :
    ¬ HandsOnShort [List.replicate n 97, List.replicate m 98] (longChunks k size t m) := by
  intro h
  have hopen : ∀ b ∈ [] ++ ([((0, 97) : Nat × UInt8)] ::
      List.replicate k (List.replicate size (0, 97))).flatten, ¬ isNewline Prod.snd b := by
    rw [List.nil_append, flatten_early]
    intro b hb
    rw [List.eq_of_mem_replicate hb]
    decide
  have hlost : streamLines Prod.snd (longChunks k size t m) = [] := by
    rw [streamLines, longChunks, streamFrom_open hopen, List.nil_append, flatten_early,
      streamFrom_lost]
    · rfl
    · simp only [List.length_append, List.length_replicate, List.length_cons, List.length_nil]
      omega
    · rw [List.nil_append, flatten_early, List.length_replicate]
      omega
  have hrecord : isShort [List.replicate n 97, List.replicate m 98] 0 := by
    have htext : (lineText (List.replicate n 97)).isSome := by
      rw [hn, Nat.add_assoc, Nat.add_comm 1, List.replicate_succ]
      exact lineText_isSome _
    simp only [isShort, List.getElem?_cons_zero, List.length_replicate, htext, Bool.and_true,
      decide_eq_true_eq]
    exact hshort
  have hkept : ((Handed.line (List.replicate n (0, 97) ++ [(0, 10)])).bytes).any
      (ofShort [List.replicate n 97, List.replicate m 98]) := by
    rw [List.any_eq_true]
    exact ⟨(0, 10), List.mem_append_right _ List.mem_cons_self, hrecord⟩
  rw [HandsOnShort, hlost, stamp_long, List.map_cons, List.filter_cons, if_pos hkept] at h
  cases h

/-- Chunks of 32 KiB at most, and a record below the limit that is lost. -/
theorem short_record_lost :
    ∃ records chunks, (∀ record ∈ records, 10 ∉ record ∧ record.length < maxStreamLineBytes) ∧
      chunks.flatten = (stamp records).flatten ∧ (∀ data ∈ chunks, data.length ≤ 32 * 1024) ∧
      ¬ HandsOnShort records chunks := by
  have hmax : maxStreamLineBytes = 1048576 := rfl
  refine ⟨[List.replicate 1048560 97, List.replicate 15 98], longChunks 31 32768 32751 15, ?_,
    flatten_longChunks (by norm_num), ?_, longChunks_lost (by norm_num) (by omega) (by omega)⟩
  · intro record hrecord
    obtain rfl | hrecord := List.mem_cons.mp hrecord
    · refine ⟨fun h => ?_, by rw [List.length_replicate]; omega⟩
      exact absurd (List.eq_of_mem_replicate h) (by decide)
    · obtain rfl := List.mem_singleton.mp hrecord
      refine ⟨fun h => ?_, by rw [List.length_replicate]; omega⟩
      exact absurd (List.eq_of_mem_replicate h) (by decide)
  · intro data hdata
    obtain hdata | hdata := List.mem_append.mp hdata
    · obtain rfl | hdata := List.mem_cons.mp hdata
      · decide
      · rw [List.eq_of_mem_replicate hdata, List.length_replicate]
    · rw [List.mem_singleton.mp hdata]
      simp only [List.length_append, List.length_replicate, List.length_cons, List.length_nil]
      omega

end Lost

end TauTerm.Ssh
