import Mathlib
import TauTerm.Tftp.SendRuns
import TauTerm.Transfer.CrcBits

/-!
# What `send_file` counts

The counter and the checksum take every block when it is sent, also when it is sent again.
A run counts the file once exactly if no step that starts the window again sends bytes a
second time (`Sender.Fresh`).
-/

namespace TauTerm.Tftp

open Lib

variable {R : Type} {read : WindowRead R} {params : TftpDynamicParams} {law : read.Lawful}
  {blocks : List (List UInt8)} {w pos : Nat} {s s' t : Sender R} {content : List UInt8}

/-- The result is that of the file; `crc` is the checksum of what went into the hasher. -/
def TransferResult.Correct (crc : List UInt8 → UInt32) (content : List UInt8)
    (result : TransferResult) : Prop :=
  result.bytesTransferred = content.length ∧ result.checksum.map crc = some (crc content)

/-- Starting the window again neither sends bytes a second time nor leaves any out. -/
def Sender.Fresh (read : WindowRead R) (params : TftpDynamicParams) (s : Sender R)
    (event : SendEvent) : Prop :=
  ∀ amount, s.rewind params event = some amount →
    (((read.elements s.window).take (max amount s.wrIdx)).drop (min amount s.wrIdx)).flatten = []

instance (event : SendEvent) : Decidable (s.Fresh read params event) :=
  inferInstanceAs (Decidable (∀ amount ∈ s.rewind params event,
    (((read.elements s.window).take (max amount s.wrIdx)).drop (min amount s.wrIdx)).flatten = []))

/-- Only blocks that were sent are acknowledged. -/
def Sender.Answered (params : TftpDynamicParams) (s : Sender R) (event : SendEvent) : Prop :=
  ∀ amount, s.rewind params event = some amount → amount ≤ s.wrIdx

/-- The bytes of the first `n` blocks. -/
def front (blocks : List (List UInt8)) (n : Nat) : List UInt8 := (blocks.take n).flatten

theorem front_succ {n : Nat} {block : List UInt8} (h : blocks[n]? = some block) :
    front blocks (n + 1) = front blocks n ++ block := by
  rw [front, List.take_add_one, h, Option.toList_some, List.flatten_append, List.flatten_singleton]
  rfl

theorem front_all {n : Nat} (h : blocks.length ≤ n) : front blocks n = blocks.flatten := by
  rw [front, List.take_of_length_le h]

/-- The blocks of the window between two places are those of the file. -/
theorem front_between (h : Holds law blocks w pos s.window s.more) {a b : Nat} (hab : a ≤ b)
    (hb : b ≤ (read.elements s.window).length) :
    front blocks (pos + b) =
      front blocks (pos + a) ++ (((read.elements s.window).take b).drop a).flatten := by
  have hlen := h.length
  have hwindow : ((read.elements s.window).take b).drop a =
      (blocks.drop (pos + a)).take (b - a) := by
    rw [h.elements, List.take_take, List.drop_take, List.drop_drop]
    congr 1
    omega
  rw [hwindow, front, front, ← List.flatten_append, show pos + b = pos + a + (b - a) by omega,
    List.take_add]

theorem front_eq_of_flatten_nil (h : Holds law blocks w pos s.window s.more) {a b : Nat}
    (ha : a ≤ (read.elements s.window).length) (hb : b ≤ (read.elements s.window).length)
    (hnil : (((read.elements s.window).take (max a b)).drop (min a b)).flatten = []) :
    front blocks (pos + a) = front blocks (pos + b) := by
  rcases le_total a b with hab | hba
  · rw [max_eq_right hab, min_eq_left hab] at hnil
    rw [front_between h hab hb, hnil, List.append_nil]
  · rw [max_eq_left hba, min_eq_right hba] at hnil
    rw [front_between h hba ha, hnil, List.append_nil]

/-! ## Runs that send everything once -/

/-- Each block is counted when it was sent first. -/
def Sender.Counted (law : read.Lawful) (blocks : List (List UInt8)) (w : Nat) (s : Sender R) : Prop :=
  match s.phase with
  | .finished (.ok result) => result = ⟨blocks.flatten.length, some blocks.flatten⟩
  | .finished (.error _) => True
  | _ => ∃ pos, s.Held law blocks w pos ∧ s.hasher = front blocks (pos + s.wrIdx) ∧
      s.bytesSent = s.hasher.length

theorem Sender.counted_of_open (hopen : s.Open) (hheld : s.Held law blocks w pos)
    (hhasher : s.hasher = front blocks (pos + s.wrIdx)) (hbytes : s.bytesSent = s.hasher.length) :
    s.Counted law blocks w := by
  unfold Sender.Counted
  split
  · rename_i hphase
    exact absurd hphase (hopen _)
  · trivial
  · exact ⟨pos, hheld, hhasher, hbytes⟩

theorem no_step_of_finished {event : SendEvent} {outcome : Outcome}
    (hphase : s.phase = .finished outcome) : ¬ SendSteps read params s event s' := by
  unfold SendSteps Sender.step
  cases event <;> simp [hphase]

theorem Sender.Counted.step (h : s.Counted law blocks w) (hbounded : read.Bounded)
    {event : SendEvent} (hs : SendSteps read params s event s')
    (hfresh : s.Fresh read params event) : s'.Counted law blocks w := by
  unfold Sender.Counted at h
  split at h
  · rename_i hphase
    exact absurd hs (no_step_of_finished hphase)
  · rename_i hphase
    exact absurd hs (no_step_of_finished hphase)
  obtain ⟨pos, hheld, hhasher, hbytes⟩ := h
  cases hheld.cases hbounded hs with
  | failed error hphase =>
    unfold Sender.Counted
    rw [hphase]
    trivial
  | sent frame hframe hhasher' hbytes' hidx _ hheld' hopen =>
    refine Sender.counted_of_open hopen hheld' ?_ ?_
    · rw [hhasher', hhasher, hidx, ← Nat.add_assoc, front_succ hframe]
    · rw [hbytes', hhasher', List.length_append, hbytes]
  | quiet _ hhasher' hbytes' hidx _ hheld' hopen =>
    refine Sender.counted_of_open hopen hheld' ?_ ?_
    · rw [hhasher', hhasher, hidx]
    · rw [hbytes', hhasher', hbytes]
  | again amount hrewind hle hhasher' hbytes' hidx _ hheld' hopen =>
    refine Sender.counted_of_open hopen hheld' ?_ ?_
    · rw [hhasher', hhasher, hidx, Nat.add_zero]
      exact (front_eq_of_flatten_nil hheld.window hle hheld.idx (hfresh _ hrewind)).symm
    · rw [hbytes', hhasher', hbytes]
  | through amount hrewind hle hend hphase =>
    have hall : s.hasher = blocks.flatten := by
      rw [hhasher, ← front_eq_of_flatten_nil hheld.window hle hheld.idx (hfresh _ hrewind)]
      exact front_all hend.ge
    unfold Sender.Counted
    rw [hphase, hbytes, hall]

/-! ## Runs that send something again -/

variable (read params) in
/-- Runs whose steps all send everything once. -/
def FreshRun (s : Sender R) (events : List SendEvent) (t : Sender R) : Prop :=
  Run (fun s event s' => SendSteps read params s event s' ∧ s.Fresh read params event)
    s events t

variable (read params) in
/-- Runs in which only blocks that were sent are acknowledged. -/
def AnsweredRun (s : Sender R) (events : List SendEvent) (t : Sender R) : Prop :=
  Run (fun s event s' => SendSteps read params s event s' ∧ s.Answered params event) s events t

/-- What is sent again is counted again. -/
theorem AnsweredRun.counts {events : List SendEvent} (h : AnsweredRun read params s events t)
    (hbounded : read.Bounded) (hheld : s.Held law blocks w pos) (hopen : s.Open)
    {result : TransferResult} (hok : t.phase = .finished (.ok result)) :
    ∃ resent, result.bytesTransferred + (front blocks (pos + s.wrIdx)).length =
        s.bytesSent + blocks.flatten.length + resent ∧
      (resent = 0 → FreshRun read params s events t) := by
  induction h generalizing pos with
  | nil s => exact absurd hok (hopen _)
  | @cons s s' t event events hs hrun ih =>
    obtain ⟨hs, hanswered⟩ := hs
    cases hheld.cases hbounded hs with
    | failed error hphase =>
      cases hrun with
      | nil => rw [hphase] at hok; cases hok
      | cons hs' _ => exact absurd hs'.1 (no_step_of_finished hphase)
    | sent frame hframe _ hbytes hidx _ hheld' hopen' =>
      obtain ⟨resent, hcount, hfresh⟩ := ih hheld' hopen' hok
      refine ⟨resent, ?_, fun hzero => .cons ⟨hs, nofun⟩ (hfresh hzero)⟩
      rw [hidx, ← Nat.add_assoc, front_succ hframe, List.length_append, hbytes] at hcount
      omega
    | quiet hrewind _ hbytes hidx _ hheld' hopen' =>
      obtain ⟨resent, hcount, hfresh⟩ := ih hheld' hopen' hok
      have hstep : s.Fresh read params event := fun amount hsome => by
        rw [hrewind] at hsome
        cases hsome
      refine ⟨resent, ?_, fun hzero => .cons ⟨hs, hstep⟩ (hfresh hzero)⟩
      rw [hidx, hbytes] at hcount
      exact hcount
    | again amount hrewind hle _ hbytes hidx _ hheld' hopen' =>
      obtain ⟨resent, hcount, hfresh⟩ := ih hheld' hopen' hok
      have hsent := hanswered amount hrewind
      have hbetween := congrArg List.length (front_between hheld.window hsent hheld.idx)
      rw [hidx, hbytes, Nat.add_zero] at hcount
      rw [List.length_append] at hbetween
      refine ⟨resent + (((read.elements s.window).take s.wrIdx).drop amount).flatten.length,
        by omega, fun hzero => .cons ⟨hs, fun amount' hsome => ?_⟩ (hfresh (by omega))⟩
      rw [hrewind] at hsome
      obtain rfl := Option.some.inj hsome
      rw [max_eq_right hsent, min_eq_left hsent]
      exact List.eq_nil_of_length_eq_zero (by omega)
    | through amount hrewind hle hend hphase =>
      have hsent := hanswered amount hrewind
      have hlen := hheld.window.length
      have hidx := hheld.idx
      cases hrun with
      | cons hs' _ => exact absurd hs'.1 (no_step_of_finished hphase)
      | nil =>
        rw [hphase] at hok
        cases hok
        have hall : front blocks (pos + s.wrIdx) = blocks.flatten := front_all (by omega)
        refine ⟨0, by rw [hall]; rfl, fun _ => .cons ⟨hs, fun amount' hsome => ?_⟩ (.nil _)⟩
        rw [hrewind] at hsome
        obtain rfl := Option.some.inj hsome
        have hnone : ((read.elements s.window).take s.wrIdx).drop amount = [] :=
          List.drop_eq_nil_of_le (by rw [List.length_take]; omega)
        rw [max_eq_right hsent, min_eq_left hsent, hnone]
        rfl

/-! ## The result -/

theorem sendFile_held (law : read.Lawful) {blockSize : Nat} (hsize : 0 < blockSize)
    (hcontent : content ≠ []) :
    (sendFile read params blockSize content).Held law (cut blockSize content) params.windowSize 0 ∧
      (sendFile read params blockSize content).Open ∧
      (sendFile read params blockSize content).wrIdx = 0 ∧
      (sendFile read params blockSize content).hasher = [] ∧
      (sendFile read params blockSize content).bytesSent = 0 := by
  obtain ⟨hrun, hbase, hidx, hphase⟩ := @sendFile_running _ _ params law _ _ hsize hcontent
  have hwindow := hrun.elements
  have hrest := hrun.rest
  rw [hbase] at hwindow hrest
  refine ⟨⟨⟨hrun.size, hwindow, hrest, hrun.more, List.length_pos_of_ne_nil (cut_ne_nil _ _)⟩, hrun.idx⟩,
    fun outcome => by rw [hphase]; nofun, hidx, ?_, ?_⟩
  · unfold sendFile
    rw [if_neg hcontent]
    split <;> rfl
  · unfold sendFile
    rw [if_neg hcontent]
    split <;> rfl

/-- **The accounts of a sender.** In a run that ends well, with steps that all send everything
once, the result is that of the file. If only blocks that were sent are acknowledged, it is
that of the file in no other run. -/
theorem sendFile_accounts (law : read.Lawful) (hbounded : read.Bounded)
    (crc : List UInt8 → UInt32) {blockSize : Nat} (hsize : 0 < blockSize)
    {events : List SendEvent} {result : TransferResult}
    (hrun : Run (SendSteps read params) (sendFile read params blockSize content) events t)
    (hok : t.phase = .finished (.ok result)) :
    (FreshRun read params (sendFile read params blockSize content) events t →
      result.Correct crc content) ∧
    (AnsweredRun read params (sendFile read params blockSize content) events t →
      (result.Correct crc content ↔
        FreshRun read params (sendFile read params blockSize content) events t)) := by
  by_cases hcontent : content = []
  · -- there is nothing to send
    have hphase : (sendFile read params blockSize content).phase = .finished (.ok ⟨0, some []⟩) := by
      simp [sendFile, hcontent, Sender.finish]
    cases hrun with
    | cons hs _ => exact absurd hs (no_step_of_finished hphase)
    | nil =>
      rw [hphase] at hok
      cases hok
      have hcorrect : TransferResult.Correct crc content ⟨0, some []⟩ := by
        rw [hcontent]
        exact ⟨rfl, rfl⟩
      exact ⟨fun _ => hcorrect, fun _ => ⟨fun _ => .nil _, fun _ => hcorrect⟩⟩
  obtain ⟨hheld, hopen, hidx, hhasher, hbytes⟩ := @sendFile_held _ _ params _ law _ hsize hcontent
  have hfile : (cut blockSize content).flatten = content := flatten_cut _ _ hsize
  have hfront : front (cut blockSize content) 0 = [] := rfl
  have hcorrect : FreshRun read params (sendFile read params blockSize content) events t →
      result.Correct crc content := fun hfresh => by
    have hstart := Sender.counted_of_open hopen hheld (by rw [hhasher, hidx, hfront])
      (by rw [hbytes, hhasher]; rfl)
    have hcounted := hfresh.invariant (fun _ _ _ h hs => h.step hbounded hs.1 hs.2) hstart
    unfold Sender.Counted at hcounted
    rw [hok, hfile] at hcounted
    obtain rfl : result = ⟨content.length, some content⟩ := hcounted
    exact ⟨rfl, rfl⟩
  refine ⟨hcorrect, fun hanswered => ⟨fun h => ?_, hcorrect⟩⟩
  obtain ⟨resent, hcount, hfresh⟩ := hanswered.counts hbounded hheld hopen hok
  rw [hidx, Nat.add_zero, hfront, hfile, hbytes, h.1, List.length_nil] at hcount
  exact hfresh (by omega)

/-- The first block of two is acknowledged late, but before its timer. -/
theorem sendFile_accounts_inTime :
    TransferResult.Correct Transfer.crc32Bitwise [1, 2, 3] ⟨3, some [1, 2, 3]⟩ := by
  have hdone : (execute (stepWhere (Sender.step listRead {}) fun s event _ => s.Fresh listRead {} event)
      (sendFile listRead {} 2 [1, 2, 3])
      [.send false, .recv false false .wouldBlock, .recv false false (.packet (.ack 1)),
        .recv false false .wouldBlock, .send false, .recv false false (.packet (.ack 2)),
        .recv false false .wouldBlock]).map (·.phase) =
      some (.finished (.ok ⟨3, some [1, 2, 3]⟩)) := by decide
  obtain ⟨t, ht, hphase⟩ := Option.map_eq_some_iff.mp hdone
  have hfresh : FreshRun listRead {} (sendFile listRead {} 2 [1, 2, 3]) _ t := run_of_executeWhere ht
  have haccounts := sendFile_accounts listRead_lawful listRead_bounded Transfer.crc32Bitwise
    (by decide) (hfresh.mono fun _ _ _ hs => hs.1) hphase
  exact haccounts.1 hfresh

/-- The timer expires once, and the first block is sent again. -/
def blockSentTwice : List SendEvent :=
  [.send false, .recv false true .wouldBlock, .send false, .recv false false (.packet (.ack 1)),
    .recv false false .wouldBlock, .send false, .recv false false (.packet (.ack 2)),
    .recv false false .wouldBlock]

theorem sendFile_counts_twice :
    ∃ t result, Run (SendSteps listRead {}) (sendFile listRead {} 2 [1, 2, 3]) blockSentTwice t ∧
      t.phase = .finished (.ok result) ∧ ∀ crc, ¬ result.Correct crc [1, 2, 3] := by
  have hdone : (execute (Sender.step listRead {}) (sendFile listRead {} 2 [1, 2, 3])
      blockSentTwice).map (·.phase) = some (.finished (.ok ⟨5, some [1, 2, 1, 2, 3]⟩)) := by decide
  obtain ⟨t, ht, hphase⟩ := Option.map_eq_some_iff.mp hdone
  exact ⟨t, _, run_of_execute ht, hphase, fun crc h => absurd h.1 (by decide)⟩

end TauTerm.Tftp
