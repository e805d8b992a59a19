import Mathlib
import TauTerm.Transfer.YModem

/-!
# What a YModem transfer delivers over a perfect line

The data packets of `ymodem_send`, and what `ymodem_receive` makes of them. The receiver tells
metadata from data by the number 0 and a header of 128 bytes. The sender ends a file with short
blocks, whose numbers wrap, so a data packet can look like a block 0; when it does depends
on the length of the file alone (`Regular`).
-/

namespace TauTerm.Transfer.YModem

open Lib XModem

/-! ## The sender -/

def trailerBlockThreshold : Nat := 896

/-- The size of the next block, with so many bytes left. -/
def nextBlockSize (userBlockSize remaining : Nat) : Nat :=
  if remaining ≤ trailerBlockThreshold then 128 else userBlockSize

/-- A block, filled up with `CPMEOF`. -/
def fillBlock (size : Nat) (chunk : List UInt8) : List UInt8 :=
  chunk ++ List.replicate (size - chunk.length) cpmeof

/-- The packets of `ymodem_send` for what is left of a file, from the number `blockNum` on. The
file is as long as it was announced. -/
def dataPackets (userBlockSize : Nat) (blockNum : UInt8) (rest : List UInt8) : List (List UInt8) :=
  let size := nextBlockSize userBlockSize rest.length
  if h : 0 < min size rest.length then
    sendPacketOnly blockNum (fillBlock size (rest.take size)) true ::
      dataPackets userBlockSize (blockNum + 1) (rest.drop size)
  else []
termination_by rest.length
decreasing_by
  simp only [List.length_drop]
  omega

/-- A byte that arrives in time. -/
def arriving (bytes : List UInt8) : List Input := bytes.map fun b => ⟨some b, false⟩

/-! ## When a data packet looks like a block 0 -/

/-- One of the packets for the last `len` bytes, from packet `i` on, is short and has the
number 0. -/
def LooksLikeMetadata (userBlockSize : Nat) (i len : Nat) : Prop :=
  let size := nextBlockSize userBlockSize len
  if _h : 0 < min size len then
    (size ≠ 1024 ∧ UInt8.ofNat (i + 1) = 0) ∨ LooksLikeMetadata userBlockSize (i + 1) (len - size)
  else False
termination_by len

/-- The lengths of files none of whose packets looks like a block 0. -/
def Regular (userBlockSize len : Nat) : Prop :=
  if userBlockSize = 128 then len ≤ 255 * 128
  else ¬(len % 1024 ≤ 896 ∧ 256 ≤ len / 1024 % 256 + (len % 1024 + 127) / 128)

instance (userBlockSize len : Nat) : Decidable (Regular userBlockSize len) := by
  unfold Regular
  infer_instance

theorem ofNat_eq_zero (n : Nat) : UInt8.ofNat n = 0 ↔ n % 256 = 0 := by
  rw [← UInt8.toNat_inj, UInt8.toNat_ofNat']
  rfl

/-- Only short packets are left: one of them is numbered 0 if the numbers wrap. -/
theorem looksLikeMetadata_short {userBlockSize : Nat} (i len : Nat)
    (h : len ≤ 896 ∨ userBlockSize = 128) :
    LooksLikeMetadata userBlockSize i len ↔ 256 ≤ i % 256 + (len + 127) / 128 := by
  induction len using Nat.strong_induction_on generalizing i with
  | _ len ih =>
    have hsize : nextBlockSize userBlockSize len = 128 := by
      unfold nextBlockSize trailerBlockThreshold
      split_ifs with hle
      · rfl
      · exact h.resolve_left hle
    rw [LooksLikeMetadata, hsize]
    by_cases hpos : 0 < len
    · rw [dif_pos (by omega), ih (len - 128) (by omega) (i + 1) (by omega), ofNat_eq_zero]
      simp only [ne_eq, show ¬(128 = 1024) by decide, not_false_eq_true, true_and]
      omega
    · rw [dif_neg (by omega)]
      exact iff_of_false id (by omega)

theorem looksLikeMetadata_long (i len : Nat) :
    LooksLikeMetadata 1024 i len ↔
      len % 1024 ≤ 896 ∧ 256 ≤ (i + len / 1024) % 256 + (len % 1024 + 127) / 128 := by
  induction len using Nat.strong_induction_on generalizing i with
  | _ len ih =>
    by_cases hshort : len ≤ 896
    · rw [looksLikeMetadata_short i len (.inl hshort)]
      omega
    · have hsize : nextBlockSize 1024 len = 1024 := if_neg hshort
      rw [LooksLikeMetadata, hsize, dif_pos (by omega), ih (len - 1024) (by omega) (i + 1)]
      simp only [ne_eq, not_true_eq_false, false_and, false_or]
      omega

theorem regular_iff {userBlockSize len : Nat} (h : userBlockSize = 128 ∨ userBlockSize = 1024) :
    Regular userBlockSize len ↔ ¬LooksLikeMetadata userBlockSize 0 len := by
  rcases h with rfl | rfl
  · rw [looksLikeMetadata_short 0 len (.inr rfl), Regular, if_pos rfl]
    omega
  · rw [looksLikeMetadata_long, Regular, if_neg (by decide), Nat.zero_add]

/-! ## Reading what was sent -/

section Read

variable {downloadDir : Path} {createFile : Path → Option String} {b : Batch}

theorem run_append (r : Receiver) (as bs : List Input) :
    (r.run downloadDir createFile (as ++ bs)).1 =
      ((r.run downloadDir createFile as).1.run downloadDir createFile bs).1 := by
  unfold Receiver.run
  rw [transduce_append]

/-- A block is read to its end, its number being all right. -/
theorem run_block {header : UInt8} (bytes got : List UInt8) (hne : bytes ≠ [])
    (hlen : got.length + bytes.length = blockLength .crc16 header)
    (hnumber : (got ++ bytes).getD 0 0 = ~~~((got ++ bytes).getD 1 0)) :
    ((⟨b, .block header got⟩ : Receiver).run downloadDir createFile (arriving bytes)).1 =
      (b.block downloadDir createFile header (readBlock header (got ++ bytes))).1 := by
  induction bytes generalizing got with
  | nil => exact absurd rfl hne
  | cons byte bytes ih =>
    have happend : got ++ byte :: bytes = got ++ [byte] ++ bytes := by simp
    rw [happend] at hnumber ⊢
    have hmatch : ¬Mismatch (got ++ [byte]) := by
      rintro ⟨h2, hm⟩
      rw [List.getD_append (got ++ [byte]) bytes 0 0 (by omega),
        List.getD_append (got ++ [byte]) bytes 0 1 (by omega)] at hnumber
      exact hm hnumber
    have hrun : ∀ next : Receiver × List UInt8,
        (⟨b, .block header got⟩ : Receiver).step downloadDir createFile ⟨some byte, false⟩ = next →
        ((⟨b, .block header got⟩ : Receiver).run downloadDir createFile (arriving (byte :: bytes))).1 =
          (next.1.run downloadDir createFile (arriving bytes)).1 := by
      rintro _ rfl
      rfl
    rw [List.length_cons] at hlen
    by_cases hnil : bytes = []
    · subst hnil
      rw [hrun _ rfl, List.append_nil]
      simp only [Receiver.step, Batch.readBlock]
      rw [if_neg hmatch, if_neg (by simp at hlen ⊢; omega)]
      rfl
    · have hpos : 0 < bytes.length := List.length_pos_iff.mpr hnil
      have hstep : (⟨b, .block header got⟩ : Receiver).step downloadDir createFile
          ⟨some byte, false⟩ = (⟨b, .block header (got ++ [byte])⟩, []) := by
        simp only [Receiver.step, Batch.readBlock]
        rw [if_neg hmatch, if_pos (by simp; omega)]
      rw [hrun _ hstep]
      exact ih (got ++ [byte]) hnil (by simp; omega) hnumber

theorem readBlock_sent (number : UInt8) (data : List UInt8) (header : UInt8)
    (hdata : data.length = blockSize header) (crc : UInt16) (hcrc : crc = crc16CcittZeroPad data) :
    readBlock header (number :: ~~~number ::
      (data ++ [(crc >>> 8).toUInt8, (crc &&& 0xFF).toUInt8])) = ⟨number, ~~~number, data, true⟩ := by
  subst hcrc
  have htake : ((data ++ [(crc16CcittZeroPad data >>> 8).toUInt8,
      (crc16CcittZeroPad data &&& 0xFF).toUInt8]).take (blockSize header)) = data :=
    List.take_left' hdata
  have hdrop : (number :: ~~~number :: (data ++ [(crc16CcittZeroPad data >>> 8).toUInt8,
      (crc16CcittZeroPad data &&& 0xFF).toUInt8])).drop (2 + blockSize header) =
        [(crc16CcittZeroPad data >>> 8).toUInt8, (crc16CcittZeroPad data &&& 0xFF).toUInt8] := by
    rw [Nat.add_comm, List.drop_succ_cons, List.drop_succ_cons]
    exact List.drop_left' hdata
  simp only [readBlock, readDataBlock, hdrop, List.drop_succ_cons, List.drop_zero, htake,
    List.getD_cons_zero, List.getD_cons_succ, verifyBlock, feedthrough_zero_pad]

def headerOf (data : List UInt8) : UInt8 := if data.length = 1024 then stx else soh

/-- A packet that was sent is read as it was sent. -/
theorem run_sent {number : UInt8} {data : List UInt8}
    (hdata : data.length = 128 ∨ data.length = 1024) :
    ((⟨b, .waiting⟩ : Receiver).run downloadDir createFile
        (arriving (sendPacketOnly number data true))).1 =
      (b.block downloadDir createFile (headerOf data) ⟨number, ~~~number, data, true⟩).1 := by
  have hheader : IsHeader (headerOf data) := by
    unfold headerOf
    split_ifs
    · exact .inr rfl
    · exact .inl rfl
  have hsize : data.length = blockSize (headerOf data) := by
    rcases hdata with h | h
    · rw [headerOf, h]
      rfl
    · rw [headerOf, h]
      rfl
  have hstep : (⟨b, .waiting⟩ : Receiver).step downloadDir createFile ⟨some (headerOf data), false⟩ =
      (⟨b, .block (headerOf data) []⟩, []) := by
    simp only [Receiver.step, Batch.readWaiting]
    rw [if_pos hheader]
  have hrun : ∀ bytes, ((⟨b, .waiting⟩ : Receiver).run downloadDir createFile
      (arriving (headerOf data :: bytes))).1 =
        ((⟨b, .block (headerOf data) []⟩ : Receiver).run downloadDir createFile
          (arriving bytes)).1 := fun bytes => by
    show (transduce _ _ (_ :: _)).1 = _
    rw [transduce_cons hstep]
    rfl
  rw [sendPacketOnly, if_pos rfl]
  rw [show (if data.length = 1024 then stx else soh) = headerOf data from rfl, hrun,
    run_block _ [] (List.cons_ne_nil _ _) _ _, List.nil_append, readBlock_sent _ _ _ hsize _ rfl]
  · simp [blockLength, trailerSize, hsize]
    omega
  · simp

/-! ## Results only grow -/

theorem Batch.results_complete (b : Batch) : b.results <+: b.complete.results := by
  unfold Batch.complete
  split
  · exact List.prefix_rfl
  · exact List.prefix_append _ _

theorem Batch.results_endOfFile (b : Batch) : b.results <+: b.endOfFile.results := by
  unfold Batch.endOfFile
  split
  · exact b.results_complete
  · split_ifs
    · exact List.prefix_rfl
    · exact List.prefix_append _ _

theorem Batch.results_openFile (b : Batch) (m : Metadata) :
    (b.openFile downloadDir createFile m).2.results = b.results := by
  unfold Batch.openFile
  cases h : createFile (destination downloadDir m.name) <;> simp only [h]

theorem Batch.results_openOrFail (b : Batch) (m : Metadata) (out : List UInt8) :
    (b.openOrFail downloadDir createFile m out).1.batch.results = b.results := by
  unfold Batch.openOrFail
  dsimp only
  split <;> exact b.results_openFile m

theorem Batch.results_firstBlock (b : Batch) (block : ReceivedBlock) :
    b.results <+: (b.firstBlock downloadDir createFile block).1.batch.results := by
  unfold Batch.firstBlock
  split_ifs
  · exact List.prefix_rfl
  · exact List.prefix_rfl
  · split
    · exact List.prefix_rfl
    · dsimp only
      split_ifs
      · exact List.prefix_rfl
      · rw [b.results_openOrFail]

theorem Batch.results_blockZero (b : Batch) (data : List UInt8) :
    b.complete.results <+: (b.blockZero downloadDir createFile data).1.batch.results := by
  unfold Batch.blockZero
  dsimp only
  split_ifs
  · exact List.prefix_rfl
  · exact List.prefix_append _ _
  · split
    · split_ifs
      · exact List.prefix_rfl
      · rw [b.complete.results_openOrFail]
    · split
      · exact List.prefix_rfl
      · rw [b.complete.results_openFile]

theorem Batch.results_probe (b : Batch) (retry : Nat) (windowOver : Bool) :
    (b.probe retry windowOver).1.batch.results = b.results := by
  unfold Batch.probe
  split_ifs <;> rfl

theorem Batch.results_nextProbe (b : Batch) (retry : Nat) :
    (b.nextProbe retry).1.batch.results = b.results := by
  unfold Batch.nextProbe
  dsimp only
  split_ifs <;> rfl

theorem Receiver.results_step (r : Receiver) (input : Input) :
    r.batch.results <+: (r.step downloadDir createFile input).1.batch.results := by
  obtain ⟨b, phase⟩ := r
  cases phase with
  | probing retry =>
    simp only [Receiver.step, Batch.readProbing]
    split
    · rw [Batch.results_probe]
    · split_ifs
      · exact List.prefix_rfl
      · exact List.prefix_rfl
      · rw [Batch.results_probe]
  | firstBlock retry header got =>
    simp only [Receiver.step]
    unfold Batch.readFirstBlock
    split
    · rw [Batch.results_nextProbe]
    · dsimp only
      split_ifs
      · rw [Batch.results_nextProbe]
      · exact List.prefix_rfl
      · rw [Batch.results_nextProbe]
      · exact Batch.results_firstBlock { b with lastCan := false } _
  | waiting =>
    simp only [Receiver.step]
    unfold Batch.readWaiting
    split
    · exact List.prefix_rfl
    · dsimp only
      split_ifs
      · exact List.prefix_rfl
      · exact b.results_endOfFile
      · exact List.prefix_rfl
      · exact List.prefix_rfl
  | block header got =>
    simp only [Receiver.step]
    unfold Batch.readBlock
    split
    · exact List.prefix_rfl
    · dsimp only
      split_ifs
      · exact List.prefix_rfl
      · exact List.prefix_rfl
      · unfold Batch.block
        split_ifs
        · exact List.prefix_rfl
        · exact b.results_complete.trans (b.results_blockZero _)
        · unfold Batch.dataBlock
          split_ifs <;> exact List.prefix_rfl
  | finished error => exact List.prefix_rfl

theorem Receiver.results_run (r : Receiver) (inputs : List Input) :
    r.batch.results <+: (r.run downloadDir createFile inputs).1.batch.results := by
  induction inputs generalizing r with
  | nil => exact List.prefix_rfl
  | cons input inputs ih => exact (r.results_step input).trans (ih _)

/-! ## The packets of a file -/

theorem nextBlockSize_cases {userBlockSize : Nat} (h : userBlockSize = 128 ∨ userBlockSize = 1024)
    (remaining : Nat) :
    nextBlockSize userBlockSize remaining = 128 ∨ nextBlockSize userBlockSize remaining = 1024 := by
  unfold nextBlockSize
  split_ifs
  · exact .inl rfl
  · exact h

theorem length_fillBlock {size : Nat} {chunk : List UInt8} (h : chunk.length ≤ size) :
    (fillBlock size chunk).length = size := by
  simp [fillBlock]
  omega

theorem headerOf_eq_stx {data : List UInt8} : headerOf data = stx ↔ data.length = 1024 := by
  unfold headerOf
  split_ifs with h
  · simp [h]
  · simp only [h, iff_false]
    decide

/-- The first packet of what is left, read while the file waits for just that. -/
theorem run_packet {f : OpenFile} {rest : List UInt8} {size i : Nat}
    (hsize : size = 128 ∨ size = 1024) (hfile : b.currentFile = some f)
    (htotal : f.totalSize = f.written.length + rest.length) (hpos : 0 < rest.length)
    (hlast : b.lastBlockNum ≠ some (UInt8.ofNat (i + 1)))
    (hdata : ¬(size ≠ 1024 ∧ UInt8.ofNat (i + 1) = 0)) :
    ((⟨b, .waiting⟩ : Receiver).run downloadDir createFile (arriving
        (sendPacketOnly (UInt8.ofNat (i + 1)) (fillBlock size (rest.take size)) true))).1 =
      ⟨{ b with
          currentFile := some { f with written := f.written ++ rest.take size }
          lastBlockNum := some (UInt8.ofNat (i + 1)) }, .waiting⟩ := by
  have hlen : (fillBlock size (rest.take size)).length = size :=
    length_fillBlock (List.length_take_le _ _)
  have hwrite : f.write (fillBlock size (rest.take size)) =
      { f with written := f.written ++ rest.take size } := by
    unfold OpenFile.write OpenFile.payload
    rw [if_pos (by omega), show f.totalSize - f.written.length = rest.length by omega, fillBlock]
    by_cases hfull : size ≤ rest.length
    · rw [List.length_take, min_eq_left hfull, Nat.sub_self, List.replicate_zero, List.append_nil,
        List.take_of_length_le (by rw [List.length_take, min_eq_left hfull]; exact hfull)]
    · rw [List.take_of_length_le (by omega : rest.length ≤ size), List.take_left]
  rw [run_sent (by rw [hlen]; exact hsize), Batch.block, if_neg (by simp), if_neg, Batch.dataBlock, if_neg hlast,
    hfile, Option.map_some, hwrite]
  rintro ⟨hzero, hshort⟩
  rw [ne_eq, headerOf_eq_stx, hlen] at hshort
  exact hdata ⟨hshort, hzero⟩

theorem ofNat_next_ne (i : Nat) : some (UInt8.ofNat (i + 1)) ≠ some (UInt8.ofNat (i + 1 + 1)) :=
  fun h => ofNat_succ_ne (i + 1) (Option.some.inj h).symm

theorem arriving_append (as bs : List UInt8) : arriving (as ++ bs) = arriving as ++ arriving bs :=
  List.map_append

theorem dataPackets_cons {userBlockSize i : Nat} {rest : List UInt8}
    (h : 0 < min (nextBlockSize userBlockSize rest.length) rest.length) :
    dataPackets userBlockSize (UInt8.ofNat (i + 1)) rest =
      sendPacketOnly (UInt8.ofNat (i + 1))
        (fillBlock (nextBlockSize userBlockSize rest.length)
          (rest.take (nextBlockSize userBlockSize rest.length))) true ::
      dataPackets userBlockSize (UInt8.ofNat (i + 1 + 1))
        (rest.drop (nextBlockSize userBlockSize rest.length)) := by
  rw [dataPackets, dif_pos h, UInt8.ofNat_add (i + 1) 1]
  rfl

theorem run_packets {userBlockSize : Nat} (hblock : userBlockSize = 128 ∨ userBlockSize = 1024)
    (f : OpenFile) (rest : List UInt8) (i : Nat) (hfile : b.currentFile = some f)
    (htotal : f.totalSize = f.written.length + rest.length)
    (hlast : b.lastBlockNum ≠ some (UInt8.ofNat (i + 1)))
    (hdata : ¬LooksLikeMetadata userBlockSize i rest.length) :
    ∃ last, ((⟨b, .waiting⟩ : Receiver).run downloadDir createFile
        (arriving (dataPackets userBlockSize (UInt8.ofNat (i + 1)) rest).flatten)).1 =
      ⟨{ b with
          currentFile := some { f with written := f.written ++ rest }, lastBlockNum := last },
        .waiting⟩ := by
  induction hn : rest.length using Nat.strong_induction_on generalizing b f rest i with
  | _ len ih =>
    subst hn
    have hsize := nextBlockSize_cases hblock rest.length
    by_cases hpos : 0 < min (nextBlockSize userBlockSize rest.length) rest.length
    · rw [LooksLikeMetadata, dif_pos hpos, not_or] at hdata
      rw [dataPackets_cons hpos, List.flatten_cons, arriving_append, run_append,
        run_packet hsize hfile htotal (by omega) hlast hdata.1]
      obtain ⟨last, hrun⟩ := ih _ (by rw [List.length_drop]; omega)
        (b := { b with
          currentFile := some { f with
            written := f.written ++ rest.take (nextBlockSize userBlockSize rest.length) }
          lastBlockNum := some (UInt8.ofNat (i + 1)) })
        { f with written := f.written ++ rest.take (nextBlockSize userBlockSize rest.length) }
        (rest.drop (nextBlockSize userBlockSize rest.length)) (i + 1) rfl
        (by simp; omega) (ofNat_next_ne i) (by rw [List.length_drop]; exact hdata.2) rfl
      refine ⟨last, hrun.trans ?_⟩
      simp
    · have hnil : rest = [] := List.length_eq_zero_iff.mp (by omega)
      subst hnil
      rw [dataPackets, dif_neg hpos]
      refine ⟨b.lastBlockNum, ?_⟩
      rw [List.append_nil, ← hfile]
      rfl

/-- A data packet that looks like a block 0 ends the file before it is whole. -/
theorem run_packets_cut {userBlockSize : Nat} (hblock : userBlockSize = 128 ∨ userBlockSize = 1024)
    (f : OpenFile) (rest : List UInt8) (i : Nat) (hfile : b.currentFile = some f)
    (htotal : f.totalSize = f.written.length + rest.length)
    (hlast : b.lastBlockNum ≠ some (UInt8.ofNat (i + 1)))
    (hdata : LooksLikeMetadata userBlockSize i rest.length) :
    ∃ len < f.totalSize, b.results ++ [⟨f.name, .completed, len, none⟩] <+:
      ((⟨b, .waiting⟩ : Receiver).run downloadDir createFile
        (arriving (dataPackets userBlockSize (UInt8.ofNat (i + 1)) rest).flatten)).1.batch.results := by
  induction hn : rest.length using Nat.strong_induction_on generalizing b f rest i with
  | _ len ih =>
    subst hn
    have hsize := nextBlockSize_cases hblock rest.length
    rw [LooksLikeMetadata] at hdata
    by_cases hpos : 0 < min (nextBlockSize userBlockSize rest.length) rest.length
    · rw [dif_pos hpos] at hdata
      rw [dataPackets_cons hpos, List.flatten_cons, arriving_append, run_append]
      by_cases hzero : nextBlockSize userBlockSize rest.length ≠ 1024 ∧ UInt8.ofNat (i + 1) = 0
      · have hlen : (fillBlock (nextBlockSize userBlockSize rest.length)
            (rest.take (nextBlockSize userBlockSize rest.length))).length =
              nextBlockSize userBlockSize rest.length :=
          length_fillBlock (List.length_take_le _ _)
        have hshort : headerOf (fillBlock (nextBlockSize userBlockSize rest.length)
            (rest.take (nextBlockSize userBlockSize rest.length))) ≠ stx := by
          rw [ne_eq, headerOf_eq_stx, hlen]
          exact hzero.1
        refine ⟨f.written.length, by omega, ?_⟩
        rw [run_sent (by rw [hlen]; exact hsize), Batch.block, if_neg (by simp), if_pos ⟨hzero.2, hshort⟩]
        refine List.IsPrefix.trans ?_ (Receiver.results_run _ _)
        refine List.IsPrefix.trans ?_ (b.results_blockZero _)
        rw [Batch.complete, hfile]
      · rw [run_packet hsize hfile htotal (by omega) hlast hzero]
        obtain ⟨w, hw, hstart⟩ := ih _ (by rw [List.length_drop]; omega)
          (b := { b with
            currentFile := some { f with
              written := f.written ++ rest.take (nextBlockSize userBlockSize rest.length) }
            lastBlockNum := some (UInt8.ofNat (i + 1)) })
          { f with written := f.written ++ rest.take (nextBlockSize userBlockSize rest.length) }
          (rest.drop (nextBlockSize userBlockSize rest.length)) (i + 1) rfl
          (by simp; omega) (ofNat_next_ne i)
          (by rw [List.length_drop]; exact hdata.resolve_left hzero) rfl
        exact ⟨w, hw, hstart⟩
    · rw [dif_neg hpos] at hdata
      exact hdata.elim

/-! ## A file over a perfect line -/

/-- The file is written exactly and reported as the one completed file; nothing else is opened, and
the batch goes on. -/
def Delivers (downloadDir : Path) (createFile : Path → Option String) (userBlockSize : Nat)
    (content : List UInt8) (name : List Char) (b : Batch) : Prop :=
  let r := ((⟨b, .waiting⟩ : Receiver).run downloadDir createFile
    (arriving ((dataPackets userBlockSize 1 content).flatten ++ [eot]))).1
  r.batch.results = b.results ++ [⟨name, .completed, content.length, none⟩] ∧
    r.batch.completed = b.completed ++ [⟨name, content.length, content⟩] ∧
    r.batch.opened = b.opened ∧ r.phase = .waiting

section Delivers

variable {userBlockSize : Nat} {content : List UInt8} {name : List Char}
  (hblock : userBlockSize = 128 ∨ userBlockSize = 1024)
  (hfile : b.currentFile = some ⟨name, content.length, []⟩) (hlast : b.lastBlockNum = none)

include hblock hfile hlast

theorem regular_of_delivers
    (h : Delivers downloadDir createFile userBlockSize content name b) :
    Regular userBlockSize content.length := by
  rw [regular_iff hblock]
  intro hlooks
  obtain ⟨hresults, -⟩ := h
  rw [arriving_append, run_append] at hresults
  obtain ⟨len, hlen, hstart⟩ := @run_packets_cut downloadDir createFile _ _ hblock _ content 0
      hfile (by simp) (by rw [hlast]; exact nofun) hlooks
  have hgrow := hstart.trans (@Receiver.results_run downloadDir createFile _ (arriving [eot]))
  have hone : UInt8.ofNat (0 + 1) = 1 := rfl
  rw [hone, hresults] at hgrow
  have heq := hgrow.eq_of_length (by simp)
  simp only [List.append_cancel_left_eq, List.cons.injEq, and_true] at heq
  have hsize : len = content.length := congrArg BatchFileResult.size heq
  exact absurd hlen (by simp [hsize])

theorem delivers_of_regular (h : Regular userBlockSize content.length) :
    Delivers downloadDir createFile userBlockSize content name b := by
  obtain ⟨last, hrun⟩ := @run_packets downloadDir createFile _ _ hblock _ content 0 hfile (by simp)
      (by rw [hlast]; exact nofun) ((regular_iff hblock).mp h)
  have hone : UInt8.ofNat (0 + 1) = 1 := rfl
  rw [hone] at hrun
  unfold Delivers
  simp only [arriving_append, run_append]
  rw [hrun]
  exact ⟨rfl, rfl, rfl, rfl⟩

/-- **Behind a block 0 that announces its length a file is delivered if and only if its length is
regular.** -/
theorem delivers_iff_regular :
    Delivers downloadDir createFile userBlockSize content name b ↔
      Regular userBlockSize content.length :=
  ⟨regular_of_delivers hblock hfile hlast, delivers_of_regular hblock hfile hlast⟩

end Delivers

/-- The state behind a block 0 for a file of this length. -/
def announced (len : Nat) : Batch where
  currentFile := some ⟨['a'], len, []⟩
  lastBlockNum := none
  fileIndex := 0
  results := []
  allPaddingFailureHandled := false
  lastCan := false
  opened := [⟨false, [['a']]⟩]
  completed := []

theorem delivers_iff_regular_small :
    Delivers ⟨true, []⟩ (fun _ => none) 1024 (List.replicate 3000 7) ['a'] (announced 3000) :=
  (delivers_iff_regular (b := announced 3000) (.inr rfl)
    (by rw [List.length_replicate]; rfl) rfl).mpr (by rw [List.length_replicate]; decide)

/-- With blocks of 128 bytes the number of the last packet has wrapped to 0. -/
theorem wrapped_packet_ends_file :
    ¬Delivers ⟨true, []⟩ (fun _ => none) 128 (List.replicate 32641 7) ['a'] (announced 32641) := by
  intro h
  have hregular := regular_of_delivers (b := announced 32641) (.inl rfl)
    (by rw [List.length_replicate]; rfl) rfl h
  rw [List.length_replicate] at hregular
  exact absurd hregular (by decide)

end Read

end TauTerm.Transfer.YModem
