import Mathlib
import TauTerm.Transfer.BatchSend

/-!
# The outcomes of a batch

Every file of a batch should get one result and, behind its `FileStart`, one `FileComplete`. For
`zmodem_send` that is so in every run that returns. `ymodem_send` tells its outer loop of a failure
by setting `total_sent` to 0: a file that turns out to be empty looks as if it had failed
(`Vanished`), and one that is announced as empty as if it had not (`FailsEmpty`).
-/

namespace TauTerm.Transfer.Batch

open Lib Lib.Proc YModem ZModem
open Lib.Prog (Returns)

/-! ## Traces -/

abbrev Trace : Type := List batchIo.Event

/-- The event that a call reports. -/
def eventOf : batchIo.Event → Option FileTransferEvent
  | ⟨.report event, _⟩ => some event
  | _ => none

def events (tr : Trace) : List FileTransferEvent := tr.filterMap eventOf

/-- The answer to a read of the file. -/
def readOf (index : Nat) : batchIo.Event → Option (Except String (List UInt8))
  | ⟨.readFile i _, answer⟩ => if i = index then some answer else none
  | _ => none

def reads (index : Nat) (tr : Trace) : List (Except String (List UInt8)) :=
  tr.filterMap (readOf index)

/-- How a data block of the file ended. -/
def blockOf (index : Nat) : batchIo.Event → Option (Except String Unit)
  | ⟨.sendBlock i _ _ _, answer⟩ => if i = index then some answer else none
  | _ => none

def blocks (index : Nat) (tr : Trace) : List (Except String Unit) := tr.filterMap (blockOf index)

def isError {α : Type} : Except String α → Bool
  | .error _ => true
  | .ok _ => false

/-- `Ok(0)` -/
def isEmptyRead : Except String (List UInt8) → Bool
  | .ok [] => true
  | _ => false

/-- The file is announced with a size, and its first read comes back empty. -/
def Vanished (info : FileInfo) (index : Nat) (tr : Trace) : Prop :=
  0 < info.size ∧ (reads index tr).head?.any isEmptyRead = true

/-- The file is announced as empty, and a read or a data block of it fails. -/
def FailsEmpty (info : FileInfo) (index : Nat) (tr : Trace) : Prop :=
  info.size = 0 ∧ ((reads index tr).any isError || (blocks index tr).any isError) = true

instance (info : FileInfo) (index : Nat) (tr : Trace) : Decidable (Vanished info index tr) :=
  inferInstanceAs (Decidable (_ ∧ _))

instance (info : FileInfo) (index : Nat) (tr : Trace) : Decidable (FailsEmpty info index tr) :=
  inferInstanceAs (Decidable (_ ∧ _))

def Completes (index : Nat) : FileTransferEvent → Bool
  | .fileComplete _ i _ _ _ _ => i = index
  | .fileStart .. => false

/-- Every `FileStart` is followed by one `FileComplete` of its index. -/
def Paired : List FileTransferEvent → Prop
  | [] => True
  | .fileStart _ index _ _ :: later => later.countP (Completes index) = 1 ∧ Paired later
  | .fileComplete .. :: later => Paired later

/-- One result for each file, in the order of the files, and one end for each start. -/
structure Accounted (files : List FileInfo) (tr : Trace) (results : List BatchFileResult) : Prop where
  results : results.map (·.fileName) = files.map (·.name)
  paired : Paired (events tr)

/-! ## One file -/

/-- How many outcomes `ymodem_send` gives a file. -/
def share (info : FileInfo) (index : Nat) (tr : Trace) : Nat :=
  if Vanished info index tr then 0 else if FailsEmpty info index tr then 2 else 1

theorem share_eq_one {info : FileInfo} {index : Nat} {tr : Trace} :
    share info index tr = 1 ↔ ¬Vanished info index tr ∧ ¬FailsEmpty info index tr := by
  unfold share
  split_ifs <;> simp [*]

/-- A stretch of the trace that reads and sends nothing of a file. -/
def Apart (tr : Trace) (index : Nat) : Prop := reads index tr = [] ∧ blocks index tr = []

section Trace

variable {tr tr' : Trace} {index : Nat}

@[simp] theorem events_append : events (tr ++ tr') = events tr ++ events tr' :=
  List.filterMap_append

@[simp] theorem events_cons (e : batchIo.Event) :
    events (e :: tr) = (eventOf e).toList ++ events tr := by
  rw [← List.singleton_append, events_append]
  cases h : eventOf e <;> simp [events, h]

@[simp] theorem reads_cons (e : batchIo.Event) :
    reads index (e :: tr) = (readOf index e).toList ++ reads index tr := by
  cases h : readOf index e <;> simp [reads, h]

@[simp] theorem blocks_cons (e : batchIo.Event) :
    blocks index (e :: tr) = (blockOf index e).toList ++ blocks index tr := by
  cases h : blockOf index e <;> simp [blocks, h]

@[simp] theorem events_nil : events [] = [] := rfl

@[simp] theorem reads_nil : reads index [] = [] := rfl

@[simp] theorem blocks_nil : blocks index [] = [] := rfl

@[simp] theorem reads_append : reads index (tr ++ tr') = reads index tr ++ reads index tr' :=
  List.filterMap_append

@[simp] theorem blocks_append : blocks index (tr ++ tr') = blocks index tr ++ blocks index tr' :=
  List.filterMap_append

end Trace

/-- Nothing is reported, read or sent. -/
structure Silent (tr : Trace) : Prop where
  noEvents : events tr = []
  apart : ∀ i, Apart tr i

theorem Silent.nil : Silent [] := ⟨rfl, fun _ => ⟨rfl, rfl⟩⟩

theorem Silent.cons {e : batchIo.Event} {tr : Trace} (h : Silent tr)
    (he : eventOf e = none ∧ (∀ i, readOf i e = none) ∧ ∀ i, blockOf i e = none) :
    Silent (e :: tr) :=
  ⟨by simp [he.1, h.noEvents], fun i => ⟨by simp [he.2.1, (h.apart i).1],
    by simp [he.2.2, (h.apart i).2]⟩⟩

theorem Silent.append {tr tr' : Trace} (h : Silent tr) (h' : Silent tr') : Silent (tr ++ tr') :=
  ⟨by rw [events_append, h.noEvents, h'.noEvents]; rfl,
    fun i => ⟨by rw [reads_append, (h.apart i).1, (h'.apart i).1]; rfl,
      by rw [blocks_append, (h.apart i).2, (h'.apart i).2]; rfl⟩⟩

/-- A file is reported as ended, and nothing else happens. -/
structure Ended (info : FileInfo) (index : Nat) (tr : Trace) (result : BatchFileResult) : Prop where
  name : result.fileName = info.name
  ending : ∃ e, events tr = [e] ∧ Completes index e = true
  apart : ∀ i, Apart tr i

/-! ## The calls -/

section Calls

variable {α : Type} {Φ : Trace → α → Prop}

theorem post_perform_bind {c : BatchCall} {g : c.Answer → Send α}
    (h : ∀ x, Post (fun tr b => Φ (⟨c, x⟩ :: tr) b) (g x)) : Post Φ (perform c >>= g) :=
  post_ask_bind h

theorem post_orFail {r : Except String α} (h : ∀ a, r = .ok a → Φ [] a) : Post Φ (orFail r) := by
  cases r with
  | ok a => exact post_pure (h a rfl)
  | error e => exact post_throw e

theorem stopIfCancelled_post : Post (fun tr _ => Silent tr) stopIfCancelled := by
  refine post_perform_bind fun cancelled => ?_
  cases cancelled with
  | true => exact post_perform_bind fun _ => post_throw _
  | false => exact post_pure ((Silent.nil).cons ⟨rfl, fun _ => rfl, fun _ => rfl⟩)

variable {totalFiles index : Nat} {info : FileInfo}

theorem complete_post {sent : Nat} {success : Bool} {error : Option String}
    {result : BatchFileResult} (h : result.fileName = info.name) :
    Post (Ended info index) (complete totalFiles index info sent success error result) :=
  post_perform_bind fun _ => post_pure
    ⟨h, ⟨_, rfl, by simp [Completes]⟩, fun _ => ⟨rfl, rfl⟩⟩

theorem fail_post {sent size : Nat} {message : String} :
    Post (Ended info index) (fail totalFiles index info sent size message) := complete_post rfl

theorem succeed_post {sent : Nat} : Post (Ended info index) (succeed totalFiles index info sent) :=
  complete_post rfl

end Calls

/-- What a file adds to the trace behind its start, and to the results. -/
structure FileBody (info : FileInfo) (index : Nat) (tr : Trace) (results : List BatchFileResult) :
    Prop where
  names : results.map (·.fileName) = List.replicate (share info index tr) info.name
  count : (events tr).length = share info index tr
  ends : ∀ e ∈ events tr, Completes index e = true
  apart : ∀ i ≠ index, Apart tr i

/-- What a file adds to the trace and to the results. -/
structure FileTrace (info : FileInfo) (index total : Nat) (tr : Trace)
    (results : List BatchFileResult) : Prop where
  names : results.map (·.fileName) = List.replicate (share info index tr) info.name
  ending : ∃ ended, events tr = .fileStart info.name index total info.size :: ended ∧
    ended.length = share info index tr ∧ ∀ e ∈ ended, Completes index e = true
  apart : ∀ i ≠ index, Apart tr i

section Body

variable {info : FileInfo} {index : Nat} {tr tr' : Trace} {results : List BatchFileResult}

theorem share_congr (hreads : reads index tr = reads index tr')
    (hblocks : blocks index tr = blocks index tr') : share info index tr = share info index tr' := by
  have hv : Vanished info index tr ↔ Vanished info index tr' := by rw [Vanished, hreads]; rfl
  have hf : FailsEmpty info index tr ↔ FailsEmpty info index tr' := by
    rw [FailsEmpty, hreads, hblocks]
    rfl
  exact if_congr hv rfl (if_congr hf rfl rfl)

theorem share_apart (h : Apart tr index) : share info index tr = 1 := by
  rw [share_eq_one]
  unfold Vanished FailsEmpty
  simp [h.1, h.2]

theorem Silent.share (h : Silent tr') : share info index (tr' ++ tr) = Batch.share info index tr :=
  share_congr (by simp [(h.apart index).1]) (by simp [(h.apart index).2])

theorem FileBody.of_ended {result : BatchFileResult} (h : Ended info index tr result) :
    FileBody info index tr [result] := by
  obtain ⟨e, he, hcompletes⟩ := h.ending
  have hshare : share info index tr = 1 := share_apart (h.apart index)
  refine ⟨by simp [hshare, h.name], by rw [he, hshare]; rfl, fun e' he' => ?_, fun i _ => h.apart i⟩
  rw [he, List.mem_singleton] at he'
  rw [he']
  exact hcompletes

theorem FileBody.silent (h : FileBody info index tr results) (h' : Silent tr') :
    FileBody info index (tr' ++ tr) results where
  names := by rw [h'.share, h.names]
  count := by rw [h'.share, events_append, h'.noEvents, ← h.count]; rfl
  ends := by
    rw [events_append, h'.noEvents]
    exact h.ends
  apart i hi := by
    obtain ⟨hreads, hblocks⟩ := h.apart i hi
    exact ⟨by simp [hreads, (h'.apart i).1], by simp [hblocks, (h'.apart i).2]⟩

/-- A file reports its start, and then its body. -/
theorem FileBody.start {total : Nat} (h : FileBody info index tr results) (h' : Silent tr')
    (answer : Unit) :
    FileTrace info index total
      (tr' ++ (⟨.report (.fileStart info.name index total info.size), answer⟩ :: tr)) results := by
  have hshare : share info index
      (tr' ++ (⟨.report (.fileStart info.name index total info.size), answer⟩ :: tr)) =
        share info index tr := by
    rw [h'.share]
    exact share_congr rfl rfl
  refine ⟨by rw [hshare, h.names], ⟨events tr, ?_, by rw [hshare, h.count], h.ends⟩, fun i hi => ?_⟩
  · rw [events_append, h'.noEvents]
    rfl
  · obtain ⟨hreads, hblocks⟩ := h.apart i hi
    exact ⟨by simp [hreads, (h'.apart i).1, readOf], by simp [hblocks, (h'.apart i).2, blockOf]⟩

end Body

/-! ## A file of YModem -/

section YModem

variable {totalFiles index : Nat} {info : FileInfo} {userBlockSize : Nat} {streaming : Bool}

theorem waitFor_silent (x : (BatchCall.waitForNakOrC).Answer) :
    Silent [⟨BatchCall.waitForNakOrC, x⟩] :=
  (Silent.nil).cons ⟨rfl, fun _ => rfl, fun _ => rfl⟩

theorem syncFiles_post : Post (fun tr _ => Silent tr) (syncFiles index streaming) := by
  unfold syncFiles
  split_ifs
  · refine post_perform_bind fun answer => Post.bind (post_orFail fun ready _ => ?_)
    cases ready with
    | wantG | wantCrc | wantChecksum => exact post_pure (waitFor_silent answer)
    | cancel => exact post_throw _
  · exact post_pure .nil

theorem awaitDataRequest_post : Post (fun tr _ => Silent tr) (awaitDataRequest streaming) := by
  refine post_perform_bind fun answer => Post.bind (post_orFail fun ready _ => ?_)
  cases ready with
  | wantG | wantCrc | wantChecksum => exact post_pure (waitFor_silent answer)
  | cancel => exact post_perform_bind fun _ => post_throw _

theorem giveUp_post {sent : Nat} {message : String} :
    Post (fun tr ended => ∃ result, ended = (0, [result]) ∧ Ended info index tr result)
      (giveUp totalFiles index info sent message) := by
  refine Post.bind ((fail_post).imp fun tr result h => post_perform_bind fun _ =>
    post_perform_bind fun _ => post_pure ⟨result, rfl, h.name, ?_, fun i => ?_⟩)
  · obtain ⟨e, he, hcompletes⟩ := h.ending
    exact ⟨e, by simp [he, eventOf], hcompletes⟩
  · exact ⟨by simp [(h.apart i).1, readOf], by simp [(h.apart i).2, blockOf]⟩

/-- The data loop so far: nothing failed, and something was sent exactly if something was read. -/
structure Sent (index : Nat) (tr : Trace) (sent : Nat) : Prop where
  noEvents : events tr = []
  apart : ∀ i ≠ index, Apart tr i
  clean : (reads index tr).any isError = false ∧ (blocks index tr).any isError = false
  first : (sent = 0 ∧ reads index tr = []) ∨
    (0 < sent ∧ ∃ r, (reads index tr).head? = some r ∧ isEmptyRead r = false)

/-- The data loop as it is left: at the end of the file, or with a failure and `total_sent` 0. -/
structure Left (info : FileInfo) (index : Nat) (tr : Trace) (ended : Nat × List BatchFileResult) :
    Prop where
  apart : ∀ i ≠ index, Apart tr i
  outcome :
    (ended.2 = [] ∧ events tr = [] ∧
      ((reads index tr).any isError = false ∧ (blocks index tr).any isError = false) ∧
      (ended.1 = 0 ↔ (reads index tr).head?.any isEmptyRead = true)) ∨
    (∃ result e, ended = (0, [result]) ∧ result.fileName = info.name ∧ events tr = [e] ∧
      Completes index e = true ∧
      ((reads index tr).any isError || (blocks index tr).any isError) = true ∧
      (reads index tr).head?.any isEmptyRead = false)

theorem Sent.head_nonempty {tr : Trace} {sent : Nat} (h : Sent index tr sent)
    {r : Except String (List UInt8)} (hr : isEmptyRead r = false) :
    ∃ r', (reads index tr ++ [r]).head? = some r' ∧ isEmptyRead r' = false := by
  obtain ⟨-, hnone⟩ | ⟨-, r', hhead, hr'⟩ := h.first
  · exact ⟨r, by rw [hnone]; rfl, hr⟩
  · exact ⟨r', by rw [List.head?_append, hhead]; rfl, hr'⟩

/-- A round up to the answer of its read, and what follows it. -/
theorem Sent.round {tr tr₁ tr₂ : Trace} {sent room : Nat} (h : Sent index tr sent) (h₁ : Silent tr₁)
    (answer : Except String (List UInt8)) :
    let all := tr ++ (tr₁ ++ (⟨.readFile index room, answer⟩ :: tr₂))
    events all = events tr₂ ∧ reads index all = reads index tr ++ answer :: reads index tr₂ ∧
      blocks index all = blocks index tr ++ blocks index tr₂ ∧
      ∀ i ≠ index, Apart tr₂ i → Apart all i := by
  refine ⟨by simp [eventOf, h.noEvents, h₁.noEvents], by simp [readOf, (h₁.apart index).1],
    by simp [blockOf, (h₁.apart index).2], fun i hi h₂ => ⟨?_, ?_⟩⟩
  · simp [readOf, (h.apart i hi).1, (h₁.apart i).1, h₂.1, Ne.symm hi]
  · simp [blockOf, (h.apart i hi).2, (h₁.apart i).2, h₂.2]

theorem blockRound_post {tr : Trace} {s : UInt8 × Nat} (h : Sent index tr s.2) :
    Post (fun tr' r =>
      match r with
      | .inl s' => Sent index (tr ++ tr') s'.2
      | .inr ended => Left info index (tr ++ tr') ended)
      (blockRound totalFiles index info userBlockSize streaming s) := by
  refine Post.bind (stopIfCancelled_post.imp fun tr₁ _ h₁ => ?_)
  refine post_perform_bind fun answer => ?_
  match answer with
  | .ok [] =>
    refine post_pure ?_
    obtain ⟨hevents, hreads, hblocks, hapart⟩ :=
      @h.round _ _ _ [] _ (nextBlockSize userBlockSize (info.size - s.2)) h₁ (.ok [])
    refine ⟨fun i hi => hapart i hi ⟨rfl, rfl⟩, .inl ⟨rfl, hevents, ?_, ?_⟩⟩
    · rw [hreads, hblocks]
      simpa [isError] using h.clean
    · rw [hreads]
      obtain ⟨hsent, hnone⟩ | ⟨hsent, r, hhead, hr⟩ := h.first
      · simp [hnone, hsent, isEmptyRead]
      · simp [List.head?_append, hhead, hr]
        omega
  | .error e =>
    refine Post.bind (giveUp_post.imp fun tr₂ ended h₂ => post_pure ?_)
    obtain ⟨result, rfl, hended⟩ := h₂
    obtain ⟨event, hevent, hcompletes⟩ := hended.ending
    rw [List.append_nil]
    obtain ⟨hevents, hreads, hblocks, hapart⟩ :=
      @h.round _ _ _ tr₂ _ (nextBlockSize userBlockSize (info.size - s.2)) h₁ (.error e)
    rw [(hended.apart index).1] at hreads
    refine ⟨fun i hi => hapart i hi (hended.apart i), .inr ⟨result, event, rfl, hended.name,
      hevents.trans hevent, hcompletes, ?_, ?_⟩⟩
    · rw [hreads]
      simp [isError]
    · obtain ⟨r, hhead, hr⟩ := h.head_nonempty (r := .error e) rfl
      rw [hreads, hhead]
      simpa using hr
  | .ok (b :: bytes) =>
    refine post_perform_bind fun sent => ?_
    obtain ⟨r, hhead, hr⟩ := h.head_nonempty (r := .ok (b :: bytes)) rfl
    cases sent with
    | ok _ =>
      refine post_pure ?_
      obtain ⟨hevents, hreads, hblocks, hapart⟩ :=
        @h.round _ _ _
            [⟨.sendBlock index s.1 (fillBlock (nextBlockSize userBlockSize (info.size - s.2))
            (b :: bytes)) streaming, .ok ()⟩] _ (nextBlockSize userBlockSize (info.size - s.2)) h₁
            (.ok (b :: bytes))
      refine ⟨hevents.trans (by simp [eventOf]), fun i hi => hapart i hi ?_, ⟨?_, ?_⟩, .inr ⟨?_, r, ?_, hr⟩⟩
      · exact ⟨by simp [readOf], by simp [blockOf, Ne.symm hi]⟩
      · rw [hreads]
        simpa [readOf, isError] using h.clean.1
      · rw [hblocks]
        simpa [blockOf, isError] using h.clean.2
      · simp
      · rw [hreads]
        simpa [readOf] using hhead
    | error e =>
      refine Post.bind (giveUp_post.imp fun tr₂ ended h₂ => post_pure ?_)
      obtain ⟨result, rfl, hended⟩ := h₂
      obtain ⟨event, hevent, hcompletes⟩ := hended.ending
      rw [List.append_nil]
      obtain ⟨hevents, hreads, hblocks, hapart⟩ :=
        @h.round _ _ _
            (⟨.sendBlock index s.1 (fillBlock (nextBlockSize userBlockSize (info.size - s.2))
            (b :: bytes)) streaming, .error e⟩ :: tr₂) _
            (nextBlockSize userBlockSize (info.size - s.2)) h₁ (.ok (b :: bytes))
      refine ⟨fun i hi => hapart i hi ?_, .inr ⟨result, event, rfl, hended.name,
        hevents.trans (by simp [eventOf, hevent]), hcompletes, ?_, ?_⟩⟩
      · exact ⟨by simp [readOf, (hended.apart i).1],
          by simp [blockOf, Ne.symm hi, (hended.apart i).2]⟩
      · rw [hblocks]
        simp [blockOf, isError]
      · rw [hreads, reads_cons, (hended.apart index).1]
        rw [show (readOf index ⟨BatchCall.sendBlock index s.1 (fillBlock (nextBlockSize userBlockSize
          (info.size - s.2)) (b :: bytes)) streaming, Except.error e⟩) = none from rfl]
        rw [Option.toList_none, List.append_nil, hhead]
        simpa using hr

theorem dataLoop_post : Post (Left info index)
    (loop (blockRound totalFiles index info userBlockSize streaming) (1, 0)) :=
  @post_loop batchIo _ _ _ _ _ (fun (tr : Trace) (s : UInt8 × Nat) => Sent index tr s.2) _
      ⟨rfl, fun _ _ => ⟨rfl, rfl⟩, ⟨rfl, rfl⟩, .inl ⟨rfl, rfl⟩⟩ fun tr s h =>
      (blockRound_post h).imp fun tr' r hr => by
        cases r with
        | inl s' => exact hr
        | inr ended => exact hr

theorem afterEot_post {sent : Nat} (eot : Except String Unit) :
    Post (Ended info index) (afterEot totalFiles index info sent eot) := by
  cases eot with
  | ok _ => exact succeed_post
  | error e => exact fail_post

/-- With what the loop left, the file has its share of outcomes. -/
theorem finishFile_post {tr : Trace} {ended : Nat × List BatchFileResult}
    (h : Left info index tr ended) :
    Post (fun tr' results => FileBody info index (tr ++ tr') results)
      (finishFile totalFiles index info ended.1 ended.2) := by
  unfold finishFile
  split_ifs with hskip
  · -- no `EOT`: an end of file at once is taken for a failure
    refine post_pure ?_
    rw [List.append_nil]
    obtain ⟨hresults, hevents, -, hempty⟩ | ⟨result, e, rfl, hname, hevents, hcompletes, -, hhead⟩ :=
      h.outcome
    · have hshare : share info index tr = 0 := by
        unfold share
        rw [if_pos ⟨hskip.2, hempty.mp hskip.1⟩]
      exact ⟨by simp [hresults, hshare], by rw [hevents, hshare]; rfl, by simp [hevents], h.apart⟩
    · have hshare : share info index tr = 1 := by
        rw [share_eq_one]
        refine ⟨fun hv => ?_, fun hf => ?_⟩
        · have hfirst := hv.2
          rw [hhead] at hfirst
          cases hfirst
        · have := hf.1
          omega
      refine ⟨by simp [hname, hshare], by rw [hevents, hshare]; rfl, fun e' he' => ?_, h.apart⟩
      rw [hevents, List.mem_singleton] at he'
      rw [he']
      exact hcompletes
  · -- `EOT`: a failure of an empty file is forgotten
    refine post_perform_bind fun eot => Post.bind ((afterEot_post eot).imp fun tr₁ result h₁ => ?_)
    refine post_pure ?_
    rw [List.append_nil]
    obtain ⟨e, he, hcompletes⟩ := h₁.ending
    have hreads : reads index (tr ++ (⟨.sendEot index, eot⟩ :: tr₁)) = reads index tr := by
      simp [readOf, (h₁.apart index).1]
    have hblocks : blocks index (tr ++ (⟨.sendEot index, eot⟩ :: tr₁)) = blocks index tr := by
      simp [blockOf, (h₁.apart index).2]
    have hapart : ∀ i ≠ index, Apart (tr ++ (⟨.sendEot index, eot⟩ :: tr₁)) i := fun i hi =>
      ⟨by simp [readOf, (h.apart i hi).1, (h₁.apart i).1],
        by simp [blockOf, (h.apart i hi).2, (h₁.apart i).2]⟩
    have hevents : events (tr ++ (⟨.sendEot index, eot⟩ :: tr₁)) = events tr ++ [e] := by
      simp [eventOf, he]
    have hcongr := @share_congr info _ _ _ hreads hblocks
    obtain ⟨hresults, hnone, hclean, hempty⟩ | ⟨result', e', rfl, hname, hone, hcompletes', hfails, -⟩ :=
      h.outcome
    · have hshare : share info index tr = 1 := by
        rw [share_eq_one]
        refine ⟨fun hv => hskip ⟨hempty.mpr hv.2, hv.1⟩, fun hf => ?_⟩
        have hfailed := hf.2
        rw [hclean.1, hclean.2] at hfailed
        cases hfailed
      refine ⟨by simp [hcongr, hresults, hshare, h₁.name], ?_, fun e'' he'' => ?_, hapart⟩
      · rw [hcongr, hevents, hnone, hshare]
        rfl
      · rw [hevents, hnone, List.nil_append, List.mem_singleton] at he''
        rw [he'']
        exact hcompletes
    · have hsize : info.size = 0 := by
        by_contra hne
        exact hskip ⟨rfl, by omega⟩
      have hshare : share info index tr = 2 := by
        unfold share
        rw [if_neg fun hv => by have := hv.1; omega, if_pos ⟨hsize, hfails⟩]
      refine ⟨by simp [hcongr, hshare, hname, h₁.name], ?_, fun e'' he'' => ?_, hapart⟩
      · rw [hcongr, hevents, hone, hshare]
        rfl
      · rw [hevents, hone] at he''
        obtain rfl | rfl : e'' = e' ∨ e'' = e := by simpa using he''
        · exact hcompletes'
        · exact hcompletes

/-- A stretch that says nothing of the file, as far as it is concerned. -/
theorem FileBody.prepend {e : batchIo.Event} {tr : Trace} {results : List BatchFileResult}
    (h : FileBody info index tr results)
    (he : eventOf e = none ∧ (∀ i, readOf i e = none) ∧ ∀ i, blockOf i e = none) :
    FileBody info index (e :: tr) results :=
  h.silent ((Silent.nil).cons he)

theorem sendOpened_post {remaining : Nat} : Post (fun tr r => FileBody info index tr r.2)
    (sendOpened totalFiles index info userBlockSize remaining streaming) := by
  refine post_perform_bind fun sent => ?_
  cases sent with
  | error e =>
    refine Post.bind ((fail_post).imp fun tr result h => post_pure ?_)
    rw [List.append_nil]
    exact (FileBody.of_ended h).prepend ⟨rfl, fun _ => rfl, fun _ => rfl⟩
  | ok _ =>
    refine Post.bind (awaitDataRequest_post.imp fun tr₁ streaming' h₁ => ?_)
    refine Post.bind (dataLoop_post.imp fun tr₂ ended h₂ => ?_)
    refine Post.bind ((finishFile_post h₂).imp fun tr₃ results h₃ => post_pure ?_)
    rw [List.append_nil]
    exact (h₃.silent h₁).prepend ⟨rfl, fun _ => rfl, fun _ => rfl⟩

theorem sendFile_post {remaining : Nat} :
    Post (fun tr r => FileTrace info index remaining tr r.2)
      (sendFile totalFiles index info userBlockSize remaining streaming) := by
  refine Post.bind (stopIfCancelled_post.imp fun tr₁ _ h₁ => ?_)
  refine Post.bind (syncFiles_post.imp fun tr₂ streaming' h₂ => ?_)
  refine post_perform_bind fun answer => post_perform_bind fun opened => ?_
  have hstart : ∀ {tr₃ : Trace} {results : List BatchFileResult},
      FileBody info index tr₃ results → FileTrace info index remaining
        (tr₁ ++ (tr₂ ++ (⟨.report (.fileStart info.name index remaining info.size), answer⟩ ::
          ⟨.openFile index, opened⟩ :: tr₃))) results := fun h => by
    rw [← List.append_assoc]
    exact (h.prepend ⟨rfl, fun _ => rfl, fun _ => rfl⟩).start (h₁.append h₂) answer
  cases opened with
  | error e =>
    refine Post.bind ((fail_post).imp fun tr₃ result h => post_pure ?_)
    rw [List.append_nil]
    exact hstart (FileBody.of_ended h)
  | ok _ => exact sendOpened_post.imp fun tr₃ r h => hstart h

end YModem

/-! ## The files of a batch -/

/-- The files from `index` on, one after the other. -/
def BatchTrace : List FileInfo → Nat → Trace → List BatchFileResult → Prop
  | [], _, tr, results => tr = [] ∧ results = []
  | info :: files, index, tr, results => ∃ total tr₁ tr₂ results₁ results₂, tr = tr₁ ++ tr₂ ∧
      results = results₁ ++ results₂ ∧ FileTrace info index total tr₁ results₁ ∧
      BatchTrace files (index + 1) tr₂ results₂

section Batch

variable {files : List FileInfo} {index : Nat} {tr tr' : Trace} {results : List BatchFileResult}

/-- Nothing in it is about the files in front. -/
theorem BatchTrace.apart (h : BatchTrace files index tr results) {i : Nat} (hi : i < index) :
    Apart tr i ∧ ∀ e ∈ events tr, Completes i e = false := by
  induction files generalizing index tr results with
  | nil =>
    obtain ⟨rfl, rfl⟩ := h
    exact ⟨⟨rfl, rfl⟩, by simp⟩
  | cons info files ih =>
    obtain ⟨total, tr₁, tr₂, results₁, results₂, rfl, rfl, hfile, hrest⟩ := h
    obtain ⟨happart, hnone⟩ := ih hrest (by omega)
    obtain ⟨ended, hevents, -, hends⟩ := hfile.ending
    obtain ⟨hreads, hblocks⟩ := hfile.apart i (by omega)
    refine ⟨⟨by simp [hreads, happart.1], by simp [hblocks, happart.2]⟩, fun e he => ?_⟩
    rw [events_append, hevents, List.mem_append, List.mem_cons] at he
    obtain (rfl | he) | he := he
    · rfl
    · have hindex := hends e he
      cases e with
      | fileStart _ _ _ _ => rfl
      | fileComplete name j total sent success error =>
        simp only [Completes, decide_eq_true_eq] at hindex
        simp only [Completes, decide_eq_false_iff_not]
        omega
    · exact hnone e he

theorem paired_append_ends {ended : List FileTransferEvent} {later : List FileTransferEvent}
    (h : ∀ e ∈ ended, Completes index e = true) : Paired (ended ++ later) ↔ Paired later := by
  induction ended with
  | nil => rfl
  | cons e ended ih =>
    have he := h e List.mem_cons_self
    cases e with
    | fileStart _ _ _ _ => cases he
    | fileComplete _ _ _ _ _ _ => exact ih fun e' he' => h e' (List.mem_cons_of_mem _ he')

/-- The files are accounted for exactly if each of them has one outcome. -/
theorem BatchTrace.accounted_iff (h : BatchTrace files index tr results) :
    Accounted files tr results ↔
      ∀ i info, files[i]? = some info → share info (index + i) tr = 1 := by
  induction files generalizing index tr results with
  | nil =>
    obtain ⟨rfl, rfl⟩ := h
    exact ⟨fun _ i info hi => by simp at hi, fun _ => ⟨rfl, trivial⟩⟩
  | cons info files ih =>
    obtain ⟨total, tr₁, tr₂, results₁, results₂, rfl, rfl, hfile, hrest⟩ := h
    obtain ⟨ended, hevents, hlength, hends⟩ := hfile.ending
    obtain ⟨hlater, hnone⟩ := hrest.apart (Nat.lt_succ_self index)
    have hhead : share info index (tr₁ ++ tr₂) = share info index tr₁ :=
      share_congr (by simp [hlater.1]) (by simp [hlater.2])
    have htail : ∀ i info', share info' (index + (i + 1)) (tr₁ ++ tr₂) =
        share info' (index + 1 + i) tr₂ := fun i info' => by
      obtain ⟨hreads, hblocks⟩ := hfile.apart (index + (i + 1)) (by omega)
      rw [show index + 1 + i = index + (i + 1) by omega]
      exact share_congr (by simp [hreads]) (by simp [hblocks])
    have hcount : (ended ++ events tr₂).countP (Completes index) = share info index tr₁ := by
      rw [List.countP_append, List.countP_eq_length.mpr hends, hlength,
        List.countP_eq_zero.mpr fun e he => by simp [hnone e he]]
      rfl
    have hpaired : Paired (events (tr₁ ++ tr₂)) ↔
        share info index tr₁ = 1 ∧ Paired (events tr₂) := by
      rw [events_append, hevents, List.cons_append, Paired, hcount, paired_append_ends hends]
    have hnames : share info index tr₁ = 1 →
        ((results₁ ++ results₂).map (·.fileName) = (info :: files).map (·.name) ↔
          results₂.map (·.fileName) = files.map (·.name)) := fun hone => by
      rw [List.map_append, hfile.names, hone]
      simp
    have hsplit : Accounted (info :: files) (tr₁ ++ tr₂) (results₁ ++ results₂) ↔
        share info index tr₁ = 1 ∧ Accounted files tr₂ results₂ := by
      constructor
      · intro hall
        obtain ⟨hone, hp⟩ := hpaired.mp hall.paired
        exact ⟨hone, (hnames hone).mp hall.results, hp⟩
      · rintro ⟨hone, hr, hp⟩
        exact ⟨(hnames hone).mpr hr, hpaired.mpr ⟨hone, hp⟩⟩
    rw [hsplit, ih hrest, ← hhead]
    constructor
    · rintro ⟨hone, hlast⟩ i info' hi
      cases i with
      | zero => exact (Option.some.inj hi) ▸ hone
      | succ i => exact (htail i info').trans (hlast i info' hi)
    · intro hall
      exact ⟨hall 0 info rfl, fun i info' hi => (htail i info').symm.trans (hall (i + 1) info' hi)⟩

/-- What is silent in front and behind does not matter. -/
theorem BatchTrace.accounted_between {before behind : Trace}
    (h : BatchTrace files 0 tr results) (hbefore : Silent before) (hbehind : Silent behind) :
    Accounted files (before ++ (tr ++ behind)) results ↔ ∀ i info, files[i]? = some info →
      ¬Vanished info i (before ++ (tr ++ behind)) ∧
        ¬FailsEmpty info i (before ++ (tr ++ behind)) := by
  have hevents : events (before ++ (tr ++ behind)) = events tr := by
    simp [hbefore.noEvents, hbehind.noEvents]
  have hshare : ∀ i info, share info i (before ++ (tr ++ behind)) = share info i tr :=
    fun i info => share_congr (by simp [(hbefore.apart i).1, (hbehind.apart i).1])
      (by simp [(hbefore.apart i).2, (hbehind.apart i).2])
  have hsame : Accounted files (before ++ (tr ++ behind)) results ↔ Accounted files tr results :=
    ⟨fun hall => ⟨hall.results, hevents ▸ hall.paired⟩,
      fun hall => ⟨hall.results, hevents.symm ▸ hall.paired⟩⟩
  simp only [hsame, h.accounted_iff, ← share_eq_one, hshare, Nat.zero_add]

theorem sendFiles_post {userBlockSize totalFiles : Nat} {remaining : Nat} {streaming : Bool} :
    Post (fun tr results => BatchTrace files index tr results)
      (sendFiles userBlockSize totalFiles files index remaining streaming) := by
  induction files generalizing index remaining streaming with
  | nil => exact post_pure ⟨rfl, rfl⟩
  | cons info files ih =>
    refine Post.bind (sendFile_post.imp fun tr₁ r h₁ => ?_)
    refine Post.bind (ih.imp fun tr₂ later h₂ => post_pure ?_)
    rw [List.append_nil]
    exact ⟨remaining, tr₁, tr₂, r.2, later, rfl, rfl, h₁, h₂⟩

theorem ymodemSend_post {blockSize : Nat} : Post (fun tr results =>
    Accounted files tr results ↔ ∀ i info, files[i]? = some info →
      ¬Vanished info i tr ∧ ¬FailsEmpty info i tr) (ymodemSend blockSize files) := by
  refine post_perform_bind fun mode => Post.bind (post_orFail fun streaming _ => ?_)
  refine Post.bind (sendFiles_post.imp fun tr results h => ?_)
  refine post_perform_bind fun answer => post_pure ?_
  exact h.accounted_between ((Silent.nil).cons ⟨rfl, fun _ => rfl, fun _ => rfl⟩)
    ((Silent.nil).cons ⟨rfl, fun _ => rfl, fun _ => rfl⟩)

end Batch

/-! ## ZModem -/

section ZModem

variable {totalFiles index : Nat} {info : FileInfo} {maxBlockSize : Nat}

theorem Ended.silent {tr tr' : Trace} {result : BatchFileResult}
    (h : Ended info index tr result) (h' : Silent tr') : Ended info index (tr' ++ tr) result where
  name := h.name
  ending := by
    obtain ⟨e, he, hcompletes⟩ := h.ending
    exact ⟨e, by rw [events_append, h'.noEvents, he]; rfl, hcompletes⟩
  apart i := ⟨by simp [(h.apart i).1, (h'.apart i).1], by simp [(h.apart i).2, (h'.apart i).2]⟩

theorem sendZdata_post {readSize n : Nat} {frameend : UInt8} {s : Sending} :
    Post (fun tr _ => Silent tr) (sendZdata index readSize frameend n s) := by
  induction n generalizing s with
  | zero => exact post_pure .nil
  | succ n ih =>
    refine Post.bind (stopIfCancelled_post.imp fun tr₁ _ h₁ => ?_)
    refine post_perform_bind fun written => Post.bind (post_orFail fun _ _ => ?_)
    have hsilent : ∀ {tr : Trace}, Silent tr →
        Silent (tr₁ ++ (⟨.sendZdata index readSize frameend, written⟩ :: tr)) := fun h =>
      h₁.append (h.cons ⟨rfl, fun _ => rfl, fun _ => rfl⟩)
    split_ifs
    · refine post_perform_bind fun frame => ?_
      have hanswer : ∀ {tr : Trace}, Silent tr → Silent (tr₁ ++
          (⟨.sendZdata index readSize frameend, written⟩ :: ⟨.receiveFrame, frame⟩ :: tr)) :=
        fun h => hsilent (h.cons ⟨rfl, fun _ => rfl, fun _ => rfl⟩)
      match dataAnswer frame with
      | .sent => exact post_pure (hanswer .nil)
      | .stop => exact post_throw _
      | .again true => exact ih.imp fun tr _ h => hanswer h
      | .again false => exact ih.imp fun tr _ h => hanswer h
    · exact post_pure (hsilent .nil)

/-- The data loop of a file as it is left: nothing reported yet, or its failure. -/
def DataEnd (info : FileInfo) (index : Nat) (tr : Trace) : Nat ⊕ BatchFileResult → Prop
  | .inl _ => Silent tr
  | .inr result => Ended info index tr result

def RoundEnd (info : FileInfo) (index : Nat) (tr : Trace) :
    Sending ⊕ (Nat ⊕ BatchFileResult) → Prop
  | .inl _ => Silent tr
  | .inr ended => DataEnd info index tr ended

theorem RoundEnd.silent {tr tr' : Trace} {r : Sending ⊕ (Nat ⊕ BatchFileResult)}
    (h : RoundEnd info index tr r) (h' : Silent tr') : RoundEnd info index (tr' ++ tr) r := by
  match r with
  | .inl _ => exact h'.append h
  | .inr (.inl _) => exact h'.append h
  | .inr (.inr _) => exact Ended.silent h h'

theorem sendRead_post {readSize : Nat} {s : Sending} :
    Post (RoundEnd info index) (sendRead totalFiles index info maxBlockSize readSize s) := by
  refine Post.bind (sendZdata_post.imp fun tr₁ sent h₁ => ?_)
  split_ifs
  · refine post_pure ?_
    rw [List.append_nil]
    exact h₁
  · refine Post.bind ((fail_post).imp fun tr₂ result h₂ => post_pure ?_)
    rw [List.append_nil]
    exact h₂.silent h₁

theorem dataRound_post {s : Sending} :
    Post (RoundEnd info index) (dataRound totalFiles index info maxBlockSize s) := by
  unfold dataRound
  split_ifs
  · exact post_pure .nil
  · refine Post.bind (stopIfCancelled_post.imp fun tr₁ _ h₁ => ?_)
    refine post_perform_bind fun answer => ?_
    have hread : Silent [⟨.readExact index (min s.blockSize (info.size - s.totalSent)), answer⟩] :=
      (Silent.nil).cons ⟨rfl, fun _ => rfl, fun _ => rfl⟩
    match answer with
    | .error e =>
      refine Post.bind ((fail_post).imp fun tr₂ result h₂ => post_perform_bind fun _ =>
        post_pure ?_)
      obtain ⟨event, hevent, hcompletes⟩ := h₂.ending
      have hended : Ended info index (tr₂ ++ [⟨.sendCancel, ()⟩]) result :=
        ⟨h₂.name, ⟨event, by simp [hevent, eventOf], hcompletes⟩, fun i =>
          ⟨by simp [(h₂.apart i).1, readOf], by simp [(h₂.apart i).2, blockOf]⟩⟩
      exact (hended.silent hread).silent h₁
    | .full => exact sendRead_post.imp fun tr r h => (h.silent hread).silent h₁
    | .unexpectedEof => exact sendRead_post.imp fun tr r h => (h.silent hread).silent h₁

def FileEnd.result : FileEnd → BatchFileResult
  | .next result | .early result => result

theorem endFile_post {totalSent : Nat} :
    Post (fun tr ended => Ended info index tr ended.result)
      (endFile totalFiles index info totalSent) := by
  refine post_perform_bind fun written => Post.bind (post_orFail fun _ _ => ?_)
  refine post_perform_bind fun frame => ?_
  have hsilent : Silent [⟨.sendHeader OnPort.zeof totalSent, written⟩, ⟨.receiveFrame, frame⟩] :=
    ((Silent.nil).cons ⟨rfl, fun _ => rfl, fun _ => rfl⟩).cons ⟨rfl, fun _ => rfl, fun _ => rfl⟩
  match eofAnswer frame with
  | .stop => exact post_throw _
  | .finish | .next =>
    refine Post.bind (succeed_post.imp fun tr result h => post_pure ?_)
    rw [List.append_nil]
    exact h.silent hsilent

theorem sendData_post :
    Post (fun tr ended => Ended info index tr ended.result)
      (sendData totalFiles index info maxBlockSize) := by
  have hloop : Post (DataEnd info index)
      (loop (dataRound totalFiles index info maxBlockSize) ⟨0, defaultBlockSize, 0⟩) :=
    @post_loop batchIo _ _ _ _ _ (fun (tr : Trace) (_ : Sending) => Silent tr) _ .nil
        fun tr s hs => dataRound_post.imp fun tr' r hr => by
        have hround := hr.silent hs
        cases r with
        | inl s' => exact hround
        | inr ended => exact hround
  refine Post.bind (hloop.imp fun tr₁ ended h₁ => ?_)
  cases ended with
  | inr result => exact post_pure (by rw [List.append_nil]; exact h₁)
  | inl totalSent => exact endFile_post.imp fun tr ended h => h.silent h₁

/-- A file of `zmodem_send` reports its start and its end, and has its result. -/
theorem zsendFile_post :
    Post (fun tr ended => ended.result.fileName = info.name ∧
      ∃ e, events tr = [.fileStart info.name index totalFiles info.size, e] ∧
        Completes index e = true) (zsendFile totalFiles index info maxBlockSize) := by
  refine Post.bind (stopIfCancelled_post.imp fun tr₁ _ h₁ => ?_)
  refine post_perform_bind fun started => post_perform_bind fun opened => ?_
  have hfile : ∀ {tr : Trace} {ended : FileEnd}, Ended info index tr ended.result →
      ended.result.fileName = info.name ∧
        ∃ e, events (tr₁ ++ (⟨.report (.fileStart info.name index totalFiles info.size), started⟩ ::
          ⟨.openFile index, opened⟩ :: tr)) =
            [.fileStart info.name index totalFiles info.size, e] ∧
          Completes index e = true := fun h => by
    obtain ⟨e, he, hcompletes⟩ := h.ending
    exact ⟨h.name, e, by simp [h₁.noEvents, eventOf, he], hcompletes⟩
  cases opened with
  | error e =>
    refine Post.bind ((fail_post).imp fun tr₂ result h₂ => post_pure ?_)
    rw [List.append_nil]
    exact @hfile _ (.next result) h₂
  | ok _ =>
    refine post_perform_bind fun written => Post.bind (post_orFail fun _ _ => ?_)
    refine post_perform_bind fun frame => ?_
    have hsilent : Silent [⟨.sendZfile index, written⟩, ⟨.receiveFrame, frame⟩] :=
      ((Silent.nil).cons ⟨rfl, fun _ => rfl, fun _ => rfl⟩).cons ⟨rfl, fun _ => rfl, fun _ => rfl⟩
    match fileAnswer frame with
    | .stop => exact post_throw _
    | .skip =>
      refine Post.bind ((complete_post rfl).imp fun tr₂ result h₂ => post_pure ?_)
      rw [List.append_nil]
      exact @hfile _ (.next result) (h₂.silent hsilent)
    | .silent e =>
      refine Post.bind ((fail_post).imp fun tr₂ result h₂ => post_pure ?_)
      rw [List.append_nil]
      exact @hfile _ (.next result) (h₂.silent hsilent)
    | .go => exact sendData_post.imp fun tr₂ ended h₂ => hfile (h₂.silent hsilent)

/-- The rest of a batch: no file in front of it ends in it. -/
structure Rest (files : List FileInfo) (index : Nat) (tr : Trace) (results : List BatchFileResult) :
    Prop where
  accounted : Accounted files tr results
  later : ∀ i < index, ∀ e ∈ events tr, Completes i e = false

theorem Rest.cons {files : List FileInfo} {tr tr' : Trace} {results : List BatchFileResult}
    {result : BatchFileResult} {e : FileTransferEvent} (h : Rest files (index + 1) tr results)
    (hname : result.fileName = info.name)
    (hevents : events tr' = [.fileStart info.name index totalFiles info.size, e])
    (hcompletes : Completes index e = true) :
    Rest (info :: files) index (tr' ++ tr) (result :: results) := by
  have hnone : ∀ e' ∈ events tr, Completes index e' = false := h.later index (by omega)
  refine ⟨⟨?_, ?_⟩, fun i hi e' he' => ?_⟩
  · rw [List.map_cons, List.map_cons, hname, h.accounted.results]
  · rw [events_append, hevents]
    refine ⟨?_, ?_⟩
    · show (e :: events tr).countP (Completes index) = 1
      rw [List.countP_cons, hcompletes,
        List.countP_eq_zero.mpr fun e' he' => by simp [hnone e' he']]
      rfl
    · cases e with
      | fileStart _ _ _ _ => cases hcompletes
      | fileComplete _ _ _ _ _ _ => exact h.accounted.paired
  · rw [events_append, hevents, List.mem_append] at he'
    rcases he' with he' | he'
    · obtain rfl | rfl : e' = .fileStart info.name index totalFiles info.size ∨ e' = e := by
        simpa using he'
      · rfl
      · cases e' with
        | fileStart _ _ _ _ => rfl
        | fileComplete _ j _ _ _ _ =>
          simp only [Completes, decide_eq_true_eq] at hcompletes
          simp only [Completes, decide_eq_false_iff_not]
          omega
    · exact h.later i (by omega) e' he'

theorem skipped_rest {files : List FileInfo} : Rest files index [] (skipped files) := by
  refine ⟨⟨?_, trivial⟩, by simp⟩
  simp [skipped, Function.comp_def]

theorem zsendFiles_post {files : List FileInfo} :
    Post (fun tr r => Rest files index tr r.2)
      (zsendFiles maxBlockSize totalFiles files index) := by
  induction files generalizing index with
  | nil => exact post_pure ⟨⟨rfl, trivial⟩, by simp⟩
  | cons info files ih =>
    refine Post.bind (zsendFile_post.imp fun tr₁ ended h₁ => ?_)
    obtain ⟨hname, e, hevents, hcompletes⟩ := h₁
    cases ended with
    | early result => exact post_pure (skipped_rest.cons hname hevents hcompletes)
    | next result =>
      refine Post.bind (ih.imp fun tr₂ later h₂ => post_pure ?_)
      rw [List.append_nil]
      exact h₂.cons hname hevents hcompletes

theorem finishBatch_post {early : Bool} : Post (fun tr _ => Silent tr) (finishBatch early) := by
  have hexchange : ∀ n, Post (fun tr _ => Silent tr) (exchangeZfin n) := by
    intro n
    induction n with
    | zero => exact post_pure .nil
    | succ n ih =>
      refine Post.bind (stopIfCancelled_post.imp fun tr₁ _ h₁ => ?_)
      refine post_perform_bind fun written => Post.bind (post_orFail fun _ _ => ?_)
      refine post_perform_bind fun frame => Post.bind (post_orFail fun finished _ => ?_)
      have hsilent : ∀ {tr : Trace}, Silent tr → Silent (tr₁ ++
          (⟨.sendHeader OnPort.zfin 0, written⟩ :: ⟨.receiveFrame, frame⟩ :: tr)) := fun h =>
        h₁.append ((h.cons ⟨rfl, fun _ => rfl, fun _ => rfl⟩).cons
          ⟨rfl, fun _ => rfl, fun _ => rfl⟩)
      split_ifs
      · exact post_pure (hsilent .nil)
      · exact ih.imp fun tr _ h => hsilent h
  unfold finishBatch
  split_ifs
  · refine post_perform_bind fun written => Post.bind (post_orFail fun _ _ => ?_)
    refine post_perform_bind fun frame => post_pure ?_
    exact ((Silent.nil).cons ⟨rfl, fun _ => rfl, fun _ => rfl⟩).cons
      ⟨rfl, fun _ => rfl, fun _ => rfl⟩
  · exact hexchange maxRetries

theorem zmodemSend_post {files : List FileInfo} :
    Post (Accounted files) (zmodemSend maxBlockSize files) := by
  unfold zmodemSend
  split_ifs
  · exact post_throw _
  · refine post_perform_bind fun answer => Post.bind (post_orFail fun _ _ => ?_)
    refine Post.bind (zsendFiles_post.imp fun tr₁ r h₁ => ?_)
    refine Post.bind (finishBatch_post.imp fun tr₂ _ h₂ => ?_)
    refine post_perform_bind fun written => Post.bind (post_orFail fun _ _ => post_pure ?_)
    refine ⟨h₁.accounted.results, ?_⟩
    have hevents : events (⟨.awaitZrinit, answer⟩ :: ([] ++ (tr₁ ++ (tr₂ ++
        (⟨.sendOO, written⟩ :: ([] ++ [])))))) = events tr₁ := by
      simp [eventOf, h₂.noEvents]
    rw [hevents]
    exact h₁.accounted.paired

end ZModem

/-! ## Both senders -/

/-- `zmodem_send` accounts for every file; `ymodem_send` does so exactly if no file has vanished
and no file that is announced as empty has failed. -/
theorem batch_accounted (files : List FileInfo) (tr : Trace) (results : List BatchFileResult) :
    (∀ blockSize, Returns (ymodemSend blockSize files).run tr (.ok results) →
      (Accounted files tr results ↔ ∀ i info, files[i]? = some info →
        ¬Vanished info i tr ∧ ¬FailsEmpty info i tr)) ∧
    (∀ maxBlockSize, Returns (zmodemSend maxBlockSize files).run tr (.ok results) →
      Accounted files tr results) :=
  ⟨fun _ hrun => ymodemSend_post tr results hrun, fun _ hrun => zmodemSend_post tr results hrun⟩

def notes : FileInfo := ⟨"notes.txt".toList, 3, 0⟩

/-- One file of three bytes, sent in one block. -/
def notesSent : Trace :=
  [⟨.awaitMode, .ok false⟩, ⟨.cancel, false⟩, ⟨.report (.fileStart notes.name 0 1 3), ()⟩,
    ⟨.openFile 0, .ok ()⟩, ⟨.sendBlock0 0 1 false, .ok ()⟩, ⟨.waitForNakOrC, .ok .wantCrc⟩,
    ⟨.cancel, false⟩, ⟨.readFile 0 128, .ok [1, 2, 3]⟩,
    ⟨.sendBlock 0 1 (fillBlock 128 [1, 2, 3]) false, .ok ()⟩, ⟨.cancel, false⟩,
    ⟨.readFile 0 128, .ok []⟩, ⟨.sendEot 0, .ok ()⟩,
    ⟨.report (.fileComplete notes.name 0 1 3 true none), ()⟩, ⟨.sendEmptyBlock0, .ok ()⟩]

instance : DecidableEq batchIo.Call := inferInstanceAs (DecidableEq BatchCall)

theorem notes_returns : Returns (ymodemSend 1024 [notes]).run notesSent
    (.ok [⟨notes.name, .completed, 3, none⟩]) := by
  obtain ⟨used, hused, hrun⟩ := @Prog.returns_of_follow _ _ _ 60 ((ymodemSend 1024 [notes]).run)
      notesSent [] (.ok [⟨notes.name, .completed, 3, none⟩]) rfl
  rw [List.append_nil] at hused
  exact hused ▸ hrun

/-- The same file over ZModem. -/
def notesZSent : Trace :=
  [⟨.awaitZrinit, .ok true⟩, ⟨.cancel, false⟩, ⟨.report (.fileStart notes.name 0 1 3), ()⟩,
    ⟨.openFile 0, .ok ()⟩, ⟨.sendZfile 0, .ok ()⟩,
    ⟨.receiveFrame, .ok (.header OnPort.zrpos ⟨0, 0, 0, 0⟩)⟩,
    ⟨.cancel, false⟩, ⟨.readExact 0 3, .full⟩, ⟨.cancel, false⟩, ⟨.sendZdata 0 3 zcrcw, .ok ()⟩,
    ⟨.receiveFrame, .ok (.header OnPort.zack ⟨0, 0, 0, 0⟩)⟩, ⟨.sendHeader OnPort.zeof 3, .ok ()⟩,
    ⟨.receiveFrame, .ok (.header zrinit ⟨0, 0, 0, 0⟩)⟩,
    ⟨.report (.fileComplete notes.name 0 1 3 true none), ()⟩, ⟨.cancel, false⟩,
    ⟨.sendHeader OnPort.zfin 0, .ok ()⟩, ⟨.receiveFrame, .ok (.header OnPort.zfin ⟨0, 0, 0, 0⟩)⟩,
    ⟨.sendOO, .ok ()⟩]

theorem notes_zreturns : Returns (zmodemSend 8192 [notes]).run notesZSent
    (.ok [⟨notes.name, .completed, 3, none⟩]) := by
  obtain ⟨used, hused, hrun⟩ := @Prog.returns_of_follow _ _ _ 60 ((zmodemSend 8192 [notes]).run)
      notesZSent [] (.ok [⟨notes.name, .completed, 3, none⟩]) rfl
  rw [List.append_nil] at hused
  exact hused ▸ hrun

theorem batch_accounted_notes :
    (Accounted [notes] notesSent [⟨notes.name, .completed, 3, none⟩] ↔
      ∀ i info, [notes][i]? = some info →
        ¬Vanished info i notesSent ∧ ¬FailsEmpty info i notesSent) ∧
    Accounted [notes] notesZSent [⟨notes.name, .completed, 3, none⟩] :=
  ⟨(batch_accounted [notes] notesSent _).1 1024 notes_returns,
    (batch_accounted [notes] notesZSent _).2 8192 notes_zreturns⟩

/-- The file was truncated between the listing and the transfer. -/
def notesVanished : Trace :=
  [⟨.awaitMode, .ok false⟩, ⟨.cancel, false⟩, ⟨.report (.fileStart notes.name 0 1 3), ()⟩,
    ⟨.openFile 0, .ok ()⟩, ⟨.sendBlock0 0 1 false, .ok ()⟩, ⟨.waitForNakOrC, .ok .wantCrc⟩,
    ⟨.cancel, false⟩, ⟨.readFile 0 128, .ok []⟩, ⟨.sendEmptyBlock0, .ok ()⟩]

/-- `ymodem_send` returns no result at all, and the start of the file has no end. -/
theorem notes_lost : ∃ tr results, Returns (ymodemSend 1024 [notes]).run tr (.ok results) ∧
    results = [] ∧ ¬Paired (events tr) ∧ ¬Accounted [notes] tr results := by
  obtain ⟨used, hused, hrun⟩ := @Prog.returns_of_follow _ _ _ 60 ((ymodemSend 1024 [notes]).run)
      notesVanished [] (.ok []) rfl
  rw [List.append_nil] at hused
  have hpaired : ¬Paired (events used) := by
    rw [← hused]
    rintro ⟨hcount, -⟩
    exact absurd hcount (by decide)
  exact ⟨used, [], hrun, rfl, hpaired, fun h => hpaired h.paired⟩

end TauTerm.Transfer.Batch
