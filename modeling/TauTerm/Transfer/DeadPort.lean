import Mathlib
import TauTerm.Transfer.XModemPort
import TauTerm.Transfer.YModemPort
import TauTerm.Transfer.ZModemPort

/-!
# Receivers on a dead port

From some point on every read and write of the port fails, with an error that is no timeout, and
nobody cancels. Every receiver returns then, from wherever it is, but for one place: the wait of
`zmodem_receive` for `ZRQINIT`, which takes the error of the port for a frame that did not come.
-/

namespace TauTerm.Transfer.OnPort

open Lib Lib.Proc ZModem
open Lib.Prog (around bind_assoc step_bind Reaches Halting halting_pure)

/-- Whatever else the world answers, the program returns if it is resumed on a dead port. -/
def StopsOnDeadPort {α : Type} (p : Prog portIo α) : Prop :=
  ∀ world : Nat → (c : PortCall) → c.Answer, (∀ n c, Dead c (world n c)) →
    ∃ n, (p.exec world n).Done

theorem Halting.stops {α : Type} {p : Prog portIo α} (h : Halting OnDead p) : StopsOnDeadPort p :=
  fun _ hworld => by
    obtain ⟨n, a, hn, -⟩ := h.ends.exec hworld
    exact ⟨n, a, hn⟩

/-- A port that is gone, where everything else goes well. -/
def unplugged : (c : PortCall) → c.Answer
  | .read _ => .error "broken pipe"
  | .write _ => Except.error "broken pipe"
  | .cancel => false
  | .expired => true
  | .flush | .createDirAll | .createFile _ | .writeFile _ | .saveFile _ => Except.ok ()

theorem unplugged_dead (c : PortCall) : Dead c (unplugged c) := by
  cases c with
  | read _ => exact ⟨_, rfl⟩
  | write _ => exact ⟨_, rfl⟩
  | cancel => exact rfl
  | expired | flush | createDirAll | createFile _ | writeFile _ | saveFile _ => trivial

/-! ## The wait of the ZModem receiver -/

section Wait

variable (downloadDir : Path) (useCrc32 : Bool)

/-- What follows the wait. -/
def behindWait : Except TransferError Unit → Prog portIo (Except TransferError (List BatchFileResult)) :=
  next fun _ => session downloadDir useCrc32

/-- What follows a round of the wait. -/
def behindRound (r : Except TransferError (Unit ⊕ Unit)) :
    Prog portIo (Except TransferError (List BatchFileResult)) :=
  around (fun s => (awaitRound s).run.bind fun r => .pure (roundEnd r)) (behindWait downloadDir useCrc32)
    (roundEnd r)

/-- `zmodem_receive` has not come to the end of its wait: it is at the start, at the head of the
loop, about to ask for a cancel, or in a frame. -/
inductive Waiting : Prog portIo (Except TransferError (List BatchFileResult)) → Prop
  | start : Waiting (zmodemReceive downloadDir useCrc32).run
  | head : Waiting (awaitZrqinit.run.bind (behindWait downloadDir useCrc32))
  | asking : Waiting ((awaitRound ()).run.bind (behindRound downloadDir useCrc32))
  | reading {f : Prog portIo (Except TransferError ZFrame)} : Reaches receiveFrame.run f → ¬f.Done →
      Waiting (f.bind fun r => (afterFrame r).run.bind (behindRound downloadDir useCrc32))

variable {downloadDir useCrc32}

theorem receiveFrame_open : ¬receiveFrame.run.Done := by
  rintro ⟨a, ha⟩
  change Prog.loop _ _ _ = _ at ha
  cases ha

theorem not_done_of_waiting {p : Prog portIo (Except TransferError (List BatchFileResult))}
    (h : Waiting downloadDir useCrc32 p) : ¬p.Done := by
  rintro ⟨a, ha⟩
  cases h with
  | start => change Prog.call _ _ = _ at ha; cases ha
  | head => change Prog.loop _ _ _ = _ at ha; cases ha
  | asking => change Prog.call _ _ = _ at ha; cases ha
  | @reading f _ hopen =>
    cases f with
    | pure r => exact hopen ⟨r, rfl⟩
    | call c k => change Prog.call _ _ = _ at ha; cases ha
    | loop body s k => change Prog.loop _ _ _ = _ at ha; cases ha

theorem head_step (answer : (c : PortCall) → c.Answer) :
    (awaitZrqinit.run.bind (behindWait downloadDir useCrc32)).step answer =
      (awaitRound ()).run.bind (behindRound downloadDir useCrc32) := by
  show (((awaitRound ()).run.bind fun r => .pure (roundEnd r)).bind _) = _
  rw [bind_assoc]
  rfl

/-- A round goes on with the answer of `cancel`. -/
theorem asking_step (answer : (c : PortCall) → c.Answer) :
    ((awaitRound ()).run.bind (behindRound downloadDir useCrc32)).step answer =
      ((whenCancelled (answer .cancel)).run.bind (next fun _ => attempt receiveFrame >>= afterFrame)).bind
        (behindRound downloadDir useCrc32) := by
  have hcheck : stopIfCancelled.run =
      .call PortCall.cancel fun cancelled => (whenCancelled cancelled).run := rfl
  unfold awaitRound
  rw [run_bind, hcheck]
  rfl

/-- What is read goes to `afterFrame`, an error like a frame. -/
theorem asking_false :
    ((whenCancelled false).run.bind (next fun _ => attempt receiveFrame >>= afterFrame)).bind
        (behindRound downloadDir useCrc32) =
      receiveFrame.run.bind fun r => (afterFrame r).run.bind (behindRound downloadDir useCrc32) := by
  show ((attempt receiveFrame >>= afterFrame).run.bind _) = _
  rw [run_bind]
  show (((receiveFrame.run.bind fun r => .pure (.ok r)).bind (next afterFrame)).bind _) = _
  rw [bind_assoc, bind_assoc]
  rfl

/-- A cancel ends the wait. -/
theorem asking_true : Halting OnDead
    (((whenCancelled true).run.bind (next fun _ => attempt receiveFrame >>= afterFrame)).bind
      (behindRound downloadDir useCrc32)) := by
  have hcancel : (whenCancelled true).run =
      sendCancel.run.bind (next fun _ => throw (.text "传输已取消")) := run_bind _ _
  rw [hcancel, bind_assoc, bind_assoc]
  refine Halting.bind sendCancel_halts fun r => ?_
  cases r <;> exact halting_pure _

/-- The wait is over, ends with an error, or goes round. -/
theorem afterFrame_cases (r : Except TransferError ZFrame) :
    afterFrame r = pure (.inr ()) ∨ (∃ e, afterFrame r = throw e) ∨ afterFrame r = pure (.inl ()) := by
  match r with
  | .error e => exact .inr (.inr rfl)
  | .ok .cancel => exact .inr (.inl ⟨_, rfl⟩)
  | .ok (.data ..) => exact .inr (.inr rfl)
  | .ok (.header frameType hdr) =>
    dsimp only [afterFrame]
    split_ifs
    · exact .inl rfl
    · exact .inr (.inl ⟨_, rfl⟩)
    · exact .inr (.inr rfl)

theorem afterFrame_goes (r : Except TransferError ZFrame) :
    Waiting downloadDir useCrc32 ((afterFrame r).run.bind (behindRound downloadDir useCrc32)) ∨
      Halting OnDead ((afterFrame r).run.bind (behindRound downloadDir useCrc32)) := by
  obtain h | ⟨e, h⟩ | h := afterFrame_cases r <;> rw [h]
  · exact .inr session_halts
  · exact .inr (halting_pure _)
  · exact .inl .head

variable {p : Prog portIo (Except TransferError (List BatchFileResult))}

/-- Whatever is answered, the receiver goes on waiting or is where it stops on a dead port. -/
theorem Waiting.step (h : Waiting downloadDir useCrc32 p) (answer : (c : PortCall) → c.Answer) :
    Waiting downloadDir useCrc32 (p.step answer) ∨ Halting OnDead (p.step answer) := by
  cases h with
  | start =>
    have hstart : (zmodemReceive downloadDir useCrc32).run.step answer =
        (match (answer .createDirAll : Except String Unit) with
          | .ok () => pure ()
          | .error e => throw (.io e) : Io Unit).run.bind
          (next fun _ => awaitZrqinit >>= fun _ => session downloadDir useCrc32) := rfl
    rw [hstart]
    cases (answer .createDirAll : Except String Unit) with
    | ok _ => exact .inl .head
    | error e => exact .inr (halting_pure _)
  | head =>
    rw [head_step]
    exact .inl .asking
  | asking =>
    rw [asking_step]
    cases answer .cancel with
    | false =>
      rw [asking_false]
      exact .inl (.reading (.refl _) receiveFrame_open)
    | true => exact .inr asking_true
  | @reading f hf hopen =>
    rw [step_bind answer hopen]
    by_cases hdone : (f.step answer).Done
    · obtain ⟨r, hr⟩ := hdone
      rw [hr]
      exact afterFrame_goes r
    · exact .inl (.reading (hf.trans (.single _ _)) hdone)

theorem waiting_or_halting (h : Reaches (zmodemReceive downloadDir useCrc32).run p) :
    Waiting downloadDir useCrc32 p ∨ Halting OnDead p := by
  generalize hq : (zmodemReceive downloadDir useCrc32).run = q at h
  have hgoes : Waiting downloadDir useCrc32 q ∨ Halting OnDead q := hq ▸ .inl .start
  clear hq
  induction h with
  | refl => exact hgoes
  | step answer _ ih =>
    refine ih ?_
    rcases hgoes with hwaiting | hhalting
    · exact hwaiting.step answer
    · exact .inr fun r hr => hhalting r (.step answer hr)

/-- Unplugged, the receiver goes on waiting: the frame that is broken off is an error, and an error
goes round. -/
theorem Waiting.unplugged (h : Waiting downloadDir useCrc32 p) :
    Waiting downloadDir useCrc32 (p.step OnPort.unplugged) := by
  cases h with
  | start => exact .head
  | head =>
    rw [head_step]
    exact .asking
  | asking =>
    rw [asking_step]
    show Waiting _ _ (((whenCancelled false).run.bind _).bind _)
    rw [asking_false]
    exact .reading (.refl _) receiveFrame_open
  | @reading f hf hopen =>
    rw [step_bind OnPort.unplugged hopen]
    by_cases hdone : (f.step OnPort.unplugged).Done
    · obtain ⟨r, hr⟩ := hdone
      have hends := ((receiveFrame_never f hf).resolve_left hopen).step unplugged_dead
      rw [hr] at hends ⊢
      cases r with
      | ok frame => exact (hends.of_pure frame rfl).elim
      | error e => exact .head
    · exact .reading (hf.trans (.single _ _)) hdone

theorem Waiting.exec (h : Waiting downloadDir useCrc32 p) (n : Nat) :
    Waiting downloadDir useCrc32 (p.exec (fun _ => OnPort.unplugged) n) := by
  induction n generalizing p with
  | zero => exact h
  | succ n ih => exact ih h.unplugged

theorem Waiting.not_stops (h : Waiting downloadDir useCrc32 p) : ¬StopsOnDeadPort p := by
  intro hstops
  obtain ⟨n, hn⟩ := hstops (fun _ => OnPort.unplugged) fun _ => unplugged_dead
  exact not_done_of_waiting (h.exec n) hn

end Wait

/-! ## The receivers -/

inductive Reception where
  | xmodem (configured : XModem.XModemReceiveMode) (fileName : List Char)
  | ymodem (downloadDir : Path) (createFile : Path → Option String)
  | zmodem (downloadDir : Path) (useCrc32 : Bool)

def Reception.program : Reception → Io (List BatchFileResult)
  | .xmodem configured fileName => xmodemReceive configured fileName
  | .ymodem downloadDir createFile => ymodemReceive downloadDir createFile
  | .zmodem downloadDir useCrc32 => zmodemReceive downloadDir useCrc32

/-- The receiver is `zmodem_receive` and has not come to the end of its wait for `ZRQINIT`. -/
def Reception.Waits : Reception → Prog portIo (Except TransferError (List BatchFileResult)) → Prop
  | .xmodem .. | .ymodem .. => fun _ => False
  | .zmodem downloadDir useCrc32 => Waiting downloadDir useCrc32

/-- **Receivers on a dead port.** Wherever a receiver has got to, it returns after finitely many
steps on a dead port, exactly if it is not waiting for `ZRQINIT`. -/
theorem receivers_stop_iff (r : Reception)
    {p : Prog portIo (Except TransferError (List BatchFileResult))}
    (h : Reaches r.program.run p) : StopsOnDeadPort p ↔ ¬r.Waits p := by
  cases r with
  | xmodem configured fileName =>
    have hhalts : Halting OnDead p := fun q hq => xmodemReceive_halts _ _ q (h.trans hq)
    exact iff_of_true (Halting.stops hhalts) id
  | ymodem downloadDir createFile =>
    have hhalts : Halting OnDead p := fun q hq => ymodemReceive_halts q (h.trans hq)
    exact iff_of_true (Halting.stops hhalts) id
  | zmodem downloadDir useCrc32 =>
    refine ⟨fun hstops hwaiting => hwaiting.not_stops hstops, fun hnot => ?_⟩
    exact Halting.stops ((waiting_or_halting h).resolve_left hnot)

/-- The XModem receiver stops from its start, the ZModem receiver does not. -/
theorem receivers_stop_start :
    StopsOnDeadPort (xmodemReceive .auto []).run ∧
      ¬StopsOnDeadPort (zmodemReceive (Path.new []) true).run :=
  ⟨(receivers_stop_iff (.xmodem .auto []) (.refl _)).mpr id,
    fun hstops => (receivers_stop_iff (.zmodem (Path.new []) true) (.refl _)).mp hstops .start⟩

/-- The port is unplugged at the head of the wait. -/
theorem zmodem_waits_for_ever :
    ¬ ∀ (r : Reception) (p : Prog portIo (Except TransferError (List BatchFileResult))),
      Reaches r.program.run p → StopsOnDeadPort p := by
  intro hall
  have hreached : Reaches (zmodemReceive (Path.new []) true).run
      (awaitZrqinit.run.bind (behindWait (Path.new []) true)) := .step unplugged (.refl _)
  exact Waiting.not_stops .head
    (hall (.zmodem (Path.new []) true) _ hreached)

end TauTerm.Transfer.OnPort
