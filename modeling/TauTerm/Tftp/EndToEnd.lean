import Mathlib
import TauTerm.Tftp.Flow

/-!
# A transfer from the request to its end

`Handshake` lists what a GET or a PUT goes through until the file is sent, and
`Flow` takes over from there. A transfer stops only when the sender is through
(`Flow.progress`), so whether it succeeds depends on what the receiver has seen by
then: a GET leaves the first block to the client, which does not look at its length,
and `send_file` leaves the loop before it sends an empty file.
-/

namespace TauTerm.Tftp

open Lib

/-- The file of the request as the blocks that are sent. -/
def Request.blocks (q : Request) : List (List UInt8) := cut q.server.blksize.toNat q.content

theorem Request.length_blocks (q : Request) :
    q.blocks.length = q.content.length / q.server.blksize.toNat + 1 := length_cut _ _

theorem Request.blocks_short {q : Request} (hsize : 0 < q.server.blksize.toNat) (i : Nat) (block : List UInt8)
    (h : q.blocks[i]? = some block) :
    block.length < q.server.blksize.toNat ↔ i + 1 = q.blocks.length := by
  rw [length_of_getElem?_cut _ _ hsize h, Request.length_blocks]
  omega

variable {R W : Type} {read : WindowRead R} {write : WindowWrite W} {rlaw : read.Lawful}
  {wlaw : write.Lawful} {q : Request} {blocks : List (List UInt8)} {w start : Nat}
  {e e' : Exchange R W}

/-! ## Progress -/

section Progress

variable (h : Flow rlaw wlaw q blocks w start e) (hagrees : q.Agrees)
  (hwindow : w = q.server.windowSize) (hn : blocks.length < 65536)
  (hshort : ∀ i block, blocks[i]? = some block →
    (block.length < q.server.blksize.toNat ↔ i + 1 = blocks.length))
  (hstart : start ≤ 1)

include h hwindow hn in
/-- The sender has a step unless it waits for acknowledgements with everything sent. -/
theorem Flow.sender_progress (hbase : e.sender.base < blocks.length)
    (hready : (e.view wlaw).phase = .sending ∨ (∃ ack, (e.view wlaw).phase = .collecting (some ack)) ∨
      ((e.view wlaw).phase = .collecting none ∧
        ((e.view wlaw).acks ≠ [] ∨ (e.view wlaw).sent < (e.view wlaw).window blocks.length w))) :
    ∃ action e', Steps read write q e action e' ∧
      e'.measure wlaw blocks.length w < e.measure wlaw blocks.length w := by
  have hw : 0 < w := hwindow ▸ q.server.windowSize_pos
  obtain ⟨sender, receiver, toReceiver, toSender⟩ := e
  cases sender with
  | answering => exact h.sender.elim
  | awaitingAck => exact h.sender.elim
  | awaitingReply => exact h.sender.elim
  | failed => exact h.sender.elim
  | transferring params sd =>
    cases hphase : sd.phase with
    | finished outcome =>
      obtain ⟨-, hok⟩ := h.sender
      rw [hphase] at hok
      exact absurd hok.2 (ne_of_lt hbase)
    | sending =>
      refine ⟨.sender true, _, ?_, (h.sendStep hw hn hphase).2⟩
      simp [Steps, Exchange.step, Exchange.senderStep, hphase]
    | collecting lastAck =>
      obtain ⟨-, hrun⟩ := h.running (by rw [hphase]; nofun)
      have hview : (Exchange.view wlaw ⟨.transferring params sd, receiver, toReceiver, toSender⟩).phase =
          .collecting lastAck := by
        show sd.phase.view = _
        rw [hphase]; rfl
      rw [hview] at hready
      -- an empty socket sends it back to its window, if it does not block
      have hidle : (lastAck ≠ none ∨ sd.wrIdx < (read.elements sd.window).length) →
          ∃ action e', Steps read write q ⟨.transferring params sd, receiver, toReceiver, toSender⟩ action
            e' ∧ e'.measure wlaw blocks.length w < Exchange.measure wlaw blocks.length w
              ⟨.transferring params sd, receiver, toReceiver, toSender⟩ := by
        intro hcase
        have hmode : sd.nonblocking = true := by
          refine hrun.mode (hcase.symm.imp_right fun hsome => ?_)
          obtain ⟨ack, rfl⟩ := Option.ne_none_iff_exists'.mp hsome
          exact ⟨ack, hphase⟩
        rcases h.collectIdle hw hn hphase with ⟨-, hnone, hidx⟩ | ⟨-, hlt⟩
        · exact absurd hcase (not_or.mpr ⟨not_not.mpr hnone, hidx⟩)
        · refine ⟨.sender false, _, ?_, hlt⟩
          simp [Steps, Exchange.step, Exchange.senderStep, hphase, recv, hmode]
      rcases hready with hsending | ⟨ack, hack⟩ | ⟨-, hacks | hsent⟩
      · cases hsending
      · exact hidle (.inl (by cases hack; nofun))
      · cases toSender with
        | nil => exact absurd rfl hacks
        | cons packet toSender =>
          refine ⟨.sender true, _, ?_, (h.collect hw hphase).2⟩
          simp [Steps, Exchange.step, Exchange.senderStep, hphase, recv]
      · refine hidle (.inr ?_)
        rw [hrun.view_window] at hsent
        have hwrIdx := @SendSide.sent_of_running _ params sd (by rw [hphase]; nofun)
        exact lt_of_eq_of_lt hwrIdx.symm hsent

include h hagrees hwindow hn hshort hstart in
/-- The receiver has a step if it owes an acknowledgement, or can take a packet. -/
theorem Flow.receiver_progress
    (hready : e.receiver.acking = true ∨
      (e.receiver.acknowledged wlaw < blocks.length ∧ e.toReceiver ≠ [])) :
    ∃ action e', Steps read write q e action e' ∧
      e'.measure wlaw blocks.length w < e.measure wlaw blocks.length w := by
  suffices henabled : ∃ e', e.receiverStep write q true = some e' by
    obtain ⟨e', hs⟩ := henabled
    exact ⟨.receiver true, e', hs, (h.receiverStep hagrees hwindow hn hshort hstart hs).2⟩
  obtain ⟨sender, receiver, toReceiver, toSender⟩ := e
  have hpacket (hidle : receiver.acking = false) : toReceiver ≠ [] := by
    rcases hready with hacking | ⟨-, hne⟩
    · exact absurd hacking (by rw [hidle]; nofun)
    · exact hne
  cases receiver with
  | answering => exact h.receiver.elim
  | failed => exact h.receiver.elim
  | awaitingFirst =>
    obtain ⟨packet, rest, rfl⟩ := List.exists_cons_of_ne_nil (hpacket rfl)
    exact ⟨_, by simp [Exchange.receiverStep, recv]; rfl⟩
  | awaitingData blksize params =>
    obtain ⟨packet, rest, rfl⟩ := List.exists_cons_of_ne_nil (hpacket rfl)
    exact ⟨_, by simp [Exchange.receiverStep, recv]; rfl⟩
  | firstBlock blksize params data => exact ⟨_, rfl⟩
  | transferring blksize params r =>
    cases hphase : r.phase with
    | acking => exact ⟨_, by simp [Exchange.receiverStep, hphase]; rfl⟩
    | receiving =>
      have hidle : (ReceiveSide.transferring blksize params r).acking = false := by
        simp [ReceiveSide.acking, hphase]
      obtain ⟨packet, rest, rfl⟩ := List.exists_cons_of_ne_nil (hpacket hidle)
      exact ⟨_, by simp [Exchange.receiverStep, hphase, recv]; rfl⟩
    | finished outcome =>
      -- it has acknowledged everything, and there is nothing more to take
      obtain ⟨-, -, hok⟩ := h.receiver
      obtain ⟨-, hlast, hnil⟩ := hok.finished outcome hphase
      have hnumber : r.blockNumber = blocks.length := by
        rw [hok.last] at hlast
        exact (of_decide_eq_true hlast).2
      rcases hready with hacking | ⟨hlt, -⟩
      · simp [ReceiveSide.acking, hphase] at hacking
      · simp only [ReceiveSide.acknowledged, hnil, List.length_nil, hnumber] at hlt
        omega

include h hagrees hwindow hn hshort hstart in
/-- A transfer that is not through goes on. -/
theorem Flow.progress (hopen : e.sender.base < blocks.length ∨ e.receiver.acking = true) :
    ∃ action e', Steps read write q e action e' ∧ e' ≠ e := by
  suffices hstep : ∃ action e', Steps read write q e action e' ∧
      e'.measure wlaw blocks.length w < e.measure wlaw blocks.length w by
    obtain ⟨action, e', hs, hlt⟩ := hstep
    exact ⟨action, e', hs, fun heq => lt_irrefl _ (heq ▸ hlt)⟩
  by_cases hacking : e.receiver.acking = true
  · exact h.receiver_progress hagrees hwindow hn hshort hstart (.inl hacking)
  have hbase := hopen.resolve_right hacking
  rcases h.view.live hbase with hack | ⟨hlt, hdata⟩ | hready
  · exact absurd hack hacking
  · refine h.receiver_progress hagrees hwindow hn hshort hstart (.inr ⟨hlt, fun hnil => hdata ?_⟩)
    simp [Exchange.view, hnil]
  · exact h.sender_progress hwindow hn hbase hready

end Progress

/-! ## Success -/

/-- With everything acknowledged, both sides are through and the file is there: unless
the one block there was came before `receive_file`. -/
theorem Flow.succeeded (h : Flow rlaw wlaw q blocks w start e) (hbase : e.sender.base = blocks.length)
    (hacking : e.receiver.acking = false) (hmany : start < blocks.length) :
    e.Succeeded write blocks.flatten := by
  have hle : blocks.length ≤ e.receiver.acknowledged wlaw := hbase ▸ h.view.base_le_acknowledged
  obtain ⟨sender, receiver, toReceiver, toSender⟩ := e
  constructor
  · cases sender with
    | answering => exact h.sender.elim
    | awaitingAck => exact h.sender.elim
    | awaitingReply => exact h.sender.elim
    | failed => exact h.sender.elim
    | transferring params sd =>
      by_cases hrunning : ∀ outcome, sd.phase ≠ .finished outcome
      · exact absurd hbase (ne_of_lt (h.running hrunning).2.unfinished)
      · push Not at hrunning
        obtain ⟨outcome, hphase⟩ := hrunning
        obtain ⟨-, hok⟩ := h.sender
        rw [hphase] at hok
        obtain ⟨⟨result, rfl⟩, -⟩ := hok
        exact ⟨params, sd, result, rfl, hphase⟩
  · have hpos : 0 < blocks.length := by omega
    cases receiver with
    | answering => exact h.receiver.elim
    | failed => exact h.receiver.elim
    | awaitingFirst => exact absurd hle (by show ¬ blocks.length ≤ 0; omega)
    | awaitingData blksize params => exact absurd hle (by show ¬ blocks.length ≤ 0; omega)
    | firstBlock blksize params data => exact absurd hle (by show ¬ blocks.length ≤ 0; omega)
    | transferring blksize params r =>
      obtain ⟨-, -, hok⟩ := h.receiver
      have hle' : blocks.length ≤ r.blockNumber - (wlaw.blocks r.window).length := hle
      have hnumber := hok.number_le
      have hlast : r.last = true := by
        rw [hok.last]
        exact decide_eq_true ⟨by omega, by omega⟩
      cases hphase : r.phase with
      | acking => simp [ReceiveSide.acking, hphase] at hacking
      | receiving =>
        have hfalse := (hok.receiving hphase).1
        rw [hlast] at hfalse
        cases hfalse
      | finished outcome =>
        obtain ⟨⟨result, rfl⟩, -, hnil⟩ := hok.finished outcome hphase
        refine ⟨blksize, params, r, result, rfl, hphase, ?_⟩
        rw [hok.file, List.take_of_length_le hle']

/-- A receiver that starts behind the last block waits for one that never comes. -/
theorem Flow.not_succeeded (h : Flow rlaw wlaw q blocks w start e) (hfew : blocks.length ≤ start)
    (content : List UInt8) : ¬ e.Succeeded write content := by
  rintro ⟨-, blksize, params, r, result, hreceiver, hphase, -⟩
  have hok := h.receiver
  rw [hreceiver] at hok
  obtain ⟨-, -, hok⟩ := hok
  obtain ⟨-, hlast, -⟩ := hok.finished _ hphase
  rw [hok.last] at hlast
  obtain ⟨hlt, heq⟩ := of_decide_eq_true hlast
  omega

/-! ## The handshake -/

theorem negotiatedBlksize_build (server client : TftpDynamicParams) (transferSize : Option Nat) :
    negotiatedBlksize (buildOackOptions server transferSize) client = server.blksize := by
  simp [negotiatedBlksize, buildOackOptions, findOption]

theorem windowSize_apply_build (server client : TftpDynamicParams) (transferSize : Option Nat) :
    (applyOackWindowOptions (buildOackOptions server transferSize) client).windowSize =
      server.windowSize := by
  simp [applyOackWindowOptions, buildOackOptions, findOption, TftpDynamicParams.windowSize]

/-- What `handle_wrq` answers. -/
def Request.reply (q : Request) : Packet :=
  if q.hasOptions then .oack (buildOackOptions q.server none) else .ack 0

/-- A GET leaves the first block to the client (`start = 1`), a PUT none (`start = 0`). -/
inductive Handshake (write : WindowWrite W) (q : Request) : Nat → Exchange R W → Prop
  | get : Handshake write q 1 .get
  | getOack : q.hasOptions = true → Handshake write q 1
      ⟨.awaitingAck, .awaitingFirst, [.oack (buildOackOptions q.server (some q.content.length))], []⟩
  | getConfirmed (params : TftpDynamicParams) : params.windowSize = q.server.windowSize →
      Handshake write q 1 ⟨.awaitingAck, .awaitingData q.server.blksize params, [], [.ack 0]⟩
  | put : Handshake write q 0 .put
  | putReply : Handshake write q 0
      ⟨.awaitingReply,
        .transferring q.server.blksize q.server (receiveFile write q.server [] 1), [], [q.reply]⟩

variable (rlaw wlaw) in
/-- The sender enters `send_file`, and the receiver has accepted nothing. -/
theorem Flow.enter {params : TftpDynamicParams} {receiver : ReceiveSide W}
    (hsize : 0 < q.server.blksize.toNat) (hcontent : q.content ≠ [])
    (hparams : params.windowSize = q.server.windowSize)
    (hreceiver : receiver.Ok wlaw q q.blocks q.server.windowSize start)
    (haccepted : receiver.accepted = 0) (hacknowledged : receiver.acknowledged wlaw = 0)
    (hidle : receiver.acking = false) :
    Flow rlaw wlaw q q.blocks q.server.windowSize start
      ⟨.transferring params (sendFile read params q.server.blksize.toNat q.content), receiver, [], []⟩ := by
  obtain ⟨hrun, hbase, hidx, hphase⟩ := @sendFile_running _ _ params rlaw _ _ hsize hcontent
  rw [hparams] at hrun
  refine ⟨SendSide.ok_of_running hparams hrun (by rw [hphase]; nofun), hreceiver, nofun, nofun, ?_⟩
  have hinit := GoBackN.State.Inv.init (n := q.blocks.length) q.server.windowSize_pos
  have hview : Exchange.view wlaw
      ⟨.transferring params (sendFile read params q.server.blksize.toNat q.content), receiver, [], []⟩ =
      ⟨0, 0, .sending, [], 0, 0, false, []⟩ := by
    simp [Exchange.view, SendSide.base, SendSide.sent, SendSide.phase, hphase, hbase, hidx,
      SendPhase.view, haccepted, hacknowledged, hidle]
  rw [hview]
  exact hinit

/-- How many messages of the handshake are still to come. -/
def Exchange.handshake (e : Exchange R W) : Nat := e.sender.handshake + e.receiver.handshake

variable (rlaw wlaw) in
theorem Handshake.step (h : Handshake write q start e) (hagrees : q.Agrees)
    (hsize : 0 < q.server.blksize.toNat) (hcontent : q.content ≠ []) {action : Action}
    (hs : Steps read write q e action e') :
    (Handshake write q start e' ∨ Flow rlaw wlaw q q.blocks q.server.windowSize start e') ∧
      e'.handshake < e.handshake := by
  cases h with
  | get =>
    cases action with
    | sender arrived =>
      simp only [Steps, Exchange.step, Exchange.senderStep, Exchange.get] at hs
      split_ifs at hs with hoptions
      · obtain rfl := Option.some.inj hs
        exact ⟨.inl (.getOack hoptions), Nat.lt_succ_self 4⟩
      · obtain rfl := Option.some.inj hs
        have hnone : q.hasOptions = false := Bool.eq_false_iff.mpr hoptions
        exact ⟨.inr (.enter rlaw wlaw hsize hcontent rfl ⟨rfl, hnone⟩ rfl rfl rfl),
          Nat.lt_add_of_pos_right (k := 2) (n := 3) Nat.two_pos⟩
    | receiver arrived => cases arrived <;> cases hs
  | getOack hoptions =>
    cases action with
    | sender arrived => cases arrived <;> cases hs
    | receiver arrived =>
      cases arrived with
      | false => cases hs
      | true =>
        simp only [Steps, Exchange.step, Exchange.receiverStep, recv, if_true, Option.map_some,
          negotiatedBlksize_build] at hs
        obtain rfl := Option.some.inj hs
        exact ⟨.inl (.getConfirmed _ (windowSize_apply_build _ _ _)), Nat.lt_succ_self 3⟩
  | getConfirmed params hparams =>
    cases action with
    | sender arrived =>
      cases arrived with
      | false => cases hs
      | true =>
        obtain rfl := Option.some.inj hs
        exact ⟨.inr (.enter rlaw wlaw hsize hcontent rfl ⟨rfl, rfl, hparams⟩ rfl rfl rfl),
          Nat.lt_succ_self 2⟩
    | receiver arrived => cases arrived <;> cases hs
  | put =>
    cases action with
    | sender arrived => cases arrived <;> cases hs
    | receiver arrived =>
      obtain rfl := Option.some.inj hs
      exact ⟨.inl .putReply, Nat.lt_succ_self 1⟩
  | putReply =>
    cases action with
    | receiver arrived => cases arrived <;> cases hs
    | sender arrived =>
      cases arrived with
      | false => cases hs
      | true =>
        obtain ⟨hok, hnumber, hnil⟩ := @receiveFile_ok _ _ q.server 0 wlaw q.blocks []
            q.server.windowSize_pos (Nat.zero_le _)
            (.inl (by rw [Request.length_blocks]; exact Nat.succ_pos _)) nofun
        have henter {params : TftpDynamicParams} (hparams : params.windowSize = q.server.windowSize) :=
          @Flow.enter _ _ _ _ rlaw wlaw _ _ _ (.transferring q.server.blksize
            q.server (receiveFile write q.server [] 1)) hsize hcontent hparams ⟨rfl, rfl, hok⟩
              hnumber (by simp [ReceiveSide.acknowledged, hnumber]) rfl
        cases hoptions : q.hasOptions with
        | true =>
          simp only [Steps, Exchange.step, Exchange.senderStep, recv, Request.reply, hoptions, if_true,
            Option.map_some, negotiatedBlksize_build] at hs
          obtain rfl := Option.some.inj hs
          exact ⟨.inr (henter (windowSize_apply_build _ _ _)), Nat.lt_succ_self 0⟩
        | false =>
          obtain ⟨hblksize, hwindow⟩ := hagrees hoptions
          simp only [Steps, Exchange.step, Exchange.senderStep, recv, Request.reply, hoptions, if_true,
            Bool.false_eq_true, if_false, Option.map_some, hblksize] at hs
          obtain rfl := Option.some.inj hs
          exact ⟨.inr (henter hwindow), Nat.lt_succ_self 0⟩

theorem Handshake.progress (read : WindowRead R) (h : Handshake write q start e) :
    ∃ action e', Steps read write q e action e' := by
  cases h with
  | get =>
    refine ⟨.sender true, Option.get (Exchange.senderStep read q .get true) ?_, (Option.some_get _).symm⟩
    cases hoptions : q.hasOptions <;> simp [Exchange.senderStep, Exchange.get, hoptions]
  | getOack hoptions => exact ⟨.receiver true, _, rfl⟩
  | getConfirmed params hparams => exact ⟨.sender true, _, rfl⟩
  | put => exact ⟨.receiver true, _, rfl⟩
  | putReply => exact ⟨.sender true, _, rfl⟩

/-! ## The end -/

/-- An exchange on its way, with something to send. -/
def Underway (rlaw : read.Lawful) (wlaw : write.Lawful) (q : Request) (start : Nat)
    (e : Exchange R W) : Prop :=
  Handshake write q start e ∨ Flow rlaw wlaw q q.blocks q.server.windowSize start e

section Underway

variable (hsize : 0 < q.server.blksize.toNat)
  (hblocks : q.content.length / q.server.blksize.toNat + 1 < 65536) (hagrees : q.Agrees)
  (hstart : start ≤ 1) (hcontent : q.content ≠ [])

include hsize hblocks hagrees hstart hcontent

theorem Underway.step (h : Underway rlaw wlaw q start e) {action : Action}
    (hs : Steps read write q e action e') :
    e' = e ∨ (Underway rlaw wlaw q start e' ∧
      e'.measure wlaw q.blocks.length q.server.windowSize <
        e.measure wlaw q.blocks.length q.server.windowSize) := by
  have hn : q.blocks.length < 65536 := by rwa [Request.length_blocks]
  rcases h with h | h
  · obtain ⟨hunderway, hlt⟩ := h.step rlaw wlaw hagrees hsize hcontent hs
    exact .inr ⟨hunderway, Prod.Lex.toLex_lt_toLex.mpr (.inl hlt)⟩
  · cases action with
    | sender arrived =>
      exact (h.senderStep q.server.windowSize_pos hn hs).imp_right fun hflow => ⟨.inr hflow.1, hflow.2⟩
    | receiver arrived =>
      have hflow := h.receiverStep hagrees rfl hn (Request.blocks_short hsize) hstart hs
      exact .inr ⟨.inr hflow.1, hflow.2⟩

theorem Underway.terminates (h : Underway rlaw wlaw q start e) : Terminates (Steps read write q) e := by
  refine @terminates_of_measure _ _ _ _ _ _
      (Exchange.measure wlaw q.blocks.length q.server.windowSize) (Underway rlaw wlaw q start)
      (fun e action e' he hs => ?_) (fun e action e' he hs hne => ?_) _ h
  · rcases he.step hsize hblocks hagrees hstart hcontent hs with rfl | ⟨he', -⟩
    · exact he
    · exact he'
  · exact ((he.step hsize hblocks hagrees hstart hcontent hs).resolve_left hne).2

theorem Underway.run (h : Underway rlaw wlaw q start e) {actions : List Action}
    (hrun : Run (Steps read write q) e actions e') : Underway rlaw wlaw q start e' := by
  refine hrun.invariant (fun e action e' he hs => ?_) h
  rcases he.step hsize hblocks hagrees hstart hcontent hs with rfl | ⟨he', -⟩
  · exact he
  · exact he'

/-- An exchange that has come to rest is through: nothing is under way or owed. -/
theorem Underway.rest (h : Underway rlaw wlaw q start e) (hquiet : Quiet (Steps read write q) e) :
    Flow rlaw wlaw q q.blocks q.server.windowSize start e ∧ e.sender.base = q.blocks.length ∧
      e.receiver.acking = false := by
  have hn : q.blocks.length < 65536 := by rwa [Request.length_blocks]
  rcases h with h | h
  · obtain ⟨action, e', hs⟩ := h.progress read
    have hlt := (h.step rlaw wlaw hagrees hsize hcontent hs).2
    rw [hquiet action e' hs] at hlt
    exact absurd hlt (lt_irrefl _)
  · have hclosed : ¬ (e.sender.base < q.blocks.length ∨ e.receiver.acking = true) := fun hopen => by
      obtain ⟨action, e', hs, hne⟩ :=
        h.progress hagrees rfl hn (Request.blocks_short hsize) hstart hopen
      exact hne (hquiet action e' hs)
    obtain ⟨hbase, hacking⟩ := not_or.mp hclosed
    exact ⟨h, le_antisymm h.view.base_le (not_lt.mp hbase), Bool.eq_false_iff.mpr hacking⟩

theorem Underway.completes_iff (h : Underway rlaw wlaw q start e) :
    Completes (Steps read write q) (Exchange.Succeeded write q.content) e ↔
      start < q.blocks.length := by
  have hfile : q.blocks.flatten = q.content := flatten_cut _ _ hsize
  constructor
  · rintro ⟨-, hgood⟩
    by_contra hfew
    obtain ⟨actions, e', hrun, hquiet⟩ := @exists_run_quiet _ _ (Steps read write q) _ _ _
        (Exchange.measure wlaw q.blocks.length q.server.windowSize) (Underway rlaw wlaw q start)
        (fun e action e' he hs => he.run hsize hblocks hagrees hstart hcontent (.cons hs (.nil _)))
        (fun e action e' he hs hne =>
        ((he.step hsize hblocks hagrees hstart hcontent hs).resolve_left hne).2) _ h
    obtain ⟨hflow, -, -⟩ :=
      (h.run hsize hblocks hagrees hstart hcontent hrun).rest hsize hblocks hagrees hstart hcontent hquiet
    exact hflow.not_succeeded (not_lt.mp hfew) _ (hgood actions e' hrun hquiet)
  · intro hmany
    refine ⟨h.terminates hsize hblocks hagrees hstart hcontent, fun actions e' hrun hquiet => ?_⟩
    obtain ⟨hflow, hbase, hacking⟩ :=
      (h.run hsize hblocks hagrees hstart hcontent hrun).rest hsize hblocks hagrees hstart hcontent hquiet
    exact hfile ▸ hflow.succeeded hbase hacking hmany

end Underway

/-! ## The empty file -/

/-- `send_file` returns at once, and nothing ever reaches the client. -/
theorem get_empty (hcontent : q.content = []) :
    ¬ Completes (Steps read write q) (Exchange.Succeeded write q.content) .get := by
  rintro ⟨-, hgood⟩
  have hsend (params : TftpDynamicParams) : (sendFile read params q.server.blksize.toNat q.content).phase =
      .finished (.ok ⟨0, some []⟩) := by
    simp [sendFile, hcontent, Sender.finish]
  suffices hrest : ∃ actions receiver, (∀ blksize params r, receiver ≠ .transferring blksize params r) ∧
      Run (Steps read write q) .get actions ⟨.transferring q.server
        (sendFile read q.server q.server.blksize.toNat q.content), receiver, [], []⟩ ∧
      Quiet (Steps read write q) ⟨.transferring q.server
        (sendFile read q.server q.server.blksize.toNat q.content), receiver, [], []⟩ by
    obtain ⟨actions, receiver, hreceiver, hrun, hquiet⟩ := hrest
    obtain ⟨-, blksize, params, r, -, heq, -⟩ := hgood actions _ hrun hquiet
    exact hreceiver blksize params r heq
  cases hoptions : q.hasOptions with
  | false =>
    have hstart : Steps read write q .get (.sender true) ⟨.transferring q.server
        (sendFile read q.server q.server.blksize.toNat q.content), .awaitingFirst, [], []⟩ := by
      simp [Steps, Exchange.step, Exchange.senderStep, Exchange.get, hoptions]
    refine ⟨_, .awaitingFirst, fun _ _ _ heq => (by cases heq), .cons hstart (.nil _),
      fun action e' hs => ?_⟩
    cases action with
    | sender arrived => simp [Steps, Exchange.step, Exchange.senderStep, hsend] at hs
    | receiver arrived => cases arrived <;> cases hs
  | true =>
    let oack := buildOackOptions q.server (some q.content.length)
    let params := applyOackWindowOptions oack q.client
    have hanswer : Steps read write q .get (.sender true)
        ⟨.awaitingAck, .awaitingFirst, [.oack oack], []⟩ := by
      simp [Steps, Exchange.step, Exchange.senderStep, Exchange.get, hoptions, oack]
    have hconfirm : Steps read write q ⟨.awaitingAck, .awaitingFirst, [.oack oack], []⟩ (.receiver true)
        ⟨.awaitingAck, .awaitingData (negotiatedBlksize oack q.client) params, [], [.ack 0]⟩ := by
      simp [Steps, Exchange.step, Exchange.receiverStep, recv, params]
    have hstart : Steps read write q
        ⟨.awaitingAck, .awaitingData (negotiatedBlksize oack q.client) params, [], [.ack 0]⟩ (.sender true)
        ⟨.transferring q.server (sendFile read q.server q.server.blksize.toNat q.content),
          .awaitingData (negotiatedBlksize oack q.client) params, [], []⟩ := by
      simp [Steps, Exchange.step, Exchange.senderStep, recv]
    refine ⟨_, .awaitingData (negotiatedBlksize oack q.client) params, fun _ _ _ heq => (by cases heq),
      .cons hanswer (.cons hconfirm (.cons hstart (.nil _))), fun action e' hs => ?_⟩
    cases action with
    | sender arrived => simp [Steps, Exchange.step, Exchange.senderStep, hsend] at hs
    | receiver arrived => cases arrived <;> cases hs

/-- `send_file` returns at once, and nothing ever reaches `receive_file`. -/
theorem put_empty (hcontent : q.content = []) :
    ¬ Completes (Steps read write q) (Exchange.Succeeded write q.content) .put := by
  rintro ⟨-, hgood⟩
  have hsend (params : TftpDynamicParams) (blockSize : Nat) :
      (sendFile read params blockSize q.content).phase = .finished (.ok ⟨0, some []⟩) := by
    simp [sendFile, hcontent, Sender.finish]
  let receiver : ReceiveSide W :=
    .transferring q.server.blksize q.server (receiveFile write q.server [] 1)
  suffices hreply : ∃ params blockSize, Steps read write q ⟨.awaitingReply, receiver, [], [q.reply]⟩
      (.sender true) ⟨.transferring params (sendFile read params blockSize q.content), receiver, [], []⟩ by
    obtain ⟨params, blockSize, hstep⟩ := hreply
    have hquiet : Quiet (Steps read write q)
        ⟨.transferring params (sendFile read params blockSize q.content), receiver, [], []⟩ := by
      intro action e' hs
      cases action with
      | sender arrived => simp [Steps, Exchange.step, Exchange.senderStep, hsend] at hs
      | receiver arrived => cases arrived <;> cases hs
    obtain ⟨-, blksize, params', r, result, heq, hphase, -⟩ :=
      hgood [.receiver true, .sender true] _ (.cons rfl (.cons hstep (.nil _))) hquiet
    cases heq
    cases hphase
  cases hoptions : q.hasOptions with
  | false =>
    exact ⟨q.client, q.client.blksize.toNat, by
      simp [Steps, Exchange.step, Exchange.senderStep, recv, Request.reply, hoptions]⟩
  | true =>
    exact ⟨applyOackWindowOptions (buildOackOptions q.server none) q.client,
      (negotiatedBlksize (buildOackOptions q.server none) q.client).toNat, by
      simp [Steps, Exchange.step, Exchange.senderStep, recv, Request.reply, hoptions]⟩

/-! ## Both directions -/

section Directions

variable (rlaw wlaw q) (hsize : 0 < q.server.blksize.toNat)
  (hblocks : q.content.length / q.server.blksize.toNat + 1 < 65536) (hagrees : q.Agrees)

include rlaw wlaw hsize hblocks hagrees

theorem get_completes_iff :
    Completes (Steps read write q) (Exchange.Succeeded write q.content) .get ↔
      q.server.blksize.toNat ≤ q.content.length := by
  by_cases hcontent : q.content = []
  · refine iff_of_false (get_empty hcontent) ?_
    rw [hcontent, List.length_nil]
    omega
  · have h : Underway rlaw wlaw q 1 .get := .inl .get
    rw [h.completes_iff hsize hblocks hagrees le_rfl hcontent, Request.length_blocks,
      Nat.lt_succ_iff, Nat.one_le_div_iff hsize]

theorem put_completes_iff :
    Completes (Steps read write q) (Exchange.Succeeded write q.content) .put ↔
      0 < q.content.length := by
  by_cases hcontent : q.content = []
  · refine iff_of_false (put_empty hcontent) ?_
    rw [hcontent, List.length_nil]
    omega
  · have h : Underway rlaw wlaw q 0 .put := .inl .put
    rw [h.completes_iff hsize hblocks hagrees (Nat.zero_le _) hcontent, Request.length_blocks]
    exact iff_of_true (Nat.succ_pos _) (List.length_pos_of_ne_nil hcontent)

/-- Whatever the order of the steps, a GET comes to its end with both sides `Ok` and the
file in place exactly if the file fills a block, a PUT exactly if there is a file to send. -/
theorem transfer_completes_iff :
    (Completes (Steps read write q) (Exchange.Succeeded write q.content) .get ↔
        q.server.blksize.toNat ≤ q.content.length) ∧
      (Completes (Steps read write q) (Exchange.Succeeded write q.content) .put ↔
        0 < q.content.length) :=
  ⟨get_completes_iff rlaw wlaw q hsize hblocks hagrees,
    put_completes_iff rlaw wlaw q hsize hblocks hagrees⟩

end Directions

theorem transfer_completes_iff_bytes :
    (Completes (Steps listRead listWrite ⟨[1, 2, 3], {}, { blksize := 2 }, true⟩)
        (Exchange.Succeeded listWrite [1, 2, 3]) .get ↔ 2 ≤ 3) ∧
      (Completes (Steps listRead listWrite ⟨[1, 2, 3], {}, { blksize := 2 }, true⟩)
        (Exchange.Succeeded listWrite [1, 2, 3]) .put ↔ 0 < 3) :=
  transfer_completes_iff listRead_lawful listWrite_lawful ⟨[1, 2, 3], {}, { blksize := 2 }, true⟩
    (by decide) (by decide) (by intro h; cases h)

/-- A file of one byte fits the first block, and the client waits for a second one. -/
theorem get_one_byte_hangs :
    ¬ Completes (Steps listRead listWrite ⟨[1], {}, {}, true⟩) (Exchange.Succeeded listWrite [1]) .get :=
  fun h => absurd ((get_completes_iff listRead_lawful listWrite_lawful ⟨[1], {}, {}, true⟩ (by decide)
    (by decide) (by intro h; cases h)).mp h) (by decide)

end TauTerm.Tftp
