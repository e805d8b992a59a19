import Mathlib
import TauTerm.Lib.Run
import TauTerm.Rtt.Worker

/-!
# Writes keep their boundaries

Every write is answered once, and what is handed over of it is the beginning of its data. Writes to
one channel keep their order as long as none of them gets its turn before an earlier one.
-/

namespace TauTerm.Rtt.Writes

open Lib

namespace Worker

/-! ## What is claimed of the writes -/

/-- `answered`: a write is either still pending or has one reply. -/
structure KeepsBoundaries (w : Worker) : Prop where
  answered : (w.replies.map Prod.fst ++ w.writes.map PendingWrite.reply).Perm
    (List.range w.received.length)
  stopped : w.running = false → w.writes = []
  ok : ∀ id n, (id, .ok n) ∈ w.replies →
    ∃ channelIndex, w.received[id]? = some (channelIndex, w.bytesOf id) ∧ n = (w.bytesOf id).length
  sent : ∀ h ∈ w.handed, ∃ data, w.received[h.write]? = some (h.channelIndex, data)
  bytes : ∀ id channelIndex data, w.received[id]? = some (channelIndex, data) →
    w.bytesOf id <+: data
  ordered : ∀ channelIndex,
    ((w.handed.filter fun h => h.channelIndex = channelIndex).map Handed.write).Pairwise (· ≤ ·)
  counted : w.txBytes = w.handed.length

/-- What a turn takes of a write. -/
def taken (pending : PendingWrite) (t : Tick) : Nat :=
  if pending.deadline ≤ t.before then 0
  else match t.written with
    | .ok count => min count pending.quantum
    | .error _ => 0

/-- The write that is served is the oldest one to its channel, and the counter has room. -/
def InTurn (timeout : Nat) (w : Worker) (t : Tick) : Prop :=
  ∀ pending writes, (w.atTurn timeout t).writes = pending :: writes → 0 < taken pending t →
    (∀ later ∈ writes, later.channelIndex = pending.channelIndex → pending.reply < later.reply) ∧
      w.txBytes + taken pending t < 2 ^ 64

/-! ## The invariant -/

/-- A pending write, and what has been handed over of it. -/
structure Underway (w : Worker) (pending : PendingWrite) : Prop where
  received : w.received[pending.reply]? = some (pending.channelIndex, pending.data)
  bytes : w.bytesOf pending.reply = pending.data.take pending.offset
  inside : pending.offset ≤ pending.data.length
  /-- Nothing of a later write has gone to its channel. -/
  first : ∀ h ∈ w.handed, h.channelIndex = pending.channelIndex → h.write ≤ pending.reply

structure Sound (w : Worker) : Prop extends KeepsBoundaries w where
  underway : ∀ pending ∈ w.writes, Underway w pending
  fits : w.txBytes < 2 ^ 64

variable {w : Worker} {pending : PendingWrite} {writes : List PendingWrite}

theorem sound_start : Sound start where
  answered := .nil
  stopped := fun _ => rfl
  ok := fun _ _ h => nomatch h
  sent := fun _ h => nomatch h
  bytes := fun _ _ _ h => nomatch h
  ordered := fun _ => .nil
  counted := rfl
  underway := fun _ h => nomatch h
  fits := by decide

/-! ## Replies -/

/-- A write leaves the queue with its reply. -/
theorem Sound.answer (h : Sound w) (hw : w.writes = pending :: writes)
    {result : Except RttError Nat}
    (hok : ∀ n, result = .ok n → pending.offset = pending.data.length ∧ n = pending.data.length) :
    Sound ({ w with writes }.answer pending result) where
  answered := by
    have := h.answered
    rw [hw] at this
    simpa [Worker.answer] using this
  stopped hrunning := by
    have := h.stopped hrunning
    rw [hw] at this
    cases this
  ok id n hmem := by
    obtain hold | hnew := List.mem_append.mp hmem
    · exact h.ok id n hold
    · obtain ⟨rfl, rfl⟩ := Prod.mk.inj (List.mem_singleton.mp hnew)
      obtain ⟨hoffset, rfl⟩ := hok n rfl
      have hu := h.underway pending (by rw [hw]; exact List.mem_cons_self)
      have hbytes : w.bytesOf pending.reply = pending.data := by
        rw [hu.bytes, hoffset, List.take_length]
      refine ⟨pending.channelIndex, ?_, ?_⟩
      · change w.received[pending.reply]? = some (_, w.bytesOf pending.reply)
        rw [hbytes]
        exact hu.received
      · change _ = (w.bytesOf pending.reply).length
        rw [hbytes]
  sent := h.sent
  bytes := h.bytes
  ordered := h.ordered
  counted := h.counted
  underway p hp := by
    have hu := h.underway p (by rw [hw]; exact List.mem_cons_of_mem _ hp)
    exact ⟨hu.received, hu.bytes, hu.inside, hu.first⟩
  fits := h.fits

theorem Sound.stop (h : Sound w) : Sound w.stop where
  answered := by
    have := h.answered
    simpa [Worker.stop, Function.comp_def] using this
  stopped _ := rfl
  ok id n hmem := by
    obtain hold | hnew := List.mem_append.mp hmem
    · exact h.ok id n hold
    · obtain ⟨p, -, hp⟩ := List.mem_map.mp hnew
      cases (Prod.mk.inj hp).2
  sent := h.sent
  bytes := h.bytes
  ordered := h.ordered
  counted := h.counted
  underway := fun _ hp => nomatch hp
  fits := h.fits

/-- Which write is first in the queue does not matter to what has been done. -/
theorem Sound.rotate (h : Sound w) (hw : w.writes = pending :: writes) :
    Sound { w with writes := writes ++ [pending] } := by
  have hperm : (writes ++ [pending]).Perm w.writes := by
    rw [hw]
    exact List.perm_append_singleton pending writes
  exact
    { answered := (((hperm.map PendingWrite.reply).append_left _)).trans h.answered
      stopped := fun hrunning => by
        have := h.stopped hrunning
        rw [hw] at this
        cases this
      ok := h.ok
      sent := h.sent
      bytes := h.bytes
      ordered := h.ordered
      counted := h.counted
      underway := fun p hp => by
        have hu := h.underway p (hperm.mem_iff.mp hp)
        exact ⟨hu.received, hu.bytes, hu.inside, hu.first⟩
      fits := h.fits }

/-! ## Writes that come -/

theorem Sound.sent_lt (h : Sound w) {b : Handed} (hb : b ∈ w.handed) : b.write < w.received.length := by
  obtain ⟨data, hdata⟩ := h.sent b hb
  exact (List.getElem?_eq_some_iff.mp hdata).1

theorem bytesOf_eq_nil {id : Nat} (h : ∀ b ∈ w.handed, b.write ≠ id) : w.bytesOf id = [] := by
  rw [bytesOf, List.filter_eq_nil_iff.mpr fun b hb hid => h b hb (of_decide_eq_true hid),
    List.map_nil]

theorem getElem?_grow {α : Type} {l : List α} {id : Nat} {x : α} (y : α) (h : l[id]? = some x) :
    (l ++ [y])[id]? = some x := by
  rwa [List.getElem?_append_left (List.getElem?_eq_some_iff.mp h).1]

theorem Underway.grow {w' : Worker} (h : Underway w pending) {write : Nat × List UInt8}
    (hreceived : w'.received = w.received ++ [write]) (hhanded : w'.handed = w.handed) :
    Underway w' pending where
  received := hreceived ▸ getElem?_grow write h.received
  bytes := by
    rw [← h.bytes, bytesOf, bytesOf, hhanded]
  inside := h.inside
  first := hhanded ▸ h.first

theorem Sound.acceptWrite (h : Sound w) (hrunning : w.running = true) (channelIndex : Nat)
    (data : List UInt8) (deadline : Nat) : Sound (w.acceptWrite channelIndex data deadline) := by
  have hnil : w.bytesOf w.received.length = [] := bytesOf_eq_nil fun b hb => (h.sent_lt hb).ne
  have hsent : ∀ b ∈ w.handed, ∃ data',
      (w.received ++ [(channelIndex, data)])[b.write]? = some (b.channelIndex, data') := by
    intro b hb
    obtain ⟨data', hdata'⟩ := h.sent b hb
    exact ⟨data', getElem?_grow _ hdata'⟩
  have hbytes : ∀ id ch data', (w.received ++ [(channelIndex, data)])[id]? = some (ch, data') →
      w.bytesOf id <+: data' := by
    intro id ch data' hid
    obtain hlt | hge := Nat.lt_or_ge id w.received.length
    · rw [List.getElem?_append_left hlt] at hid
      exact h.bytes id ch data' hid
    · have hlt : id < w.received.length + 1 := by
        have := (List.getElem?_eq_some_iff.mp hid).1
        rwa [List.length_append, List.length_singleton] at this
      obtain rfl : id = w.received.length := by omega
      rw [hnil]
      exact List.nil_prefix
  have hok : ∀ id n, (id, .ok n) ∈ w.replies → ∃ ch,
      (w.received ++ [(channelIndex, data)])[id]? = some (ch, w.bytesOf id) ∧
        n = (w.bytesOf id).length := by
    intro id n hmem
    obtain ⟨ch, hreceived, hn⟩ := h.ok id n hmem
    exact ⟨ch, getElem?_grow _ hreceived, hn⟩
  have hrange : List.range (w.received ++ [(channelIndex, data)]).length =
      List.range w.received.length ++ [w.received.length] := by
    rw [List.length_append, List.length_singleton, List.range_succ]
  unfold Worker.acceptWrite
  dsimp only
  split
  · exact
      { answered := by
          change List.Perm _ (List.range (w.received ++ [(channelIndex, data)]).length)
          rw [hrange]
          refine List.Perm.trans ?_ (h.answered.append_right [w.received.length])
          simp only [Worker.answer, List.map_append, List.map_cons, List.map_nil, List.append_assoc]
          exact List.perm_append_comm.append_left _
        stopped := fun hstopped => absurd (hrunning.symm.trans hstopped) (by decide)
        ok := fun id n hmem => by
          obtain hold | hnew := List.mem_append.mp hmem
          · exact hok id n hold
          · cases (Prod.mk.inj (List.mem_singleton.mp hnew)).2
        sent := hsent
        bytes := hbytes
        ordered := h.ordered
        counted := h.counted
        underway := fun p hp => (h.underway p hp).grow rfl rfl
        fits := h.fits }
  · exact
      { answered := by
          rw [hrange, List.map_append, ← List.append_assoc]
          exact h.answered.append_right [w.received.length]
        stopped := fun hstopped => absurd (hrunning.symm.trans hstopped) (by decide)
        ok := hok
        sent := hsent
        bytes := hbytes
        ordered := h.ordered
        counted := h.counted
        underway := fun p hp => by
          obtain hold | hnew := List.mem_append.mp hp
          · exact (h.underway p hold).grow rfl rfl
          · obtain rfl := List.mem_singleton.mp hnew
            exact
              { received := List.getElem?_concat_length
                bytes := hnil
                inside := Nat.zero_le _
                first := fun b hb _ => (h.sent_lt hb).le }
        fits := h.fits }

theorem acceptWrite_running (channelIndex : Nat) (data : List UInt8) (deadline : Nat) :
    (w.acceptWrite channelIndex data deadline).running = w.running := by
  unfold Worker.acceptWrite
  dsimp only
  split <;> rfl

theorem Sound.receive (h : Sound w) (hrunning : w.running = true) (timeout n : Nat)
    (commands : List Received) : Sound (Worker.receive timeout n commands w) := by
  induction n generalizing w commands with
  | zero => exact h
  | succ n ih =>
    cases commands with
    | nil => exact h
    | cons command commands =>
      cases command with
      | write channelIndex data now =>
        exact ih (h.acceptWrite hrunning channelIndex data _) ((acceptWrite_running ..).trans hrunning)
          commands
      | refreshChannels => exact ih h hrunning commands
      | shutdown => exact h.stop
      | disconnected => exact h.stop

/-! ## Bytes that go out -/

theorem bytesOf_hand (id count : Nat) : (w.hand pending count).bytesOf id =
    w.bytesOf id ++ if pending.reply = id then (pending.data.drop pending.offset).take count else [] := by
  unfold bytesOf hand
  rw [List.filter_append, List.map_append, List.filter_map, List.map_map]
  congr 1
  split
  · rename_i hid
    simp [Function.comp_def, hid]
  · rename_i hid
    simp [Function.comp_def, hid]

theorem Sound.reply_ne (h : Sound w) (hw : w.writes = pending :: writes) :
    (∀ p ∈ writes, p.reply ≠ pending.reply) ∧ ∀ r ∈ w.replies, r.1 ≠ pending.reply := by
  have hnodup := h.answered.nodup_iff.mpr List.nodup_range
  rw [hw, List.map_cons, List.nodup_middle, List.nodup_cons, List.mem_append] at hnodup
  obtain ⟨hnew, -⟩ := hnodup
  exact ⟨fun p hp heq => hnew (.inr (List.mem_map.mpr ⟨p, hp, heq⟩)),
    fun r hr heq => hnew (.inl (List.mem_map.mpr ⟨r, hr, heq⟩))⟩

/-- The first write of the queue hands over some bytes. -/
theorem Sound.hand (h : Sound w) (hw : w.writes = pending :: writes) {count : Nat}
    (hcount : pending.offset + count ≤ pending.data.length) (hroom : w.txBytes + count < 2 ^ 64)
    (hturn : 0 < count → ∀ later ∈ writes, later.channelIndex = pending.channelIndex →
      pending.reply < later.reply) :
    Sound { w.hand pending count with
      writes := { pending with offset := pending.offset + count } :: writes } := by
  obtain ⟨hwrites, hreplies⟩ := h.reply_ne hw
  have hu := h.underway pending (by rw [hw]; exact List.mem_cons_self)
  have hbytes : (w.hand pending count).bytesOf pending.reply =
      pending.data.take (pending.offset + count) := by
    rw [bytesOf_hand, if_pos rfl, hu.bytes, List.take_add]
  have hother : ∀ id, id ≠ pending.reply → (w.hand pending count).bytesOf id = w.bytesOf id := by
    intro id hid
    rw [bytesOf_hand, if_neg hid.symm, List.append_nil]
  have hnew : ∀ b ∈ (w.hand pending count).handed, b ∈ w.handed ∨
      b.write = pending.reply ∧ b.channelIndex = pending.channelIndex ∧ 0 < count := by
    intro b hb
    refine (List.mem_append.mp hb).imp_right fun hb => ?_
    obtain ⟨byte, hbyte, rfl⟩ := List.mem_map.mp hb
    refine ⟨rfl, rfl, ?_⟩
    have := List.length_pos_of_mem hbyte
    rw [List.length_take] at this
    omega
  exact
    { answered := by
        have := h.answered
        rw [hw] at this
        exact this
      stopped := fun hrunning => by
        have := h.stopped hrunning
        rw [hw] at this
        cases this
      ok := fun id n hmem => by
        change ∃ ch, w.received[id]? = some (ch, (w.hand pending count).bytesOf id) ∧
          n = ((w.hand pending count).bytesOf id).length
        rw [hother id (hreplies _ hmem)]
        exact h.ok id n hmem
      sent := fun b hb => by
        obtain hold | ⟨hwrite, hchannel, -⟩ := hnew b hb
        · exact h.sent b hold
        · exact ⟨pending.data, by rw [hwrite, hchannel]; exact hu.received⟩
      bytes := fun id ch data hid => by
        change (w.hand pending count).bytesOf id <+: data
        by_cases heq : id = pending.reply
        · subst heq
          obtain ⟨-, rfl⟩ := Prod.mk.inj (Option.some.inj (hu.received.symm.trans hid))
          rw [hbytes]
          exact List.take_prefix _ _
        · rw [hother id heq]
          exact h.bytes id ch data hid
      ordered := fun ch => by
        change (((w.handed ++ _).filter _).map _).Pairwise _
        rw [List.filter_append, List.map_append, List.pairwise_append]
        refine ⟨h.ordered ch, ?_, ?_⟩
        · refine List.pairwise_map.mpr ((List.pairwise_map.mpr ?_).filter _)
          exact List.pairwise_of_forall fun _ _ => le_rfl
        · intro id hid id' hid'
          obtain ⟨b, hb, rfl⟩ := List.mem_map.mp hid
          obtain ⟨b', hb', rfl⟩ := List.mem_map.mp hid'
          obtain ⟨hb, hch⟩ := List.mem_filter.mp hb
          obtain ⟨hb', hch'⟩ := List.mem_filter.mp hb'
          obtain ⟨byte, -, rfl⟩ := List.mem_map.mp hb'
          exact hu.first b hb ((of_decide_eq_true hch).trans (of_decide_eq_true hch').symm)
      counted := by
        change min (w.txBytes + count) (2 ^ 64 - 1) = (w.handed ++ _).length
        rw [List.length_append, List.length_map, List.length_take, List.length_drop, ← h.counted]
        omega
      underway := fun p hp => by
        obtain rfl | hp := List.mem_cons.mp hp
        · refine ⟨hu.received, hbytes, hcount, fun b hb hch => ?_⟩
          obtain hold | ⟨hwrite, -⟩ := hnew b hb
          · exact hu.first b hold hch
          · exact hwrite.le
        · have hup := h.underway p (by rw [hw]; exact List.mem_cons_of_mem _ hp)
          refine ⟨hup.received, (hother _ (hwrites p hp)).trans hup.bytes, hup.inside,
            fun b hb hch => ?_⟩
          obtain hold | ⟨hwrite, hchannel, hpos⟩ := hnew b hb
          · exact hup.first b hold hch
          · rw [hwrite]
            exact (hturn hpos p hp (hch.symm.trans hchannel)).le
      fits := by
        change min (w.txBytes + count) (2 ^ 64 - 1) < 2 ^ 64
        omega }

/-! ## Turns -/

theorem Sound.atTurn (h : Sound w) (hrunning : w.running = true) (timeout : Nat) (t : Tick) :
    Sound (w.atTurn timeout t) := by
  have hreceived := h.receive hrunning timeout MAX_COMMANDS_PER_TICK t.commands
  unfold Worker.atTurn
  dsimp only
  split
  · exact hreceived.stop
  · exact hreceived

theorem receive_txBytes (timeout n : Nat) (commands : List Received) (w : Worker) :
    (Worker.receive timeout n commands w).txBytes = w.txBytes := by
  induction n generalizing w commands with
  | zero => rfl
  | succ n ih =>
    cases commands with
    | nil => rfl
    | cons command commands =>
      cases command with
      | write channelIndex data now =>
        refine (ih commands _).trans ?_
        unfold Worker.acceptWrite
        dsimp only
        split <;> rfl
      | refreshChannels => exact ih commands w
      | shutdown => rfl
      | disconnected => rfl

theorem atTurn_txBytes (timeout : Nat) (w : Worker) (t : Tick) :
    (w.atTurn timeout t).txBytes = w.txBytes := by
  unfold Worker.atTurn
  dsimp only
  split
  · exact receive_txBytes timeout _ t.commands w
  · exact receive_txBytes timeout _ t.commands w

theorem Sound.serviceOneWrite (h : Sound w) (t : Tick)
    (hturn : ∀ pending writes, w.writes = pending :: writes → 0 < taken pending t →
      (∀ later ∈ writes, later.channelIndex = pending.channelIndex → pending.reply < later.reply) ∧
        w.txBytes + taken pending t < 2 ^ 64) :
    Sound (w.serviceOneWrite t).1 := by
  unfold Worker.serviceOneWrite
  split
  · exact h
  · rename_i pending writes hw
    have hu := h.underway pending (by rw [hw]; exact List.mem_cons_self)
    have hturn := hturn pending writes hw
    dsimp only
    split
    · exact h.answer hw fun n hn => nomatch hn
    · rename_i hintime
      split
      · rename_i count hwritten
        have htaken : taken pending t = min count pending.quantum := by
          rw [taken, if_neg hintime, hwritten]
        rw [htaken] at hturn
        have hinside := hu.inside
        have hcount : pending.offset + min count pending.quantum ≤ pending.data.length := by
          unfold PendingWrite.quantum
          omega
        have hroom : w.txBytes + min count pending.quantum < 2 ^ 64 := by
          by_cases hpos : 0 < min count pending.quantum
          · exact (hturn hpos).2
          · have := h.fits
            omega
        have hhand := h.hand hw hcount hroom fun hpos => (hturn hpos).1
        split
        · rename_i hdone
          refine hhand.answer rfl fun n hn => ?_
          cases hn
          exact ⟨le_antisymm hcount hdone, rfl⟩
        · split
          · exact hhand.answer rfl fun n hn => nomatch hn
          · exact hhand.rotate rfl
      · exact h.answer hw fun n hn => nomatch hn

/-- A turn in which the write that is served is in its turn. -/
theorem Sound.tick (h : Sound w) {timeout : Nat} {t : Tick} (hturn : InTurn timeout w t) :
    Sound (w.tick timeout t) := by
  unfold Worker.tick
  split
  · rename_i hrunning
    have hat := h.atTurn hrunning timeout t
    dsimp only
    split
    · have hserved := hat.serviceOneWrite t fun pending writes hw hpos => by
        rw [atTurn_txBytes]
        exact hturn pending writes hw hpos
      split
      · exact hserved.stop
      · exact hserved
    · exact hat
  · exact h

/-! ## Deadlines -/

def Answered (w : Worker) (id : Nat) : Prop := id ∈ w.replies.map Prod.fst

/-- It is the write's turn after so many others. -/
def Waits (w : Worker) (i : Nat) (pending : PendingWrite) : Prop :=
  w.running = true ∧ w.writes[i]? = some pending

theorem answered_answer (w : Worker) (pending : PendingWrite) (result : Except RttError Nat) :
    Answered (w.answer pending result) pending.reply := by
  simp [Answered, Worker.answer]

theorem Answered.stop {id : Nat} (h : Answered w id) : Answered w.stop id := by
  rw [Answered, Worker.stop, List.map_append]
  exact List.mem_append_left _ h

theorem Waits.stop {i : Nat} (h : Waits w i pending) : Answered w.stop pending.reply := by
  rw [Answered, Worker.stop, List.map_append, List.map_map]
  refine List.mem_append_right _ (List.mem_map.mpr ⟨pending, List.mem_of_getElem? h.2, rfl⟩)

theorem Waits.acceptWrite {i : Nat} (h : Waits w i pending) (channelIndex : Nat)
    (data : List UInt8) (deadline : Nat) :
    Waits (w.acceptWrite channelIndex data deadline) i pending := by
  refine ⟨(acceptWrite_running ..).trans h.1, ?_⟩
  unfold Worker.acceptWrite
  dsimp only
  split
  · exact h.2
  · exact getElem?_grow _ h.2

theorem Waits.receive {i : Nat} (h : Waits w i pending) (timeout n : Nat)
    (commands : List Received) :
    Waits (Worker.receive timeout n commands w) i pending ∨
      Answered (Worker.receive timeout n commands w) pending.reply := by
  induction n generalizing w commands with
  | zero => exact .inl h
  | succ n ih =>
    cases commands with
    | nil => exact .inl h
    | cons command commands =>
      cases command with
      | write channelIndex data now => exact ih (h.acceptWrite channelIndex data _) commands
      | refreshChannels => exact ih h commands
      | shutdown => exact .inr h.stop
      | disconnected => exact .inr h.stop

theorem answered_receive {id : Nat} (h : Answered w id) (timeout n : Nat)
    (commands : List Received) : Answered (Worker.receive timeout n commands w) id := by
  induction n generalizing w commands with
  | zero => exact h
  | succ n ih =>
    cases commands with
    | nil => exact h
    | cons command commands =>
      cases command with
      | write channelIndex data now =>
        refine ih ?_ commands
        unfold Worker.acceptWrite
        dsimp only
        split
        · rw [Answered, Worker.answer, List.map_append]
          exact List.mem_append_left _ h
        · exact h
      | refreshChannels => exact ih h commands
      | shutdown => exact h.stop
      | disconnected => exact h.stop

theorem answered_serviceOneWrite {id : Nat} (h : Answered w id) (t : Tick) :
    Answered (w.serviceOneWrite t).1 id := by
  have hmore (w' : Worker) (p : PendingWrite) (r : Except RttError Nat)
      (hreplies : w'.replies = w.replies) : Answered (w'.answer p r) id := by
    rw [Answered, Worker.answer, List.map_append, hreplies]
    exact List.mem_append_left _ h
  unfold Worker.serviceOneWrite
  split
  · exact h
  · dsimp only
    split
    · exact hmore _ _ _ rfl
    · split
      · split
        · exact hmore _ _ _ rfl
        · split
          · exact hmore _ _ _ rfl
          · exact h
      · exact hmore _ _ _ rfl

theorem answered_tick {id : Nat} (h : Answered w id) (timeout : Nat) (t : Tick) :
    Answered (w.tick timeout t) id := by
  have hat : Answered (w.atTurn timeout t) id := by
    have hreceived := answered_receive h timeout MAX_COMMANDS_PER_TICK t.commands
    unfold Worker.atTurn
    dsimp only
    split
    · exact hreceived.stop
    · exact hreceived
  unfold Worker.tick
  split
  · dsimp only
    split
    · split
      · exact (answered_serviceOneWrite hat t).stop
      · exact answered_serviceOneWrite hat t
    · exact hat
  · exact h

/-- The first write is answered if its deadline has come, and every other one moves up. -/
theorem Waits.serviceOneWrite {i : Nat} (h : Waits w i pending) (t : Tick)
    (hlate : pending.deadline ≤ t.before) :
    Answered (w.serviceOneWrite t).1 pending.reply ∨
      ∃ j, i = j + 1 ∧ Waits (w.serviceOneWrite t).1 j pending := by
  obtain ⟨hrunning, hwaits⟩ := h
  unfold Worker.serviceOneWrite
  split
  · rename_i hw
    rw [hw] at hwaits
    cases hwaits
  · rename_i first writes hw
    rw [hw] at hwaits
    cases i with
    | zero =>
      obtain rfl := Option.some.inj hwaits
      left
      rw [if_pos hlate]
      exact answered_answer _ _ _
    | succ j =>
      right
      refine ⟨j, rfl, ?_⟩
      rw [List.getElem?_cons_succ] at hwaits
      dsimp only
      split
      · exact ⟨hrunning, hwaits⟩
      · split
        · split
          · exact ⟨hrunning, hwaits⟩
          · split
            · exact ⟨hrunning, hwaits⟩
            · exact ⟨hrunning, getElem?_grow _ hwaits⟩
        · exact ⟨hrunning, hwaits⟩

theorem Waits.tick {i : Nat} (h : Waits w i pending) (timeout : Nat) (t : Tick)
    (hlate : pending.deadline ≤ t.before) :
    Answered (w.tick timeout t) pending.reply ∨
      ∃ j, i = j + 1 ∧ Waits (w.tick timeout t) j pending := by
  have hat : Waits (w.atTurn timeout t) i pending ∨ Answered (w.atTurn timeout t) pending.reply := by
    have hreceived := h.receive timeout MAX_COMMANDS_PER_TICK t.commands
    unfold Worker.atTurn
    dsimp only
    split
    · exact .inr (hreceived.elim Waits.stop Answered.stop)
    · exact hreceived
  unfold Worker.tick
  rw [if_pos h.1]
  dsimp only
  obtain hwaits | hdone := hat
  · rw [if_pos hwaits.1]
    obtain hdone | ⟨j, hj, hwaits⟩ := hwaits.serviceOneWrite t hlate
    · left
      split
      · exact hdone.stop
      · exact hdone
    · split
      · exact .inl hwaits.stop
      · exact .inr ⟨j, hj, hwaits⟩
  · left
    split
    · split
      · exact (answered_serviceOneWrite hdone t).stop
      · exact answered_serviceOneWrite hdone t
    · exact hdone

/-- A pending write is answered at the latest when, its deadline over, all before it have had a turn. -/
def AnsweredInTime (timeout : Nat) (w : Worker) : Prop :=
  ∀ i pending, w.writes[i]? = some pending → ∀ ticks : List Tick, i < ticks.length →
    (∀ t ∈ ticks, pending.deadline ≤ t.before) →
    Answered (ticks.foldl (Worker.tick timeout) w) pending.reply

theorem Waits.answered {timeout i : Nat} (h : Waits w i pending) {ticks : List Tick}
    (hlength : i < ticks.length) (hlate : ∀ t ∈ ticks, pending.deadline ≤ t.before) :
    Answered (ticks.foldl (Worker.tick timeout) w) pending.reply := by
  induction ticks generalizing w i with
  | nil => cases hlength
  | cons t ticks ih =>
    have hrest : ∀ t ∈ ticks, pending.deadline ≤ t.before := fun t ht =>
      hlate t (List.mem_cons_of_mem _ ht)
    obtain hdone | ⟨j, rfl, hwaits⟩ := h.tick timeout t (hlate t List.mem_cons_self)
    · exact List.foldlRecOn (motive := fun w => Answered w pending.reply) ticks _ hdone
        fun _ h t _ => answered_tick h timeout t
    · exact ih hwaits (Nat.lt_of_succ_lt_succ hlength) hrest

theorem Sound.answeredInTime (h : Sound w) (timeout : Nat) : AnsweredInTime timeout w := by
  intro i pending hpending ticks hlength hlate
  have hrunning : w.running = true := by
    by_contra hstopped
    rw [h.stopped (Bool.eq_false_of_not_eq_true hstopped)] at hpending
    cases hpending
  exact Waits.answered ⟨hrunning, hpending⟩ hlength hlate

/-- In a run in which no write overtakes an earlier one to its channel, boundaries are kept, and no
write waits for its reply longer than its deadline and the turns of those before it. -/
theorem keepsBoundaries_of_inTurn (timeout : Nat) (ticks : List Tick)
    (h : EachStep (Worker.tick timeout) (InTurn timeout) start ticks) :
    Always (Worker.tick timeout) (fun w => KeepsBoundaries w ∧ AnsweredInTime timeout w) start ticks :=
  h.always (fun _ hw => ⟨hw.toKeepsBoundaries, hw.answeredInTime timeout⟩)
    (fun _ _ hw hturn => hw.tick hturn) sound_start

/-- Two writes to one channel, and a backend that takes one byte at a time. -/
def interleaving : List Tick :=
  let write (data : List UInt8) : Received := .write 0 data 0
  [⟨[write [1, 2], write [3, 4]], none, 0, .ok 1, 0⟩, ⟨[], none, 0, .ok 1, 0⟩,
    ⟨[], none, 0, .ok 1, 0⟩]

theorem writes_interleave :
    ((interleaving.foldl (tick 1) start).handed.map Handed.byte) = [1, 3, 2] ∧
      ¬ Always (tick 1) KeepsBoundaries start interleaving := by
  refine ⟨by decide, fun h => ?_⟩
  have hordered := h.last.ordered 0
  revert hordered
  decide

/-- The same two writes with a backend that takes them whole. -/
theorem keepsBoundaries_whole : Always (tick 1)
    (fun w => KeepsBoundaries w ∧ AnsweredInTime 1 w) start
    [⟨[.write 0 [1, 2] 0, .write 0 [3, 4] 0], none, 0, .ok 2, 0⟩, ⟨[], none, 0, .ok 2, 0⟩] := by
  refine keepsBoundaries_of_inTurn 1 _ ⟨?_, ?_, trivial⟩
  · intro pending writes hw _
    obtain ⟨rfl, rfl⟩ := List.cons.inj hw
    exact ⟨by decide, by decide⟩
  · intro pending writes hw _
    obtain ⟨rfl, rfl⟩ := List.cons.inj hw
    exact ⟨by simp, by decide⟩

end Worker

end TauTerm.Rtt.Writes
