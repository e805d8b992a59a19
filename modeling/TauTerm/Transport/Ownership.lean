import Mathlib
import TauTerm.Lib.Run

/-!
# The ownership protocol

What the hand-over of the driver is for, without queues, channels and threads:
clients take turns to own a byte stream, the bytes read but not yet delivered
move with the ownership, and a flag announces that somebody is about to own it or
does. `Conserves` and `Owned` hold in every run; `Announced`, that the flag never
misses an owner, holds in the runs in which nobody clears another one's flag.
-/

namespace TauTerm.Transport

/-- Where a client stands between its announcement and its last claim to the driver. -/
inductive Phase where
  | outside
  | announced
  | requested
  | granted (bytes : List UInt8)
  | leased (bytes : List UInt8)
  | returned (bytes : List UInt8)
  | restored
  deriving DecidableEq

/-- The bytes that a client holds together with the driver. -/
def Phase.held : Phase → Option (List UInt8)
  | .granted bytes => some bytes
  | .leased bytes => some bytes
  | .returned bytes => some bytes
  | _ => none

structure Protocol where
  phase : Nat → Phase
  exclusive : Option Nat
  /-- The common owner has the driver. -/
  driver : Bool
  flag : Bool
  /-- The common owner is about to clear the flag of a client it refused. -/
  rejecting : Bool
  running : Bool
  buffered : List UInt8
  reads : List UInt8
  delivered : List UInt8

namespace Protocol

def setPhase (p : Protocol) (i : Nat) (phase : Phase) : Protocol :=
  { p with phase := Function.update p.phase i phase }

/-- What a step does beyond the protocol proper: clear the flag from outside, or
lose track of bytes. -/
inductive Label where
  | plain
  | clear
  | lose
  deriving DecidableEq

inductive Step (p : Protocol) : Label → Protocol → Prop
  | stay : Step p .plain p
  | announce {i : Nat} : p.phase i = .outside → p.flag = false →
    Step p .plain ({ p with flag := true }.setPhase i .announced)
  | request {i : Nat} : p.phase i = .announced → Step p .plain (p.setPhase i .requested)
  /-- A client gives up, which it does only once nobody serves requests. -/
  | withdraw {i : Nat} : p.phase i = .announced ∨ p.phase i = .requested →
    Step p .plain (p.setPhase i .outside)
  | grant {i : Nat} : p.phase i = .requested → p.exclusive = none → p.driver = true →
    Step p .plain ({ p with exclusive := some i, driver := false, buffered := [] }.setPhase i
      (.granted p.buffered))
  | refuse {i : Nat} :
    p.phase i = .requested → p.exclusive.isSome ∨ p.driver = false →
    Step p .plain ({ p with rejecting := true }.setPhase i .outside)
  | unannounce : p.rejecting = true →
    Step p .plain { p with rejecting := false, flag := false }
  | receive {i : Nat} {bytes : List UInt8} : p.phase i = .granted bytes →
    Step p .plain (p.setPhase i (.leased bytes))
  | take {i : Nat} {bytes : List UInt8} (n : Nat) : p.phase i = .leased bytes →
    Step p .plain ({ p with delivered := p.delivered ++ bytes.take n }.setPhase i
      (.leased (bytes.drop n)))
  | fetch {i : Nat} (data : List UInt8) : p.phase i = .leased [] →
    Step p .plain { p with reads := p.reads ++ data, delivered := p.delivered ++ data }
  | release {i : Nat} {bytes : List UInt8} : p.phase i = .leased bytes →
    Step p .plain (p.setPhase i (.returned bytes))
  | restore {i : Nat} {bytes : List UInt8} :
    p.phase i = .returned bytes → p.exclusive = some i →
    Step p .plain ({ p with exclusive := none, driver := true, buffered := bytes ++ p.buffered
      }.setPhase i .restored)
  | retire {i : Nat} : p.phase i = .restored →
    Step p .plain ({ p with flag := false }.setPhase i .outside)
  | read (data : List UInt8) : p.driver = true → p.exclusive = none →
    Step p .plain { p with reads := p.reads ++ data, buffered := p.buffered ++ data }
  | deliver : p.exclusive = none →
    Step p .plain { p with delivered := p.delivered ++ p.buffered, buffered := [] }
  | stop : p.exclusive = none → Step p .plain { p with flag := false, running := false }
  | clear : Step p .clear { p with flag := false }
  | lose (buffered delivered : List UInt8) : (p.exclusive.isSome → buffered = []) →
    Step p .lose { p with buffered, delivered }

variable {p p' : Protocol} {i : Nat} {bytes : List UInt8}

theorem setPhase_exclusive (p : Protocol) (i : Nat) (phase : Phase) :
    (p.setPhase i phase).exclusive = p.exclusive := rfl

theorem setPhase_buffered (p : Protocol) (i : Nat) (phase : Phase) :
    (p.setPhase i phase).buffered = p.buffered := rfl

theorem setPhase_phase (p : Protocol) (i j : Nat) (phase : Phase) :
    (p.setPhase i phase).phase j = if j = i then phase else p.phase j := by
  simp [setPhase, Function.update_apply]

/-! ## Ownership -/

/-- The driver has one owner: the client in `exclusive`, who holds it in one of
three phases, or the common owner. Nothing is buffered behind a client. -/
structure Owned (p : Protocol) : Prop where
  held : ∀ i bytes, (p.phase i).held = some bytes → p.exclusive = some i
  owner : ∀ i, p.exclusive = some i →
    (p.phase i).held.isSome ∧ p.driver = false ∧ p.buffered = []
  driver : p.exclusive = none → p.driver = true

/-- A phase change that neither gains nor loses the driver. -/
theorem Owned.setPhase (h : Owned p) {phase : Phase}
    (hp : phase.held.isSome = (p.phase i).held.isSome) : Owned (p.setPhase i phase) := by
  refine ⟨fun j bytes hj => ?_, fun j hj => ?_, h.driver⟩
  · rw [setPhase_phase] at hj
    split_ifs at hj with hji
    · subst hji
      obtain ⟨old, hold⟩ := Option.isSome_iff_exists.mp (hp ▸ Option.isSome_iff_exists.mpr ⟨_, hj⟩)
      exact h.held j old hold
    · exact h.held j bytes hj
  · obtain ⟨hs, hd, hb⟩ := h.owner j hj
    refine ⟨?_, hd, hb⟩
    rw [setPhase_phase]
    split_ifs with hji
    · rw [hp, ← hji, hs]
    · exact hs

theorem Owned.step {l : Label} (h : Owned p) (hs : Step p l p') : Owned p' := by
  cases hs with
  | stay => exact h
  | announce hi hf =>
    have h' : Owned { p with flag := true } := ⟨h.held, h.owner, h.driver⟩
    exact h'.setPhase (by simp [hi, Phase.held])
  | request hi => exact h.setPhase (by simp [hi, Phase.held])
  | withdraw hi => exact h.setPhase (by rcases hi with hi | hi <;> simp [hi, Phase.held])
  | @grant i hi he hd =>
    refine ⟨fun j bytes hj => ?_, fun j hj => ?_, nofun⟩
    · rw [setPhase_phase] at hj
      split_ifs at hj with hji
      · rw [hji]; rfl
      · exact absurd (h.held j bytes hj) (by rw [he]; nofun)
    · obtain rfl : i = j := Option.some.inj hj
      exact ⟨by simp [setPhase_phase, Phase.held], rfl, rfl⟩
  | refuse hi hr =>
    have h' : Owned { p with rejecting := true } := ⟨h.held, h.owner, h.driver⟩
    exact h'.setPhase (by simp [hi, Phase.held])
  | unannounce => exact ⟨h.held, h.owner, h.driver⟩
  | receive hi => exact h.setPhase (by simp [hi, Phase.held])
  | @take i bytes n hi =>
    have h' : Owned { p with delivered := p.delivered ++ bytes.take n } :=
      ⟨h.held, h.owner, h.driver⟩
    exact h'.setPhase (by simp [hi, Phase.held])
  | fetch => exact ⟨h.held, h.owner, h.driver⟩
  | release hi => exact h.setPhase (by simp [hi, Phase.held])
  | @restore i bytes hi he =>
    refine ⟨fun j b hj => ?_, nofun, fun _ => rfl⟩
    rw [setPhase_phase] at hj
    split_ifs at hj with hji
    · cases hj
    · have hij : some i = some j := he ▸ h.held j b hj
      exact absurd (Option.some.inj hij).symm hji
  | retire hi =>
    have h' : Owned { p with flag := false } := ⟨h.held, h.owner, h.driver⟩
    exact h'.setPhase (by simp [hi, Phase.held])
  | read data hd he => exact ⟨h.held, fun j hj => absurd hj (by simp [he]), h.driver⟩
  | deliver he => exact ⟨h.held, fun j hj => absurd hj (by simp [he]), h.driver⟩
  | stop he => exact ⟨h.held, h.owner, h.driver⟩
  | clear => exact ⟨h.held, h.owner, h.driver⟩
  | lose buffered delivered hb =>
    refine ⟨h.held, fun j hj => ?_, h.driver⟩
    obtain ⟨hheld, hd, -⟩ := h.owner j hj
    exact ⟨hheld, hd, hb (Option.isSome_iff_exists.mpr ⟨j, hj⟩)⟩

/-! ## Conservation -/

/-- The bytes read and not yet delivered, in order. -/
def pending (p : Protocol) : List UInt8 :=
  (p.exclusive.bind fun i => (p.phase i).held).getD [] ++ p.buffered

/-- From `p` to `p'` bytes were read, and each of them, like each byte pending
before, is delivered or pending, in order. -/
def Carries (p p' : Protocol) : Prop :=
  ∃ fresh released, p'.reads = p.reads ++ fresh ∧ p'.delivered = p.delivered ++ released ∧
    released ++ p'.pending = p.pending ++ fresh

theorem Carries.refl (p : Protocol) : Carries p p := ⟨[], [], by simp⟩

theorem Carries.trans {q : Protocol} (h : Carries p p') (h' : Carries p' q) : Carries p q := by
  obtain ⟨fresh, released, hr, hd, hp⟩ := h
  obtain ⟨fresh', released', hr', hd', hp'⟩ := h'
  refine ⟨fresh ++ fresh', released ++ released', ?_, ?_, ?_⟩
  · rw [hr', hr, List.append_assoc]
  · rw [hd', hd, List.append_assoc]
  · rw [List.append_assoc, hp', ← List.append_assoc, hp, List.append_assoc]

/-- A step that reads and delivers nothing. -/
theorem Carries.of_pending (hr : p'.reads = p.reads) (hd : p'.delivered = p.delivered)
    (hp : p'.pending = p.pending) : Carries p p' :=
  ⟨[], [], by simp [hr], by simp [hd], by simp [hp]⟩

theorem pending_of_held (h : Owned p) (hi : (p.phase i).held = some bytes) : p.pending = bytes := by
  have he : p.exclusive = some i := h.held i bytes hi
  simp [pending, he, hi, (h.owner i he).2.2]

theorem pending_of_none (he : p.exclusive = none) : p.pending = p.buffered := by
  simp [pending, he]

/-- A phase change between two phases that hold the same. -/
theorem pending_setPhase {phase : Phase} (hp : phase.held = (p.phase i).held) :
    (p.setPhase i phase).pending = p.pending := by
  have hbind : ∀ j, ((p.setPhase i phase).phase j).held = (p.phase j).held := by
    intro j
    rw [setPhase_phase]
    split_ifs with hji
    · rw [hp, hji]
    · rfl
  unfold pending
  rw [setPhase_exclusive, setPhase_buffered]
  simp only [hbind]

theorem Step.carries {l : Label} (h : Owned p) (hs : Step p l p') (hl : l ≠ .lose) :
    Carries p p' := by
  have h' : Owned p' := h.step hs
  cases hs with
  | stay => exact .refl p
  | announce hi _ => exact .of_pending rfl rfl (pending_setPhase (by simp [hi, Phase.held]))
  | request hi => exact .of_pending rfl rfl (pending_setPhase (by simp [hi, Phase.held]))
  | withdraw hi =>
    exact .of_pending rfl rfl (pending_setPhase (by rcases hi with hi | hi <;> simp [hi, Phase.held]))
  | @grant i hi he hd =>
    refine .of_pending rfl rfl ?_
    rw [pending_of_none he]
    exact pending_of_held h' (i := i) (by simp [setPhase_phase, Phase.held])
  | refuse hi _ => exact .of_pending rfl rfl (pending_setPhase (by simp [hi, Phase.held]))
  | unannounce => exact .of_pending rfl rfl rfl
  | receive hi => exact .of_pending rfl rfl (pending_setPhase (by simp [hi, Phase.held]))
  | @take i bytes n hi =>
    refine ⟨[], bytes.take n, by simp [Protocol.setPhase], rfl, ?_⟩
    rw [pending_of_held h (i := i) (by simp [hi, Phase.held]; rfl),
      pending_of_held h' (i := i) (by simp [setPhase_phase, Phase.held]; rfl)]
    simp
  | @fetch i data hi =>
    refine ⟨data, data, rfl, rfl, ?_⟩
    have hp : p.pending = [] := pending_of_held h (i := i) (by simp [hi, Phase.held])
    have hp' : p.pending = pending { p with
      reads := p.reads ++ data, delivered := p.delivered ++ data } := rfl
    rw [← hp', hp, List.append_nil, List.nil_append]
  | release hi => exact .of_pending rfl rfl (pending_setPhase (by simp [hi, Phase.held]))
  | @restore i bytes hi he =>
    refine .of_pending rfl rfl ?_
    rw [pending_of_held h (i := i) (by simp [hi, Phase.held]; rfl), pending_of_none rfl,
      setPhase_buffered]
    simp [(h.owner i he).2.2]
  | retire hi => exact .of_pending rfl rfl (pending_setPhase (by simp [hi, Phase.held]))
  | read data hd he =>
    refine ⟨data, [], rfl, by simp, ?_⟩
    rw [pending_of_none he, List.nil_append]
    exact pending_of_none he
  | deliver he =>
    refine ⟨[], p.buffered, by simp, rfl, ?_⟩
    rw [pending_of_none he]
    exact congrArg (p.buffered ++ ·) (pending_of_none he)
  | stop he => exact .of_pending rfl rfl rfl
  | clear => exact .of_pending rfl rfl rfl
  | lose => exact absurd rfl hl

/-! ## The announcement -/

/-- While requests are served, at most one client is between its announcement and
the return, and the flag is set for it. -/
structure Announced (p : Protocol) : Prop where
  one : p.running = true → ∀ i j, p.phase i ≠ .outside → p.phase j ≠ .outside → i = j
  flag : p.running = true → ∀ i, p.phase i ≠ .outside → p.flag = true
  rejecting : p.running = true → p.rejecting = false

theorem Announced.setPhase (h : Announced p) {phase : Phase} (hi : p.phase i ≠ .outside) :
    Announced (p.setPhase i phase) := by
  have hclaim : ∀ j, (p.setPhase i phase).phase j ≠ .outside → p.phase j ≠ .outside := by
    intro j hj
    rw [setPhase_phase] at hj
    split_ifs at hj with hji
    · exact hji ▸ hi
    · exact hj
  exact ⟨fun hr j k hj hk => h.one hr j k (hclaim j hj) (hclaim k hk),
    fun hr j hj => h.flag hr j (hclaim j hj), h.rejecting⟩

/-- Nobody is refused: a request finds the driver with the common owner. -/
theorem Announced.not_refused (h : Announced p) (ho : Owned p) (hr : p.running = true)
    (hi : p.phase i = .requested) : p.exclusive = none ∧ p.driver = true := by
  have he : p.exclusive = none := by
    by_contra hne
    obtain ⟨j, hj⟩ := Option.ne_none_iff_exists'.mp hne
    have hheld : (p.phase j).held.isSome := (ho.owner j hj).1
    have hj' : p.phase j ≠ .outside := by rintro hout; simp [hout, Phase.held] at hheld
    obtain rfl := h.one hr i j (by simp [hi]) hj'
    simp [hi, Phase.held] at hheld
  exact ⟨he, ho.driver he⟩

/-- The flag stays with its owner as long as nobody clears it from outside while
it is set for somebody. -/
theorem Announced.step {l : Label} (h : Announced p) (ho : Owned p) (hs : Step p l p')
    (hclear : l = .clear → p.running = true → p.flag = false) : Announced p' := by
  cases hs with
  | stay => exact h
  | @announce i hi hf =>
    have hnone : p.running = true → ∀ j, p.phase j = .outside := fun hr j => by
      by_contra hj
      exact absurd (h.flag hr j hj) (by simp [hf])
    refine ⟨fun hr j k hj hk => ?_, fun _ _ _ => rfl, h.rejecting⟩
    have honly : ∀ j, ({ p with flag := true }.setPhase i .announced).phase j ≠ .outside → j = i := by
      intro j hj
      by_contra hji
      rw [setPhase_phase, if_neg hji] at hj
      exact hj (hnone hr j)
    rw [honly j hj, honly k hk]
  | request hi => exact h.setPhase (by simp [hi])
  | withdraw hi => exact h.setPhase (by rcases hi with hi | hi <;> simp [hi])
  | @grant i hi he hd =>
    have h' : Announced { p with exclusive := some i, driver := false, buffered := [] } :=
      ⟨h.one, h.flag, h.rejecting⟩
    exact h'.setPhase (by simp [hi])
  | @refuse i hi hr =>
    have hstopped : ¬ p.running = true := fun hrun => by
      obtain ⟨he, hd⟩ := h.not_refused ho hrun hi
      simp [he, hd] at hr
    exact ⟨fun hrun => absurd hrun hstopped, fun hrun => absurd hrun hstopped,
      fun hrun => absurd hrun hstopped⟩
  | unannounce hr =>
    have hstopped : ¬ p.running = true := fun hrun => by simp [h.rejecting hrun] at hr
    exact ⟨fun hrun => absurd hrun hstopped, fun hrun => absurd hrun hstopped, fun _ => rfl⟩
  | receive hi => exact h.setPhase (by simp [hi])
  | @take i bytes n hi =>
    have h' : Announced { p with delivered := p.delivered ++ bytes.take n } :=
      ⟨h.one, h.flag, h.rejecting⟩
    exact h'.setPhase (by simp [hi])
  | fetch => exact ⟨h.one, h.flag, h.rejecting⟩
  | release hi => exact h.setPhase (by simp [hi])
  | @restore i bytes hi he =>
    have h' : Announced { p with
        exclusive := none, driver := true, buffered := bytes ++ p.buffered } :=
      ⟨h.one, h.flag, h.rejecting⟩
    exact h'.setPhase (by simp [hi])
  | @retire i hi =>
    have hnone : p.running = true → ∀ j, ({ p with flag := false }.setPhase i .outside).phase j =
        .outside := by
      intro hr j
      rw [setPhase_phase]
      split_ifs with hji
      · rfl
      · by_contra hj
        exact hji (h.one hr j i hj (by simp [hi]))
    exact ⟨fun hr j _ hj => absurd (hnone hr j) hj, fun hr j hj => absurd (hnone hr j) hj,
      h.rejecting⟩
  | read => exact ⟨h.one, h.flag, h.rejecting⟩
  | deliver => exact ⟨h.one, h.flag, h.rejecting⟩
  | stop => exact ⟨nofun, nofun, nofun⟩
  | clear =>
    refine ⟨h.one, fun hr j hj => ?_, h.rejecting⟩
    have hset : p.flag = true := h.flag hr j hj
    rw [hclear rfl hr] at hset
    exact absurd hset Bool.false_ne_true
  | lose => exact ⟨h.one, h.flag, h.rejecting⟩

/-- An owner is announced. -/
theorem Announced.flag_of_exclusive (h : Announced p) (ho : Owned p) (hr : p.running = true)
    (he : p.exclusive = some i) : p.flag = true := by
  refine h.flag hr i fun hout => ?_
  have hheld : (p.phase i).held.isSome := (ho.owner i he).1
  simp [hout, Phase.held] at hheld

end Protocol

end TauTerm.Transport
