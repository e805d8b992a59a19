import Mathlib
import TauTerm.Lib.Run

/-!
# Telnet negotiation

`handle_negotiation` of `plugins/telnet/channel.rs` and the commands that `open_connection` of
`plugins/telnet/mod.rs` sends first. An option is in effect on one side if the last word of both
ends about it there is WILL or DO. A command is worth an answer if the answer changes what is in
effect, or refuses the change that is asked for.
-/

namespace TauTerm.Telnet

open Lib

inductive Action where
  | will
  | wont
  | do'
  | dont
  deriving DecidableEq

/-- The options the policy names, and all others. -/
inductive TelnetOption where
  | transmitBinary
  | echo
  | suppressGoAhead
  | naws
  | other (code : UInt8)
  deriving DecidableEq

structure Command where
  action : Action
  opt : TelnetOption
  deriving DecidableEq

/-! ## The driver -/

/-- What negotiation changes of the driver. -/
structure TelnetDriver where
  localEcho : Bool := false
  deriving DecidableEq

/-- The driver behind a command, the command that it answers with, and what the front end is told
about the local echo. -/
structure Handled where
  driver : TelnetDriver
  answer : Option Command
  echoChange : Option Bool
  deriving DecidableEq

def openConnection : List Command :=
  [⟨.will, .naws⟩, ⟨.do', .suppressGoAhead⟩, ⟨.will, .transmitBinary⟩, ⟨.do', .transmitBinary⟩]

def policy (localEcho : Bool) : Action → TelnetOption → Bool × Option Command
  | .will, .echo => (false, some ⟨.do', .echo⟩)
  | .wont, .echo => (true, some ⟨.dont, .echo⟩)
  | .do', .echo => (localEcho, some ⟨.wont, .echo⟩)
  | .will, .suppressGoAhead => (localEcho, some ⟨.do', .suppressGoAhead⟩)
  | .do', .suppressGoAhead => (localEcho, some ⟨.will, .suppressGoAhead⟩)
  | .will, .transmitBinary => (localEcho, some ⟨.do', .transmitBinary⟩)
  | .do', .transmitBinary => (localEcho, some ⟨.will, .transmitBinary⟩)
  | .do', .naws => (localEcho, some ⟨.will, .naws⟩)
  | .will, .naws => (localEcho, some ⟨.dont, .naws⟩)
  | .will, opt => (localEcho, some ⟨.dont, opt⟩)
  | .do', opt => (localEcho, some ⟨.wont, opt⟩)
  | .wont, _ | .dont, _ => (localEcho, none)

def handleNegotiation (d : TelnetDriver) (action : Action) (opt : TelnetOption) : Handled :=
  let (localEcho, answer) := policy d.localEcho action opt
  { driver := { localEcho }
    answer
    echoChange := if localEcho ≠ d.localEcho then some localEcho else none }

/-! ## What is in effect -/

/-- The two ends as one of them sees them. An option is performed by one of them. -/
inductive Side where
  | ours
  | theirs
  deriving DecidableEq

def Side.other : Side → Side
  | ours => theirs
  | theirs => ours

namespace Action

/-- WILL and WONT are about the side of the speaker. -/
def offers : Action → Bool
  | will | wont => true
  | do' | dont => false

def enables : Action → Bool
  | will | do' => true
  | wont | dont => false

end Action

/-- The side on which the speaker wants the option on or off. -/
def Command.side (c : Command) (speaker : Side) : Side :=
  if c.action.offers then speaker else speaker.other

/-- Whether the last word of a speaker about an option on a side was to have it on. -/
abbrev Words := Side → Side → TelnetOption → Bool

namespace Words

/-- Nobody has said anything yet. -/
def start : Words := fun _ _ _ => false

def say (w : Words) (speaker : Side) (c : Command) : Words := fun p side opt =>
  if p = speaker ∧ side = c.side speaker ∧ opt = c.opt then c.action.enables else w p side opt

def agreed (w : Words) (side : Side) (opt : TelnetOption) : Bool :=
  w .ours side opt && w .theirs side opt

variable (w : Words) (c : Command)

@[simp] theorem say_self (p : Side) : w.say p c p (c.side p) c.opt = c.action.enables :=
  if_pos ⟨rfl, rfl, rfl⟩

@[simp] theorem say_theirs_ours : w.say .theirs c .ours = w .ours := by
  funext side opt
  exact if_neg nofun

@[simp] theorem say_ours_theirs : w.say .ours c .theirs = w .theirs := by
  funext side opt
  exact if_neg nofun

theorem say_congr {w' : Words} {p : Side} (h : w p = w' p) : w.say p c p = w'.say p c p := by
  funext side opt
  unfold say
  rw [h]

theorem say_of_ne {p side : Side} {opt : TelnetOption} (h : ¬ (side = c.side p ∧ opt = c.opt)) :
    w.say p c p side opt = w p side opt :=
  if_neg fun h' => h h'.2

end Words

/-- What the policy accepts. -/
def supports : Side → TelnetOption → Bool
  | .ours, .naws | .ours, .suppressGoAhead | .ours, .transmitBinary => true
  | .theirs, .echo | .theirs, .suppressGoAhead | .theirs, .transmitBinary => true
  | _, _ => false

/-- A driver and what has been said on its connection. -/
structure Endpoint where
  driver : TelnetDriver := {}
  words : Words

namespace Endpoint

/-- Behind `open_connection`. -/
def opened : Endpoint where
  words := openConnection.foldl (Words.say · .ours) .start

def answer (e : Endpoint) (c : Command) : Option Command :=
  (handleNegotiation e.driver c.action c.opt).answer

def receive (e : Endpoint) (c : Command) : Endpoint where
  driver := (handleNegotiation e.driver c.action c.opt).driver
  words := (e.answer c).toList.foldl (Words.say · .ours) (e.words.say .theirs c)

/-- An answer changes what is in effect, or refuses to put in effect what is not. -/
def ObeysLoopRule (e : Endpoint) (c : Command) : Prop :=
  ∀ a, e.answer c = some a →
    (e.receive c).words.agreed (c.side .theirs) c.opt ≠ e.words.agreed (c.side .theirs) c.opt ∨
      (c.action.enables = true ∧ e.words.agreed (c.side .theirs) c.opt = false ∧
        a.action.enables = false)

end Endpoint

/-- A request for what is accepted comes only where the last one was to have it off, and WONT ECHO
only behind WILL ECHO. -/
def Fresh (heard : Words) (c : Command) : Prop :=
  (c.action.enables = true → supports (c.side .theirs) c.opt = true →
    heard .theirs (c.side .theirs) c.opt = false) ∧
  (c = ⟨.wont, .echo⟩ → heard .theirs .theirs .echo = true)

instance (heard : Words) (c : Command) : Decidable (Fresh heard c) :=
  inferInstanceAs (Decidable (_ ∧ _))

/-! ## One command -/

/-- What the policy answers with, if it answers. -/
def Command.reply (c : Command) : Command where
  action :=
    if c.action.offers then
      if c.action.enables && supports .theirs c.opt then .do' else .dont
    else if c.action.enables && supports .ours c.opt then .will else .wont
  opt := c.opt

namespace Command

variable (c : Command)

theorem reply_side : c.reply.side .ours = c.side .theirs := by
  obtain ⟨action, opt⟩ := c
  unfold side reply
  cases action with
  | will => cases supports .theirs opt <;> rfl
  | do' => cases supports .ours opt <;> rfl
  | wont | dont => rfl

theorem reply_enables :
    c.reply.action.enables = (c.action.enables && supports (c.side .theirs) c.opt) := by
  unfold side reply
  cases c.action.offers
  · simp only [Bool.false_eq_true, if_false]
    split_ifs with h
    · exact h.symm
    · exact (Bool.eq_false_iff.mpr h).symm
  · simp only [if_true]
    split_ifs with h
    · exact h.symm
    · exact (Bool.eq_false_iff.mpr h).symm

end Command

namespace Endpoint

variable {e : Endpoint} {c : Command}

/-- The policy answers every WILL and DO, and WONT ECHO. -/
theorem answer_eq (e : Endpoint) (c : Command) :
    e.answer c = if c.action.enables = true ∨ c = ⟨.wont, .echo⟩ then some c.reply else none := by
  obtain ⟨action, opt⟩ := c
  cases action <;> cases opt <;> rfl

theorem receive_theirs (e : Endpoint) (c : Command) :
    (e.receive c).words .theirs = e.words.say .theirs c .theirs := by
  unfold receive
  cases e.answer c with
  | none => rfl
  | some a => exact Words.say_ours_theirs _ a

/-- About anything else, nothing is said. -/
theorem receive_frame {side : Side} {opt : TelnetOption}
    (h : ¬ (side = c.side .theirs ∧ opt = c.opt)) (p : Side) :
    (e.receive c).words p side opt = e.words p side opt := by
  cases p with
  | theirs => rw [receive_theirs, Words.say_of_ne _ _ h]
  | ours =>
    unfold receive
    rw [answer_eq]
    split_ifs
    · show Words.say _ .ours c.reply .ours side opt = _
      rw [Words.say_of_ne _ _ (by rwa [Command.reply_side]), Words.say_theirs_ours]
    · show e.words.say .theirs c .ours side opt = _
      rw [Words.say_theirs_ours]

theorem receive_said (e : Endpoint) (c : Command) :
    (e.receive c).words .theirs (c.side .theirs) c.opt = c.action.enables := by
  rw [receive_theirs, Words.say_self]

theorem receive_answered {a : Command} (h : e.answer c = some a) :
    a = c.reply ∧ (e.receive c).words .ours (c.side .theirs) c.opt =
      (c.action.enables && supports (c.side .theirs) c.opt) := by
  have ha : a = c.reply := by
    rw [answer_eq, Option.ite_none_right_eq_some] at h
    exact (Option.some.inj h.2).symm
  refine ⟨ha, ?_⟩
  unfold receive
  rw [h, ha, ← c.reply_enables, ← c.reply_side]
  exact Words.say_self _ c.reply .ours

/-- Where the other end has said yes, this end has said whether it supports the option. -/
def Settled (e : Endpoint) : Prop :=
  ∀ side opt, e.words .theirs side opt = true → e.words .ours side opt = supports side opt

theorem Settled.receive (h : e.Settled) (c : Command) : (e.receive c).Settled := by
  intro side opt htheirs
  by_cases hc : side = c.side .theirs ∧ opt = c.opt
  · obtain ⟨rfl, rfl⟩ := hc
    rw [receive_said] at htheirs
    have hanswer : e.answer c = some c.reply := by rw [answer_eq, if_pos (.inl htheirs)]
    rw [(receive_answered hanswer).2, htheirs, Bool.true_and]
  · rw [receive_frame hc] at htheirs ⊢
    exact h side opt htheirs

theorem Settled.agreed (h : e.Settled) (side : Side) (opt : TelnetOption) :
    e.words.agreed side opt = (e.words .theirs side opt && supports side opt) := by
  unfold Words.agreed
  cases htheirs : e.words .theirs side opt with
  | false => rw [Bool.and_false, Bool.false_and]
  | true => rw [h side opt htheirs, Bool.and_true, Bool.true_and]

/-- When an answer keeps to the rule. -/
theorem obeys_iff_fresh (h : e.Settled) : e.ObeysLoopRule c ↔ Fresh e.words c := by
  have hbefore := h.agreed (c.side .theirs) c.opt
  have hafter := (h.receive c).agreed (c.side .theirs) c.opt
  rw [receive_said] at hafter
  unfold ObeysLoopRule Fresh
  rw [hbefore, hafter, answer_eq]
  cases hon : c.action.enables with
  | true =>
    have hne : c ≠ ⟨.wont, .echo⟩ := by
      rintro rfl
      cases hon
    rw [if_pos (.inl rfl)]
    constructor
    · refine fun hobeys => ⟨fun _ hsupports => ?_, fun hwont => absurd hwont hne⟩
      rw [hsupports] at hobeys
      rcases hobeys c.reply rfl with hchange | ⟨-, hoff, -⟩
      · simpa using hchange
      · simpa using hoff
    · rintro ⟨hfresh, -⟩ a ha
      obtain rfl := Option.some.inj ha
      cases hsupports : supports (c.side .theirs) c.opt with
      | true =>
        rw [hfresh rfl hsupports]
        exact .inl nofun
      | false =>
        refine .inr ⟨rfl, Bool.and_false _, ?_⟩
        rw [c.reply_enables, hsupports, Bool.and_false]
  | false =>
    by_cases hwont : c = ⟨.wont, .echo⟩
    · subst hwont
      rw [if_pos (.inr rfl)]
      constructor
      · refine fun hobeys => ⟨nofun, fun _ => ?_⟩
        rcases hobeys _ rfl with hchange | ⟨hfalse, -⟩
        · simpa [supports, Command.side, Action.offers] using hchange
        · cases hfalse
      · rintro ⟨-, hfresh⟩ a -
        refine .inl ?_
        have hsaid := hfresh rfl
        simpa [supports, Command.side, Action.offers] using hsaid
    · rw [if_neg (not_or.mpr ⟨nofun, hwont⟩)]
      exact iff_of_true nofun ⟨nofun, fun h => absurd h hwont⟩

end Endpoint

/-! ## All that is received -/

/-- What the other end has said in these commands. -/
def heard (received : List Command) : Words := received.foldl (Words.say · .theirs) .start

theorem fresh_congr {w w' : Words} (h : w .theirs = w' .theirs) (c : Command) :
    Fresh w c ↔ Fresh w' c := by
  unfold Fresh
  rw [h]

/-- Every answer behind `open_connection` keeps to the rule. -/
def LoopRule (received : List Command) : Prop :=
  ∀ before c after, received = before ++ c :: after →
    (before.foldl Endpoint.receive .opened).ObeysLoopRule c

def FreshRequests (received : List Command) : Prop :=
  ∀ before c after, received = before ++ c :: after → Fresh (heard before) c

namespace Endpoint

theorem opened_theirs : opened.words .theirs = Words.start .theirs := rfl

theorem settled_opened : opened.Settled := fun side opt h => by
  rw [opened_theirs] at h
  cases h

theorem settled_received (received : List Command) : (received.foldl receive opened).Settled := by
  induction received using List.reverseRecOn with
  | nil => exact settled_opened
  | append_singleton before c ih =>
    rw [List.foldl_concat]
    exact ih.receive c

theorem received_theirs (received : List Command) :
    (received.foldl receive opened).words .theirs = heard received .theirs := by
  induction received using List.reverseRecOn with
  | nil => rfl
  | append_singleton before c ih =>
    unfold heard at ih ⊢
    rw [List.foldl_concat, List.foldl_concat, receive_theirs]
    exact Words.say_congr _ c ih

end Endpoint

theorem loopRule_iff (received : List Command) : LoopRule received ↔ FreshRequests received := by
  refine forall₃_congr fun before c after => imp_congr_right fun _ => ?_
  rw [Endpoint.obeys_iff_fresh (Endpoint.settled_received before)]
  exact fresh_congr (Endpoint.received_theirs before) c

/-! ## Two ends -/

/-- Two ends with this policy, and the commands under way to each of them. -/
structure Exchange where
  us : Endpoint
  them : Endpoint
  toUs : List Command
  toThem : List Command

namespace Exchange

def opened : Exchange where
  us := .opened
  them := .opened
  toUs := openConnection
  toThem := openConnection

/-- One end receives the next command under way to it. -/
inductive Deliver : Exchange → Side × Command → Exchange → Prop
  | toUs {x : Exchange} {c : Command} {rest : List Command} : x.toUs = c :: rest →
    Deliver x (.ours, c)
      { x with us := x.us.receive c, toUs := rest, toThem := x.toThem ++ (x.us.answer c).toList }
  | toThem {x : Exchange} {c : Command} {rest : List Command} : x.toThem = c :: rest →
    Deliver x (.theirs, c)
      { x with them := x.them.receive c, toThem := rest, toUs := x.toUs ++ (x.them.answer c).toList }

def receiver (x : Exchange) : Side → Endpoint
  | .ours => x.us
  | .theirs => x.them

/-- The command delivered is one that the policy may answer. -/
def DeliverFresh (x : Exchange) (a : Side × Command) (x' : Exchange) : Prop :=
  Deliver x a x' ∧ Fresh (x.receiver a.1).words a.2

/-- What is ever under way between the two. -/
def vocabulary : List Command :=
  [⟨.will, .naws⟩, ⟨.dont, .naws⟩, ⟨.will, .suppressGoAhead⟩, ⟨.do', .suppressGoAhead⟩,
    ⟨.will, .transmitBinary⟩, ⟨.do', .transmitBinary⟩]

/-- WILL NAWS is answered once, with a command that is not answered. -/
def weight (c : Command) : Nat := if c = ⟨.will, .naws⟩ then 2 else 1

/-- The requests that an end has not heard yet. -/
def unheard (e : Endpoint) : Nat :=
  (e.words .theirs .theirs .suppressGoAhead).not.toNat +
    (e.words .theirs .ours .suppressGoAhead).not.toNat +
    (e.words .theirs .theirs .transmitBinary).not.toNat +
    (e.words .theirs .ours .transmitBinary).not.toNat

def load (cs : List Command) : Nat := (cs.map weight).sum

theorem load_append (cs ds : List Command) : load (cs ++ ds) = load cs + load ds := by
  unfold load
  rw [List.map_append, List.sum_append]

/-- A request that was not heard before is heard now. -/
theorem unheard_receive {e : Endpoint} {c : Command} (hfresh : Fresh e.words c)
    (hc : c.opt = .suppressGoAhead ∨ c.opt = .transmitBinary) (hon : c.action.enables = true) :
    unheard (e.receive c) + 1 = unheard e := by
  obtain ⟨action, opt⟩ := c
  unfold unheard
  rw [Endpoint.receive_theirs]
  rcases hc with rfl | rfl
  · cases action with
    | will =>
      have hnew : e.words .theirs .theirs .suppressGoAhead = false := hfresh.1 rfl rfl
      simp [hnew, Words.say, Command.side, Action.offers, Action.enables]
      omega
    | do' =>
      have hnew : e.words .theirs .ours .suppressGoAhead = false := hfresh.1 rfl rfl
      simp [hnew, Words.say, Command.side, Action.offers, Action.enables, Side.other]
      omega
    | wont | dont => cases hon
  · cases action with
    | will =>
      have hnew : e.words .theirs .theirs .transmitBinary = false := hfresh.1 rfl rfl
      simp [hnew, Words.say, Command.side, Action.offers, Action.enables]
      omega
    | do' =>
      have hnew : e.words .theirs .ours .transmitBinary = false := hfresh.1 rfl rfl
      simp [hnew, Words.say, Command.side, Action.offers, Action.enables, Side.other]
    | wont | dont => cases hon

theorem unheard_receive_naws (e : Endpoint) (action : Action) :
    unheard (e.receive ⟨action, .naws⟩) = unheard e := by
  have hframe : ∀ side opt, opt ≠ .naws →
      (e.receive ⟨action, .naws⟩).words .theirs side opt = e.words .theirs side opt :=
    fun side opt hopt => Endpoint.receive_frame (fun h => hopt h.2) .theirs
  unfold unheard
  rw [hframe .theirs .suppressGoAhead nofun, hframe .ours .suppressGoAhead nofun,
    hframe .theirs .transmitBinary nofun, hframe .ours .transmitBinary nofun]

/-- What an end makes of a fresh command. -/
theorem receive_fresh {e : Endpoint} {c : Command} (hc : c ∈ vocabulary) (hfresh : Fresh e.words c) :
    (∀ a, e.answer c = some a → a ∈ vocabulary) ∧
      load (e.answer c).toList + unheard (e.receive c) + 1 ≤ weight c + unheard e := by
  have hsupported : ∀ {action opt}, c = ⟨action, opt⟩ →
      opt = .suppressGoAhead ∨ opt = .transmitBinary → action.enables = true →
        (∀ a, e.answer c = some a → a ∈ vocabulary) ∧
          load (e.answer c).toList + unheard (e.receive c) + 1 ≤ weight c + unheard e := by
    rintro action opt rfl hopt hon
    have hunheard := unheard_receive hfresh hopt hon
    rw [Endpoint.answer_eq, if_pos (.inl hon)]
    refine ⟨fun a ha => ?_, ?_⟩
    · obtain rfl := Option.some.inj ha
      rcases hopt with rfl | rfl
      · cases action with
        | will | do' => decide
        | wont | dont => cases hon
      · cases action with
        | will | do' => decide
        | wont | dont => cases hon
    · have hweight : ∀ action', weight ⟨action', opt⟩ = 1 := by
        rcases hopt with rfl | rfl
        · exact fun action' => if_neg nofun
        · exact fun action' => if_neg nofun
      show (weight ⟨_, opt⟩ + 0) + _ + 1 ≤ _
      rw [hweight, hweight]
      omega
  unfold vocabulary at hc
  simp only [List.mem_cons, List.not_mem_nil, or_false] at hc
  rcases hc with rfl | rfl | h | h | h | h
  · refine ⟨fun a ha => ?_, ?_⟩
    · obtain rfl := Option.some.inj ha
      decide
    · rw [unheard_receive_naws]
      show 1 + _ + 1 ≤ 2 + _
      omega
  · refine ⟨nofun, ?_⟩
    rw [unheard_receive_naws]
    show 0 + _ + 1 ≤ 1 + _
    omega
  · exact hsupported h (.inl rfl) rfl
  · exact hsupported h (.inl rfl) rfl
  · exact hsupported h (.inr rfl) rfl
  · exact hsupported h (.inr rfl) rfl

/-- Only the vocabulary is under way. -/
def Confined (x : Exchange) : Prop := ∀ c ∈ x.toUs ++ x.toThem, c ∈ vocabulary

/-- What is still to be said, at most. -/
def remaining (x : Exchange) : Nat :=
  load (x.toUs ++ x.toThem) + unheard x.us + unheard x.them

theorem DeliverFresh.step {x x' : Exchange} {a : Side × Command} (h : DeliverFresh x a x')
    (hx : x.Confined) : x'.Confined ∧ x'.remaining + 1 ≤ x.remaining := by
  obtain ⟨hdeliver, hfresh⟩ := h
  cases hdeliver with
  | @toUs c rest hqueue =>
    unfold Confined remaining at *
    rw [hqueue] at hx ⊢
    obtain ⟨hvocabulary, hload⟩ := @receive_fresh x.us c (hx c (by simp)) hfresh
    refine ⟨fun b hb => ?_, ?_⟩
    · rcases List.mem_append.mp hb with hb | hb
      · exact hx b (by simp [hb])
      · rcases List.mem_append.mp hb with hb | hb
        · exact hx b (by simp [hb])
        · exact hvocabulary b (Option.mem_toList.mp hb)
    · simp only [List.cons_append, load_append]
      simp only [load, List.map_cons, List.sum_cons, List.map_append, List.sum_append] at hload ⊢
      omega
  | @toThem c rest hqueue =>
    unfold Confined remaining at *
    rw [hqueue] at hx ⊢
    obtain ⟨hvocabulary, hload⟩ := @receive_fresh x.them c (hx c (by simp)) hfresh
    refine ⟨fun b hb => ?_, ?_⟩
    · rcases List.mem_append.mp hb with hb | hb
      · rcases List.mem_append.mp hb with hb | hb
        · exact hx b (by simp [hb])
        · exact hvocabulary b (Option.mem_toList.mp hb)
      · exact hx b (by simp [hb])
    · simp only [load, List.map_cons, List.sum_cons, List.map_append, List.sum_append] at hload ⊢
      omega

theorem length_le_remaining {x x' : Exchange} {as : List (Side × Command)}
    (h : Run DeliverFresh x as x') (hx : x.Confined) : as.length ≤ x.remaining := by
  induction h with
  | nil x => exact Nat.zero_le _
  | cons hstep _ ih =>
    obtain ⟨hconfined, hless⟩ := hstep.step hx
    have := ih hconfined
    rw [List.length_cons]
    omega

theorem confined_opened : opened.Confined := by
  unfold Confined
  decide

/-- There is a request for the suppression of go-aheads under way, and it will be answered with
another one. -/
def Lively (x : Exchange) : Prop :=
  ∃ c ∈ x.toUs ++ x.toThem, c.opt = .suppressGoAhead ∧ c.action.enables = true

theorem answer_lively {e : Endpoint} {c : Command} (hopt : c.opt = .suppressGoAhead)
    (hon : c.action.enables = true) :
    ∃ a ∈ (e.answer c).toList, a.opt = .suppressGoAhead ∧ a.action.enables = true := by
  rw [Endpoint.answer_eq, if_pos (.inl hon)]
  refine ⟨c.reply, List.mem_singleton_self _, hopt, ?_⟩
  rw [c.reply_enables, hon, hopt]
  unfold Command.side
  split_ifs <;> rfl

theorem Deliver.lively {x x' : Exchange} {a : Side × Command} (h : Deliver x a x')
    (hx : x.Lively) : x'.Lively := by
  obtain ⟨c, hc, hopt, hon⟩ := hx
  cases h with
  | @toUs d rest hqueue =>
    rw [hqueue, List.cons_append] at hc
    rcases List.mem_cons.mp hc with rfl | hc
    · obtain ⟨b, hb, hlively⟩ := @answer_lively x.us c hopt hon
      exact ⟨b, by simp [Option.mem_toList.mp hb], hlively⟩
    · rcases List.mem_append.mp hc with hc | hc
      · exact ⟨c, by simp [hc], hopt, hon⟩
      · exact ⟨c, by simp [hc], hopt, hon⟩
  | @toThem d rest hqueue =>
    rw [hqueue] at hc
    rcases List.mem_append.mp hc with hc | hc
    · exact ⟨c, by simp [hc], hopt, hon⟩
    · rcases List.mem_cons.mp hc with rfl | hc
      · obtain ⟨b, hb, hlively⟩ := @answer_lively x.them c hopt hon
        exact ⟨b, by simp [Option.mem_toList.mp hb], hlively⟩
      · exact ⟨c, by simp [hc], hopt, hon⟩

theorem Lively.deliver {x : Exchange} (h : x.Lively) : ∃ a x', Deliver x a x' := by
  obtain ⟨c, hc, -⟩ := h
  rcases List.mem_append.mp hc with hc | hc
  · obtain ⟨d, rest, hqueue⟩ := List.exists_cons_of_ne_nil (List.ne_nil_of_mem hc)
    exact ⟨_, _, .toUs hqueue⟩
  · obtain ⟨d, rest, hqueue⟩ := List.exists_cons_of_ne_nil (List.ne_nil_of_mem hc)
    exact ⟨_, _, .toThem hqueue⟩

/-- Without any further condition, the exchange never comes to an end. -/
theorem opened_endless {as : List (Side × Command)} {x : Exchange} (h : Run Deliver opened as x) :
    ∃ a x', Deliver x a x' := by
  have hopened : opened.Lively := ⟨⟨.do', .suppressGoAhead⟩, by decide, rfl, rfl⟩
  have hstep : ∀ x a x', Lively x → Deliver x a x' → Lively x' := fun _ _ _ hx h => h.lively hx
  exact (h.invariant hstep hopened).deliver

end Exchange

/-- **The loop rule of RFC 854.** The answers keep to it exactly if no request for an option that is
accepted comes twice in a row, and WONT ECHO only behind WILL ECHO; two ends that receive nothing
else exchange at most eighteen commands. -/
theorem loopRule_iff_freshRequests (received : List Command) :
    (LoopRule received ↔ FreshRequests received) ∧
      ∀ as x, Run Exchange.DeliverFresh .opened as x → as.length ≤ 18 :=
  ⟨loopRule_iff received, fun _ _ h => Exchange.length_le_remaining h Exchange.confined_opened⟩

/-- The other end takes over the echo, is ready for the window size, asks for the rest and gives the
echo back. -/
def greeting : List Command :=
  [⟨.will, .echo⟩, ⟨.do', .naws⟩, ⟨.will, .suppressGoAhead⟩, ⟨.do', .suppressGoAhead⟩,
    ⟨.will, .transmitBinary⟩, ⟨.do', .transmitBinary⟩, ⟨.wont, .echo⟩]

/-- The commands of `openConnection` reach both ends, and then the first answers to them. -/
def openingsDelivered : List (Side × Command) :=
  openConnection.map (Side.ours, ·) ++ openConnection.map (Side.theirs, ·) ++
    [(.ours, ⟨.dont, .naws⟩), (.ours, ⟨.will, .suppressGoAhead⟩), (.theirs, ⟨.dont, .naws⟩),
      (.theirs, ⟨.will, .suppressGoAhead⟩)]

theorem freshRequests_of_take {received : List Command}
    (h : ∀ i (hi : i < received.length), Fresh (heard (received.take i)) received[i]) :
    FreshRequests received := by
  rintro before c after rfl
  simpa using h before.length (by simp)

theorem loopRule_iff_freshRequests_opening :
    LoopRule greeting ∧
      ∃ x, Run Exchange.DeliverFresh .opened openingsDelivered x ∧ openingsDelivered.length ≤ 18 := by
  have hgreeting : FreshRequests greeting := freshRequests_of_take (by decide)
  have hopenings : ∃ x, Run Exchange.DeliverFresh .opened openingsDelivered x := by
    iterate 4 refine Exists.imp (fun _ => .cons ⟨.toUs rfl, by decide⟩) ?_
    iterate 4 refine Exists.imp (fun _ => .cons ⟨.toThem rfl, by decide⟩) ?_
    iterate 2 refine Exists.imp (fun _ => .cons ⟨.toUs rfl, by decide⟩) ?_
    iterate 2 refine Exists.imp (fun _ => .cons ⟨.toThem rfl, by decide⟩) ?_
    exact ⟨_, .nil _⟩
  obtain ⟨x, hrun⟩ := hopenings
  obtain ⟨hrule, hlength⟩ := loopRule_iff_freshRequests greeting
  exact ⟨hrule.mpr hgreeting, x, hrun, hlength _ x hrun⟩

/-- WILL SUPPRESS-GO-AHEAD is acknowledged each time, and two ends never stop doing it. -/
theorem acknowledged_twice :
    ¬ LoopRule [⟨.will, .suppressGoAhead⟩, ⟨.will, .suppressGoAhead⟩] ∧
      ∀ as x, Run Exchange.Deliver .opened as x → ∃ a x', Exchange.Deliver x a x' := by
  refine ⟨fun h => ?_, fun as x hrun => Exchange.opened_endless hrun⟩
  rcases h [⟨.will, .suppressGoAhead⟩] ⟨.will, .suppressGoAhead⟩ [] rfl ⟨.do', .suppressGoAhead⟩ rfl
    with hchange | ⟨-, hoff, -⟩
  · exact hchange (by decide)
  · exact absurd hoff (by decide)

end TauTerm.Telnet
