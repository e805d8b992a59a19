import Mathlib
import TauTerm.Tftp.Session

/-!
# Option negotiation

What `handle_rrq` and `handle_wrq` answer to the options of a request, what they hand to
the transfer engine, and what `tftp_client_get` and `tftp_client_put` take from an OACK.
The server answers from its own parameters and the client narrows what it is told to 16
bits, so neither is bounded by what was asked for.
-/

namespace TauTerm.Tftp

/-- What the transfer engine is called with: `counting.blksize()` and `params`. -/
structure Transfer where
  blksize : UInt16
  params : TftpDynamicParams
  deriving DecidableEq

/-! ## Requests -/

def getRequestOptions (params : TftpDynamicParams) : List TransferOption :=
  [⟨.blockSize, params.blksize.toNat⟩, ⟨.timeout, params.timeoutSecs.toNat⟩,
    ⟨.windowSize, params.windowsize.toNat⟩]

def putRequestOptions (params : TftpDynamicParams) (fileSize : Nat) : List TransferOption :=
  [⟨.blockSize, params.blksize.toNat⟩, ⟨.transferSize, fileSize⟩,
    ⟨.timeout, params.timeoutSecs.toNat⟩, ⟨.windowSize, params.windowsize.toNat⟩]

/-! ## The server -/

/-- `handle_rrq` from the parameters on: the packets it sends before `send_file`, and the call.
`sent` says whether `send_to` succeeds, `abort` what the flag holds then, and `reply` is what
is received after it. -/
def handleRrq (options : List TransferOption) (params : TftpDynamicParams) (fileSize : Nat)
    (sent abort : Bool) (reply : Received) : List Packet × Option Transfer :=
  if options ≠ [] then
    let oack := buildOackOptions params (some fileSize)
    ([.oack oack],
      if ¬ sent ∨ abort then none
      else
        match reply with
        | .packet (.ack 0) => some ⟨params.blksize, params⟩
        | _ => none)
  else ([], some ⟨params.blksize, params⟩)

/-- `handle_wrq` from the parameters on. -/
def handleWrq (options : List TransferOption) (params : TftpDynamicParams) :
    List Packet × Option Transfer :=
  (if options ≠ [] then [.oack (buildOackOptions params none)] else [.ack 0],
    some ⟨params.blksize, params⟩)

/-! ## The client -/

def Transfer.ofOack (options : List TransferOption) (params : TftpDynamicParams) : Transfer :=
  ⟨negotiatedBlksize options params, applyOackWindowOptions options params⟩

/-- Phase 2 of `tftp_client_get`; an OACK is confirmed and `second` received. -/
def getReply (params : TftpDynamicParams) (first second : Received) : Option Transfer :=
  match first with
  | .packet (.oack options) =>
    match second with
    | .packet (.data 1 _) => some (.ofOack options params)
    | _ => none
  | .packet (.data 1 _) => some ⟨params.blksize, params⟩
  | _ => none

/-- The wait of `tftp_client_put`. -/
def putReply (params : TftpDynamicParams) (reply : Received) : Option Transfer :=
  match reply with
  | .packet (.ack 0) => some ⟨params.blksize, params⟩
  | .packet (.oack options) => some (.ofOack options params)
  | _ => none

/-! ## Conservative answers -/

/-- Only what was asked for, and no larger block or window. -/
def OackConservative (options oack : List TransferOption) : Prop :=
  ∀ o ∈ oack, ∃ value, findOption o.option options = some value ∧
    (o.option = .blockSize ∨ o.option = .windowSize → o.value ≤ value)

/-- The server: a conservative OACK, and the defaults of the protocol without options. -/
def ServerConservative (options : List TransferOption) (answer : List Packet × Option Transfer) :
    Prop :=
  (∀ oack, .oack oack ∈ answer.1 → OackConservative options oack) ∧
  (options = [] → ∀ transfer, answer.2 = some transfer →
    transfer.blksize.toNat = 512 ∧ transfer.params.windowSize = 1)

/-- The client: sizes that exist and that it asked for. -/
def ClientConservative (params : TftpDynamicParams) (transfer : Transfer) : Prop :=
  1 ≤ transfer.blksize.toNat ∧ transfer.blksize.toNat ≤ params.blksize.toNat ∧
  1 ≤ transfer.params.windowSize ∧ transfer.params.windowSize ≤ params.windowsize.toNat

/-- `options` name an option with at least `value`. -/
def Asks (options : List TransferOption) (option : OptionType) (value : Nat) : Prop :=
  ∃ asked, findOption option options = some asked ∧ value ≤ asked

/-- A request that asks for no less than the server is set to. -/
structure Covers (options : List TransferOption) (params : TftpDynamicParams)
    (transferSize : Option Nat) : Prop where
  blksize : Asks options .blockSize params.blksize.toNat
  windowsize : Asks options .windowSize params.windowsize.toNat
  timeout : Asks options .timeout 0
  transferSize : transferSize.isSome → Asks options .transferSize 0
  windowWait : params.windowWait > 0 → Asks options .windowWait 0

/-- A server whose settings are the defaults of the protocol. -/
def PlainParams (params : TftpDynamicParams) : Prop :=
  params.blksize = 512 ∧ params.windowsize.toNat ≤ 1

theorem buildOackOptions_conservative (options : List TransferOption) (params : TftpDynamicParams)
    (transferSize : Option Nat) :
    OackConservative options (buildOackOptions params transferSize) ↔
      Covers options params transferSize := by
  constructor
  · intro h
    have hmem : ∀ o ∈ buildOackOptions params transferSize, Asks options o.option 0 := fun o ho =>
      (h o ho).elim fun value hv => ⟨value, hv.1, Nat.zero_le _⟩
    have hsize : ∀ o ∈ buildOackOptions params transferSize,
        o.option = .blockSize ∨ o.option = .windowSize → Asks options o.option o.value :=
      fun o ho hkind => (h o ho).imp fun value hv => ⟨hv.1, hv.2 hkind⟩
    constructor
    · exact hsize ⟨.blockSize, _⟩ (by simp [buildOackOptions]) (.inl rfl)
    · exact hsize ⟨.windowSize, _⟩ (by simp [buildOackOptions]) (.inr rfl)
    · exact hmem ⟨.timeout, params.timeoutSecs.toNat⟩ (by simp [buildOackOptions])
    · intro hsome
      obtain ⟨size, rfl⟩ := Option.isSome_iff_exists.mp hsome
      exact hmem ⟨.transferSize, size⟩ (by simp [buildOackOptions])
    · intro hwait
      exact hmem ⟨.windowWait, params.windowWait⟩ (by simp [buildOackOptions, hwait])
  · intro h o ho
    unfold buildOackOptions at ho
    simp only [List.mem_append, List.mem_cons, List.not_mem_nil, or_false, List.mem_map,
      Option.mem_toList] at ho
    rcases ho with ((rfl | rfl | rfl) | ⟨size, hsize, rfl⟩) | hwait
    · exact h.blksize.imp fun _ hv => ⟨hv.1, fun _ => hv.2⟩
    · exact h.timeout.imp fun _ hv => ⟨hv.1, fun hkind => by cases hkind <;> contradiction⟩
    · exact h.windowsize.imp fun _ hv => ⟨hv.1, fun _ => hv.2⟩
    · exact (h.transferSize (hsize ▸ rfl)).imp fun _ hv =>
        ⟨hv.1, fun hkind => by cases hkind <;> contradiction⟩
    · split_ifs at hwait with hpos
      · obtain rfl := List.mem_singleton.mp hwait
        exact (h.windowWait hpos).imp fun _ hv =>
          ⟨hv.1, fun hkind => by cases hkind <;> contradiction⟩
      · cases hwait

theorem windowSize_eq_one {params : TftpDynamicParams} :
    params.windowSize = 1 ↔ params.windowsize.toNat ≤ 1 := by
  rw [TftpDynamicParams.windowSize]
  omega

theorem plainParams_iff {params : TftpDynamicParams} :
    params.blksize.toNat = 512 ∧ params.windowSize = 1 ↔ PlainParams params := by
  rw [PlainParams, windowSize_eq_one, ← UInt16.toNat_inj]
  exact .rfl

theorem handleRrq_conservative (options : List TransferOption) (params : TftpDynamicParams)
    (fileSize : Nat) (sent abort : Bool) (reply : Received) :
    ServerConservative options (handleRrq options params fileSize sent abort reply) ↔
      if options = [] then PlainParams params else Covers options params (some fileSize) := by
  unfold ServerConservative handleRrq
  by_cases hnone : options = []
  · rw [if_neg (not_not.mpr hnone), if_pos hnone, ← plainParams_iff]
    simp [hnone]
  · rw [if_pos hnone, if_neg hnone, ← buildOackOptions_conservative]
    simp [hnone]

theorem handleWrq_conservative (options : List TransferOption) (params : TftpDynamicParams) :
    ServerConservative options (handleWrq options params) ↔
      if options = [] then PlainParams params else Covers options params none := by
  unfold ServerConservative handleWrq
  by_cases hnone : options = []
  · rw [if_neg (not_not.mpr hnone), if_pos hnone, ← plainParams_iff]
    simp [hnone]
  · rw [if_pos hnone, if_neg hnone, ← buildOackOptions_conservative]
    simp [hnone]

/-! ### Requests of the client itself -/

/-- The size of the file is announced to a GET that did not ask for it. -/
theorem not_covers_getRequestOptions (client server : TftpDynamicParams) (fileSize : Nat) :
    ¬ Covers (getRequestOptions client) server (some fileSize) := by
  intro h
  obtain ⟨value, hvalue, -⟩ := h.transferSize rfl
  cases hvalue

theorem covers_putRequestOptions {client server : TftpDynamicParams} {fileSize : Nat} :
    Covers (putRequestOptions client fileSize) server none ↔
      server.blksize ≤ client.blksize ∧ server.windowsize ≤ client.windowsize ∧
        server.windowWait = 0 := by
  constructor
  · intro h
    obtain ⟨blksize, hblksize, hble⟩ := h.blksize
    obtain ⟨windowsize, hwindowsize, hwle⟩ := h.windowsize
    cases hblksize
    cases hwindowsize
    refine ⟨hble, hwle, Nat.eq_zero_of_not_pos fun hpos => ?_⟩
    obtain ⟨value, hvalue, -⟩ := h.windowWait hpos
    cases hvalue
  · rintro ⟨hblksize, hwindowsize, hwait⟩
    exact ⟨⟨_, rfl, hblksize⟩, ⟨_, rfl, hwindowsize⟩, ⟨_, rfl, Nat.zero_le _⟩,
      fun h => absurd h Bool.false_ne_true, fun h => absurd hwait (Nat.ne_of_gt h)⟩

/-! ## What the client takes -/

/-- An answer that stays, cut to 16 bits, within what was asked for. -/
structure Within (oack : List TransferOption) (params : TftpDynamicParams) : Prop where
  blksize_pos : 1 ≤ (findOption .blockSize oack).getD params.blksize.toNat % 65536
  blksize_le : (findOption .blockSize oack).getD params.blksize.toNat % 65536 ≤ params.blksize.toNat
  windowsize_pos : 1 ≤ params.windowsize.toNat
  windowsize_le :
    (findOption .windowSize oack).getD params.windowsize.toNat % 65536 ≤ params.windowsize.toNat

theorem toNat_narrowed (value : Option Nat) (default : UInt16) :
    ((value.map UInt16.ofNat).getD default).toNat = value.getD default.toNat % 65536 := by
  cases value with
  | none => exact (Nat.mod_eq_of_lt default.toNat_lt).symm
  | some value => exact UInt16.toNat_ofNat'

theorem ofOack_conservative (oack : List TransferOption) (params : TftpDynamicParams) :
    ClientConservative params (.ofOack oack params) ↔ Within oack params := by
  have hblksize : (Transfer.ofOack oack params).blksize.toNat =
      (findOption .blockSize oack).getD params.blksize.toNat % 65536 := toNat_narrowed ..
  have hwindow : (Transfer.ofOack oack params).params.windowSize =
      max ((findOption .windowSize oack).getD params.windowsize.toNat % 65536) 1 := by
    rw [← toNat_narrowed]
    rfl
  unfold ClientConservative
  rw [hblksize, hwindow]
  constructor
  · rintro ⟨hpos, hle, -, hwin⟩
    exact ⟨hpos, hle, by omega, by omega⟩
  · rintro ⟨hpos, hle, hwpos, hwle⟩
    exact ⟨hpos, hle, by omega, by omega⟩

theorem getReply_conservative (oack : List TransferOption) (params : TftpDynamicParams) :
    (∀ second transfer, getReply params (.packet (.oack oack)) second = some transfer →
      ClientConservative params transfer) ↔ Within oack params := by
  rw [← ofOack_conservative]
  constructor
  · exact fun h => h (.packet (.data 1 [])) _ rfl
  · intro h second transfer htransfer
    unfold getReply at htransfer
    simp only at htransfer
    split at htransfer
    · cases htransfer
      exact h
    · cases htransfer

theorem putReply_conservative (oack : List TransferOption) (params : TftpDynamicParams) :
    (∀ transfer, putReply params (.packet (.oack oack)) = some transfer →
      ClientConservative params transfer) ↔ Within oack params := by
  rw [← ofOack_conservative]
  constructor
  · exact fun h => h _ rfl
  · rintro h transfer ⟨⟩
    exact h

/-- When the answer to a request is conservative, and when what a client makes of an OACK is. -/
theorem negotiation_conservative_iff (options : List TransferOption) (params : TftpDynamicParams) :
    (∀ fileSize sent abort reply,
      ServerConservative options (handleRrq options params fileSize sent abort reply) ↔
        if options = [] then PlainParams params else Covers options params (some fileSize)) ∧
    (ServerConservative options (handleWrq options params) ↔
      if options = [] then PlainParams params else Covers options params none) ∧
    (∀ oack, (∀ second transfer, getReply params (.packet (.oack oack)) second = some transfer →
      ClientConservative params transfer) ↔ Within oack params) ∧
    ∀ oack, (∀ transfer, putReply params (.packet (.oack oack)) = some transfer →
      ClientConservative params transfer) ↔ Within oack params :=
  ⟨handleRrq_conservative options params, handleWrq_conservative options params,
    fun oack => getReply_conservative oack params, fun oack => putReply_conservative oack params⟩

/-- A GET is told the size that it did not ask for, a request for blocks of 8 bytes is answered
with blocks of 512, a request without options is served with the 1428 bytes of the server's
settings, and the client takes blocks of no bytes and windows larger than its own. -/
theorem negotiation_not_conservative :
    ¬ ServerConservative (getRequestOptions {})
      (handleRrq (getRequestOptions {}) {} 1000 true false (.packet (.ack 0))) ∧
    ¬ ServerConservative [⟨.blockSize, 8⟩]
      (handleRrq [⟨.blockSize, 8⟩] {} 1000 true false (.packet (.ack 0))) ∧
    ¬ ServerConservative [] (handleRrq [] { blksize := 1428 } 1000 true false .wouldBlock) ∧
    ¬ ServerConservative [⟨.transferSize, 5⟩] (handleWrq [⟨.transferSize, 5⟩] {}) ∧
    (getReply {} (.packet (.oack [⟨.blockSize, 65536⟩])) (.packet (.data 1 []))).map
      (·.blksize.toNat) = some 0 ∧
    (putReply {} (.packet (.oack [⟨.windowSize, 65535⟩]))).map (·.params.windowSize) =
      some 65535 := by
  refine ⟨fun h => ?_, fun h => ?_, fun h => ?_, fun h => ?_, by decide, by decide⟩
  · obtain ⟨value, hvalue, -⟩ :=
      h.1 _ (List.mem_singleton_self _) ⟨.transferSize, 1000⟩ (by decide)
    cases hvalue
  · obtain ⟨value, hvalue, hle⟩ := h.1 _ (List.mem_singleton_self _) ⟨.blockSize, 512⟩ (by decide)
    cases hvalue
    exact absurd (hle (.inl rfl)) (by decide)
  · exact absurd (h.2 rfl _ rfl).1 (by decide)
  · obtain ⟨value, hvalue, -⟩ := h.1 _ (List.mem_singleton_self _) ⟨.blockSize, 512⟩ (by decide)
    cases hvalue

end TauTerm.Tftp
