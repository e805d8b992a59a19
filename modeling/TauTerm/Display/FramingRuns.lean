import Mathlib
import TauTerm.Display.StreamFramer

/-!
# Cutting a stream and framing it

Whatever is pushed, and whenever timers run out, the frames and the buffer are the stream. How the
stream was cut into chunks is seen in the frames exactly if a CR LF was cut in two.
-/

namespace TauTerm.Display

/-! ## The loop on a stream in two parts -/

/-- A CR LF lies across the two parts. -/
def Cut (xs ys : List UInt8) : Prop := xs.getLast? = some CR ∧ ys.head? = some LF

theorem cut_append {xs rest ys : List UInt8} (h : rest ≠ []) : Cut (xs ++ rest) ys ↔ Cut rest ys := by
  rw [Cut, Cut, List.getLast?_append_of_ne_nil xs h]

/-- What is left is open. -/
theorem scan_rest (xs : List UInt8) : Open (scan xs).2 := by
  induction hn : xs.length using Nat.strongRecOn generalizing xs with
  | _ n ih =>
    subst hn
    obtain hopen | ⟨body, d, rest, rfl, hbody, hd, hwhole⟩ := open_or_frame xs
    · rw [scan_open hopen]
      exact hopen
    · rw [scan_frame hbody hd hwhole]
      refine ih _ ?_ rest rfl
      have := hd.length_pos
      simp only [List.length_append]
      omega

/-- The frames of a stream are frames, and with what is left they are the stream. -/
theorem scan_spec (xs : List UInt8) :
    (scan xs).1.flatten ++ (scan xs).2 = xs ∧ ∀ frame ∈ (scan xs).1, IsFrame frame := by
  induction hn : xs.length using Nat.strongRecOn generalizing xs with
  | _ n ih =>
    subst hn
    obtain hopen | ⟨body, d, rest, rfl, hbody, hd, hwhole⟩ := open_or_frame xs
    · rw [scan_open hopen]
      exact ⟨rfl, by simp⟩
    · have hlt : rest.length < (body ++ d ++ rest).length := by
        have := hd.length_pos
        simp only [List.length_append]
        omega
      obtain ⟨hflat, hframes⟩ := ih _ hlt rest rfl
      rw [scan_frame hbody hd hwhole]
      refine ⟨?_, fun frame hframe => ?_⟩
      · rw [List.flatten_cons, List.append_assoc, hflat]
      · obtain rfl | hframe := List.mem_cons.mp hframe
        · exact ⟨body, d, rfl, hbody, hd⟩
        · exact hframes frame hframe

/-- Between the parts nothing is lost, and a CR LF across them makes one frame more. -/
theorem scan_append (xs ys : List UInt8) :
    (¬ Cut xs ys → scan (xs ++ ys) =
      ((scan xs).1 ++ (scan ((scan xs).2 ++ ys)).1, (scan ((scan xs).2 ++ ys)).2)) ∧
    (Cut xs ys → (scan (xs ++ ys)).1.length + 1 =
      (scan xs).1.length + (scan ((scan xs).2 ++ ys)).1.length) := by
  induction hn : xs.length using Nat.strongRecOn generalizing xs with
  | _ n ih =>
    subst hn
    obtain hopen | ⟨body, d, rest, rfl, hbody, hd, hwhole⟩ := open_or_frame xs
    · rw [scan_open hopen]
      refine ⟨fun _ => rfl, fun hcut => absurd ?_ hopen.1⟩
      exact List.mem_of_getLast? hcut.1
    · have hlt : rest.length < (body ++ d ++ rest).length := by
        have := hd.length_pos
        simp only [List.length_append]
        omega
      obtain ⟨hsame, hmore⟩ := ih _ hlt rest rfl
      rw [scan_frame hbody hd hwhole]
      by_cases hrest : rest = []
      · subst hrest
        rw [List.append_nil, scan_open ⟨List.not_mem_nil, List.not_mem_nil⟩, List.nil_append]
        have hlast : (body ++ d).getLast? = some CR ↔ d = [CR] := by
          obtain rfl | rfl | rfl := hd
          · simp [CR, LF]
          · simp [CR, LF]
          · simp
        constructor
        · intro hcut
          rw [scan_frame hbody hd fun hcr hhead => hcut ⟨hlast.mpr hcr, hhead⟩]
          rfl
        · rintro ⟨hcr, hlf⟩
          obtain rfl := hlast.mp hcr
          obtain ⟨ys, rfl⟩ := List.head?_eq_some_iff.mp hlf
          have hpair : body ++ [CR] ++ LF :: ys = body ++ [CR, LF] ++ ys := by simp
          have hlone : LF :: ys = [] ++ [LF] ++ ys := rfl
          rw [hpair, scan_frame hbody (.inl rfl) (fun h => nomatch h), hlone,
            scan_frame ⟨List.not_mem_nil, List.not_mem_nil⟩ (.inr (.inl rfl)) fun h => nomatch h]
          simp only [List.length_cons, List.length_nil]
          omega
      · rw [cut_append hrest, List.append_assoc, scan_frame hbody hd ?_]
        · refine ⟨fun hcut => ?_, fun hcut => ?_⟩
          · rw [hsame hcut]
            rfl
          · have := hmore hcut
            simp only [List.length_cons]
            omega
        · intro hcr
          rw [List.head?_append_of_ne_nil rest hrest]
          exact hwhole hcr

/-! ## Chunks -/

/-- The chunks one after the other, each behind what the one before left. -/
def feed (keep : List UInt8) : List (List UInt8) → List (List UInt8) × List UInt8
  | [] => ([], keep)
  | chunk :: chunks =>
    let r := scan (keep ++ chunk)
    (r.1 ++ (feed r.2 chunks).1, (feed r.2 chunks).2)

/-- A CR LF is cut in two somewhere. -/
def CutsPair (chunks : List (List UInt8)) : Prop :=
  ∃ before after, chunks = before ++ after ∧ Cut before.flatten after.flatten

theorem cutsPair_cons {chunk : List UInt8} {chunks : List (List UInt8)} :
    CutsPair (chunk :: chunks) ↔ Cut chunk chunks.flatten ∨ CutsPair chunks := by
  constructor
  · rintro ⟨before, after, heq, hcut⟩
    cases before with
    | nil => cases hcut.1
    | cons first before =>
      obtain ⟨rfl, rfl⟩ := List.cons.inj heq
      by_cases hempty : before.flatten = []
      · left
        rw [List.flatten_cons, hempty, List.append_nil] at hcut
        change Cut chunk (before ++ after).flatten
        rwa [List.flatten_append, hempty, List.nil_append]
      · rw [List.flatten_cons, cut_append hempty] at hcut
        exact .inr ⟨before, after, rfl, hcut⟩
  · rintro (hcut | ⟨before, after, rfl, hcut⟩)
    · exact ⟨[chunk], chunks, rfl, by rwa [List.flatten_singleton]⟩
    · refine ⟨chunk :: before, after, rfl, ?_⟩
      rw [List.flatten_cons, cut_append]
      · exact hcut
      · rintro hempty
        rw [hempty] at hcut
        cases hcut.1

theorem cut_keep {keep : List UInt8} (h : Open keep) (chunk ys : List UInt8) :
    Cut (keep ++ chunk) ys ↔ Cut chunk ys := by
  by_cases hempty : chunk = []
  · subst hempty
    rw [List.append_nil]
    refine iff_of_false (fun hcut => h.1 (List.mem_of_getLast? hcut.1)) fun hcut => ?_
    cases hcut.1
  · exact cut_append hempty

/-- The chunks have the frames of the whole, and one more for each CR LF that they cut. -/
theorem feed_spec {keep : List UInt8} (h : Open keep) (chunks : List (List UInt8)) :
    (¬ CutsPair chunks → feed keep chunks = scan (keep ++ chunks.flatten)) ∧
      (scan (keep ++ chunks.flatten)).1.length ≤ (feed keep chunks).1.length ∧
      (CutsPair chunks → (scan (keep ++ chunks.flatten)).1.length < (feed keep chunks).1.length) := by
  induction chunks generalizing keep with
  | nil =>
    rw [List.flatten_nil, List.append_nil, scan_open h]
    refine ⟨fun _ => rfl, le_rfl, ?_⟩
    rintro ⟨before, after, heq, hcut⟩
    obtain ⟨rfl, rfl⟩ := List.append_eq_nil_iff.mp heq.symm
    cases hcut.1
  | cons chunk chunks ih =>
    obtain ⟨hsame, hle, hlt⟩ := ih (scan_rest (keep ++ chunk))
    obtain ⟨hparts, hpair⟩ := scan_append (keep ++ chunk) chunks.flatten
    rw [cut_keep h] at hparts hpair
    rw [cutsPair_cons, List.flatten_cons, ← List.append_assoc, feed]
    refine ⟨fun hnot => ?_, ?_, fun hcut => ?_⟩
    · rw [not_or] at hnot
      rw [hparts hnot.1, hsame hnot.2]
    · rw [List.length_append]
      by_cases hcut : Cut chunk chunks.flatten
      · have := hpair hcut
        omega
      · rw [hparts hcut, List.length_append]
        omega
    · rw [List.length_append]
      by_cases hfirst : Cut chunk chunks.flatten
      · have := hpair hfirst
        omega
      · have := hlt (hcut.resolve_left hfirst)
        rw [hparts hfirst, List.length_append]
        omega

/-! ## The framer -/

namespace StreamFramer

variable {s : StreamFramer}

theorem push_spec (s : StreamFramer) (data : List UInt8) :
    (s.push data).2 = (scan (s.buffered ++ data)).1 ∧
      (s.push data).1.buffered = (scan (s.buffered ++ data)).2 := by
  have hchunks : ((s.frame.map (·.buffer)).getD [] ++ [data]).flatten = s.buffered ++ data := by
    unfold buffered
    cases s.frame <;> simp
  unfold push
  dsimp only
  rw [hchunks]
  split
  · exact ⟨rfl, by simp [buffered]⟩
  · rename_i hempty
    have hnil := List.length_eq_zero_iff.mp (Nat.eq_zero_of_not_pos hempty)
    exact ⟨rfl, hnil.symm⟩

theorem run_push (chunks : List (List UInt8)) (s : StreamFramer) :
    (s.run (chunks.map .push)).2 = (feed s.buffered chunks).1 ∧
      (s.run (chunks.map .push)).1.buffered = (feed s.buffered chunks).2 := by
  induction chunks generalizing s with
  | nil => exact ⟨rfl, rfl⟩
  | cons chunk chunks ih =>
    obtain ⟨hframes, hbuffered⟩ := s.push_spec chunk
    obtain ⟨hlater, hend⟩ := ih (s.push chunk).1
    rw [hbuffered] at hlater hend
    refine ⟨?_, hend⟩
    change (s.push chunk).2 ++ ((s.push chunk).1.run (chunks.map .push)).2 = _
    rw [hframes, hlater]
    rfl

/-- What a framer says of a stream in these chunks: it loses nothing, each frame has one delimiter and
ends with it, and the frames are those of the stream in one piece. -/
structure Faithful (chunks : List (List UInt8)) : Prop where
  lossless : (pushes chunks).2.flatten ++ (pushes chunks).1.buffered = chunks.flatten
  frames : ∀ frame ∈ (pushes chunks).2, IsFrame frame
  uncut : (pushes chunks).2 = (pushes [chunks.flatten]).2

/-- Every timer that runs is that of the frame there is. -/
def Timed (s : StreamFramer) : Prop :=
  s.timers = (s.frame.map fun f => ⟨f.timer, f.generation⟩).toList

/-- What holds of a run with timers that run out whenever they do. -/
structure Lossless (actions : List Action) : Prop where
  stream : (run new actions).2.flatten ++ (run new actions).1.buffered = pushed actions
  frames : ∀ frame ∈ (run new actions).2, frame ≠ []
  timed : (run new actions).1.Timed

theorem run_cons (s : StreamFramer) (a : Action) (as : List Action) :
    s.run (a :: as) = (((s.step a).1.run as).1, (s.step a).2 ++ ((s.step a).1.run as).2) := rfl

theorem pushed_cons (a : Action) (as : List Action) :
    pushed (a :: as) = pushed [a] ++ pushed as := by
  simp [pushed]

theorem clearTimeout_timed {f : FrameState} (h : s.Timed) (hf : s.frame = some f) :
    (s.clearTimeout f.timer).timers = [] := by
  rw [Timed, hf] at h
  simp [clearTimeout, h]

theorem timed_push (h : s.Timed) (data : List UInt8) : (s.push data).1.Timed := by
  unfold push
  cases hf : s.frame with
  | none =>
    have htimers : s.timers = [] := by rwa [Timed, hf] at h
    dsimp only
    split
    · rw [Timed, htimers]
      rfl
    · exact htimers
  | some f =>
    have htimers := clearTimeout_timed h hf
    dsimp only
    split
    · rw [Timed, htimers]
      rfl
    · exact htimers

/-- A timer that runs out hands on the buffer, whole and once. -/
theorem fire_spec (h : s.Timed) (id : Nat) :
    (s.fire id).2.flatten ++ (s.fire id).1.buffered = s.buffered ∧
      (∀ frame ∈ (s.fire id).2, frame ≠ []) ∧ (s.fire id).1.Timed := by
  unfold fire
  split
  · exact ⟨rfl, by simp, h⟩
  · rename_i t hfind
    cases hf : s.frame with
    | none =>
      rw [Timed, hf] at h
      rw [h] at hfind
      cases hfind
    | some f =>
      have htimers := clearTimeout_timed h hf
      rw [Timed, hf] at h
      have ht : t = ⟨f.timer, f.generation⟩ := by
        have := List.mem_of_find?_eq_some hfind
        rw [h] at this
        exact List.mem_singleton.mp this
      have hid : f.timer = id := by
        have := List.find?_some hfind
        rw [ht] at this
        exact of_decide_eq_true this
      subst hid ht
      have hframe : (s.clearTimeout f.timer).frame = some f := hf
      dsimp only
      rw [hframe]
      dsimp only
      rw [if_pos rfl]
      refine ⟨?_, ?_, htimers⟩
      · have hbuffered : s.buffered = f.buffer.flatten := by rw [buffered, hf]; rfl
        rw [hbuffered]
        split
        · simp [buffered]
        · rename_i hempty
          by_cases hbuffer : f.buffer = []
          · simp [buffered, hbuffer]
          · have hflatten : ¬ f.buffer.flatten.length > 0 := fun hpos =>
              hempty ⟨List.length_pos_iff.mpr hbuffer, hpos⟩
            have hnil := List.length_eq_zero_iff.mp (Nat.eq_zero_of_not_pos hflatten)
            simp [buffered, hnil]
      · intro frame hmem
        split at hmem
        · rename_i hpos
          rw [List.mem_singleton.mp hmem]
          exact List.length_pos_iff.mp hpos.2
        · cases hmem

theorem step_spec (h : s.Timed) (a : Action) :
    (s.step a).2.flatten ++ (s.step a).1.buffered = s.buffered ++ pushed [a] ∧
      (∀ frame ∈ (s.step a).2, frame ≠ []) ∧ (s.step a).1.Timed := by
  cases a with
  | push data =>
    obtain ⟨hframes, hbuffered⟩ := s.push_spec data
    obtain ⟨hflat, hscanned⟩ := scan_spec (s.buffered ++ data)
    refine ⟨?_, fun frame hmem => ?_, timed_push h data⟩
    · change (s.push data).2.flatten ++ (s.push data).1.buffered = _
      rw [hframes, hbuffered, hflat]
      simp [pushed]
    · change frame ∈ (s.push data).2 at hmem
      rw [hframes] at hmem
      obtain ⟨body, d, rfl, -, hd⟩ := hscanned frame hmem
      exact List.append_ne_nil_of_right_ne_nil body (List.length_pos_iff.mp hd.length_pos)
  | fire id =>
    obtain ⟨hstream, hrest⟩ := fire_spec h id
    refine ⟨?_, hrest⟩
    rw [show pushed [.fire id] = [] from rfl, List.append_nil]
    exact hstream

theorem run_spec (h : s.Timed) (actions : List Action) :
    (s.run actions).2.flatten ++ (s.run actions).1.buffered = s.buffered ++ pushed actions ∧
      (∀ frame ∈ (s.run actions).2, frame ≠ []) ∧ (s.run actions).1.Timed := by
  induction actions generalizing s with
  | nil => exact ⟨(List.append_nil _).symm, by simp [run], h⟩
  | cons a as ih =>
    obtain ⟨hstep, hnonempty, htimed⟩ := step_spec h a
    obtain ⟨hrun, hlater, hend⟩ := ih htimed
    rw [run_cons, pushed_cons]
    refine ⟨?_, fun frame hmem => ?_, hend⟩
    · dsimp only
      rw [List.flatten_append, List.append_assoc, hrun, ← List.append_assoc, hstep,
        List.append_assoc]
    · exact (List.mem_append.mp hmem).elim (hnonempty frame) (hlater frame)

theorem lossless (actions : List Action) : Lossless actions := by
  obtain ⟨hstream, hframes, htimed⟩ := run_spec (s := new) rfl actions
  exact ⟨hstream, hframes, htimed⟩

theorem open_nil : Open [] := ⟨List.not_mem_nil, List.not_mem_nil⟩

theorem pushes_eq (chunks : List (List UInt8)) : (pushes chunks).2 = (feed [] chunks).1 :=
  (run_push chunks new).1

theorem pushes_whole (xs : List UInt8) : (pushes [xs]).2 = (scan xs).1 := by
  rw [pushes_eq]
  simp [feed]

theorem feed_frames (keep : List UInt8) (chunks : List (List UInt8)) :
    ∀ frame ∈ (feed keep chunks).1, IsFrame frame := by
  induction chunks generalizing keep with
  | nil => simp [feed]
  | cons chunk chunks ih =>
    intro frame hmem
    obtain hfirst | hlater := List.mem_append.mp hmem
    · exact (scan_spec _).2 frame hfirst
    · exact ih _ frame hlater

theorem pushed_pushes (chunks : List (List UInt8)) : pushed (chunks.map .push) = chunks.flatten := by
  simp [pushed, Function.comp_def]

theorem faithful_iff (chunks : List (List UInt8)) : Faithful chunks ↔ ¬ CutsPair chunks := by
  obtain ⟨hsame, -, hmore⟩ := feed_spec open_nil chunks
  rw [List.nil_append] at hsame hmore
  constructor
  · rintro ⟨-, -, huncut⟩ hcut
    rw [pushes_eq, pushes_whole] at huncut
    exact (hmore hcut).ne (congrArg List.length huncut).symm
  · intro hnot
    refine ⟨?_, ?_, ?_⟩
    · have := (lossless (chunks.map .push)).stream
      rwa [pushed_pushes] at this
    · rw [pushes_eq]
      exact feed_frames [] chunks
    · rw [pushes_eq, pushes_whole, hsame hnot]

/-- What holds of a stream in chunks depends on whether a CR LF is cut; what holds whatever the timers
do does not. -/
theorem faithful_iff_uncut (chunks : List (List UInt8)) (actions : List Action) :
    (Faithful chunks ↔ ¬ CutsPair chunks) ∧ Lossless actions :=
  ⟨faithful_iff chunks, lossless actions⟩

/-- `a` CR, and LF in the next chunk: the frames are two where the whole stream is one. -/
theorem cut_pair_seen : (pushes [[0x61, CR], [LF]]).2 = [[0x61, CR], [LF]] ∧
    (pushes [[0x61, CR, LF]]).2 = [[0x61, CR, LF]] ∧ ¬ Faithful [[0x61, CR], [LF]] := by
  have ha : Open [0x61] := ⟨by decide, by decide⟩
  have hfirst : scan [0x61, CR] = ([[0x61, CR]], []) := by
    have := @scan_frame _ _ [] ha (.inr (.inr rfl)) (fun _ => by decide)
    rwa [scan_open open_nil] at this
  have hlone : scan [LF] = ([[LF]], []) := by
    have := @scan_frame _ _ [] open_nil (.inr (.inl rfl)) (fun h => nomatch h)
    rwa [scan_open open_nil] at this
  have hpair : scan [0x61, CR, LF] = ([[0x61, CR, LF]], []) := by
    have := @scan_frame _ _ [] ha (.inl rfl) (fun h => nomatch h)
    rwa [scan_open open_nil] at this
  refine ⟨?_, ?_, fun h => ?_⟩
  · rw [pushes_eq]
    simp only [feed, List.nil_append, hfirst, hlone]
    rfl
  · rw [pushes_whole, hpair]
  · exact (faithful_iff _).mp h ⟨[[0x61, CR]], [[LF]], rfl, rfl, rfl⟩

end StreamFramer

end TauTerm.Display
