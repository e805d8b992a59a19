import Mathlib
import TauTerm.Tasks.TransferState

/-!
# What the reducer keeps

First the file lists: where no entry is missing, nothing throws, and none goes missing
as long as an event does not skip an index. Then the table: the ids of the sessions are
the ids of the tasks.
-/

namespace TauTerm.Tasks

open Lib

variable {files current : List Slot} {entries : List BatchFileEntry} {clock : Clock}

/-! ## File lists -/

/-- No entry is missing. -/
def Dense (files : List Slot) : Prop := ∀ slot ∈ files, ∃ file, slot = .entry file

theorem dense_map (entries : List BatchFileEntry) : Dense (entries.map Slot.entry) := by
  intro slot hslot
  obtain ⟨file, -, rfl⟩ := List.mem_map.mp hslot
  exact ⟨file, rfl⟩

theorem Dense.exists_entries (h : Dense files) :
    ∃ entries : List BatchFileEntry, files = entries.map Slot.entry := by
  induction files with
  | nil => exact ⟨[], rfl⟩
  | cons slot files ih =>
    obtain ⟨file, rfl⟩ := h slot (List.mem_cons_self ..)
    obtain ⟨entries, rfl⟩ := ih fun slot hslot => h slot (List.mem_cons_of_mem _ hslot)
    exact ⟨file :: entries, rfl⟩

@[simp] theorem fileAt_entries (entries : List BatchFileEntry) (index : Nat) :
    fileAt (entries.map Slot.entry) index = entries[index]? := by
  rw [fileAt, List.getElem?_map]
  cases entries[index]? <;> rfl

@[simp] theorem spreadFiles_entries (entries : List BatchFileEntry) :
    spreadFiles (entries.map Slot.entry) = entries.map Slot.entry := by
  simp [spreadFiles]

theorem mapFiles_entries (f : BatchFileEntry → BatchFileEntry) (onUndefined : Option Slot)
    (entries : List BatchFileEntry) :
    mapFiles f onUndefined (entries.map Slot.entry) = some ((entries.map f).map Slot.entry) := by
  rw [mapFiles]
  induction entries with
  | nil => rfl
  | cons file entries ih => rw [List.map_cons, List.mapM_cons, ih]; rfl

theorem mergeInitialFiles_dense (h : Dense current) (initialFiles : Option (List BatchFileEntry)) :
    Dense (mergeInitialFiles current initialFiles) := by
  obtain ⟨entries, rfl⟩ := h.exists_entries
  unfold mergeInitialFiles
  split
  · exact h
  · exact h
  · rename_i initial _
    intro slot hslot
    obtain ⟨index, hindex, rfl⟩ := List.mem_map.mp hslot
    rw [List.mem_range, List.length_map, lt_max_iff] at hindex
    rw [fileAt_entries]
    cases hcurrent : entries[index]? with
    | some file => exact ⟨file, rfl⟩
    | none =>
      rw [List.getElem?_eq_none_iff] at hcurrent
      have hlt := hindex.resolve_left (by omega)
      rw [List.getElem?_eq_getElem hlt]
      exact ⟨_, rfl⟩

/-- No index is skipped; one past the largest array index adds no element. -/
def InOrder (files : List Slot) (index : Nat) : Prop := index ≤ files.length ∨ 2 ^ 32 - 1 ≤ index

instance (files : List Slot) (index : Nat) : Decidable (InOrder files index) :=
  inferInstanceAs (Decidable (_ ∨ _))

theorem setFile_dense_iff (h : Dense files) {index : Nat} {file : BatchFileEntry} :
    Dense (setFile files index file) ↔ InOrder files index := by
  unfold setFile InOrder
  split_ifs with hin hgrows
  · refine iff_of_true (fun slot hslot => ?_) (.inl hin.le)
    rcases List.mem_or_eq_of_mem_set hslot with hslot | rfl
    · exact h slot hslot
    · exact ⟨file, rfl⟩
  · constructor
    · intro hdense
      by_contra hskips
      have hhole : Slot.hole ∈ files ++ List.replicate (index - files.length) .hole ++
          [.entry file] := by
        rw [List.mem_append, List.mem_append, List.mem_replicate]
        exact .inl (.inr ⟨by omega, rfl⟩)
      obtain ⟨_, hentry⟩ := hdense _ hhole
      contradiction
    · intro hindex
      have hnone : index - files.length = 0 := by omega
      rw [hnone, List.replicate_zero, List.append_nil]
      intro slot hslot
      rcases List.mem_append.mp hslot with hslot | hslot
      · exact h slot hslot
      · exact ⟨file, List.mem_singleton.mp hslot⟩
  · exact iff_of_true h (.inr (by omega))

theorem findFile_entries (name : String) (entries : List BatchFileEntry) :
    ∃ found, findFile name (entries.map Slot.entry) = some found := by
  induction entries with
  | nil => exact ⟨none, rfl⟩
  | cons file entries ih =>
    obtain ⟨found, hfound⟩ := ih
    rw [List.map_cons, findFile, hfound]
    split_ifs
    · exact ⟨some 0, rfl⟩
    · exact ⟨found.map (· + 1), rfl⟩

theorem projectResult_dense (h : Dense files) (result : BatchFileResult) :
    ∃ file rest, projectResult files result = some (.entry file, rest) ∧ Dense rest := by
  obtain ⟨entries, rfl⟩ := h.exists_entries
  obtain ⟨found, hfound⟩ := findFile_entries result.fileName entries
  rw [projectResult, hfound]
  refine ⟨_, _, rfl, ?_⟩
  cases found with
  | none => exact h
  | some index => exact fun slot hslot => h slot (List.mem_of_mem_eraseIdx hslot)

theorem projectResults_dense (h : Dense files) (results : List BatchFileResult) :
    ∃ slots, projectResults files results = some slots ∧ Dense slots := by
  induction results generalizing files with
  | nil => exact ⟨[], rfl, fun slot hslot => nomatch hslot⟩
  | cons result results ih =>
    obtain ⟨file, rest, hfirst, hrest⟩ := projectResult_dense h result
    obtain ⟨slots, hslots, hdense⟩ := ih hrest
    have hall : projectResults files (result :: results) = some (.entry file :: slots) := by
      rw [projectResults, hfirst, Option.bind_eq_bind, Option.bind_some]
      exact (congrArg (Option.bind · fun slots => some (.entry file :: slots)) hslots).trans rfl
    refine ⟨.entry file :: slots, hall, fun slot hslot => ?_⟩
    rcases List.mem_cons.mp hslot with rfl | hslot
    · exact ⟨file, rfl⟩
    · exact hdense slot hslot

theorem resultProjection_dense (h : Dense files) (payload : FinishedPayload) :
    ∃ results, resultProjection payload files = some results ∧
      ∀ slots, results = some slots → Dense slots := by
  unfold resultProjection
  cases payload.results with
  | none => exact ⟨none, rfl, fun slots hslots => nomatch hslots⟩
  | some results =>
    obtain ⟨entries, rfl⟩ := h.exists_entries
    obtain ⟨slots, hslots, hdense⟩ := projectResults_dense h results
    refine ⟨some slots, ?_, fun slots' heq => ?_⟩
    · change (projectResults (spreadFiles _) results).map some = _
      rw [spreadFiles_entries, hslots]
      rfl
    · obtain rfl := Option.some.inj heq
      exact hdense

theorem finishFiles_dense (h : Dense files) (completed : Bool) (error : Option String) :
    ∃ slots, finishFiles completed error files = some slots ∧ Dense slots := by
  obtain ⟨entries, rfl⟩ := h.exists_entries
  unfold finishFiles
  split_ifs
  · exact ⟨_, mapFiles_entries _ _ _, dense_map _⟩
  · exact ⟨_, mapFiles_entries _ _ _, dense_map _⟩

theorem historyFileName_dense (h : Dense files) : ∃ name, historyFileName files = some name := by
  obtain ⟨entries, rfl⟩ := h.exists_entries
  unfold historyFileName
  split_ifs with hone
  · rw [List.length_map] at hone
    rw [fileAt_entries, List.getElem?_eq_getElem (by omega)]
    exact ⟨_, rfl⟩
  · exact ⟨_, rfl⟩

/-- With no entry missing a task finishes: it is over, and its item carries its id. -/
theorem finishTask_spec {task : ManagedTransferTask} (h : Dense task.files)
    (payload : FinishedPayload) :
    ∃ finished item, finishTask clock task payload = some (finished, item) ∧
      Dense finished.files ∧ finished.transferId = task.transferId ∧
      finished.sessionId = task.sessionId ∧ isManagedTransferTerminalPhase finished.phase ∧
      item.id = task.transferId := by
  unfold finishTask
  set phase : Phase :=
    if payload.success then .completed else if payload.cancelled then .cancelled else .failed
    with hphase
  set error := if payload.success then none else payload.error.filter (· ≠ "") <|> task.error
  obtain ⟨results, hresults, hexact⟩ := resultProjection_dense h payload
  obtain ⟨slots, hslots, hdense⟩ : ∃ slots,
      (results <|> finishFiles (decide (phase = .completed)) error task.files) = some slots ∧
        Dense slots := by
    cases results with
    | some slots => exact ⟨slots, rfl, hexact slots rfl⟩
    | none => exact finishFiles_dense h _ _
  obtain ⟨name, hname⟩ := historyFileName_dense hdense
  have hterminal : isManagedTransferTerminalPhase phase := by
    rw [hphase]
    split_ifs <;> rfl
  simp only [hresults, hslots, hname, bind, Option.bind_some]
  exact ⟨_, _, rfl, hdense, rfl, rfl, hterminal, rfl⟩

theorem progressTask_dense_iff {task : ManagedTransferTask} (h : Dense task.files)
    (payload : ProgressPayload) :
    Dense (progressTask clock task payload).files ↔
      (payload.kind ≠ .batchComplete → payload.fileName ≠ "" →
        InOrder task.files payload.fileIndex) := by
  change Dense (updateFileProjection task payload) ↔ _
  unfold updateFileProjection
  by_cases hnone : payload.kind = .batchComplete ∨ payload.fileName = ""
  · rw [if_pos hnone]
    refine iff_of_true h fun hkind hname => ?_
    rcases hnone with hkind' | hname'
    · exact absurd hkind' hkind
    · exact absurd hname' hname
  · rw [if_neg hnone]
    dsimp only
    rw [not_or] at hnone
    obtain ⟨entries, hentries⟩ := h.exists_entries
    have hspread : spreadFiles task.files = task.files := by rw [hentries, spreadFiles_entries]
    rw [hspread, setFile_dense_iff h, Nat.zero_max]
    exact ⟨fun hin _ _ => hin, fun hin => hin hnone.1 hnone.2⟩

/-! ## The table -/

variable {state : TransferState} {tasks tasks' : JsObject ManagedTransferTask}
  {lists lists' : JsObject (List String)} {task task' : ManagedTransferTask} {id sessionId : String}
  {ids : List String}

structure TableInv (tasks : JsObject ManagedTransferTask) (lists : JsObject (List String)) :
    Prop where
  named : ∀ id task, tasks.lookup id = some task → task.transferId = id
  listed : ∀ id task, tasks.lookup id = some task →
    ∃ ids, lists.lookup task.sessionId = some ids ∧ id ∈ ids
  owned : ∀ sessionId ids, lists.lookup sessionId = some ids →
    ids.Nodup ∧ ∀ id ∈ ids, ∃ task, tasks.lookup id = some task ∧ task.sessionId = sessionId
  dense : ∀ id task, tasks.lookup id = some task → Dense task.files

theorem TableInv.congr (h : TableInv tasks lists) (htasks : ∀ k, tasks'.lookup k = tasks.lookup k)
    (hlists : ∀ s, lists'.lookup s = lists.lookup s) : TableInv tasks' lists' where
  named k t ht := h.named k t ((htasks k).symm.trans ht)
  listed k t ht := by
    rw [hlists]
    exact h.listed k t ((htasks k).symm.trans ht)
  owned s ids hids := by
    simp only [htasks]
    exact h.owned s ids ((hlists s).symm.trans hids)
  dense k t ht := h.dense k t ((htasks k).symm.trans ht)

/-- The task of an id is replaced by one of the same session. -/
theorem TableInv.put (h : TableInv tasks lists) (htask : tasks.lookup id = some task)
    (hid : task'.transferId = task.transferId) (hsession : task'.sessionId = task.sessionId)
    (hdense : Dense task'.files) : TableInv (tasks.spread.define id task') lists := by
  have hname := h.named id task htask
  refine ⟨fun k t ht => ?_, fun k t ht => ?_, fun s ids hids => ?_, fun k t ht => ?_⟩
  · rw [JsObject.lookup_define] at ht
    split_ifs at ht with hk
    · obtain rfl := Option.some.inj ht
      rw [hid, hname, hk]
    · exact h.named k t ht
  · rw [JsObject.lookup_define] at ht
    split_ifs at ht with hk
    · obtain rfl := Option.some.inj ht
      rw [hsession, hk]
      exact h.listed id task htask
    · exact h.listed k t ht
  · obtain ⟨hnodup, howned⟩ := h.owned s ids hids
    refine ⟨hnodup, fun k hk => ?_⟩
    obtain ⟨t, ht, hs⟩ := howned k hk
    rw [JsObject.lookup_define, JsObject.lookup_spread]
    split_ifs with heq
    · subst heq
      obtain rfl := Option.some.inj (htask.symm.trans ht)
      exact ⟨task', rfl, hsession.trans hs⟩
    · exact ⟨t, ht, hs⟩
  · rw [JsObject.lookup_define] at ht
    split_ifs at ht
    · obtain rfl := Option.some.inj ht
      exact hdense
    · exact h.dense k t ht

/-- All errors are cleared. -/
theorem TableInv.mapValues (h : TableInv tasks lists)
    {f : ManagedTransferTask → ManagedTransferTask} (hid : ∀ t, (f t).transferId = t.transferId)
    (hsession : ∀ t, (f t).sessionId = t.sessionId) (hfiles : ∀ t, (f t).files = t.files) :
    TableInv (tasks.mapValues f) lists := by
  have hlookup : ∀ k t', (tasks.mapValues f).lookup k = some t' ↔
      ∃ t, tasks.lookup k = some t ∧ f t = t' := fun k t' => by
    rw [JsObject.lookup_mapValues, Option.map_eq_some_iff]
  refine ⟨fun k t' ht' => ?_, fun k t' ht' => ?_, fun s ids hids => ?_, fun k t' ht' => ?_⟩
  · obtain ⟨t, ht, rfl⟩ := (hlookup k t').mp ht'
    exact (hid t).trans (h.named k t ht)
  · obtain ⟨t, ht, rfl⟩ := (hlookup k t').mp ht'
    rw [hsession]
    exact h.listed k t ht
  · obtain ⟨hnodup, howned⟩ := h.owned s ids hids
    refine ⟨hnodup, fun k hk => ?_⟩
    obtain ⟨t, ht, hs⟩ := howned k hk
    exact ⟨f t, (hlookup k _).mpr ⟨t, ht, rfl⟩, (hsession t).trans hs⟩
  · obtain ⟨t, ht, rfl⟩ := (hlookup k t').mp ht'
    rw [hfiles]
    exact h.dense k t ht

theorem lookup_deleteTasks {retained : List String} (k : String) :
    (deleteTasks tasks.spread ids retained).lookup k =
      if k ∈ ids ∧ k ∉ retained then none else tasks.lookup k := by
  rw [deleteTasks, JsObject.lookup_foldl_delete]
  refine if_congr ?_ rfl rfl
  simp

/-- The tasks of a session that are not retained are deleted, and the session lists the others. -/
theorem TableInv.retain (h : TableInv tasks lists) (hids : (lists.lookup sessionId).getD [] = ids)
    {retained : List String} (hretained : retained.Sublist ids)
    (hlists : ∀ s, lists'.lookup s = if s = sessionId then
      (if retained = [] then none else some retained) else lists.lookup s) :
    TableInv (deleteTasks tasks.spread ids retained) lists' := by
  have hlist : ∀ k ∈ ids, lists.lookup sessionId = some ids := fun k hk => by
    cases hlookup : lists.lookup sessionId with
    | none =>
      rw [hlookup, Option.getD_none] at hids
      subst hids
      exact nomatch hk
    | some found =>
      rw [hlookup, Option.getD_some] at hids
      rw [hids]
  have hkept : ∀ k t, (deleteTasks tasks.spread ids retained).lookup k = some t →
      tasks.lookup k = some t ∧ (k ∈ ids → k ∈ retained) := fun k t ht => by
    rw [lookup_deleteTasks] at ht
    split_ifs at ht with hgone
    refine ⟨ht, fun hk => ?_⟩
    by_contra hnot
    exact hgone ⟨hk, hnot⟩
  refine ⟨fun k t ht => h.named k t (hkept k t ht).1, fun k t ht => ?_, fun s ids' hids' => ?_,
    fun k t ht => h.dense k t (hkept k t ht).1⟩
  · obtain ⟨ht, hretain⟩ := hkept k t ht
    obtain ⟨ids', hids', hk⟩ := h.listed k t ht
    rw [hlists]
    split_ifs with hs hnone
    · rw [hs] at hids'
      rw [hids', Option.getD_some] at hids
      rw [hnone] at hretain
      exact nomatch hretain (hids ▸ hk)
    · rw [hs] at hids'
      rw [hids', Option.getD_some] at hids
      exact ⟨retained, rfl, hretain (hids ▸ hk)⟩
    · exact ⟨ids', hids', hk⟩
  · rw [hlists] at hids'
    split_ifs at hids' with hs hnone
    · obtain rfl := Option.some.inj hids'
      obtain ⟨k₀, hk₀⟩ := List.exists_mem_of_ne_nil _ hnone
      obtain ⟨hnodup, howned⟩ := h.owned sessionId ids (hlist k₀ (hretained.subset hk₀))
      refine ⟨hnodup.sublist hretained, fun k hk => ?_⟩
      obtain ⟨t, ht, hts⟩ := howned k (hretained.subset hk)
      refine ⟨t, ?_, hts.trans hs.symm⟩
      rw [lookup_deleteTasks, if_neg fun hgone => hgone.2 hk]
      exact ht
    · obtain ⟨hnodup, howned⟩ := h.owned s ids' hids'
      refine ⟨hnodup, fun k hk => ?_⟩
      obtain ⟨t, ht, hts⟩ := howned k hk
      refine ⟨t, ?_, hts⟩
      rw [lookup_deleteTasks, if_neg ?_]
      · exact ht
      · rintro ⟨hmem, -⟩
        obtain ⟨t', ht', hts'⟩ := (h.owned sessionId ids (hlist k hmem)).2 k hmem
        obtain rfl := Option.some.inj (ht.symm.trans ht')
        exact hs (hts.symm.trans hts')

/-- A new task, listed last. -/
theorem TableInv.add (h : TableInv tasks lists) (hid : task.transferId = id)
    (hnew : tasks.lookup id = none) (hdense : Dense task.files)
    (hlists : ∀ s, lists'.lookup s = if s = task.sessionId then
      some ((lists.lookup task.sessionId).getD [] ++ [id]) else lists.lookup s) :
    TableInv (tasks.define id task) lists' := by
  refine ⟨fun k t ht => ?_, fun k t ht => ?_, fun s ids hids => ?_, fun k t ht => ?_⟩
  · rw [JsObject.lookup_define] at ht
    split_ifs at ht with hk
    · obtain rfl := Option.some.inj ht
      rw [hid, hk]
    · exact h.named k t ht
  · rw [JsObject.lookup_define] at ht
    rw [hlists]
    split_ifs at ht with hk
    · obtain rfl := Option.some.inj ht
      rw [if_pos rfl, hk]
      exact ⟨_, rfl, List.mem_append_right _ (List.mem_singleton_self _)⟩
    · obtain ⟨ids, hids, hmem⟩ := h.listed k t ht
      split_ifs with hs
      · rw [hs] at hids
        rw [hids]
        exact ⟨_, rfl, List.mem_append_left _ hmem⟩
      · exact ⟨ids, hids, hmem⟩
  · have hlookup : ∀ k t, tasks.lookup k = some t → (tasks.define id task).lookup k = some t :=
      fun k t ht => by
        rw [JsObject.lookup_define, if_neg]
        · exact ht
        · rintro rfl
          rw [hnew] at ht
          contradiction
    rw [hlists] at hids
    split_ifs at hids with hs
    · obtain rfl := Option.some.inj hids
      have hold : ((lists.lookup task.sessionId).getD []).Nodup ∧
          ∀ k ∈ (lists.lookup task.sessionId).getD [],
            ∃ t, tasks.lookup k = some t ∧ t.sessionId = task.sessionId := by
        cases hlist : lists.lookup task.sessionId with
        | none => exact ⟨List.nodup_nil, fun k hk => nomatch hk⟩
        | some old => exact h.owned _ old hlist
      constructor
      · refine hold.1.append (List.nodup_singleton _) (List.disjoint_singleton.mpr fun hmem => ?_)
        obtain ⟨t, ht, -⟩ := hold.2 id hmem
        rw [hnew] at ht
        contradiction
      · intro k hk
        rcases List.mem_append.mp hk with hk | hk
        · obtain ⟨t, ht, hts⟩ := hold.2 k hk
          exact ⟨t, hlookup k t ht, hts.trans hs.symm⟩
        · obtain rfl := List.mem_singleton.mp hk
          exact ⟨task, by simp, hs.symm⟩
    · obtain ⟨hnodup, howned⟩ := h.owned s ids hids
      refine ⟨hnodup, fun k hk => ?_⟩
      obtain ⟨t, ht, hts⟩ := howned k hk
      exact ⟨t, hlookup k t ht, hts⟩
  · rw [JsObject.lookup_define] at ht
    split_ifs at ht
    · obtain rfl := Option.some.inj ht
      exact hdense
    · exact h.dense k t ht

end TauTerm.Tasks
