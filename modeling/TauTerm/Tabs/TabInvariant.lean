import Mathlib
import TauTerm.Lib.Run
import TauTerm.Tabs.SessionState

/-!
# Tabs under lifecycle events

What the reducer keeps: ids stay distinct, the active tab exists, a connected child has
a connected parent of its runtime, and a tab's runtime only goes up. The parents are
roots, as they are in the backend, and no id is the empty string.
-/

namespace TauTerm.Tabs

open Lib

variable {state : SessionState} {tab t t' : TabInfo} {id : TabId} {runtimeId : RuntimeId}
  {info : Option DisconnectInfo}

/-! ## The invariant -/

/-- A child under its parent. -/
structure Under (c parent : TabInfo) : Prop where
  root : parent.parentId = none
  runtime : ∃ rc rp, c.runtimeId = some rc ∧ parent.runtimeId = some rp ∧ rc ≤ rp
  connected : c.state = .connected → parent.state = .connected ∧ parent.runtimeId = c.runtimeId

structure TabsInv (state : SessionState) : Prop where
  ids_nodup : (state.tabs.map TabInfo.id).Nodup
  ids_ne : ∀ t ∈ state.tabs, t.id ≠ "" ∧ t.parentId ≠ some ""
  active_mem : ∀ id, state.activeTabId = some id → ∃ t ∈ state.tabs, t.id = id
  children : ∀ c ∈ state.tabs, ∀ p, c.parentId = some p →
    ∃ parent ∈ state.tabs, parent.id = p ∧ Under c parent

/-- `null`, or a runtime that is not larger. -/
def RuntimeLe (first second : Option RuntimeId) : Prop :=
  ∀ r, first = some r → ∃ r', second = some r' ∧ r ≤ r'

theorem RuntimeLe.of_eq {first second : Option RuntimeId} (h : first = second) :
    RuntimeLe first second := fun r hr => ⟨r, h ▸ hr, le_rfl⟩

theorem RuntimeLe.trans {first second third : Option RuntimeId} (h : RuntimeLe first second)
    (h' : RuntimeLe second third) : RuntimeLe first third := by
  intro r hr
  obtain ⟨r', hr', hle⟩ := h r hr
  obtain ⟨r'', hr'', hle'⟩ := h' r' hr'
  exact ⟨r'', hr'', hle.trans hle'⟩

/-- What one action does to the tabs that are there before and after it. -/
def RuntimesKept (state next : SessionState) : Prop :=
  ∀ t ∈ state.tabs, ∀ t' ∈ next.tabs, t.id = t'.id → RuntimeLe t.runtimeId t'.runtimeId

theorem TabsInv.eq_of_id (h : TabsInv state) (ht : t ∈ state.tabs) (ht' : t' ∈ state.tabs)
    (hid : t.id = t'.id) : t = t' :=
  List.inj_on_of_nodup_map h.ids_nodup ht ht' hid

theorem find_some (h : state.find id = some t) : t ∈ state.tabs ∧ t.id = id :=
  ⟨List.mem_of_find?_eq_some h, by simpa using List.find?_some h⟩

theorem find_none (h : state.find id = none) (ht : t ∈ state.tabs) : t.id ≠ id := by
  simpa using List.find?_eq_none.mp h t ht

theorem TabsInv.find_eq (h : TabsInv state) (ht : t ∈ state.tabs) : state.find t.id = some t := by
  cases hfind : state.find t.id with
  | none => exact absurd rfl (find_none hfind ht)
  | some t' =>
    obtain ⟨hmem, hid⟩ := find_some hfind
    rw [h.eq_of_id hmem ht hid]

/-- A parent is a root, so it is nobody's child. -/
theorem TabsInv.parent_root (h : TabsInv state) {c parent : TabInfo} (hc : c ∈ state.tabs)
    (hparent : parent ∈ state.tabs) (hid : c.parentId = some parent.id) :
    parent.parentId = none := by
  obtain ⟨parent', hmem, hid', hunder⟩ := h.children c hc _ hid
  rw [← h.eq_of_id hmem hparent hid']
  exact hunder.root

theorem TabsInv.isRoot_iff (h : TabsInv state) (ht : t ∈ state.tabs) :
    t.isRoot ↔ t.parentId = none := by
  have hne := (h.ids_ne t ht).2
  cases hp : t.parentId with
  | none => simp [TabInfo.isRoot, hp]
  | some p =>
    have : p ≠ "" := fun hempty => hne (by rw [hp, hempty])
    simp [TabInfo.isRoot, hp, this]

/-! ## Updates in place -/

/-- What a rename, new statistics or a new configuration leave alone. -/
structure SameLinks (t t' : TabInfo) : Prop where
  id : t'.id = t.id
  parentId : t'.parentId = t.parentId
  runtimeId : t'.runtimeId = t.runtimeId
  state : t'.state = t.state

theorem update_kept (h : TabsInv state) {f : TabInfo → TabInfo} (hf : ∀ t, SameLinks t (f t)) :
    TabsInv (state.update id f) ∧ RuntimesKept state (state.update id f) := by
  have hsame : ∀ t : TabInfo, SameLinks t (if t.id = id then f t else t) := fun t => by
    split_ifs
    · exact hf t
    · exact ⟨rfl, rfl, rfl, rfl⟩
  have hids : (state.update id f).tabs.map TabInfo.id = state.tabs.map TabInfo.id := by
    rw [SessionState.update, List.map_map]
    exact List.map_congr_left fun t _ => (hsame t).id
  have hmem : ∀ t' ∈ (state.update id f).tabs, ∃ t ∈ state.tabs, SameLinks t t' := fun t' ht' => by
    obtain ⟨t, ht, rfl⟩ := List.mem_map.mp ht'
    exact ⟨t, ht, hsame t⟩
  have himage : ∀ t ∈ state.tabs, ∃ t' ∈ (state.update id f).tabs, SameLinks t t' := fun t ht =>
    ⟨_, List.mem_map_of_mem ht, hsame t⟩
  refine ⟨⟨hids ▸ h.ids_nodup, fun t' ht' => ?_, fun active hactive => ?_, fun c' hc' p hp => ?_⟩,
    fun t ht t' ht' hid => ?_⟩
  · obtain ⟨t, ht, hlink⟩ := hmem t' ht'
    rw [hlink.id, hlink.parentId]
    exact h.ids_ne t ht
  · obtain ⟨t, ht, rfl⟩ := h.active_mem active hactive
    obtain ⟨t', ht', hlink⟩ := himage t ht
    exact ⟨t', ht', hlink.id⟩
  · obtain ⟨c, hc, hlink⟩ := hmem c' hc'
    obtain ⟨parent, hparent, hpid, hunder⟩ := h.children c hc p (hlink.parentId ▸ hp)
    obtain ⟨parent', hparent', hplink⟩ := himage parent hparent
    refine ⟨parent', hparent', hplink.id.trans hpid, ?_⟩
    exact {
      root := hplink.parentId.trans hunder.root
      runtime := by rw [hlink.runtimeId, hplink.runtimeId]; exact hunder.runtime
      connected := by
        rw [hlink.state, hplink.state, hlink.runtimeId, hplink.runtimeId]
        exact hunder.connected }
  · obtain ⟨t₀, ht₀, hlink⟩ := hmem t' ht'
    obtain rfl := h.eq_of_id ht ht₀ (hid.trans hlink.id)
    exact .of_eq hlink.runtimeId.symm

/-! ## Removals -/

/-- Some tabs are taken away: no parent of a tab that stays, and the active tab is among those
that stay. -/
theorem filter_kept (h : TabsInv state) {keep : TabInfo → Bool} {active : Option TabId}
    (hparents : ∀ c ∈ state.tabs, ∀ parent ∈ state.tabs, c.parentId = some parent.id →
      keep c = true → keep parent = true)
    (hactive : ∀ id, active = some id → ∃ t ∈ state.tabs, keep t = true ∧ t.id = id) :
    TabsInv { state with tabs := state.tabs.filter keep, activeTabId := active } ∧
      RuntimesKept state { state with tabs := state.tabs.filter keep, activeTabId := active } := by
  refine ⟨⟨h.ids_nodup.sublist (List.filter_sublist.map _),
    fun t ht => h.ids_ne t (List.mem_of_mem_filter ht), fun id hid => ?_, fun c hc p hp => ?_⟩,
    fun t ht t' ht' hid => ?_⟩
  · obtain ⟨t, ht, hkeep, heq⟩ := hactive id hid
    exact ⟨t, List.mem_filter.mpr ⟨ht, hkeep⟩, heq⟩
  · obtain ⟨hc, hkeep⟩ := List.mem_filter.mp hc
    obtain ⟨parent, hparent, rfl, hunder⟩ := h.children c hc p hp
    exact ⟨parent, List.mem_filter.mpr ⟨hparent, hparents c hc parent hparent hp hkeep⟩, rfl,
      hunder⟩
  · obtain rfl := h.eq_of_id ht (List.mem_of_mem_filter ht') hid
    exact .of_eq rfl

theorem firstRoot_mem {tabs : List TabInfo} (h : firstRoot tabs = some id) :
    ∃ t ∈ tabs, t.id = id := by
  obtain ⟨t, ht, rfl⟩ := Option.map_eq_some_iff.mp h
  exact ⟨t, List.mem_of_find?_eq_some ht, rfl⟩

theorem mem_childIds {childId parentId : TabId} :
    childId ∈ (state.tabs.filter fun t => t.parentId = some parentId).map TabInfo.id ↔
      ∃ t ∈ state.tabs, t.parentId = some parentId ∧ t.id = childId := by
  rw [List.mem_map]
  constructor
  · rintro ⟨t, ht, rfl⟩
    obtain ⟨ht, hp⟩ := List.mem_filter.mp ht
    exact ⟨t, ht, by simpa using hp, rfl⟩
  · rintro ⟨t, ht, hp, rfl⟩
    exact ⟨t, List.mem_filter.mpr ⟨ht, by simpa using hp⟩, rfl⟩

theorem removeTab_kept (h : TabsInv state) :
    TabsInv (removeTab state id) ∧ RuntimesKept state (removeTab state id) := by
  refine filter_kept h (fun c hc parent hparent hp hkeep => ?_) fun active hactive => ?_
  · -- the parent would take `c` along, and it is no child itself
    simp only [List.contains_eq_mem, List.mem_cons, mem_childIds, decide_eq_true_eq, not_or,
      not_exists, not_and] at hkeep ⊢
    refine ⟨fun hid => hkeep.2 c hc (hid ▸ hp) rfl, fun t ht htp hid => ?_⟩
    rw [h.eq_of_id ht hparent hid, h.parent_root hc hparent hp] at htp
    contradiction
  · cases hstate : state.activeTabId with
    | none => simp [hstate] at hactive
    | some current =>
      obtain ⟨t, ht, rfl⟩ := h.active_mem current hstate
      simp only [hstate, ne_eq, (h.ids_ne t ht).1, not_false_eq_true, true_and] at hactive
      split_ifs at hactive with hremoved
      · obtain ⟨t', ht', rfl⟩ := firstRoot_mem hactive
        obtain ⟨hmem, hkeep⟩ := List.mem_filter.mp ht'
        exact ⟨t', hmem, hkeep, rfl⟩
      · obtain rfl := Option.some.inj hactive
        exact ⟨t, ht, by simpa using hremoved, rfl⟩

theorem removeChild_kept (h : TabsInv state) {parentId : TabId}
    (hreal : ∀ t ∈ state.tabs, t.id = id → t.parentId = some parentId) :
    TabsInv (removeChild state id parentId) ∧
      RuntimesKept state (removeChild state id parentId) := by
  refine filter_kept h (fun c hc parent hparent hp _ => ?_) fun active hactive => ?_
  · refine decide_eq_true fun hid => ?_
    have := h.parent_root hc hparent hp
    rw [hreal parent hparent hid] at this
    contradiction
  · split_ifs at hactive with hcurrent
    · obtain rfl := Option.some.inj hactive
      cases hsibling : ((state.tabs.filter fun t => t.id ≠ id).filter
          fun t => t.parentId = some parentId).head? with
      | some t =>
        obtain ⟨ht, -⟩ := List.mem_filter.mp (List.mem_of_head? hsibling)
        obtain ⟨hmem, hne⟩ := List.mem_filter.mp ht
        exact ⟨t, hmem, hne, rfl⟩
      | none =>
        obtain ⟨t, ht, rfl⟩ := h.active_mem id hcurrent
        obtain ⟨parent, hparent, rfl, hunder⟩ := h.children t ht parentId (hreal t ht rfl)
        refine ⟨parent, hparent, decide_eq_true fun hid => ?_, rfl⟩
        rw [h.eq_of_id hparent ht hid] at hunder
        have := hunder.root
        rw [hreal t ht rfl] at this
        contradiction
    · obtain ⟨t, ht, rfl⟩ := h.active_mem active hactive
      exact ⟨t, ht, decide_eq_true fun hid => hcurrent (by rw [hactive, hid]), rfl⟩

theorem removeAllChildren_kept (h : TabsInv state) {parentId : TabId} :
    TabsInv (removeAllChildren state parentId) ∧
      RuntimesKept state (removeAllChildren state parentId) := by
  refine filter_kept h (fun c hc parent hparent hp _ => ?_) fun active hactive => ?_
  · simp [h.parent_root hc hparent hp]
  · cases hstate : state.activeTabId with
    | none => simp [hstate] at hactive
    | some current =>
      obtain ⟨t, ht, rfl⟩ := h.active_mem current hstate
      simp only [hstate, ne_eq, (h.ids_ne t ht).1, not_false_eq_true, true_and,
        List.contains_eq_mem, decide_eq_true_eq, mem_childIds] at hactive
      split_ifs at hactive with hchild
      · obtain rfl := Option.some.inj hactive
        obtain ⟨c, hc, hp, -⟩ := hchild
        obtain ⟨parent, hparent, hpid, hunder⟩ := h.children c hc _ hp
        exact ⟨parent, hparent, by simp [hunder.root], hpid⟩
      · obtain rfl := Option.some.inj hactive
        exact ⟨t, ht, decide_eq_true fun hp => hchild ⟨t, ht, hp, rfl⟩, rfl⟩

/-! ## A connection and its end -/

theorem sessionDisconnected_kept (h : TabsInv state) :
    TabsInv (sessionDisconnected state id runtimeId info) ∧
      RuntimesKept state (sessionDisconnected state id runtimeId info) := by
  have hsame : TabsInv state ∧ RuntimesKept state state :=
    ⟨h, fun t ht t' ht' hid => .of_eq (by rw [h.eq_of_id ht ht' hid])⟩
  unfold sessionDisconnected
  split
  · exact hsame
  · rename_i tab hfind
    obtain ⟨htab, hid⟩ := find_some hfind
    split_ifs with hruntime
    · exact hsame
    · set retain := (info.map DisconnectInfo.retainTerminal).getD false
      set kept := state.tabs.filter fun current => retain ∨ current.parentId ≠ some id with hkept
      have hlinks : ∀ t : TabInfo, (disconnectTab id info t).id = t.id ∧
          (disconnectTab id info t).parentId = t.parentId ∧
          (disconnectTab id info t).runtimeId = t.runtimeId := fun t => by
        unfold disconnectTab
        split_ifs <;> exact ⟨rfl, rfl, rfl⟩
      have hids : (kept.map (disconnectTab id info)).map TabInfo.id = kept.map TabInfo.id := by
        rw [List.map_map]
        exact List.map_congr_left fun t _ => (hlinks t).1
      have hroots : ∀ t ∈ state.tabs, t.parentId = none → t ∈ kept := fun t ht hroot =>
        List.mem_filter.mpr ⟨ht, by simp [hroot]⟩
      have himage : ∀ t ∈ kept, ∃ t' ∈ kept.map (disconnectTab id info), t'.id = t.id :=
        fun t ht => ⟨_, List.mem_map_of_mem ht, (hlinks t).1⟩
      refine ⟨⟨?_, fun t' ht' => ?_, fun active hactive => ?_, fun c' hc' p hp => ?_⟩,
        fun t ht t' ht' heq => ?_⟩
      · exact hids ▸ h.ids_nodup.sublist (List.filter_sublist.map _)
      · obtain ⟨t, ht, rfl⟩ := List.mem_map.mp ht'
        rw [(hlinks t).1, (hlinks t).2.1]
        exact h.ids_ne t (List.mem_of_mem_filter ht)
      · dsimp only at hactive
        split_ifs at hactive with hremoved
        · -- the session itself is kept, since it is not its own child
          obtain rfl := Option.some.inj hactive
          have hmem : tab ∈ kept := by
            refine List.mem_filter.mpr ⟨htab, decide_eq_true (.inr fun hp => ?_)⟩
            have hroot := h.parent_root htab htab (hid ▸ hp)
            rw [hp] at hroot
            contradiction
          obtain ⟨t', ht', heq⟩ := himage tab hmem
          exact ⟨t', ht', heq.trans hid⟩
        · obtain ⟨t, ht, rfl⟩ := h.active_mem active hactive
          by_cases hmem : t ∈ kept
          · exact himage t hmem
          · have hchild : t.parentId = some id := by
              by_contra hne
              exact hmem (List.mem_filter.mpr ⟨ht, decide_eq_true (.inr hne)⟩)
            rw [hactive, Option.any_some, Bool.and_eq_true, not_and] at hremoved
            have hany := hremoved (List.any_eq_true.mpr ⟨t, ht, by simp [hchild]⟩)
            rw [Bool.not_eq_true', Bool.not_eq_false] at hany
            obtain ⟨t', ht', heq⟩ := List.any_eq_true.mp hany
            exact ⟨t', ht', of_decide_eq_true heq⟩
      · obtain ⟨c, hc, rfl⟩ := List.mem_map.mp hc'
        rw [(hlinks c).2.1] at hp
        obtain ⟨parent, hparent, hpid, hunder⟩ := h.children c (List.mem_of_mem_filter hc) p hp
        refine ⟨_, List.mem_map_of_mem (hroots parent hparent hunder.root),
          (hlinks parent).1.trans hpid, ?_, ?_, fun hconnected => ?_⟩
        · rw [(hlinks parent).2.1, hunder.root]
        · rw [(hlinks c).2.2, (hlinks parent).2.2]
          exact hunder.runtime
        · have hc₀ : disconnectTab id info c = c := by
            refine if_neg fun hcond => ?_
            rw [disconnectTab, if_pos hcond] at hconnected
            contradiction
          rw [hc₀] at hconnected ⊢
          have hparent₀ : disconnectTab id info parent = parent := by
            refine if_neg ?_
            rw [hunder.root, not_or]
            refine ⟨fun heq => ?_, fun hcond => nomatch hcond.1⟩
            rw [disconnectTab, if_pos (.inr ⟨by rw [hp, ← heq, hpid], by simp [hconnected]⟩)] at hc₀
            rw [← hc₀] at hconnected
            contradiction
          rw [hparent₀]
          exact hunder.connected hconnected
      · obtain ⟨t₀, ht₀, rfl⟩ := List.mem_map.mp ht'
        rw [(hlinks t₀).1] at heq
        obtain rfl := h.eq_of_id ht (List.mem_of_mem_filter ht₀) heq
        exact .of_eq (hlinks t).2.2.symm

/-- What a connection does, where it does anything. -/
structure Connects (state : SessionState) (tab : TabInfo) (runtimeId : RuntimeId)
    (next : SessionState) : Prop where
  runtime : tab.runtimeId = some runtimeId
  newer : ∀ t ∈ state.tabs, t.id = tab.id → ∀ current, t.runtimeId = some current →
    current < runtimeId
  parent : tab.isRoot ∨ ∃ parent ∈ state.tabs, tab.parentId = some parent.id ∧
    parent.runtimeId = tab.runtimeId ∧ parent.state = .connected
  tabs : ∃ updated : TabInfo, SameLinks tab updated ∧
    next.tabs.Perm (updated :: state.tabs.filter (staysOnConnect tab))
  active : next.activeTabId = some tab.id ∨ next.activeTabId = state.activeTabId ∧
    ∃ t ∈ next.tabs, t.parentId = some tab.id

theorem sessionConnected_cases (h : TabsInv state) :
    sessionConnected state tab = state ∨
      ∃ runtimeId, Connects state tab runtimeId (sessionConnected state tab) := by
  unfold sessionConnected
  split
  · exact .inl rfl
  · rename_i runtimeId hruntime
    dsimp only
    by_cases hstale : ((state.find tab.id).bind TabInfo.runtimeId).any fun current =>
        compareRuntimeIds runtimeId current ≤ 0
    · exact .inl (if_pos hstale)
    rw [if_neg hstale]
    by_cases hparent : (!tab.isRoot && !(state.find (tab.parentId.getD "")).any fun parent =>
        parent.runtimeId = tab.runtimeId ∧ parent.state = .connected) = true
    · exact .inl (if_pos hparent)
    rw [if_neg hparent]
    refine .inr ⟨runtimeId, hruntime, fun t ht heq current hcurrent => ?_, ?_,
      ⟨{ tab with name := ((state.find tab.id).map TabInfo.name).getD tab.name,
                  disconnectInfo := none }, ⟨rfl, rfl, rfl, rfl⟩, ?_⟩, ?_⟩
    · rw [← heq, h.find_eq ht, Option.bind_some, hcurrent, Option.any_some, decide_eq_true_eq,
        compareRuntimeIds] at hstale
      split_ifs at hstale with hlt hgt
      · omega
      · exact hgt
      · omega
    · rcases Bool.eq_false_or_eq_true tab.isRoot with hroot | hchild
      · exact .inl hroot
      · rw [hchild, Bool.not_false, Bool.true_and, Bool.not_eq_true', Bool.not_eq_false,
          Option.any_eq_true] at hparent
        obtain ⟨parent, hfind, hcond⟩ := hparent
        obtain ⟨hmem, hid⟩ := find_some hfind
        refine .inr ⟨parent, hmem, ?_, of_decide_eq_true hcond⟩
        cases hp : tab.parentId with
        | none => simp [TabInfo.isRoot, hp] at hchild
        | some p => rw [hid, hp, Option.getD_some]
    · refine List.perm_insertIdx _ _ ?_
      split
      · exact le_rfl
      · exact min_le_right _ _
    · dsimp only
      split_ifs with hcontainer
      · obtain ⟨t, ht, hchild⟩ := List.any_eq_true.mp hcontainer.2
        exact .inr ⟨rfl, t, ht, of_decide_eq_true hchild⟩
      · exact .inl rfl

theorem sessionConnected_kept (h : TabsInv state) (hid : tab.id ≠ "")
    (hparentId : tab.parentId ≠ some "")
    (hroot : ∀ parent ∈ state.tabs, tab.parentId = some parent.id → parent.parentId = none) :
    TabsInv (sessionConnected state tab) ∧ RuntimesKept state (sessionConnected state tab) := by
  rcases @sessionConnected_cases _ tab h with hsame | ⟨runtimeId, hconnects⟩
  · rw [hsame]
    exact ⟨h, fun t ht t' ht' hid => .of_eq (by rw [h.eq_of_id ht ht' hid])⟩
  obtain ⟨updated, hlinks, hperm⟩ := hconnects.tabs
  have hmem : ∀ t, t ∈ (sessionConnected state tab).tabs ↔ t = updated ∨
      t ∈ state.tabs ∧ t.id ≠ tab.id ∧
        ¬ (t.parentId = some tab.id ∧ t.runtimeId ≠ tab.runtimeId) := fun t => by
    rw [hperm.mem_iff, List.mem_cons, List.mem_filter, staysOnConnect, decide_eq_true_eq]
  have hparent : ∀ p, tab.parentId = some p → ∃ parent ∈ state.tabs, parent.id = p ∧
      p ≠ tab.id ∧ parent.runtimeId = tab.runtimeId ∧ parent.state = .connected := by
    intro p hp
    rcases hconnects.parent with hisRoot | ⟨parent, hmem, hparent, hruntime, hstate⟩
    · rw [hp, Ne, Option.some.injEq] at hparentId
      simp [TabInfo.isRoot, hp, hparentId] at hisRoot
    · obtain rfl : p = parent.id := Option.some.inj (hp.symm.trans hparent)
      refine ⟨parent, hmem, rfl, fun heq => ?_, hruntime, hstate⟩
      exact lt_irrefl _ (hconnects.newer parent hmem heq _ (hruntime.trans hconnects.runtime))
  -- no child of the old connection stays
  have hchild : ∀ c ∈ (sessionConnected state tab).tabs, c.parentId ≠ some tab.id := by
    intro c hc hp
    rcases (hmem c).mp hc with rfl | ⟨hc, -, hruntime⟩
    · obtain ⟨-, -, -, hne, -⟩ := hparent tab.id (hlinks.parentId ▸ hp)
      exact hne rfl
    · have hsame : c.runtimeId = tab.runtimeId := by
        by_contra hne
        exact hruntime ⟨hp, hne⟩
      obtain ⟨parent, hmem, hpid, hunder⟩ := h.children c hc _ hp
      obtain ⟨rc, rp, hrc, hrp, hle⟩ := hunder.runtime
      have hlt := hconnects.newer parent hmem hpid rp hrp
      rw [hsame, hconnects.runtime, Option.some.injEq] at hrc
      rw [← hrc] at hle
      exact absurd hle (not_le.mpr hlt)
  have hkeeps : ∀ parent ∈ state.tabs, parent.id ≠ tab.id → parent.parentId = none →
      parent ∈ (sessionConnected state tab).tabs := fun parent hmem₀ hne hroot => by
    rw [hmem]
    exact .inr ⟨hmem₀, hne, fun hcond => by rw [hroot] at hcond; exact nomatch hcond.1⟩
  refine ⟨⟨?_, fun t ht => ?_, fun active hactive => ?_, fun c hc p hp => ?_⟩,
    fun t ht t' ht' heq => ?_⟩
  · rw [(hperm.map TabInfo.id).nodup_iff, List.map_cons, List.nodup_cons]
    refine ⟨fun hold => ?_, h.ids_nodup.sublist (List.filter_sublist.map _)⟩
    obtain ⟨t, ht, heq⟩ := List.mem_map.mp hold
    have hstays := (List.mem_filter.mp ht).2
    rw [staysOnConnect, decide_eq_true_eq] at hstays
    exact hstays.1 (heq.trans hlinks.id)
  · rcases (hmem t).mp ht with rfl | ⟨ht, -⟩
    · rw [hlinks.id, hlinks.parentId]
      exact ⟨hid, hparentId⟩
    · exact h.ids_ne t ht
  · rcases hconnects.active with hnew | ⟨-, c, hc, hp⟩
    · obtain rfl := Option.some.inj (hnew.symm.trans hactive)
      exact ⟨updated, (hmem updated).mpr (.inl rfl), hlinks.id⟩
    · exact absurd hp (hchild c hc)
  · have hne := hchild c hc
    rcases (hmem c).mp hc with rfl | ⟨hc, -⟩
    · obtain ⟨parent, hparent_mem, rfl, hpne, hruntime, hstate⟩ := hparent p (hlinks.parentId ▸ hp)
      have hproot := hroot parent hparent_mem (hlinks.parentId ▸ hp)
      refine ⟨parent, hkeeps parent hparent_mem hpne hproot, rfl, hproot, ?_, fun _ => ?_⟩
      · exact ⟨runtimeId, runtimeId, hlinks.runtimeId.trans hconnects.runtime,
          hruntime.trans hconnects.runtime, le_rfl⟩
      · exact ⟨hstate, hruntime.trans hlinks.runtimeId.symm⟩
    · obtain ⟨parent, hparent_mem, rfl, hunder⟩ := h.children c hc p hp
      rw [hp, Ne, Option.some.injEq] at hne
      exact ⟨parent, hkeeps parent hparent_mem hne hunder.root, rfl, hunder⟩
  · rcases (hmem t').mp ht' with rfl | ⟨ht', -⟩
    · intro current hcurrent
      refine ⟨runtimeId, hlinks.runtimeId.trans hconnects.runtime, ?_⟩
      exact (hconnects.newer t ht (heq.trans hlinks.id) current hcurrent).le
    · exact .of_eq (by rw [h.eq_of_id ht ht' heq])

/-! ## The catalog -/

theorem catalogLoaded_kept (h : TabsInv state) {loaded : List TabInfo}
    (hnodup : (loaded.map TabInfo.id).Nodup)
    (hloaded : ∀ t ∈ loaded, t.id ≠ "" ∧ t.parentId = none ∧ t.runtimeId = none) :
    TabsInv (catalogLoaded state loaded) ∧ RuntimesKept state (catalogLoaded state loaded) := by
  set existing : TabId → Option TabInfo := fun id =>
    state.tabs.reverse.find? fun current => current.id = id with hexisting
  have hfound : ∀ id t, existing id = some t → t ∈ state.tabs ∧ t.id = id := fun id t ht =>
    ⟨List.mem_reverse.mp (List.mem_of_find?_eq_some ht), by simpa using List.find?_some ht⟩
  have hmissing : ∀ id, existing id = none → ∀ t ∈ state.tabs, t.id ≠ id := fun id hnone t ht => by
    simpa using List.find?_eq_none.mp hnone t (List.mem_reverse.mpr ht)
  have htabs : (catalogLoaded state loaded).tabs =
      loaded.map (fun tab => (existing tab.id).getD tab) ++
        state.tabs.filter fun tab => ¬ (loaded.map TabInfo.id).contains tab.id := rfl
  have hmem : ∀ t ∈ (catalogLoaded state loaded).tabs, t ∈ state.tabs ∨
      t ∈ loaded ∧ ∀ t₀ ∈ state.tabs, t₀.id ≠ t.id := by
    intro t ht
    rw [htabs, List.mem_append] at ht
    rcases ht with ht | ht
    · obtain ⟨tab, htab, rfl⟩ := List.mem_map.mp ht
      cases hcase : existing tab.id with
      | some t => exact .inl (hfound _ t hcase).1
      | none => exact .inr ⟨htab, hmissing _ hcase⟩
    · exact .inl (List.mem_of_mem_filter ht)
  have hstays : ∀ t ∈ state.tabs, t ∈ (catalogLoaded state loaded).tabs := by
    intro t ht
    rw [htabs, List.mem_append]
    by_cases hsaved : t.id ∈ loaded.map TabInfo.id
    · obtain ⟨tab, htab, heq⟩ := List.mem_map.mp hsaved
      refine .inl (List.mem_map.mpr ⟨tab, htab, ?_⟩)
      cases hcase : existing tab.id with
      | none => exact absurd heq.symm (hmissing _ hcase t ht)
      | some t' =>
        obtain ⟨ht', hid⟩ := hfound _ t' hcase
        exact h.eq_of_id ht' ht (hid.trans heq)
    · exact .inr (List.mem_filter.mpr ⟨ht, by simpa using hsaved⟩)
  refine ⟨⟨?_, fun t ht => ?_, fun active hactive => ?_, fun c hc p hp => ?_⟩,
    fun t ht t' ht' heq => ?_⟩
  · have hids : (loaded.map fun tab => (existing tab.id).getD tab).map TabInfo.id =
        loaded.map TabInfo.id := by
      rw [List.map_map]
      refine List.map_congr_left fun tab _ => ?_
      cases hcase : existing tab.id with
      | none => simp [hcase]
      | some t => simpa [hcase] using (hfound _ t hcase).2
    rw [htabs, List.map_append, hids]
    refine hnodup.append (h.ids_nodup.sublist (List.filter_sublist.map _)) fun id hsaved hrest => ?_
    obtain ⟨t, ht, rfl⟩ := List.mem_map.mp hrest
    exact absurd hsaved (by simpa using (List.mem_filter.mp ht).2)
  · rcases hmem t ht with ht | ⟨ht, -⟩
    · exact h.ids_ne t ht
    · obtain ⟨hne, hroot, -⟩ := hloaded t ht
      exact ⟨hne, by simp [hroot]⟩
  · cases hstate : state.activeTabId with
    | some current =>
      obtain ⟨t, ht, rfl⟩ := h.active_mem current hstate
      obtain rfl : t.id = active := by simpa [catalogLoaded, hstate] using hactive
      exact ⟨t, hstays t ht, rfl⟩
    | none =>
      have hhead : (catalogLoaded state loaded).tabs.head?.map TabInfo.id = some active := by
        rw [htabs]
        simpa [catalogLoaded, hstate] using hactive
      obtain ⟨t, ht, heq⟩ := Option.map_eq_some_iff.mp hhead
      exact ⟨t, List.mem_of_head? ht, heq⟩
  · rcases hmem c hc with hc | ⟨hc, -⟩
    · obtain ⟨parent, hparent, hpid, hunder⟩ := h.children c hc p hp
      exact ⟨parent, hstays parent hparent, hpid, hunder⟩
    · rw [(hloaded c hc).2.1] at hp
      contradiction
  · rcases hmem t' ht' with ht' | ⟨-, hnew⟩
    · exact .of_eq (by rw [h.eq_of_id ht ht' heq])
    · exact absurd heq (hnew t ht)

end TauTerm.Tabs
