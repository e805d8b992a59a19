import Mathlib
import TauTerm.Sftp.CommitRuns
import TauTerm.Sftp.DocumentWorld

/-!
# The steps of a save

What each call of a save leaves, and what a snapshot tells of a file that nobody changes meanwhile:
one under another path than the document's, or the document itself once it has been committed.
-/

namespace TauTerm.Sftp.Document

open Lib Lib.Proc

variable {path p a b temp backup : RemotePath} {w u v : Server} {n old : RemoteEntry}

/-- What queries and other clients leave alone. -/
structure SameBut (path : RemotePath) (w v : Server) : Prop where
  others : ∀ p, p ≠ path → v.disk p = w.disk p
  calm : w.committed = true → v.disk = w.disk
  temp : v.temp = w.temp
  committed : v.committed = w.committed
  changes : v.changes = w.changes

theorem SameBut.refl (w : Server) : SameBut path w w := ⟨fun _ _ => rfl, fun _ => rfl, rfl, rfl, rfl⟩

theorem SameBut.trans (h : SameBut path w u) (h' : SameBut path u v) : SameBut path w v where
  others p hp := (h'.others p hp).trans (h.others p hp)
  calm hw := (h'.calm (h.committed.trans hw)).trans (h.calm hw)
  temp := h'.temp.trans h.temp
  committed := h'.committed.trans h.committed
  changes := h'.changes.trans h.changes

/-- Nobody else changes what stands under `p`. -/
def Fixed (path p : RemotePath) (w : Server) : Prop := p ≠ path ∨ w.committed = true

theorem SameBut.disk_eq (h : SameBut path w v) (hp : Fixed path p w) : v.disk p = w.disk p :=
  hp.elim (h.others p) fun hw => congrFun (h.calm hw) p

theorem SameBut.fixed (h : SameBut path w v) (hp : Fixed path p w) : Fixed path p v :=
  hp.imp id h.committed.trans

theorem sameBut_of_drifts (h : (calmWorld path).Drifts w v) : SameBut path w v := by
  obtain ⟨⟨hothers, hv⟩, hcalm⟩ := h
  refine ⟨hothers, hcalm, ?_, ?_, ?_⟩ <;> rw [hv]

theorem opened_of_drifts (h : (calmWorld path).Drifts w v) : v.opened = w.opened := by
  rw [h.1.2]

/-- A change somewhere else is none of the document. -/
theorem change_of_ne {o : Option RemoteEntry} (h : p ≠ path) :
    w.change path (Function.update w.disk p o) = { w with disk := Function.update w.disk p o } := by
  simp only [Server.change, Function.update_of_ne h.symm, if_true, List.append_nil]

/-! ## Queries -/

section Queries

variable {ε α : Type}

theorem wp_ensureSftp {Q : Except String (Except String Unit) → Server → Prop}
    (h : ∀ r v, SameBut path w v → v.opened = w.opened → (w.committed = true → r = .ok ()) →
      Q (.ok r) v) : Wp (calmWorld path) ensureSftp Q w := by
  refine wp_ask fun u r v hdrift hresponds => ?_
  obtain ⟨hv, hanswer⟩ := hresponds
  rw [show v = u from hv]
  have hsame := sameBut_of_drifts hdrift
  exact h r u hsame (opened_of_drifts hdrift) fun hw => hanswer (hsame.committed.trans hw)

theorem wp_stat {Q : Except String (Except String FileAttributes) → Server → Prop}
    (h : ∀ r v, SameBut path w v → v.opened = w.opened →
      (∀ stat, r = .ok stat → ∃ n, v.disk p = some n ∧ stat = n.attributes) →
      (w.committed = true → v.disk p ≠ none → ∃ stat, r = .ok stat) → Q (.ok r) v) :
    Wp (calmWorld path) (symlinkMetadata p) Q w := by
  refine wp_ask fun u r v hdrift hresponds => ?_
  obtain ⟨hv, hanswer⟩ := hresponds
  have hsame := sameBut_of_drifts hdrift
  match r with
  | .ok stat =>
    obtain ⟨hstat, rfl⟩ := hv
    exact h _ _ hsame (opened_of_drifts hdrift) (fun _ heq => Except.ok.inj heq ▸ hstat)
      fun _ _ => ⟨stat, rfl⟩
  | .error e =>
    obtain rfl : v = u := hv
    exact h _ _ hsame (opened_of_drifts hdrift) nofun fun hw => hanswer (hsame.committed.trans hw)

theorem wp_openRead {Q : Except String (Except String Unit) → Server → Prop}
    (h : ∀ r v, SameBut path w v → (r = .ok () → ∃ n, v.disk p = some n ∧ v.opened = some n) →
      (w.committed = true → v.disk p ≠ none → r = .ok ()) → Q (.ok r) v) :
    Wp (calmWorld path) (openRead p) Q w := by
  refine wp_ask fun u r v hdrift hresponds => ?_
  obtain ⟨hv, hanswer⟩ := hresponds
  have hsame := sameBut_of_drifts hdrift
  match r with
  | .ok () =>
    obtain ⟨n, hn, rfl⟩ := hv
    exact h _ _ ⟨hsame.1, hsame.2, hsame.3, hsame.4, hsame.5⟩ (fun _ => ⟨n, hn, rfl⟩)
      fun _ _ => rfl
  | .error e =>
    obtain rfl : v = u := hv
    exact h _ _ hsame nofun fun hw => hanswer (hsame.committed.trans hw)

theorem wp_read {offset room : Nat} {Q : Except String (Except String (List UInt8)) → Server → Prop}
    (h : ∀ r v, SameBut path w v → v.opened = w.opened →
      (∀ bytes, r = .ok bytes →
        ∃ n, (v.opened = some n ∨ v.disk p = some n) ∧ ReadsFrom n offset room bytes) →
      (w.committed = true → ∃ bytes, r = .ok bytes) → Q (.ok r) v) :
    Wp (calmWorld path) (read p offset room) Q w := by
  refine wp_ask fun u r v hdrift hresponds => ?_
  obtain ⟨hv, hanswer⟩ := hresponds
  have hsame := sameBut_of_drifts hdrift
  match r with
  | .ok bytes =>
    obtain ⟨hbytes, rfl⟩ := hv
    exact h _ _ hsame (opened_of_drifts hdrift) (fun _ heq => Except.ok.inj heq ▸ hbytes)
      fun _ => ⟨bytes, rfl⟩
  | .error e =>
    obtain rfl : v = u := hv
    exact h _ _ hsame (opened_of_drifts hdrift) nofun fun hw => hanswer (hsame.committed.trans hw)

end Queries

/-! ## Reading a fixed file -/

/-- One more piece of what is read from its start. -/
theorem prefix_append_of_reads {data bytes : List UInt8} {room : Nat} (hdata : data <+: n.data)
    (h : ReadsFrom n data.length room bytes) : data ++ bytes <+: n.data := by
  obtain ⟨rest, hrest⟩ := hdata
  have hbytes := h.1
  rw [← hrest, List.drop_left] at hbytes
  rw [← hrest]
  exact List.prefix_append_right_inj data |>.mpr hbytes

/-- The reading ends with all of the file, or as much as was asked for. -/
theorem readLoop_spec {readLen : Nat} (hfixed : Fixed path p w) (hdisk : w.disk p = some n)
    (hopened : w.opened = some n) :
    Wp (calmWorld path) (loop (readRound p readLen) []) (fun r v => SameBut path w v ∧
      (∀ data, r = .ok data → data <+: n.data ∧ (readLen ≤ data.length ∨ n.data.length ≤ data.length)) ∧
      (w.committed = true → ∃ data, r = .ok data)) w := by
  refine wp_loop (fun data v => SameBut path w v ∧ v.opened = some n ∧ data <+: n.data)
    ⟨.refl w, hopened, List.nil_prefix⟩ fun data v ⟨hsame, hopen, hdata⟩ => ?_
  refine wp_ite (fun hshort => wp_bind (wp_read fun r v' hsame' hopen' hreads hanswer => ?_))
    fun hlong => ?_
  · have htotal := hsame.trans hsame'
    refine wp_bind (wp_orThrow (fun bytes hok => ?_) fun e herror => ?_)
    · obtain ⟨m, hm, hbytes⟩ := hreads bytes hok
      have hm : m = n := by
        rcases hm with hm | hm
        · exact Option.some.inj (hm.symm.trans (hopen'.trans hopen))
        · exact Option.some.inj (hm.symm.trans ((htotal.disk_eq hfixed).trans hdisk))
      subst hm
      refine wp_ite (fun hempty => wp_pure ⟨htotal, ?_, fun _ => ⟨data, rfl⟩⟩) fun _ => wp_pure
        ⟨htotal, hopen'.trans hopen, prefix_append_of_reads hdata hbytes⟩
      rintro _ ⟨⟩
      refine ⟨hdata, .inr ((hbytes.2.2 hempty).resolve_right ?_)⟩
      omega
    · refine ⟨htotal, nofun, fun hw => ?_⟩
      obtain ⟨bytes, hok⟩ := hanswer (hsame.committed.trans hw)
      rw [hok] at herror
      cases herror
  · refine wp_pure ⟨hsame, ?_, fun _ => ⟨data, rfl⟩⟩
    rintro _ ⟨⟩
    exact ⟨hdata, .inl (by omega)⟩

/-- What a read of the head tells of a file, and that it succeeds behind a commit. -/
theorem sftpReadHead_spec {maxBytes : Nat} (hfixed : Fixed path p w) (hdisk : w.disk p = some n) :
    Wp (calmWorld path) (sftpReadHead p maxBytes) (fun r v => SameBut path w v ∧
      (∀ data size, r = .ok (data, size) → size = n.data.length ∧ data <+: n.data ∧
        (n.data.length ≤ maxBytes → data = n.data)) ∧
      (w.committed = true → n.Plain → ∃ head, r = .ok head)) w := by
  refine wp_bind (wp_ensureSftp fun r₁ v₁ hsame₁ _ hanswer₁ => wp_bind (wp_orThrow ?_ ?_))
  swap
  · intro e herror
    refine ⟨hsame₁, nofun, fun hw => ?_⟩
    rw [hanswer₁ hw] at herror
    cases herror
  intro _ _
  refine wp_bind (wp_stat fun r₂ v₂ hsame₂ _ hstat hanswer₂ => wp_bind (wp_orThrow ?_ ?_))
  swap
  · intro e herror
    refine ⟨hsame₁.trans hsame₂, nofun, fun hw _ => ?_⟩
    obtain ⟨stat, hok⟩ := hanswer₂ (hsame₁.committed.trans hw) (by
      rw [(hsame₁.trans hsame₂).disk_eq hfixed, hdisk]
      nofun)
    rw [hok] at herror
    cases herror
  intro stat hok
  have hsame := hsame₁.trans hsame₂
  obtain ⟨m, hm, rfl⟩ := hstat stat hok
  obtain rfl : m = n := Option.some.inj (hm.symm.trans ((hsame.disk_eq hfixed).trans hdisk))
  refine wp_ite (fun hfile => wp_throw ⟨hsame, nofun, fun _ hplain => absurd hplain.2 hfile⟩)
    fun _ => wp_bind (wp_openRead fun r₃ v₃ hsame₃ hopen hanswer₃ => wp_bind (wp_orThrow ?_ ?_))
  swap
  · intro e herror
    refine ⟨hsame.trans hsame₃, nofun, fun hw _ => ?_⟩
    rw [hanswer₃ (hsame.committed.trans hw) (by
      rw [(hsame.trans hsame₃).disk_eq hfixed, hdisk]
      nofun)] at herror
    cases herror
  rintro _ hok₃
  obtain ⟨m', hm', hopened⟩ := hopen hok₃
  have hsame' := hsame.trans hsame₃
  obtain rfl : m' = m := Option.some.inj (hm'.symm.trans ((hsame'.disk_eq hfixed).trans hdisk))
  refine wp_bind ((readLoop_spec (hsame'.fixed hfixed) hm' hopened).imp fun r v hv => ?_)
  obtain ⟨hsame₄, hdata, hanswer₄⟩ := hv
  match r with
  | .error e =>
    refine ⟨hsame'.trans hsame₄, nofun, fun hw _ => ?_⟩
    obtain ⟨data, hok⟩ := hanswer₄ (hsame'.committed.trans hw)
    cases hok
  | .ok data =>
    refine wp_pure ⟨hsame'.trans hsame₄, ?_, fun _ _ => ⟨_, rfl⟩⟩
    rintro _ _ ⟨⟩
    obtain ⟨hinitial, hlength⟩ := hdata data rfl
    refine ⟨rfl, hinitial, fun hmax => hinitial.eq_of_length ?_⟩
    have hle := hinitial.length_le
    have hsize : m'.attributes.size.getD 0 = m'.data.length := rfl
    rw [hsize] at hlength
    omega

/-- What a snapshot tells of a file that nobody changes. -/
structure Describes (n : RemoteEntry) (snapshot : RemoteSnapshot) : Prop where
  size : snapshot.size = n.data.length
  modified : snapshot.modified = n.mtime
  permissions : snapshot.permissions = n.permissions
  data : snapshot.data.length = snapshot.size → snapshot.data = n.data

theorem readSnapshot_spec {maxBytes : Nat} (hfixed : Fixed path p w) (hdisk : w.disk p = some n) :
    Wp (calmWorld path) (readSnapshot p maxBytes) (fun r v => SameBut path w v ∧
      (∀ snapshot, r = .ok snapshot → Describes n snapshot) ∧
      (w.committed = true → n.Plain → n.data.length ≤ maxBytes →
        ∃ snapshot, r = .ok snapshot ∧ snapshot.data = n.data)) w := by
  refine wp_bind (wp_ensureSftp fun r₁ v₁ hsame₁ _ hanswer₁ => wp_bind (wp_orThrow ?_ ?_))
  swap
  · intro e herror
    refine ⟨hsame₁, nofun, fun hw => ?_⟩
    rw [hanswer₁ hw] at herror
    cases herror
  intro _ _
  refine wp_bind (wp_stat fun r₂ v₂ hsame₂ _ hstat hanswer₂ => wp_bind (wp_orThrow ?_ ?_))
  swap
  · intro e herror
    refine ⟨hsame₁.trans hsame₂, nofun, fun hw _ => ?_⟩
    obtain ⟨stat, hok⟩ := hanswer₂ (hsame₁.committed.trans hw) (by
      rw [(hsame₁.trans hsame₂).disk_eq hfixed, hdisk]
      nofun)
    rw [hok] at herror
    cases herror
  intro stat hok
  have hsame := hsame₁.trans hsame₂
  obtain ⟨m, hm, rfl⟩ := hstat stat hok
  obtain rfl : m = n := Option.some.inj (hm.symm.trans ((hsame.disk_eq hfixed).trans hdisk))
  refine wp_ite (fun hregular => wp_throw ⟨hsame, nofun, fun _ hplain => ?_⟩) fun _ => ?_
  · rw [hplain.1] at hregular
    cases hregular
  refine wp_bind ((sftpReadHead_spec (hsame.fixed hfixed) hm).imp fun r v₃ hv => ?_)
  obtain ⟨hsame₃, hhead, hanswer₃⟩ := hv
  have hsame' := hsame.trans hsame₃
  match r with
  | .error e =>
    refine ⟨hsame', nofun, fun hw hplain _ => ?_⟩
    obtain ⟨head, hok⟩ := hanswer₃ (hsame.committed.trans hw) hplain
    cases hok
  | .ok (data, observedSize) =>
  obtain ⟨rfl, hinitial, hwhole⟩ := hhead data _ rfl
  refine wp_ite (fun hne => absurd rfl hne) fun _ => ?_
  refine wp_bind (wp_stat fun r₄ v₄ hsame₄ _ hstat₄ hanswer₄ => ?_)
  have hlast := hsame'.trans hsame₄
  have hdisk₄ : v₄.disk p = some m := (hlast.disk_eq hfixed).trans hdisk
  refine wp_ite (fun hbad => wp_throw ⟨hlast, nofun, fun hw hplain hmax => ?_⟩) fun _ =>
    wp_pure ⟨hlast, ?_, fun _ _ hmax => ⟨_, rfl, hwhole hmax⟩⟩
  · obtain ⟨stat, hagain⟩ := hanswer₄ (hsame'.committed.trans hw) (by
      rw [hdisk₄]
      nofun)
    obtain ⟨m', hm', rfl⟩ := hstat₄ stat hagain
    obtain rfl : m' = m := Option.some.inj (hm'.symm.trans hdisk₄)
    rcases hbad with hbad | ⟨-, hbad⟩
    · rw [hagain] at hbad
      simp only [unchanged, hplain.1] at hbad
      simp at hbad
    · exact absurd (congrArg List.length (hwhole hmax)) hbad
  · rintro _ ⟨⟩
    exact ⟨rfl, rfl, rfl, fun hlength => hinitial.eq_of_length hlength⟩

end TauTerm.Sftp.Document
