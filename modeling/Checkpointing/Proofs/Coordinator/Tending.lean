import Mathlib.Tactic
import Checkpointing.Proofs.Coordinator.Recovery
import Checkpointing.Proofs.Storage.Catalog

/-!
# Coordinators on written directories

A coordinator only uses its archive as anybody may, so the directory on which it runs can always be
opened again, and every registered snapshot is on record there.

* `Apart`: what waits in the backlog is not registered, so nothing is thrown away that is;
* `used_step`: a step only uses the archive;
* `Backed`: what is registered is on record, maybe under another policy;
* `Tended` is the invariant; `Tended.step` keeps it, `tended_of_open` starts it, `Tended.invariant`
  builds on it;
* `written_of_leftBehind`: what coordinators leave behind was written by archives.
-/

namespace Checkpointing

open Medium Directory

namespace Coordinator

variable {start : Disk} {base : Location} {c c' : Coordinator} {request : Request}
  {events : List Event} {reply : Reply} {s : Snapshot}

/-! ### The backlog -/

/-- What waits in the backlog is of rounds that are over, and it is not registered. -/
def Apart (c : Coordinator) : Prop :=
  ∀ s ∈ c.archive.retention.backlog, c.IsOver s.id ∧ ∀ t ∈ c.archive.snapshots, t.id ≠ s.id

/-- What is over and not registered is never registered again. -/
theorem unregistered_step (hc : c.Orderly) (hs : c.Shelved)
    (hstep : c.step request = .ok (c', events, reply)) {i : Nat} (hover : c.IsOver i)
    (hnot : ∀ t ∈ c.archive.snapshots, t.id ≠ i) : ∀ t ∈ c'.archive.snapshots, t.id ≠ i := by
  intro t hmem
  cases Provenance.of_step hc hs.ascending hstep hmem with
  | kept old => exact hnot t old
  | completed asked answered there =>
    exact Table.ne_of_contains_eq_false hover.2 there
  | restored asked answered there relabeled =>
    have hne := hnot _ there
    rw [relabeled]
    exact hne

/-- What waits in the backlog did so before, or it was given up by the step. -/
theorem backlog_step (hc : c.Orderly) (hs : c.Shelved)
    (hstep : c.step request = .ok (c', events, reply)) (hmem : s ∈ c'.archive.retention.backlog) :
    s ∈ c.archive.retention.backlog ∨
      (c'.IsOver s.id ∧ ∀ t ∈ c'.archive.snapshots, t.id ≠ s.id) := by
  have hremove : ∀ id, (c.archive.remove id).1.retention.backlog = c.archive.retention.backlog := by
    intro id
    rcases Archive.remove_cases c.archive id with ⟨-, he⟩ | ⟨t, medium, failure, -, -, he⟩ <;>
      rw [he]
    rfl
  cases Files.of_step hc hstep with
  | same archive silent =>
    rw [archive] at hmem
    exact Or.inl hmem
  | failed asked there full gone finalized archive heard requests =>
    rw [archive, (finalize_of_error finalized).1] at hmem
    exact Or.inl hmem
  | finished asked there full gone finalized archive requests answered =>
    obtain ⟨rfl, b, htakes, rfl, -⟩ := finalize_of_ok finalized
    rw [archive, Archive.subsume_state] at hmem
    rcases List.mem_append.1 hmem with hold | hnew
    · rw [htakes.retention] at hold
      exact Or.inl hold
    · have hgone := (Vault.sublist_sweep _ _ _).subset hnew
      refine Or.inr ⟨?_, fun t ht => ?_⟩
      · rcases htakes.mem_live.1 (b.retention.perm_subsume.subset
          (List.mem_append_left _ hgone)) with rfl | hold
        · have hid := hc.own_of_completes there full
          rw [← hid] at there gone
          exact isOver_of_gone hc hstep there gone
        · exact IsOver.step hc hstep (hs.isOver s hold)
      · rw [archive] at ht
        exact ((htakes.ascending hs.ascending).ne_of_perm b.retention.perm_subsume hgone ht).symm
  | relabeled asked newest claimed archive silent answered =>
    rw [archive] at hmem
    exact Or.inl hmem
  | removed asked unregistered silent =>
    rename_i id e
    have hsame := hremove id
    rw [unregistered] at hsame
    rw [hsame] at hmem
    exact Or.inl hmem
  | disposed asked found unregistered archive heard requests =>
    rename_i id a t removed
    have hsame := hremove id
    rw [unregistered] at hsame
    rw [archive, hsame] at hmem
    exact Or.inl hmem
  | closed asked archive requests =>
    rw [archive] at hmem
    exact Or.inl ((Vault.sublist_sweep _ _ _).subset hmem)

theorem Apart.step (h : c.Apart) (hc : c.Orderly) (hs : c.Shelved)
    (hstep : c.step request = .ok (c', events, reply)) : c'.Apart := by
  intro s hmem
  rcases backlog_step hc hs hstep hmem with hold | hnew
  · obtain ⟨hover, hnot⟩ := h s hold
    exact ⟨IsOver.step hc hstep hover, unregistered_step hc hs hstep hover hnot⟩
  · exact hnew

/-- A step spares every snapshot that stays registered, whatever becomes of its policy. -/
theorem Apart.spares_step (h : c.Apart) (hc : c.Orderly) (hs : c.Shelved)
    (hm : c.archive.vault.medium.Housed) (hstep : c.step request = .ok (c', events, reply))
    {t : Snapshot} (hmem : s ∈ c.archive.snapshots) (hstays : t ∈ c'.archive.snapshots)
    (hid : t.id = s.id) : Spares s.id c.archive.vault.medium c'.archive.vault.medium :=
  Coordinator.spares_step hc hs.ascending hm hstep (hs.isOver s hmem).2 (Or.inr ⟨t, hstays, hid⟩)
    fun t ht => ((h t ht).2 s hmem).symm

/-! ### Records -/

/-- Finalizing a round only uses the archive. -/
theorem used_finalize {a b : Archive} {r : Round} {now : Int} {kept : List Event}
    {result : Except SnapshotError Snapshot} (hdraft : (draft a r now).Recordable)
    (hfinal : finalize a r now = (b, kept, result)) : a.Used b := by
  have hkept : a.Used { a with
      vault := ((a.vault.addressed r.id r.policy).persistAll r.id r.acked.entries).1 } :=
    (Archive.Used.unused.address r.id r.policy).persistAll r.id r.acked.entries
  have hadded : ∀ {vault : Vault}, a.Used { a with vault := vault } →
      a.Used (Archive.add { a with vault := vault } (draft a r now)).1 :=
    fun hvault => hvault.answer (.add (draft a r now)) hdraft
  rcases finalize_cases a r now with ⟨vault, persisted, failure, hpersist, he⟩ |
    ⟨vault, persisted, hpersist, ⟨a', added, e, hadd, he⟩ | ⟨a', added, gone, hadd, he⟩⟩ <;>
    cases he.symm.trans hfinal <;> rw [hpersist] at hkept
  · exact hkept
  · have hdone := hadded hkept
    rw [hadd] at hdone
    exact hdone
  · have hdone := hadded hkept
    rw [hadd] at hdone
    exact hdone

/-- A step only uses the archive. -/
theorem used_step (h : c.archive.vault.medium.Cataloged start base) (hc : c.Orderly)
    (hfitting : c.Fitting) (hfits : request.Fits)
    (hstep : c.step request = .ok (c', events, reply)) : c.archive.Used c'.archive := by
  obtain ⟨d, hm, hd⟩ := h
  have hremove : ∀ {id : Nat} {a : Archive} {result : Except SnapshotError (Option Snapshot)},
      c.archive.remove id = (a, result) → c.archive.Used a := by
    intro id a result hremove
    have hused := (Archive.Used.unused (a := c.archive)).answer (.remove id) trivial
    rw [Archive.answer, hremove] at hused
    exact hused
  cases Files.of_step hc hstep with
  | same archive silent =>
    rw [archive]
    exact .unused
  | failed asked there full gone finalized archive heard requests =>
    have hdraft := hfitting.recordable hc hm hd.hosts hfits asked there full
    rw [archive]
    exact (used_finalize hdraft finalized).request _
  | finished asked there full gone finalized archive requests answered =>
    have hdraft := hfitting.recordable hc hm hd.hosts hfits asked there full
    rw [archive]
    exact used_finalize hdraft finalized
  | relabeled asked newest claimed archive silent answered =>
    rename_i latest
    rw [archive]
    exact Archive.Used.unused.answer (.relabel latest.id .unclaimedSnapshot) trivial
  | removed asked unregistered silent => exact hremove unregistered
  | disposed asked found unregistered archive heard requests =>
    rw [archive]
    exact (hremove unregistered).request _
  | closed asked archive requests =>
    rename_i status
    rw [archive]
    exact Archive.Used.unused.answer (.close status) trivial

/-- Every registered snapshot is on record, maybe under another policy. -/
def Backed (c : Coordinator) : Prop :=
  ∀ s ∈ c.archive.snapshots, ∃ policy : SnapshotPolicy,
    Snapshot.Recordable { s with policy := policy } ∧
      c.archive.vault.medium.HasRecord { s with policy := policy }

/-! ### The invariant -/

/-- What holds of a coordinator on a directory that archives have written. -/
structure Tended (start : Disk) (base : Location) (c : Coordinator) : Prop where
  orderly : c.Orderly
  shelved : c.Shelved
  fitting : c.Fitting
  apart : c.Apart
  backed : c.Backed
  cataloged : c.archive.vault.medium.Cataloged start base

theorem Tended.backed_step (h : c.Tended start base) (hfits : request.Fits)
    (hstep : c.step request = .ok (c', events, reply)) : c'.Backed := by
  obtain ⟨d, hm, hd⟩ := h.cataloged
  -- What was on record still is.
  have hold : ∀ {s t : Snapshot}, s ∈ c.archive.snapshots → t ∈ c'.archive.snapshots →
      t.id = s.id → ∃ policy : SnapshotPolicy, Snapshot.Recordable { s with policy := policy } ∧
        c'.archive.vault.medium.HasRecord { s with policy := policy } := by
    intro s t hs ht hid
    obtain ⟨policy, hfits, hrecord⟩ := h.backed s hs
    have hspares := h.apart.spares_step h.orderly h.shelved h.cataloged.housed hstep hs ht hid
    exact ⟨policy, hfits, Spares.hasRecord (s := { s with policy := policy }) hspares hrecord⟩
  intro s hmem
  cases Provenance.of_step h.orderly h.shelved.ascending hstep hmem with
  | kept old => exact hold old hmem rfl
  | completed asked answered there full gone drafted record =>
    refine ⟨s.policy, ?_, record h.cataloged.housed⟩
    rw [drafted]
    exact h.fitting.recordable h.orderly hm hd.hosts hfits asked there full
  | restored asked answered there relabeled =>
    subst relabeled
    have hlatest := hold there hmem rfl
    exact hlatest

theorem Tended.step (h : c.Tended start base) (hfits : request.Fits)
    (hroom : c.tasks.size ≤ Word.max64) (hstep : c.step request = .ok (c', events, reply)) :
    c'.Tended start base where
  orderly := h.orderly.step hstep
  shelved := h.shelved.step h.orderly hstep
  fitting := h.fitting.step h.orderly h.shelved.isOver hfits hroom hstep
  apart := h.apart.step h.orderly h.shelved hstep
  backed := h.backed_step hfits hstep
  cataloged := (used_step h.cataloged h.orderly h.fitting hfits hstep).cataloged h.cataloged

theorem Tended.withVault (h : c.Tended start base) {vault : Vault}
    (hvault : SameMedium c.archive.vault vault) : (c.withVault vault).Tended start base where
  orderly := h.orderly.withVault vault
  shelved := h.shelved.withVault vault
  fitting := h.fitting.withVault vault
  apart := h.apart
  backed s hs := by
    obtain ⟨policy, hfits, hrecord⟩ := h.backed s hs
    refine ⟨policy, hfits, ?_⟩
    show vault.medium.HasRecord _
    rw [hvault]
    exact hrecord
  cataloged := by
    show vault.medium.Cataloged start base
    rw [hvault]
    exact h.cataloged

/-- A run of a coordinator on a directory that archives have written stays on such a directory. -/
theorem tended_of_run {past : List Moment} (h : Run SameMedium c past c')
    (hstart : c.Tended start base)
    (hfits : ∀ m ∈ past, m.request.Fits ∧ m.before.tasks.size ≤ Word.max64) :
    c'.Tended start base ∧ ∀ m ∈ past, m.before.Tended start base ∧ m.after.Tended start base :=
  h.invariant_of (Q := fun c request => request.Fits ∧ c.tasks.size ≤ Word.max64)
    (fun hsame ht => ht.withVault hsame)
    (fun ht ⟨hfits, hroom⟩ hstep => ht.step hfits hroom hstep) hstart hfits

/-- What a step on a directory that archives have written keeps holds throughout a run there. -/
theorem Tended.invariant {P : Coordinator → Prop} {Q : Coordinator → Request → Prop}
    {past : List Moment} (h : Run SameMedium c past c') (hstart : c.Tended start base)
    (hfits : ∀ m ∈ past, m.request.Fits ∧ m.before.tasks.size ≤ Word.max64)
    (hchange : ∀ {c : Coordinator} {vault : Vault}, SameMedium c.archive.vault vault → P c →
      P (c.withVault vault))
    (hstep : ∀ {c c' : Coordinator} {request : Request} {events : List Event} {reply : Reply},
      c.Tended start base → P c → request.Fits → Q c request →
        c.step request = .ok (c', events, reply) → P c')
    (hP : P c) (hall : ∀ m ∈ past, Q m.before m.request) :
    P c' ∧ ∀ m ∈ past, P m.before ∧ P m.after := by
  have hkeep := h.invariant_of (P := fun c => c.Tended start base ∧ P c)
    (Q := fun c request => (request.Fits ∧ c.tasks.size ≤ Word.max64) ∧ Q c request)
    (fun hsame hc => ⟨hc.1.withVault hsame, hchange hsame hc.2⟩)
    (fun hc hq hs => ⟨hc.1.step hq.1.1 hq.1.2 hs, hstep hc.1 hc.2 hq.1.1 hq.2 hs⟩)
    ⟨hstart, hP⟩ fun m hm => ⟨hfits m hm, hall m hm⟩
  exact ⟨hkeep.1.2, fun m hm => ⟨(hkeep.2 m hm).1.2, (hkeep.2 m hm).2.2⟩⟩

/-- The record of every registered snapshot is in its place. -/
theorem Tended.filed {d : Disk} (h : c.Tended start base)
    (hm : c.archive.vault.medium = .directory base d) (hmem : s ∈ c.archive.snapshots) :
    ∃ t, Filed d base t ∧ t.id = s.id := by
  obtain ⟨policy, hs, hrecord⟩ := h.backed s hmem
  obtain ⟨d', hm', hd⟩ := h.cataloged
  cases hm'.symm.trans hm
  rw [hm] at hrecord
  cases hrecord with
  | directory record => exact ⟨_, hd.filed hs record, rfl⟩

/-- A coordinator on a directory that archives have written starts with the records in it. -/
theorem tended_of_open {d : Disk} {faults : FaultPlan} {maxRetained : Nat} {archive : Archive}
    {settings : Settings} {hasHandler : Bool} (hd : Catalog start base d)
    (hstored : Archive.open? (.of (.directory base d) faults) maxRetained = .ok archive)
    (h : open? settings archive hasHandler = .ok c) :
    c.Tended start base ∧ c.archive = archive := by
  obtain ⟨a, hopen, hmedium, hascending, hbacklog, hlive⟩ := hd.toLegible.open? faults maxRetained
  cases hopen.symm.trans hstored
  obtain ⟨rfl, -, hshelved⟩ := state_of_open hascending h
  refine ⟨⟨orderly_of_open h, hshelved, fitting_of_open hascending h, ?_, fun s hs => ?_,
    ⟨d, hmedium, hd⟩⟩, rfl⟩
  · intro s hs
    rw [hbacklog] at hs
    cases hs
  · have hfiled := (hlive s).1 hs
    refine ⟨s.policy, hfiled.recordable, ?_⟩
    rw [hmedium]
    exact .directory hfiled.record

end Coordinator

/-- What coordinators leave behind was written by archives. -/
theorem written_of_leftBehind {text : String} {start disk : Disk} {base : Location}
    (hlocate : start.locate text = .ok base) (hbase : start.node? base.path = some .directory)
    (hempty : start.listing base.path = []) (h : LeftBehind text start disk) :
    Written text start disk := by
  induction h with
  | start => exact .start
  | @run disk _ _ _ _ _ _ _ _ c _ _ _ opened stored begun ran fits left ih =>
    have hd := catalog_of_written hlocate hbase hempty ih
    cases (openDirectory_of_since hlocate hbase hempty hd.since).symm.trans opened
    obtain ⟨hfirst, rfl⟩ := Coordinator.tended_of_open hd stored begun
    have hlast := Coordinator.Tended.invariant (P := fun d => c.archive.Used d.archive)
      (Q := fun _ _ => True) ran hfirst fits (fun hsame hused => hused.refuse hsame)
      (fun ht hused hfits _ hstep => hused.trans
        (Coordinator.used_step ht.cataloged ht.orderly ht.fitting hfits hstep))
      .unused fun _ _ => trivial
    exact .archive ih opened stored hlast.1 left

end Checkpointing
