import Mathlib.Tactic
import Checkpointing.Proofs.Coordinator.Tending

/-!
# Snapshots that are restored without being claimed

A run that restores a snapshot without claiming it gives it another policy for its own life.  From
then on nothing but the user's wish takes the snapshot, and its record stays as it was, so that a
later run finds it under its old policy.

* `SnapshotPolicy.Standard` are the policies that jobs use; the only unclaimed one protects from
  everything;
* `stays_step` and `silent_step`: a step neither unregisters an unclaimed snapshot nor asks storage
  for anything about it;
* `unclaimed_left_alone` is the main statement.
-/

namespace Checkpointing

open Medium Directory

/-! ### The policies that jobs use -/

/-- One of the policies that jobs use. -/
inductive SnapshotPolicy.Standard : SnapshotPolicy → Prop
  | ofRetention (mode : RetentionMode) : Standard (.ofRetention mode)
  | savepoint (forced : Bool) (format : SavepointFormat) : Standard (.savepoint forced format)
  | syncSavepoint (forced terminate : Bool) (format : SavepointFormat) :
      Standard (.syncSavepoint forced terminate format)
  | unclaimedSnapshot : Standard .unclaimedSnapshot

/-- A request triggers no snapshot but under a policy that jobs use. -/
def Request.Standard : Request → Prop
  | .trigger policy _ => policy.Standard
  | _ => True

theorem SnapshotPolicy.Standard.of_unclaimed {policy : SnapshotPolicy} (h : policy.Standard)
    (hunclaimed : policy.unclaimed = true) : policy = .unclaimedSnapshot := by
  cases h with
  | unclaimedSnapshot => rfl
  | _ => cases hunclaimed

namespace Coordinator

variable {start : Disk} {base : Location} {c c' : Coordinator} {request : Request}
  {events : List Event} {reply : Reply} {s : Snapshot}

/-! ### Policies -/

/-- All snapshots, registered or under way, have policies that jobs use. -/
structure Standard (c : Coordinator) : Prop where
  snapshots : ∀ s ∈ c.archive.snapshots, s.policy.Standard
  rounds : ∀ {id : Nat} {r : Round}, c.rounds.find? id = some r → r.policy.Standard

theorem Standard.step (h : c.Standard) (hc : c.Orderly) (hs : c.Shelved)
    (hrequest : request.Standard) (hstep : c.step request = .ok (c', events, reply)) :
    c'.Standard where
  snapshots s hmem := by
    cases Provenance.of_step hc hs.ascending hstep hmem with
    | kept old => exact h.snapshots s old
    | completed asked answered there full gone drafted =>
      rw [drafted, policy_draft full]
      exact h.rounds there
    | restored asked answered there relabeled =>
      rw [relabeled]
      exact .unclaimedSnapshot
  rounds hfind := by
    rcases find?_rounds_step hc hstep hfind with ⟨policy, now, rfl, -, -, -, -, rfl⟩ |
      ⟨r, hr, ⟨run, state, now, -, -, rfl⟩ | ⟨-, rfl⟩⟩
    · exact hrequest
    · have hpolicy := h.rounds hr
      rcases Round.acknowledge_cases r run state with ⟨-, he⟩ | ⟨-, -, he⟩ | ⟨-, -, -, he⟩ <;>
        rw [he] <;> exact hpolicy
    · exact h.rounds hr

theorem Standard.withVault (h : c.Standard) (vault : Vault) : (c.withVault vault).Standard :=
  ⟨h.snapshots, h.rounds⟩

theorem standard_of_open {settings : Settings} {archive : Archive} {hasHandler : Bool}
    (hstandard : ∀ s ∈ archive.snapshots, s.policy.Standard)
    (h : open? settings archive hasHandler = .ok c) : c.Standard := by
  obtain ⟨-, rfl, hrounds, -⟩ := eq_of_open h
  exact ⟨hstandard, by simp [hrounds]⟩

/-! ### What is left alone -/

/-- An unclaimed snapshot stays registered, whatever a step does but dispose of it. -/
theorem stays_step (hc : c.Orderly) (hs : c.Shelved)
    (hstep : c.step request = .ok (c', events, reply)) (hmem : s ∈ c.archive.snapshots)
    (hpolicy : s.policy = .unclaimedSnapshot) (hrequest : request ≠ .dispose s.id) :
    s ∈ c'.archive.snapshots := by
  have hfilter : ∀ {id : Nat}, request = .dispose id →
      s ∈ (c.archive.remove id).1.snapshots := by
    rintro id rfl
    rw [Archive.snapshots_remove hs.ascending]
    refine List.mem_filter.2 ⟨hmem, decide_eq_true ?_⟩
    rintro rfl
    exact hrequest rfl
  cases Files.of_step hc hstep with
  | same archive silent =>
    rw [archive]
    exact hmem
  | failed asked there full gone finalized archive heard requests =>
    rw [archive, Archive.snapshots, (finalize_of_error finalized).1]
    exact hmem
  | finished asked there full gone finalized archive requests answered =>
    obtain ⟨-, b, htakes, rfl, -⟩ := finalize_of_ok finalized
    rw [archive]
    have hdivided := b.retention.perm_subsume.mem_iff.2 (htakes.mem_live.2 (Or.inr hmem))
    rcases List.mem_append.1 hdivided with hgone | hkept
    · -- Retention gives up no savepoint.
      have hgo := Retention.mayGo_of_mem_divide hgone
      rw [Retention.mayGo, Snapshot.isSavepoint, hpolicy] at hgo
      cases hgo
    · exact hkept
  | relabeled asked newest claimed archive silent answered =>
    rename_i latest
    have hne : s.id ≠ latest.id := by
      intro hid
      rw [← hs.ascending.eq_of_id hmem (Retention.mem_of_latest? newest) hid, hpolicy] at claimed
      cases claimed
    rw [archive]
    exact List.mem_map.2 ⟨s, hmem, if_neg hne⟩
  | removed asked unregistered silent =>
    have hstays := hfilter asked
    rw [unregistered] at hstays
    exact hstays
  | disposed asked found unregistered archive heard requests =>
    have hstays := hfilter asked
    rw [unregistered] at hstays
    rw [archive]
    exact hstays
  | closed asked archive requests =>
    rename_i status
    rw [archive]
    have hdivided := (Vault.perm_sweep c.archive.clearance.vault
      (fun s => s.policy.discard.onStatus status) c.archive.retention.live).mem_iff.2 hmem
    rcases List.mem_append.1 hdivided with hgone | hkept
    · have hgo := (Vault.mem_discarded_sweep hgone).2
      rw [hpolicy] at hgo
      cases status <;> cases hgo
    · exact hkept

/-- Nothing is asked of storage about an unclaimed snapshot, unless the user wants to dispose of
it. -/
theorem silent_step (hc : c.Orderly) (hs : c.Shelved) (ha : c.Apart)
    (hstep : c.step request = .ok (c', events, reply)) (hmem : s ∈ c.archive.snapshots)
    (hpolicy : s.policy = .unclaimedSnapshot) (hrequest : request ≠ .dispose s.id) :
    s.id ∉ requestIds events := by
  have hstays := stays_step hc hs hstep hmem hpolicy hrequest
  have hround := (hs.isOver s hmem).2
  cases Files.of_step hc hstep with
  | same archive silent => simp [silent]
  | failed asked there full gone finalized archive heard requests =>
    have hne := hc.ne_of_completes hround there full
    rw [requests]
    intro hid
    rcases List.mem_append.1 hid with hid | hid
    · exact hne ((finalize_of_error finalized).2.1 _ hid).symm
    · exact hne (List.mem_singleton.1 hid).symm
  | finished asked there full gone finalized archive requests answered =>
    obtain ⟨rfl, b, htakes, rfl, hids⟩ := finalize_of_ok finalized
    rw [requests]
    intro hid
    rcases hids _ hid with hid | hid
    · exact hc.ne_of_completes hround there full hid.symm
    · obtain ⟨t, ht, hid⟩ := List.mem_map.1 hid
      rw [archive] at hstays
      exact (htakes.ascending hs.ascending).ne_of_perm b.retention.perm_subsume ht hstays hid
  | relabeled asked newest claimed archive silent answered => simp [silent]
  | removed asked unregistered silent => simp [silent]
  | disposed asked found unregistered archive heard requests =>
    rw [requests]
    intro hid
    rw [List.mem_singleton.1 hid] at hrequest
    exact hrequest asked
  | closed asked archive requests =>
    rename_i status
    rw [requests, Archive.requestIds_close]
    intro hid
    obtain ⟨t, ht, hid⟩ := List.mem_map.1 hid
    rcases List.mem_append.1 ht with ht | ht
    · exact (ha t ht).2 s hmem hid.symm
    · obtain ⟨ht, hgo⟩ := List.mem_filter.1 ht
      rw [hs.ascending.eq_of_id ht hmem hid, hpolicy] at hgo
      cases status <;> cases hgo

/-- A snapshot that was restored without being claimed is registered as unclaimed; before, it was so
under some policy. -/
theorem restored_step (hstandard : c.Standard)
    (hstep : c.step (.restore .noClaim) = .ok (c', events, .restored (.ok (some s)))) :
    events = [] ∧ s ∈ c'.archive.snapshots ∧ ∃ latest ∈ c.archive.snapshots,
      s = { latest with policy := .unclaimedSnapshot } := by
  cases Performs.of_step hstep with
  | restore hrestore =>
    rcases restore_cases c .noClaim with ⟨-, he⟩ | ⟨latest, hlatest, ⟨hmode, he⟩ | ⟨-, hlabel⟩⟩
    · cases he.symm.trans hrestore
    · cases he.symm.trans hrestore
      have hmem := Retention.mem_of_latest? hlatest
      refine ⟨rfl, hmem, s, hmem, ?_⟩
      rw [← (hstandard.snapshots s hmem).of_unclaimed (hmode.resolve_left (by simp))]
    · rcases hlabel with ⟨t, hfound, he⟩ | ⟨-, he⟩ <;> cases he.symm.trans hrestore
      obtain ⟨hmem, hid⟩ := Retention.mem_of_find? hfound
      obtain ⟨t, ht, rfl⟩ := List.mem_map.1 hmem
      refine ⟨rfl, hmem, t, ht, ?_⟩
      split
      · rfl
      · next hne =>
        rw [if_neg hne] at hid
        exact absurd hid hne

/-- A run in which snapshots are only triggered under policies that jobs use keeps the
invariants. -/
theorem Standard.of_run {first : Coordinator} {past : List Moment}
    (h : Run SameMedium first past c) (hfirst : first.Tended start base)
    (hstandard : first.Standard)
    (hfits : ∀ m ∈ past, m.request.Fits ∧ m.before.tasks.size ≤ Word.max64)
    (hpast : ∀ m ∈ past, m.request.Standard) : c.Tended start base ∧ c.Standard := by
  have hinvariant := Tended.invariant (P := Standard) (Q := fun _ request => request.Standard) h
    hfirst hfits (fun _ hp => hp.withVault _)
    (fun ht hp _ hrequest hstep => hp.step ht.orderly ht.shelved hrequest hstep) hstandard hpast
  exact ⟨(tended_of_run h hfirst hfits).1, hinvariant.1⟩

/-- A run leaves a registered unclaimed snapshot alone. -/
theorem Tended.of_run {first : Coordinator} {future : List Moment}
    (h : Run SameMedium first future c) (hfirst : first.Tended start base)
    (hmem : s ∈ first.archive.snapshots) (hpolicy : s.policy = .unclaimedSnapshot)
    (hfits : ∀ m ∈ future, m.request.Fits ∧ m.before.tasks.size ≤ Word.max64)
    (hkeep : ∀ m ∈ future, m.request ≠ .dispose s.id) :
    c.Tended start base ∧ Spares s.id first.archive.vault.medium c.archive.vault.medium ∧
      ∀ m ∈ future, s ∈ m.after.archive.snapshots ∧ s.id ∉ requestIds m.events := by
  obtain ⟨hlast, htended⟩ := tended_of_run h hfirst hfits
  have hinvariant := Tended.invariant
    (P := fun c => s ∈ c.archive.snapshots ∧
      Spares s.id first.archive.vault.medium c.archive.vault.medium)
    (Q := fun _ request => request ≠ .dispose s.id) h hfirst hfits
    (fun {c vault} hsame hc => ⟨hc.1, by
      show Spares s.id _ vault.medium
      rw [hsame]
      exact hc.2⟩)
    (fun ht hc _ hrequest hstep => by
      have hstays := stays_step ht.orderly ht.shelved hstep hc.1 hpolicy hrequest
      exact ⟨hstays, hc.2.trans
        (ht.apart.spares_step ht.orderly ht.shelved ht.cataloged.housed hstep hc.1 hstays rfl)⟩)
    ⟨hmem, .refl _ _⟩ hkeep
  refine ⟨hlast, hinvariant.1.2, fun m hm => ?_⟩
  obtain ⟨⟨hs, -⟩, hstays, -⟩ := hinvariant.2 m hm
  have ht := (htended m hm).1
  exact ⟨hstays, silent_step ht.orderly ht.shelved ht.apart (h.step_of_mem hm) hs hpolicy
    (hkeep m hm)⟩

end Coordinator

/-! ### The main statement -/

/-- Whoever opens the directory finds the snapshot as it is here, and whoever then restores the
snapshot of its id by claiming it gets the same. -/
def Finds (text : String) (disk : Disk) (s : Snapshot) : Prop :=
  ∀ maxRetained, ∃ a, Archive.openDirectory text maxRetained disk = .ok a ∧ s ∈ a.snapshots ∧
    ∀ settings hasHandler c t, Coordinator.open? settings a hasHandler = .ok c →
      (c.restore .claim).2 = .ok (some t) → t.id = s.id → t = s

section

variable {text : String} {start disk : Disk} {base : Location} {s : Snapshot}

/-- Who claims a snapshot gets one that is registered. -/
theorem Coordinator.mem_of_claim {c : Coordinator} (h : (c.restore .claim).2 = .ok (some s)) :
    s ∈ c.archive.snapshots := by
  rcases restore_cases c .claim with ⟨-, he⟩ | ⟨latest, hlatest, ⟨-, he⟩ | ⟨hmode, -⟩⟩
  · rw [he] at h
    cases h
  · rw [he] at h
    cases h
    exact Retention.mem_of_latest? hlatest
  · exact absurd (Or.inl rfl) hmode

theorem finds_of_record (hlocate : start.locate text = .ok base)
    (hbase : start.node? base.path = some .directory) (hempty : start.listing base.path = [])
    (hd : Catalog start base disk) (hs : s.Recordable)
    (hrecord : (Medium.directory base disk).HasRecord s) : Finds text disk s := by
  have hfiled : Filed disk base s := by
    cases hrecord with
    | directory record => exact hd.filed hs record
  intro maxRetained
  obtain ⟨a, hopen, hascending, hlive⟩ := hd.openDirectory hlocate hbase hempty maxRetained
  refine ⟨a, hopen, (hlive s).2 hfiled, fun settings hasHandler c t hbegun hclaim hid => ?_⟩
  obtain ⟨rfl, -⟩ := Coordinator.state_of_open hascending hbegun
  exact ((hlive t).1 (Coordinator.mem_of_claim hclaim)).eq_of_id hfiled hid

/-- A snapshot that was restored without being claimed is left alone.  Snapshots with policies that
jobs use were written in a directory; a run that has opened it restores one of them without
claiming it, and goes on in any way but to dispose of it.  Then storage is never asked for anything
about the snapshot, which stays registered, with its states; and whoever opens the directory finds
it as it was on record before it was restored, also when a later run claims it. -/
theorem unclaimed_left_alone {medium : Medium} {faults : FaultPlan} {maxRetained : Nat}
    {archive : Archive} {settings : Settings} {hasHandler : Bool} {first c : Coordinator}
    {past future : List Moment} {m : Moment} {r : Snapshot} (hlocate : start.locate text = .ok base)
    (hbase : start.node? base.path = some .directory) (hempty : start.listing base.path = [])
    (hwritten : Written text start disk) (hopened : Medium.openDirectory text disk = .ok medium)
    (hstored : Archive.open? (.of medium faults) maxRetained = .ok archive)
    (hstandard : ∀ s ∈ archive.snapshots, s.policy.Standard)
    (hbegun : Coordinator.open? settings archive hasHandler = .ok first)
    (hrun : Run SameMedium first (past ++ m :: future) c)
    (hfits : ∀ m' ∈ past ++ m :: future, m'.request.Fits ∧ m'.before.tasks.size ≤ Word.max64)
    (hpast : ∀ m' ∈ past, m'.request.Standard) (hrequest : m.request = .restore .noClaim)
    (hreply : m.reply = .restored (.ok (some r)))
    (hkeep : ∀ m' ∈ future, m'.request ≠ .dispose r.id) :
    (∀ m' ∈ m :: future, r ∈ m'.after.archive.snapshots ∧
      ∀ call refused, .storage call refused ∈ m'.events → call.id ≠ r.id) ∧
    (∀ run state, c.archive.vault.medium.load r.id run = .ok state ↔
      m.before.archive.vault.medium.load r.id run = .ok state) ∧
    ∃ before after recorded, m.before.archive.vault.medium = .directory base before ∧
      c.archive.vault.medium = .directory base after ∧
      r = { recorded with policy := .unclaimedSnapshot } ∧
      Finds text before recorded ∧ Finds text after recorded := by
  -- The run starts with the records in the directory, and keeps them up to the restoration.
  have hd := catalog_of_written hlocate hbase hempty hwritten
  cases (openDirectory_of_since hlocate hbase hempty hd.since).symm.trans hopened
  obtain ⟨c₀, vault, hfirst, hchange, hbefore, hstep, hrest⟩ := hrun.moment
  obtain ⟨ht, hp⟩ : m.before.Tended start base ∧ m.before.Standard := by
    obtain ⟨ht, hp⟩ := Coordinator.Standard.of_run hfirst
      (Coordinator.tended_of_open hd hstored hbegun).1
      (Coordinator.standard_of_open hstandard hbegun)
      (fun m' hm' => hfits m' (List.mem_append_left _ hm')) hpast
    rw [hbefore]
    exact ⟨ht.withVault hchange, hp.withVault _⟩
  -- The restoration changes nothing but the policy,
  obtain ⟨hfits₀, hroom⟩ := hfits m (List.mem_append_right _ List.mem_cons_self)
  have hafter := ht.step hfits₀ hroom hstep
  have hrestored := hstep
  rw [hrequest, hreply] at hrestored
  obtain ⟨hquiet, hmem, latest, hlatest, hr⟩ := Coordinator.restored_step hp hrestored
  have hid : r.id = latest.id := by rw [hr]
  have hspares₀ := ht.apart.spares_step ht.orderly ht.shelved ht.cataloged.housed hstep hlatest
    hmem hid
  -- and the rest of the run leaves the snapshot alone.
  obtain ⟨hlast, hspares, hfuture⟩ := Coordinator.Tended.of_run hrest hafter hmem (by rw [hr])
    (fun m' hm' => hfits m' (List.mem_append_right _ (List.mem_cons_of_mem _ hm'))) hkeep
  rw [← hid] at hspares₀
  have hspared := hspares₀.trans hspares
  refine ⟨fun m' hm' => ?_, fun run state => hspared.load ht.cataloged.housed, ?_⟩
  · have hsilent : r ∈ m'.after.archive.snapshots ∧ r.id ∉ requestIds m'.events := by
      rcases List.mem_cons.1 hm' with rfl | hm'
      · exact ⟨hmem, by simp [hquiet]⟩
      · exact hfuture m' hm'
    refine ⟨hsilent.1, fun call refused hcall heq => hsilent.2 ?_⟩
    exact List.mem_filterMap.2 ⟨_, hcall, congrArg some heq⟩
  · obtain ⟨policy, hs, hrecord⟩ := ht.backed latest hlatest
    obtain ⟨before, hmbefore, hdbefore⟩ := ht.cataloged
    obtain ⟨after, hmafter, hdafter⟩ := hlast.cataloged
    rw [hid] at hspared
    have hrecord' := Spares.hasRecord (s := { latest with policy := policy }) hspared hrecord
    rw [hmbefore] at hrecord
    rw [hmafter] at hrecord'
    exact ⟨before, after, { latest with policy := policy }, hmbefore, hmafter, hr,
      finds_of_record hlocate hbase hempty hdbefore hs hrecord,
      finds_of_record hlocate hbase hempty hdafter hs hrecord'⟩

end

/-- The directory `d` of `workDisk`. -/
def workBase : Location := ⟨"d", ["d"], none⟩

/-- A checkpoint of one task. -/
def checkpointOnRecord : Snapshot :=
  ⟨1, .ofRetention .neverAfterTermination, 10, 20, Table.insert ∅ ⟨1, 0, 0⟩ [7], none⟩

/-- The disk on which it was written. -/
def recordedDisk : Disk :=
  (saveRecord (persist workDisk workBase 1 ⟨1, 0, 0⟩ [7]).1 workBase checkpointOnRecord).1

/-- The archive of that disk, which keeps one snapshot. -/
def recordedArchive : Archive :=
  ⟨.of (.directory workBase recordedDisk) .none, ⟨1, [checkpointOnRecord], []⟩⟩

theorem open?_recordedDisk :
    Archive.open? (.of (.directory workBase recordedDisk) .none) 1 = .ok recordedArchive := by
  cbv

/-- The requests of the run that writes it. -/
def earlierRequests : List Request :=
  [.register ⟨1, 0, 0⟩ .running, .trigger (.ofRetention .neverAfterTermination) 10,
    .acknowledge 1 ⟨1, 0, 0⟩ [7] 20]

/-- The requests of a run that restores it without claiming it. -/
def laterRequests : List Request :=
  [.restore .noClaim, .register ⟨1, 0, 1⟩ .running,
    .trigger (.ofRetention .neverAfterTermination) 30, .acknowledge 2 ⟨1, 0, 1⟩ [8] 40,
    .close .finished]

/-- A checkpoint that goes with every job stays, with its record, when the run that has restored it
without claiming it ends. -/
theorem unclaimed_left_alone_of_checkpoint : ∃ archive first history c after,
    Archive.open? (.of (.directory workBase recordedDisk) .none) 1 = .ok archive ∧
    Coordinator.open? .default archive false = .ok first ∧
    first.perform laterRequests = (history, c) ∧
    c.archive.snapshots = [{ checkpointOnRecord with policy := .unclaimedSnapshot }] ∧
    c.archive.vault.medium = .directory workBase after ∧ Finds "d" after checkpointOnRecord := by
  have hlocate : workDisk.locate "d" = .ok workBase := by cbv
  have hempty : workDisk.listing ["d"] = [] := by cbv
  -- An earlier run has written the checkpoint.
  have hwritten : Written "d" workDisk recordedDisk := by
    obtain ⟨archive, first, hstored, hbegun, hfits, hleft⟩ : ∃ archive first,
        Archive.open? (.of (.directory workBase workDisk) .none) 1 = .ok archive ∧
        Coordinator.open? .default archive false = .ok first ∧
        (∀ m ∈ (first.perform earlierRequests).1,
          m.request.Fits ∧ m.before.tasks.size ≤ Word.max64) ∧
        (first.perform earlierRequests).2.archive.vault.medium =
          .directory workBase recordedDisk :=
      ⟨⟨.of (.directory workBase workDisk) .none, .empty 1⟩, _, by cbv, rfl, by decide +kernel, rfl⟩
    have hopened := openDirectory_of_since hlocate rfl hempty fun _ hdir => hdir
    exact written_of_leftBehind hlocate rfl hempty (.run .start hopened hstored hbegun
      (Run.of_perform SameMedium.refl first earlierRequests) hfits hleft)
  have hopened := openDirectory_of_since hlocate rfl hempty
    (catalog_of_written hlocate rfl hempty hwritten).since
  obtain ⟨archive, first, m, future, c, hstored, hlive, hbegun, hperform, hrequest, hreply,
      hsnapshots, hmedium, hrequests, hfits⟩ : ∃ archive first m future c,
        Archive.open? (.of (.directory workBase recordedDisk) .none) 1 = .ok archive ∧
        archive.snapshots = [checkpointOnRecord] ∧
        Coordinator.open? .default archive false = .ok first ∧
        first.perform laterRequests = (m :: future, c) ∧ m.request = .restore .noClaim ∧
        m.reply =
          .restored (.ok (some { checkpointOnRecord with policy := .unclaimedSnapshot })) ∧
        c.archive.snapshots = [{ checkpointOnRecord with policy := .unclaimedSnapshot }] ∧
        m.before.archive.vault.medium = .directory workBase recordedDisk ∧
        (m :: future).map (·.request) = laterRequests ∧
        ∀ m' ∈ (first.perform laterRequests).1,
          m'.request.Fits ∧ m'.before.tasks.size ≤ Word.max64 :=
    ⟨recordedArchive, _, _, _, _, open?_recordedDisk, rfl, rfl, rfl, rfl, rfl, rfl, rfl, rfl,
      by decide +kernel⟩
  have hstandard : ∀ s ∈ archive.snapshots, s.policy.Standard := by
    rw [hlive]
    exact List.forall_mem_singleton.2 (SnapshotPolicy.Standard.ofRetention .neverAfterTermination)
  have hkeep : ∀ m' ∈ future, m'.request ≠ .dispose 1 := by
    intro m' hm' hdispose
    have hmem := List.mem_map_of_mem (f := (·.request)) (List.mem_cons_of_mem m hm')
    rw [hrequests, hdispose] at hmem
    simp [laterRequests] at hmem
  have hrun : Run SameMedium first ([] ++ m :: future) c := by
    have hrun := Run.of_perform SameMedium.refl first laterRequests
    rw [hperform] at hrun
    exact hrun
  rw [hperform] at hfits
  obtain ⟨-, -, before, after, recorded, hbefore, hafter, -, hfound, hfinds⟩ :=
    unclaimed_left_alone hlocate rfl hempty hwritten hopened hstored hstandard hbegun hrun hfits
      (by simp) hrequest hreply hkeep
  cases hmedium.symm.trans hbefore
  -- What was on record is the checkpoint.
  obtain ⟨a, ha, hmem, -⟩ := hfound 1
  unfold Archive.openDirectory at ha
  rw [hopened] at ha
  dsimp only at ha
  rw [hstored] at ha
  cases ha
  rw [hlive] at hmem
  rw [List.mem_singleton.1 hmem] at hfinds
  exact ⟨archive, first, _, c, after, hstored, hbegun, hperform, hsnapshots, hafter, hfinds⟩

end Checkpointing
