import Mathlib.Tactic
import Checkpointing.Proofs.Storage.Base
import Checkpointing.Proofs.Storage.Records
import Checkpointing.Proofs.Storage.Retention
import Checkpointing.Proofs.Table

/-!
# Opening a directory again

If every record of a base directory is in its place, the directory's archive can be opened: it
registers exactly the snapshots that have a record.  If all records can be recovered, the states of
these snapshots can be loaded as well.

* `openDirectory_of_since`: the path that led to the base directory still does;
* `open?_of_readRecords`: an archive can be opened if all records can be read;
* `Filed` is one record in its place, `Legible` a base directory with no other records;
* `Legible.readRecordsOf`, `Legible.readRecords`: reading fails for no record and leaves none out;
* `Legible.open?`: the archive can be opened;
* `Archive.Reopened` says what an archive is that was opened on recoverable records, `Records.open?`
  that it can be.
-/

namespace Checkpointing
namespace Directory

open Disk

variable {start d : Disk} {base : Location} {known : Nat → Prop} {s t : Snapshot}

/-- The record of a snapshot is in its place. -/
structure Filed (d : Disk) (base : Location) (s : Snapshot) : Prop where
  recordable : s.Recordable
  usable : (Directory.record base s.id).Usable
  place : d.node? (base.path ++ [snapshotName s.id]) = some .directory
  record : d.node? (base.path ++ [snapshotName s.id, "_metadata"]) =
    some (.file (Record.snapshot.encode s))

/-- Every record in the base directory is that of a snapshot, in its place. -/
structure Legible (base : Location) (d : Disk) : Prop where
  hosts : d.Hosts base
  distinct : d.Distinct base.path
  sound : ∀ {name : String} {n : Node}, d.node? (base.path ++ [name, "_metadata"]) = some n →
    ∃ s, name = snapshotName s.id ∧ Filed d base s

/-- There is one record in a place. -/
theorem Filed.eq_of_id (h : Filed d base s) (h' : Filed d base t) (hid : s.id = t.id) : s = t := by
  have hrecord := h.record
  rw [hid, h'.record] at hrecord
  have hread := Record.read?_encode_snapshot h.recordable
  rw [← Node.file.inj (Option.some.inj hrecord),
    Record.read?_encode_snapshot h'.recordable] at hread
  exact (Option.some.inj hread).symm

theorem Filed.readRecord (h : Filed d base s) (hbase : d.Hosts base) :
    readRecord d (base.child (snapshotName s.id)) = .ok (some s) := by
  have hrecord : d.node? (Directory.record base s.id).path =
      some (.file (Record.snapshot.encode s)) := by
    rw [record_eq, Location.path_grandchild]
    exact h.record
  have hthere := (isThereAt_iff hbase (Eq.refl (Directory.record base s.id).detours)).2
    ⟨h.usable, isThere_iff.2 ⟨_, hrecord⟩⟩
  have hreach := reach_of_hosts hbase (Eq.refl (Directory.record base s.id).detours) h.usable
  unfold Directory.readRecord
  dsimp only
  rw [← record_eq, if_pos hthere, hreach]
  simp only [Except.bind, readFile_eq_ok.2 hrecord, Record.read?_encode_snapshot h.recordable]

/-- Whatever the name of a directory, there is no record in it or that of a snapshot. -/
theorem Legible.readRecord (h : Legible base d) (name : String) :
    readRecord d (base.child name) = .ok none ∨
    ∃ s, name = snapshotName s.id ∧ Filed d base s ∧
      readRecord d (base.child name) = .ok (some s) := by
  cases hthere : d.isThereAt ((base.child name).child "_metadata") with
  | false =>
    left
    unfold Directory.readRecord
    dsimp only
    rw [hthere]
    rfl
  | true =>
    right
    obtain ⟨-, hnode⟩ :=
      (isThereAt_iff (l := (base.child name).child "_metadata") h.hosts rfl).1 hthere
    obtain ⟨n, hn⟩ := isThere_iff.1 hnode
    rw [Location.path_grandchild] at hn
    obtain ⟨s, rfl, hfiled⟩ := h.sound hn
    exact ⟨s, rfl, hfiled, hfiled.readRecord h.hosts⟩

/-- Reading the records of named directories finds all that are there, each under its own name. -/
theorem Legible.readRecordsOf (h : Legible base d) (names : List String) :
    ∃ l, readRecordsOf d base names = .ok l ∧
      (l.map fun s => snapshotName s.id).Sublist names ∧ (∀ s ∈ l, Filed d base s) ∧
      ∀ s, Filed d base s → snapshotName s.id ∈ names → s ∈ l := by
  induction names with
  | nil => exact ⟨[], rfl, .slnil, by simp, by simp⟩
  | cons name names ih =>
    obtain ⟨l, hl, hsub, hsound, hfull⟩ := ih
    rw [Directory.readRecordsOf]
    -- The directory of a record is not passed over.
    have hcount : ∀ s, Filed d base s → name = snapshotName s.id →
        ((idOfName? name).isSome && d.isDirectory (base.child name).path) = true := by
      rintro s hfiled rfl
      rw [idOfName?_snapshotName hfiled.recordable.id]
      exact beq_iff_eq.2 hfiled.place
    split
    · rcases h.readRecord name with hnone | ⟨s, rfl, hfiled, hread⟩
      · rw [hnone, hl]
        refine ⟨l, rfl, hsub.cons _, hsound, fun t ht hmem => ?_⟩
        rcases List.mem_cons.1 hmem with rfl | hmem
        · rw [ht.readRecord h.hosts] at hnone
          cases hnone
        · exact hfull t ht hmem
      · rw [hread, hl]
        refine ⟨s :: l, rfl, hsub.cons_cons _, ?_, fun t ht hmem => ?_⟩
        · exact List.forall_mem_cons.2 ⟨hfiled, hsound⟩
        · rcases List.mem_cons.1 hmem with heq | hmem
          · have hread' := ht.readRecord h.hosts
            rw [heq, hread] at hread'
            cases hread'
            exact List.mem_cons_self
          · exact List.mem_cons_of_mem _ (hfull t ht hmem)
    · next hskip =>
      refine ⟨l, hl, hsub.cons _, hsound, fun t ht hmem => ?_⟩
      rcases List.mem_cons.1 hmem with heq | hmem
      · exact absurd (hcount t ht heq.symm) hskip
      · exact hfull t ht hmem

/-- Reading all records succeeds, finds every snapshot that has one, and no id twice. -/
theorem Legible.readRecords (h : Legible base d) :
    ∃ l, readRecords d base = .ok l ∧ (l.map (·.id)).Nodup ∧ ∀ s, s ∈ l ↔ Filed d base s := by
  obtain ⟨names, hnames⟩ := names_eq_ok (h.hosts.root base.path (List.prefix_refl _))
  obtain ⟨l, hl, hsub, hsound, hfull⟩ := h.readRecordsOf names
  have hperm := List.mergeSort_perm l fun a b => a.id ≤ b.id
  refine ⟨l.mergeSort fun a b => a.id ≤ b.id, ?_, ?_,
    fun s => hperm.mem_iff.trans ⟨hsound s, fun hs => hfull s hs ?_⟩⟩
  · unfold Directory.readRecords
    rw [reach_base h.hosts, Except.bind, hnames]
    dsimp only
    rw [hl]
    rfl
  · -- Distinct names have distinct ids.
    rw [(hperm.map _).nodup_iff]
    have hnodup := hsub.nodup (nodup_names hnames h.distinct)
    rw [show (fun s : Snapshot => snapshotName s.id) = snapshotName ∘ (·.id) from rfl,
      ← List.map_map] at hnodup
    exact hnodup.of_map _
  · refine (mem_names hnames).2 (mem_nodes_of_node? (isAbove_snapshot _ _ _) hs.place)

/-- Records that can be recovered are in their places. -/
theorem Kept.filed (h : Kept d base s) : Filed d base s :=
  ⟨h.recordable, h.usable, h.place, h.record⟩

theorem Records.legible (h : Records start base known d) : Legible base d where
  hosts := h.hosts
  distinct := h.distinct
  sound hthere := by
    obtain ⟨s, hname, -, hkept⟩ := h.sound hthere
    exact ⟨s, hname, hkept.filed⟩

theorem Records.kept_iff (h : Records start base known d) : Filed d base s ↔ Kept d base s := by
  refine ⟨fun hs => ?_, Kept.filed⟩
  obtain ⟨t, hname, -, hkept⟩ := h.sound hs.record
  rw [hs.eq_of_id hkept.filed (snapshotName_injective hname)]
  exact hkept

end Directory

/-! ### Archives -/

open Directory

variable {start d : Disk} {base : Location} {known : Nat → Prop}

/-- A path that leads to a directory opens it. -/
theorem openDirectory_of_locate {text : String} (hlocate : d.locate text = .ok base)
    (hbase : d.node? base.path = some .directory) :
    Medium.openDirectory text d = .ok (.directory base d) := by
  unfold Medium.openDirectory
  rw [Disk.ensureRoute_of_locate hlocate hbase]
  dsimp only
  rw [hlocate]

/-- As long as no other directory is gone, the base directory is the same to whoever opens it by the
same path. -/
theorem openDirectory_of_since {text : String} (hlocate : start.locate text = .ok base)
    (hbase : start.node? base.path = some .directory) (hempty : start.listing base.path = [])
    (hsince : ∀ {p : Path}, (∀ name rest, p ≠ base.path ++ name :: rest) →
      start.node? p = some .directory → d.node? p = some .directory) :
    Medium.openDirectory text d = .ok (.directory base d) := by
  have hkept : ∀ q, start.node? q = some .directory → d.node? q = some .directory := by
    intro q hq
    cases habove : q.isAbove with
    | true => exact Disk.node?_of_isAbove habove
    | false => exact hsince (Disk.not_below_of_listing hempty habove hq) hq
  exact openDirectory_of_locate (Disk.locate_of_kept hlocate hbase hkept) (hkept _ hbase)

/-- An archive can be opened if all records can be read and no two tell one id. -/
theorem open?_of_readRecords (h : d.Hosts base) {l : List Snapshot}
    (hl : readRecords d base = .ok l) (hnodup : (l.map (·.id)).Nodup) (faults : FaultPlan)
    (maxRetained : Nat) :
    ∃ a, Archive.open? (.of (.directory base d) faults) maxRetained = .ok a ∧
      a.vault.medium = .directory base d ∧ Retention.Ascending a.snapshots ∧
      a.retention.backlog = [] ∧ ∀ s, s ∈ a.snapshots ↔ s ∈ l := by
  obtain ⟨r, hr, hperm, hasc⟩ :=
    (Retention.empty maxRetained).insertAll?_eq_ok l .nil (by simpa [Retention.empty] using hnodup)
  have hlive : ∀ s, s ∈ r.live ↔ s ∈ l := fun s => by
    simpa [Retention.empty] using hperm.mem_iff (a := s)
  refine ⟨⟨.of (.directory base d) faults, r⟩, ?_, rfl, hasc, Retention.backlog_insertAll? hr,
    hlive⟩
  unfold Archive.open?
  have hprepare : (Vault.of (.directory base d) faults).medium.prepare =
      .ok (.directory base d) := by
    unfold Medium.prepare Vault.of
    dsimp only
    rw [Disk.createDirectoriesAt_of_hosts h]
  rw [hprepare]
  dsimp only [Medium.records]
  rw [hl]
  dsimp only
  rw [hr]
  rfl

/-- An archive makes sure that its base directory is there. -/
theorem Archive.node?_of_open {a : Archive} {vault : Vault} {maxRetained : Nat}
    (h : Archive.open? vault maxRetained = .ok a) (hmedium : a.vault.medium = .directory base d) :
    d.node? base.path = some .directory := by
  obtain ⟨hprepare, -⟩ := open?_eq_ok h
  rw [hmedium] at hprepare
  unfold Medium.prepare at hprepare
  split at hprepare
  · cases hprepare
  · split at hprepare
    · next hcreate =>
      cases hprepare
      exact Disk.node?_createDirectoriesAt_self hcreate
    · cases hprepare

/-- The archive of a base directory can be opened if every record is in its place. -/
theorem Directory.Legible.open? (h : Legible base d) (faults : FaultPlan) (maxRetained : Nat) :
    ∃ a, Archive.open? (.of (.directory base d) faults) maxRetained = .ok a ∧
      a.vault.medium = .directory base d ∧ Retention.Ascending a.snapshots ∧
      a.retention.backlog = [] ∧ ∀ s, s ∈ a.snapshots ↔ Filed d base s := by
  obtain ⟨l, hl, hnodup, hmem⟩ := h.readRecords
  obtain ⟨a, hopen, hmedium, hasc, hbacklog, hlive⟩ :=
    open?_of_readRecords h.hosts hl hnodup faults maxRetained
  exact ⟨a, hopen, hmedium, hasc, hbacklog, fun s => (hlive s).trans (hmem s)⟩

/-- An archive as it was opened on a disk: it registers the snapshots that are kept there, in
ascending order. -/
structure Archive.Reopened (a : Archive) (base : Location) (d : Disk) : Prop where
  medium : a.vault.medium = .directory base d
  ascending : Retention.Ascending a.snapshots
  live : ∀ s, s ∈ a.snapshots ↔ Kept d base s

theorem Directory.Records.open? (h : Records start base known d) (faults : FaultPlan)
    (maxRetained : Nat) : ∃ a, Archive.open? (.of (.directory base d) faults) maxRetained = .ok a ∧
      a.Reopened base d := by
  obtain ⟨a, hopen, hmedium, hasc, -, hlive⟩ := h.legible.open? faults maxRetained
  exact ⟨a, hopen, hmedium, hasc, fun s => (hlive s).trans h.kept_iff⟩

/-- The states of every registered snapshot can be loaded. -/
theorem Archive.Reopened.load {a : Archive} (h : a.Reopened base d) (hbase : d.Hosts base)
    {s : Snapshot} (hs : s ∈ a.snapshots) {run : TaskRun} {state : Bytes}
    (hfind : s.handles.find? run = some state) : a.vault.medium.load s.id run = .ok state := by
  rw [h.medium]
  exact (load_eq_ok hbase).2 (((h.live s).1 hs).states hfind)

end Checkpointing
