import Mathlib.Tactic
import Checkpointing.Proofs.Storage.Reopening

/-!
# What a base directory tells

Whatever lies in a base directory, its records are read from the directories that are named for a
snapshot, each from its own; the name of the directory does not have to be the one that the record's
snapshot would be written to.

* `Directory.Holds` says that a directory holds the record of a snapshot, `Directory.Readable` that
  no record stands in the way of reading all;
* `readRecords_eq_ok` and `exists_readRecords` say what is read, and when;
* `Archive.listing_of_open`, `Archive.exists_open?`: what an archive registers, and when it can be
  opened.
-/

namespace Checkpointing
namespace Directory

open Disk

variable {d d' : Disk} {base : Location} {name : String} {s : Snapshot} {id : Nat}

/-- A directory of this name is looked into for a record. -/
def Counts (d : Disk) (base : Location) (name : String) : Prop :=
  ((idOfName? name).isSome && d.isDirectory (base.child name).path) = true

/-- The directory of this name is looked into, and holds the record of a snapshot. -/
structure Holds (d : Disk) (base : Location) (name : String) (s : Snapshot) : Prop where
  counts : Counts d base name
  record : readRecord d (base.child name) = .ok (some s)

/-- Wherever a record is looked for, there is a whole one or none. -/
def Readable (d : Disk) (base : Location) : Prop :=
  ∀ name, Counts d base name → ∃ found, readRecord d (base.child name) = .ok found

instance : Decidable (Counts d base name) := inferInstanceAs (Decidable (_ = true))

/-- The record in the directory of this name, if one is found. -/
def recordsIn (d : Disk) (base : Location) (name : String) : List Snapshot :=
  if Counts d base name then
    match readRecord d (base.child name) with
    | .ok found => found.toList
    | .error _ => []
  else []

/-- The names of what lies in a directory. -/
def entryNames (d : Disk) (p : Path) : List String := d.nodes.filterMap fun e => entryName? p e.1

theorem mem_recordsIn : s ∈ recordsIn d base name ↔ Holds d base name s := by
  unfold recordsIn
  constructor
  · intro hs
    split at hs
    · next hcounts =>
      split at hs
      · next found hread =>
        rw [Option.mem_toList] at hs
        exact ⟨hcounts, by rw [hread, hs]⟩
      · cases hs
    · cases hs
  · rintro ⟨hcounts, hread⟩
    rw [if_pos hcounts, hread]
    exact List.mem_singleton_self s

/-- Only what is named for a snapshot counts, and that does not lie above the working directory. -/
theorem Counts.isAbove (h : Counts d base name) : Path.isAbove (base.path ++ [name]) = false := by
  obtain ⟨hname, -⟩ := Bool.and_eq_true_iff.1 h
  have hne : ∀ other, idOfName? other = none → name ≠ other := by
    rintro _ hnone rfl
    rw [hnone] at hname
    cases hname
  have hup := hne ".." (by decide)
  have hroot := hne "/" (by decide)
  simp [Path.isAbove, hup, hroot]

theorem Counts.directory (h : Counts d base name) :
    d.node? (base.path ++ [name]) = some .directory :=
  beq_iff_eq.1 (Bool.and_eq_true_iff.1 h).2

theorem Counts.mem_entryNames (h : Counts d base name) : name ∈ entryNames d base.path := by
  obtain ⟨e, he, hpath⟩ := List.mem_map.1 (mem_nodes_of_node? h.isAbove h.directory)
  exact List.mem_filterMap.2 ⟨e, he, entryName?_eq_some.2 hpath⟩

theorem recordsIn_of_ok (hcounts : Counts d base name) {found : Option Snapshot}
    (hread : readRecord d (base.child name) = .ok found) : recordsIn d base name = found.toList := by
  rw [recordsIn, if_pos hcounts, hread]

theorem recordsIn_of_not_counts (h : ¬Counts d base name) : recordsIn d base name = [] := if_neg h

/-- Reading the records of named directories finds what is in them, in order, if each of them can be
read. -/
theorem readRecordsOf_of_readable {names : List String}
    (h : ∀ name ∈ names, Counts d base name →
      ∃ found, readRecord d (base.child name) = .ok found) :
    readRecordsOf d base names = .ok (names.flatMap (recordsIn d base)) := by
  induction names with
  | nil => rfl
  | cons name names ih =>
    obtain ⟨hfirst, hrest⟩ := List.forall_mem_cons.1 h
    rw [readRecordsOf, List.flatMap_cons, ih hrest]
    split
    · next hcounts =>
      obtain ⟨found, hread⟩ := hfirst hcounts
      rw [hread, recordsIn_of_ok hcounts hread]
      rfl
    · next hskip =>
      rw [recordsIn_of_not_counts hskip]
      rfl

/-- Otherwise reading fails. -/
theorem readable_of_readRecordsOf {names : List String} {l : List Snapshot}
    (h : readRecordsOf d base names = .ok l) :
    ∀ name ∈ names, Counts d base name →
      ∃ found, readRecord d (base.child name) = .ok found := by
  induction names generalizing l with
  | nil => simp
  | cons name names ih =>
    rw [readRecordsOf] at h
    split at h
    · split at h
      · cases h
      · next found hread =>
        cases hrest : readRecordsOf d base names with
        | error e =>
          rw [hrest] at h
          cases h
        | ok rest => exact List.forall_mem_cons.2 ⟨fun _ => ⟨found, hread⟩, ih hrest⟩
    · next hskip => exact List.forall_mem_cons.2 ⟨fun hcounts => absurd hcounts hskip, ih h⟩

/-- Reading all records succeeds just when none stands in the way. -/
theorem readRecords_eq_ok (h : d.Hosts base) {l : List Snapshot} (hl : readRecords d base = .ok l) :
    Readable d base ∧ l.Perm ((entryNames d base.path).flatMap (recordsIn d base)) := by
  obtain ⟨names, hnames⟩ := names_eq_ok (h.root base.path (List.prefix_refl _))
  have hperm : names.Perm (entryNames d base.path) := perm_names hnames
  unfold readRecords at hl
  rw [reach_base h, Except.bind, hnames] at hl
  dsimp only at hl
  cases hread : readRecordsOf d base names with
  | error e =>
    rw [hread] at hl
    cases hl
  | ok found =>
    rw [hread] at hl
    cases hl
    have hreadable := readable_of_readRecordsOf hread
    refine ⟨fun name hcounts => hreadable name ?_ hcounts, ?_⟩
    · exact hperm.mem_iff.2 hcounts.mem_entryNames
    · cases (readRecordsOf_of_readable hreadable).symm.trans hread
      exact (List.mergeSort_perm _ _).trans (hperm.flatMap_right _)

theorem exists_readRecords (h : d.Hosts base) (hread : Readable d base) :
    ∃ l, readRecords d base = .ok l := by
  obtain ⟨names, hnames⟩ := names_eq_ok (h.root base.path (List.prefix_refl _))
  unfold readRecords
  rw [reach_base h, Except.bind, hnames]
  dsimp only
  rw [readRecordsOf_of_readable fun name _ => hread name]
  exact ⟨_, rfl⟩

theorem isThereAt_congr {l : Location} (h : d.Hosts base) (h' : d'.Hosts base)
    (hl : l.detours = base.detours) (hsame : d'.node? l.path = d.node? l.path) :
    d'.isThereAt l = d.isThereAt l := by
  rw [Bool.eq_iff_iff, isThereAt_iff h' hl, isThereAt_iff h hl, isThere, isThere, hsame]

theorem readFile_congr {l : Location} (h : d.Hosts base) (h' : d'.Hosts base)
    (hl : l.detours = base.detours) (hsame : d'.node? l.path = d.node? l.path)
    (hthere : d.isThereAt l = true) :
    (d'.reach l).bind d'.readFile = (d.reach l).bind d.readFile := by
  obtain ⟨hu, hsome⟩ := (isThereAt_iff h hl).1 hthere
  obtain ⟨n, hn⟩ := isThere_iff.1 hsome
  rw [reach_of_hosts h' hl hu, reach_of_hosts h hl hu]
  simp only [Except.bind, readFile, hsame, hn]
  cases n <;> rfl

/-- What lies in one directory is read independently of all else. -/
theorem readRecord_congr (h : d.Hosts base) (h' : d'.Hosts base)
    (hsame : d'.node? (base.path ++ [name, "_metadata"]) =
      d.node? (base.path ++ [name, "_metadata"])) :
    readRecord d' (base.child name) = readRecord d (base.child name) := by
  rw [← Location.path_grandchild] at hsame
  unfold readRecord
  dsimp only
  rw [isThereAt_congr (l := (base.child name).child "_metadata") h h' rfl hsame]
  split
  · next hthere =>
    rw [readFile_congr (l := (base.child name).child "_metadata") h h' rfl hsame hthere]
  · rfl

end Directory

namespace Archive

open Directory

variable {d : Disk} {base : Location} {a : Archive} {vault : Vault} {maxRetained : Nat}

/-- An archive that could be opened registers just the records that are held, and could read all of
them. -/
theorem listing_of_open (h : open? vault maxRetained = .ok a) (hd : d.Hosts base)
    (hm : a.vault.medium = .directory base d) :
    Readable d base ∧
      a.snapshots.Perm ((entryNames d base.path).flatMap (recordsIn d base)) := by
  obtain ⟨-, found, hfound, hinsert⟩ := open?_eq_ok h
  rw [hm] at hfound
  obtain ⟨hread, hperm⟩ := readRecords_eq_ok hd hfound
  exact ⟨hread, (Retention.perm_insertAll? hinsert).trans hperm⟩

theorem mem_listing {s : Snapshot} :
    s ∈ (entryNames d base.path).flatMap (recordsIn d base) ↔ ∃ name, Holds d base name s := by
  simp only [List.mem_flatMap, mem_recordsIn]
  constructor
  · rintro ⟨name, -, hholds⟩
    exact ⟨name, hholds⟩
  · rintro ⟨name, hholds⟩
    exact ⟨name, hholds.counts.mem_entryNames, hholds⟩

/-- An archive can be opened on records that can be read, if no two tell one id. -/
theorem exists_open? (hd : d.Hosts base) (hread : Readable d base)
    (hnodup : (((entryNames d base.path).flatMap (recordsIn d base)).map (·.id)).Nodup)
    (faults : FaultPlan) (maxRetained : Nat) :
    ∃ a, open? (.of (.directory base d) faults) maxRetained = .ok a ∧
      Retention.Ascending a.snapshots ∧ ∀ s, s ∈ a.snapshots ↔ ∃ name, Holds d base name s := by
  obtain ⟨l, hl⟩ := exists_readRecords hd hread
  have hperm := (readRecords_eq_ok hd hl).2
  obtain ⟨a, hopen, -, hascending, -, hlive⟩ :=
    open?_of_readRecords hd hl ((hperm.map _).nodup_iff.2 hnodup) faults maxRetained
  exact ⟨a, hopen, hascending, fun s => (hlive s).trans (hperm.mem_iff.trans mem_listing)⟩

end Archive
end Checkpointing
