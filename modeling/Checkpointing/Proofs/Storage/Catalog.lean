import Mathlib.Tactic
import Checkpointing.Proofs.Storage.Ledger
import Checkpointing.Proofs.Storage.Reopening
import Checkpointing.Proofs.Storage.Sparing

/-!
# Directories in which snapshots are written

Whatever archives do in a directory that was empty, refused or not, every record in it is in its
place, so that the directory can be opened again and tells which snapshots have a record.

* `Archive.Used` is what may become of an archive, `Written` are the disks that come of using
  archives in a directory;
* `Catalog` is the invariant of such a disk, `Catalog.within` says how it is kept;
  `Catalog.touches`, `Catalog.shrinks`, `Catalog.fills` and `Catalog.enter` are the ways in which
  the disk changes;
* `Medium.Cataloged` is the invariant of a medium, up to `cataloged_answer` and `Used.cataloged`;
* `catalog_of_written`: every disk that was written has it, and `Catalog.openDirectory` opens it
  again.
-/

namespace Checkpointing
namespace Directory

open Disk

variable {start d d' : Disk} {base : Location} {id : Nat} {name : String} {n : Node} {s : Snapshot}
  {touched : String → String → Prop}

/-- A base directory as archives leave it, since the disk was as `start`: every record is in its
place, there is nothing but tidy directories, and no directory elsewhere is gone. -/
structure Catalog (start : Disk) (base : Location) (d : Disk) : Prop extends Legible base d where
  since : ∀ {p : Path}, (∀ name rest, p ≠ base.path ++ name :: rest) →
    start.node? p = some .directory → d.node? p = some .directory
  tidy : Tidy d base.path

theorem tidy_of_empty (hempty : start.listing base.path = []) : Tidy start base.path := by
  constructor
  · intro name n hn
    cases habove : Path.isAbove (base.path ++ [name]) with
    | true => exact Option.some.inj (hn.symm.trans (node?_of_isAbove habove))
    | false => exact absurd rfl (not_below_of_listing hempty habove hn name [])
  · intro name file n hn
    cases habove : Path.isAbove (base.path ++ [name, file]) with
    | true =>
      rw [List.append_cons] at habove
      exact node?_of_isAbove (isAbove_of_append habove)
    | false => exact absurd rfl (not_below_of_listing hempty habove hn name [file])

theorem catalog_of_empty {text : String} (hlocate : start.locate text = .ok base)
    (hbase : start.node? base.path = some .directory) (hempty : start.listing base.path = []) :
    Catalog start base start where
  hosts := hosts_of_locate hlocate hbase hempty
  distinct := distinct_of_listing hempty
  sound {name n} hthere := by
    refine absurd rfl (not_below_of_listing hempty ?_ hthere name ["_metadata"])
    simp [Path.isAbove]
  since _ hdir := hdir
  tidy := tidy_of_empty hempty

/-- What is in its place as a record is found there. -/
theorem Catalog.filed (h : Catalog start base d) (hs : s.Recordable)
    (hrecord : d.node? (base.path ++ [snapshotName s.id, "_metadata"]) =
      some (.file (Record.snapshot.encode s))) : Filed d base s := by
  obtain ⟨t, hname, hfiled⟩ := h.sound hrecord
  have hid := snapshotName_injective hname
  exact ⟨hs, hid ▸ hfiled.usable, hid ▸ hfiled.place, hrecord⟩

/-- A change in the directories of one snapshot is harmless if it leaves them tidy and each record
in them was there before or is one in its place. -/
theorem Catalog.within (h : Catalog start base d) (hw : Within base.path (entries id) d d')
    (ht : Tidy d base.path → Tidy d' base.path)
    (hrecord : ∀ {name n}, d'.node? (base.path ++ [name, "_metadata"]) = some n →
      d.node? (base.path ++ [name, "_metadata"]) = some n ∨
      ∃ s, name = snapshotName s.id ∧ s.Recordable ∧ (record base s.id).Usable ∧
        n = .file (Record.snapshot.encode s)) : Catalog start base d' where
  hosts := h.hosts.within hw
  distinct := hw.distinct h.distinct
  sound {name n} hthere := by
    have hplace := (ht h.tidy).nested hthere
    rcases hrecord hthere with hold | ⟨s, rfl, hs, hu, rfl⟩
    · obtain ⟨s, rfl, hfiled⟩ := h.sound hold
      rw [hfiled.record] at hold
      cases hold
      exact ⟨s, rfl, hfiled.recordable, hfiled.usable, hplace, hthere⟩
    · exact ⟨s, rfl, hs, hu, hplace, hthere⟩
  since {p} hout hdir := by
    refine hw.directories ?_ (h.since hout hdir)
    rintro ⟨name, -, rest, heq⟩
    exact hout name rest heq
  tidy := ht h.tidy

theorem Catalog.touches (h : Catalog start base d) (ht : Touches base id touched d d')
    (hrecord : ∀ name, ¬touched name "_metadata") : Catalog start base d' := by
  refine h.within ht.within ht.tidy fun {name n} hthere => Or.inl ?_
  rw [ht.files (hrecord name)] at hthere
  exact hthere

theorem Catalog.shrinks (h : Catalog start base d) (hs : Shrinks base.path id d d') :
    Catalog start base d' := by
  refine h.within hs.within hs.tidy fun {name n} hthere => Or.inl ?_
  rcases hs.nodes (base.path ++ [name, "_metadata"]) with heq | hnone
  · exact heq.symm.trans hthere
  · rw [hnone] at hthere
    cases hthere

theorem Catalog.fills (h : Catalog start base d) (hf : Fills base.path name d d')
    (hname : name ∈ entries id) : Catalog start base d' := by
  refine h.within (hf.within_entries hname) hf.tidy fun {name n} hthere => Or.inl ?_
  rw [hf.files] at hthere
  exact hthere

/-- A record that is written comes into its place. -/
theorem Catalog.enter (h : Catalog start base d) (hs : s.Recordable) :
    Catalog start base (saveRecord d base s).1 := by
  rcases hsave : saveRecord d base s with ⟨d', outcome⟩
  rcases touches_saveRecord h.hosts hsave with ⟨failure, -, ht⟩ | ⟨-, hu, ht, -, hrecord⟩
  · exact h.touches ht (by simp)
  · refine h.within ht.within ht.tidy fun {name n} hthere => ?_
    by_cases hself : name = snapshotName s.id
    · rw [hself, hrecord] at hthere
      exact Or.inr ⟨s, hself, hs, hu, (Option.some.inj hthere).symm⟩
    · rw [ht.files (by simp [hself])] at hthere
      exact Or.inl hthere

end Directory

open Directory

/-! ### Media, vaults and archives -/

/-- The medium is a base directory as archives leave it. -/
def Medium.Cataloged (start : Disk) (base : Location) (m : Medium) : Prop :=
  ∃ d, m = .directory base d ∧ Catalog start base d

variable {start disk : Disk} {base : Location} {m : Medium} {v : Vault} {a b : Archive}

theorem Medium.Cataloged.housed (h : m.Cataloged start base) : m.Housed := by
  obtain ⟨d, rfl, hd⟩ := h
  exact .directory hd.hosts hd.tidy

theorem Medium.lasting_cataloged : Medium.Lasting (Medium.Cataloged start base) where
  discard id h := by
    obtain ⟨d, rfl, hd⟩ := h
    exact ⟨_, rfl, hd.shrinks (shrinks_discard d base id)⟩
  dropRecord id h := by
    obtain ⟨d, rfl, hd⟩ := h
    exact ⟨_, rfl, hd.shrinks (shrinks_dropRecord d base id)⟩

theorem Medium.Cataloged.persist (h : m.Cataloged start base) (id : Nat) (run : TaskRun)
    (state : Bytes) : (m.persist id run state).1.Cataloged start base := by
  obtain ⟨d, rfl, hd⟩ := h
  have htouches := (touches_persist hd.hosts (Eq.refl (Directory.persist d base id run state))).1
  refine ⟨_, rfl, hd.touches htouches fun _ heq => ?_⟩
  exact stateName_ne run (by decide) heq.symm

theorem Medium.Cataloged.address (h : m.Cataloged start base) (id : Nat)
    (policy : SnapshotPolicy) : (m.address id policy).1.Cataloged start base := by
  obtain ⟨d, rfl, hd⟩ := h
  have hfills := (fills_address hd.hosts (Eq.refl (Directory.address d base id policy))).1
  exact ⟨_, rfl, hd.fills hfills (savepointName_mem id)⟩

theorem Medium.Cataloged.saveRecord {s : Snapshot} (h : m.Cataloged start base)
    (hs : s.Recordable) : (m.saveRecord s).1.Cataloged start base := by
  obtain ⟨d, rfl, hd⟩ := h
  exact ⟨_, rfl, hd.enter hs⟩

theorem Vault.cataloged_request (h : v.medium.Cataloged start base) (call : StorageCall) :
    (v.request call).1.medium.Cataloged start base := by
  rcases request_cases v call with ⟨failure, -, he⟩ | ⟨-, he⟩ <;> rw [he]
  · exact h
  · cases call with
    | persist id run state => exact h.persist id run state
    | discard id => exact Medium.lasting_cataloged.discard id h
    | cleanup id => exact Medium.lasting_cataloged.discard id h

namespace Archive

theorem cataloged_add {s : Snapshot} (h : a.vault.medium.Cataloged start base)
    (hs : s.Recordable) : (a.add s).1.vault.medium.Cataloged start base := by
  have hsaved := h.saveRecord hs
  rcases add_cases a s with ⟨-, he⟩ | ⟨-, ⟨medium, failure, hsave, he⟩ | ⟨medium, hsave, he⟩⟩ <;>
    rw [he]
  · exact h
  · rw [hsave] at hsaved
    exact hsaved
  · rw [hsave] at hsaved
    exact Medium.lasting_cataloged.subsume hsaved

/-- The numbers that come with a call fit the words of a record. -/
def Call.Fits : Call → Prop
  | add s => s.Recordable
  | _ => True

theorem cataloged_answer {call : Call} (h : a.vault.medium.Cataloged start base)
    (hfits : call.Fits) : (a.answer call).1.vault.medium.Cataloged start base := by
  cases call with
  | add s => exact cataloged_add h hfits
  | relabel id policy => exact h
  | remove id => exact Medium.lasting_cataloged.remove h id
  | close status => exact Medium.lasting_cataloged.close h status

/-- What may become of an archive that is used: it answers calls, states are kept and thrown away in
its vault, savepoints get their addresses there, and which requests are refused may change. -/
inductive Used (a : Archive) : Archive → Prop
  | unused : Used a a
  | answer {b : Archive} (used : Used a b) (call : Call) (fits : call.Fits) :
      Used a (b.answer call).1
  | request {b : Archive} (used : Used a b) (call : StorageCall) :
      Used a { b with vault := (b.vault.request call).1 }
  | address {b : Archive} (used : Used a b) (id : Nat) (policy : SnapshotPolicy) :
      Used a (b.withMedium (b.vault.medium.address id policy).1)
  | refuse {b : Archive} {vault : Vault} (used : Used a b)
      (same : vault.medium = b.vault.medium) : Used a { b with vault := vault }

theorem Used.trans {c : Archive} (h : a.Used b) (h' : b.Used c) : a.Used c := by
  induction h' with
  | unused => exact h
  | answer used call fits ih => exact ih.answer call fits
  | request used call ih => exact ih.request call
  | address used id policy ih => exact ih.address id policy
  | refuse used same ih => exact ih.refuse same

theorem Used.persistAll (h : a.Used b) (id : Nat) (states : List (TaskRun × Bytes)) :
    a.Used { b with vault := (b.vault.persistAll id states).1 } := by
  induction states generalizing b with
  | nil => exact h
  | cons e states ih =>
    obtain ⟨run, state⟩ := e
    have hfirst := h.request (.persist id run state)
    rw [Vault.persistAll]
    rcases hrequest : b.vault.request (.persist id run state) with ⟨w, event, failure | failure⟩ <;>
      rw [hrequest] at hfirst
    · exact ih hfirst
    · exact hfirst

theorem Used.cataloged (h : a.Used b) (ha : a.vault.medium.Cataloged start base) :
    b.vault.medium.Cataloged start base := by
  induction h with
  | unused => exact ha
  | answer used call fits ih => exact cataloged_answer ih fits
  | request used call ih => exact Vault.cataloged_request ih call
  | address used id policy ih => exact ih.address id policy
  | refuse used same ih =>
    rw [← same] at ih
    exact ih

end Archive

/-! ### Written directories -/

/-- The disks on which snapshots were written in the directory of a path.  Each archive opens the
directory, is used in any way, and is dropped. -/
inductive Written (text : String) (start : Disk) : Disk → Prop
  | start : Written text start start
  | archive {disk disk' : Disk} {base : Location} {medium : Medium} {faults : FaultPlan}
      {maxRetained : Nat} {a b : Archive} (before : Written text start disk)
      (opened : Medium.openDirectory text disk = .ok medium)
      (stored : Archive.open? (.of medium faults) maxRetained = .ok a) (used : a.Used b)
      (left : b.vault.medium = .directory base disk') : Written text start disk'

theorem catalog_of_written {text : String} (hlocate : start.locate text = .ok base)
    (hbase : start.node? base.path = some .directory) (hempty : start.listing base.path = [])
    (h : Written text start disk) : Catalog start base disk := by
  induction h with
  | start => exact catalog_of_empty hlocate hbase hempty
  | @archive disk disk' base' medium faults maxRetained a b before opened stored used left ih =>
    cases (openDirectory_of_since hlocate hbase hempty ih.since).symm.trans opened
    obtain ⟨a', hopen, hmedium, -⟩ := ih.toLegible.open? faults maxRetained
    cases hopen.symm.trans stored
    obtain ⟨d, hm, hd⟩ := used.cataloged ⟨_, hmedium, ih⟩
    cases hm.symm.trans left
    exact hd

/-- A directory that archives have written can be opened again, and registers exactly the snapshots
that have a record. -/
theorem Directory.Catalog.openDirectory {text : String} (hlocate : start.locate text = .ok base)
    (hbase : start.node? base.path = some .directory) (hempty : start.listing base.path = [])
    (h : Catalog start base disk) (maxRetained : Nat) :
    ∃ a, Archive.openDirectory text maxRetained disk = .ok a ∧ Retention.Ascending a.snapshots ∧
      ∀ s, s ∈ a.snapshots ↔ Filed disk base s := by
  obtain ⟨a, hopen, -, hascending, -, hlive⟩ := h.toLegible.open? .none maxRetained
  refine ⟨a, ?_, hascending, hlive⟩
  unfold Archive.openDirectory
  rw [openDirectory_of_since hlocate hbase hempty h.since]
  dsimp only
  rw [hopen]

end Checkpointing
