import Mathlib
import Checkpointing.Proofs.Storage.Listing
import Checkpointing.Proofs.Storage.Eviction

/-!
# What is removed from a directory

The record of a snapshot is removed from the directory that is named for the snapshot, and so is all
that is thrown away with it.  Nothing else in the base directory changes, whatever lies there.  So a
record stays removed if and only if it lay in the directory that is named for its snapshot; a record
that lay in another one is found again when the base directory is opened again.

* `Directory.Cleared` says what has become of a base directory: the directories of some snapshots
  were cleared;
* `Cleared.holds_iff`: just the other directories still hold what they held;
* `Archive.Sheds` is the removing and closing of an archive; `Sheds.cleared` is what it does;
* `removed_from_own_directory` is the main statement.
-/

namespace Checkpointing
namespace Disk

/-- Steps that only take from a disk only take from it. -/
theorem sublist_carryOut {steps : List DiskStep}
    (h : ∀ step ∈ steps, ∀ d d' : Disk, step.run d = .ok d' → d'.nodes.Sublist d.nodes) (d : Disk) :
    (d.carryOut steps).1.nodes.Sublist d.nodes := by
  induction steps generalizing d with
  | nil => exact .refl _
  | cons step steps ih =>
    obtain ⟨hfirst, hrest⟩ := List.forall_mem_cons.1 h
    rcases hall : d.carryOut (step :: steps) with ⟨d', outcome⟩
    rcases carryOut_cons hall with ⟨e, -, rfl, -⟩ | ⟨d₁, hrun, hthen⟩
    · exact .refl _
    · have hlast := ih hrest d₁
      rw [hthen] at hlast
      exact hlast.trans (hfirst d d₁ hrun)

end Disk

namespace Directory

open Disk

variable {d d' d'' : Disk} {base : Location} {name : String} {s : Snapshot} {id : Nat}
  {gone gone' : List Nat}

theorem sublist_removeTree {p : Path} (h : d.removeTree p = .ok d') : d'.nodes.Sublist d.nodes := by
  rw [removeTree_eq_ok h]
  exact List.filter_sublist

theorem sublist_discard (d : Disk) (base : Location) (id : Nat) :
    (discard d base id).1.nodes.Sublist d.nodes := by
  refine sublist_carryOut (fun step hstep d d' hrun => ?_) d
  have hdirectory : ∃ dir, step = removeIfThere dir := by
    rcases List.mem_pair.1 hstep with rfl | rfl
    · exact ⟨_, rfl⟩
    · exact ⟨_, rfl⟩
  obtain ⟨dir, rfl⟩ := hdirectory
  dsimp only [removeIfThere] at hrun
  split at hrun
  · exact sublist_removeTree (bind_reach_eq_ok hrun).2
  · cases hrun
    exact .refl _

theorem sublist_removeIfEmpty {p : Path} (h : removeIfEmpty d p = .ok d') :
    d'.nodes.Sublist d.nodes := by
  unfold removeIfEmpty at h
  split at h
  · cases h
  · rw [removeDirectory_eq_ok h]
    exact List.filter_sublist
  · cases h
    exact .refl _

theorem sublist_dropRecord (d : Disk) (base : Location) (id : Nat) :
    (dropRecord d base id).1.nodes.Sublist d.nodes := by
  refine sublist_carryOut (fun step hstep d d' hrun => ?_) d
  rcases List.mem_pair.1 hstep with rfl | rfl <;> dsimp only at hrun <;> split at hrun
  · rw [(removeFile_eq_ok (bind_reach_eq_ok hrun).2).2]
    exact List.filter_sublist
  · cases hrun
    exact .refl _
  · exact sublist_removeIfEmpty (bind_reach_eq_ok hrun).2
  · cases hrun
    exact .refl _

/-! ### Clearing -/

/-- No record is found in the directory that is named for a snapshot. -/
def Emptied (d : Disk) (base : Location) (id : Nat) : Prop :=
  Counts d base (snapshotName id) → d.isThereAt (record base id) = false

/-- What counts after something was taken counted before. -/
theorem Counts.of_shrinks (h : Counts d' base name) (hs : Shrinks base.path id d d') :
    Counts d base name := by
  refine Bool.and_eq_true_iff.2 ⟨(Bool.and_eq_true_iff.1 h).1, beq_iff_eq.2 ?_⟩
  rcases hs.nodes (base.path ++ [name]) with heq | hnone
  · exact heq.symm.trans h.directory
  · rw [h.directory] at hnone
    cases hnone

theorem isThereAt_of_node?_none {l : Location} (h : d.Hosts base) (hl : l.detours = base.detours)
    (hnone : d.node? l.path = none) : d.isThereAt l = false := by
  rw [Bool.eq_false_iff]
  intro hthere
  obtain ⟨n, hn⟩ := isThere_iff.1 ((isThereAt_iff h hl).1 hthere).2
  rw [hnone] at hn
  cases hn

theorem Emptied.shrinks {other : Nat} (h : Emptied d base id) (hd : d.Hosts base)
    (hs : Shrinks base.path other d d') : Emptied d' base id := by
  intro hcounts
  have hbefore := h (hcounts.of_shrinks hs)
  rcases hs.nodes (record base id).path with heq | hnone
  · rw [isThereAt_congr (l := record base id) hd (hd.within hs.within) rfl heq]
    exact hbefore
  · exact isThereAt_of_node?_none (l := record base id) (hd.within hs.within) rfl hnone

/-- The directory of a snapshot that was thrown away holds no record, even if throwing away the
states of the savepoint failed then. -/
theorem emptied_discard (h : d.Hosts base) (id : Nat) :
    Emptied (discard d base id).1 base id := by
  intro hcounts
  have hs := shrinks_discard d base id
  rw [Bool.eq_false_iff]
  intro hthere
  obtain ⟨hu, -⟩ := (isThereAt_iff (l := record base id) (h.within hs.within) rfl).1 hthere
  have hnone := node?_discard h hu.of_child (hcounts.of_shrinks hs).directory "_metadata"
  rw [← Location.path_grandchild, ← record_eq] at hnone
  rw [isThereAt_of_node?_none (l := record base id) (h.within hs.within) rfl hnone] at hthere
  cases hthere

/-- Where a record is there and reading does not fail, it is a file. -/
theorem file_of_readRecord {found : Option Snapshot}
    (hread : readRecord d (base.child name) = .ok found)
    (hthere : d.isThereAt ((base.child name).child "_metadata") = true) :
    ∃ content, d.node? (base.path ++ [name, "_metadata"]) = some (.file content) := by
  unfold readRecord at hread
  dsimp only at hread
  rw [if_pos hthere] at hread
  split at hread
  · cases hread
  · next content hfile =>
    have hnode := readFile_eq_ok.1 (bind_reach_eq_ok hfile).2
    rw [Location.path_grandchild] at hnode
    exact ⟨content, hnode⟩

/-- A record that can be read is dropped. -/
theorem emptied_dropRecord (h : d.Hosts base) (hread : Readable d base) (id : Nat) :
    Emptied (dropRecord d base id).1 base id := by
  intro hcounts
  have hs := shrinks_dropRecord d base id
  rw [Bool.eq_false_iff]
  intro hthere
  obtain ⟨hu, hafter⟩ :=
    (isThereAt_iff (l := record base id) (h.within hs.within) rfl).1 hthere
  obtain ⟨n, hn⟩ := isThere_iff.1 hafter
  rcases hs.nodes (record base id).path with heq | hnone
  · have hbefore : d.isThereAt (record base id) = true :=
      (isThereAt_iff (l := record base id) h rfl).2
        ⟨hu, isThere_iff.2 ⟨n, heq.symm.trans hn⟩⟩
    obtain ⟨found, hfound⟩ := hread _ (hcounts.of_shrinks hs)
    obtain ⟨content, hfile⟩ := file_of_readRecord hfound hbefore
    have hgone := node?_dropRecord h hu hfile
    rw [← Location.path_grandchild, ← record_eq, hn] at hgone
    cases hgone
  · rw [hnone] at hn
    cases hn

/-- What has become of a base directory: the directories of some snapshots were cleared of their
records, and the directories of no others have changed. -/
structure Cleared (base : Location) (gone : List Nat) (d d' : Disk) : Prop where
  hosts : d'.Hosts base
  listed : d'.nodes.Sublist d.nodes
  others : ∀ {name : String}, (∀ id ∈ gone, name ∉ entries id) → ∀ rest,
    d'.node? (base.path ++ name :: rest) = d.node? (base.path ++ name :: rest)
  outside : ∀ {p : Path}, (∀ name rest, p ≠ base.path ++ name :: rest) →
    d.node? p = some .directory → d'.node? p = some .directory
  emptied : ∀ id ∈ gone, Emptied d' base id

theorem Cleared.refl (h : d.Hosts base) : Cleared base [] d d where
  hosts := h
  listed := .refl _
  others _ _ := rfl
  outside _ hdir := hdir
  emptied := by simp

theorem Cleared.congr (h : Cleared base gone d d') (hsame : ∀ id, id ∈ gone' ↔ id ∈ gone) :
    Cleared base gone' d d' where
  hosts := h.hosts
  listed := h.listed
  others hname := h.others fun id hid => hname id ((hsame id).2 hid)
  outside := h.outside
  emptied id hid := h.emptied id ((hsame id).1 hid)

/-- Directories that are cleared after others are cleared together with them. -/
theorem Cleared.append {old : List Nat} (h : Cleared base (gone' ++ (gone ++ old)) d d') :
    Cleared base ((gone ++ gone') ++ old) d d' := by
  refine h.congr fun id => ?_
  simp only [List.mem_append, or_assoc, or_left_comm]

/-- One more directory is cleared. -/
theorem Cleared.cons (h : Cleared base gone d d') (hs : Shrinks base.path id d' d'')
    (hsub : d''.nodes.Sublist d'.nodes) (hempty : Emptied d'' base id) :
    Cleared base (id :: gone) d d'' where
  hosts := h.hosts.within hs.within
  listed := hsub.trans h.listed
  others hname rest := by
    obtain ⟨hself, hrest⟩ := List.forall_mem_cons.1 hname
    exact (hs.within.others rest hself).trans (h.others hrest rest)
  outside {p} hout hdir := by
    refine hs.within.directories ?_ (h.outside hout hdir)
    rintro ⟨name, -, rest, heq⟩
    exact hout name rest heq
  emptied := List.forall_mem_cons.2 ⟨hempty, fun i hi => (h.emptied i hi).shrinks h.hosts hs⟩

/-- More may be taken from directories that are cleared already. -/
theorem Cleared.again (h : Cleared base gone d d') (hid : id ∈ gone)
    (hs : Shrinks base.path id d' d'') (hsub : d''.nodes.Sublist d'.nodes) :
    Cleared base gone d d'' := by
  refine (h.cons hs hsub ((h.emptied id hid).shrinks h.hosts hs)).congr fun i => ?_
  rw [List.mem_cons]
  exact ⟨Or.inr, fun hi => hi.elim (fun heq => heq ▸ hid) (fun hi => hi)⟩

/-! ### Reading what is left -/

/-- A directory that counts is one of a snapshot's only by the snapshot's name. -/
theorem Counts.not_mem_entries (h : Counts d base name)
    (hne : ∀ id ∈ gone, name ≠ snapshotName id) : ∀ id ∈ gone, name ∉ entries id := by
  intro id hid hmem
  rcases List.mem_pair.1 hmem with heq | heq
  · exact hne id hid heq
  · -- No id can be read from the name of a savepoint's directory.
    have hname := (Bool.and_eq_true_iff.1 h).1
    rw [heq, idOfName?, toList_savepointName] at hname
    cases hname

/-- A directory that is not cleared is read as before. -/
theorem Cleared.readRecord (h : Cleared base gone d d') (hd : d.Hosts base)
    (hout : ∀ id ∈ gone, name ∉ entries id) :
    readRecord d' (base.child name) = readRecord d (base.child name) :=
  readRecord_congr hd h.hosts (h.others hout ["_metadata"])

theorem Cleared.counts_iff (h : Cleared base gone d d') (hout : ∀ id ∈ gone, name ∉ entries id) :
    Counts d' base name ↔ Counts d base name := by
  unfold Counts isDirectory
  rw [Location.path_child, h.others hout []]

/-- A directory that is cleared holds no record. -/
theorem Cleared.readRecord_of_mem (h : Cleared base gone d d') (hid : id ∈ gone)
    (hcounts : Counts d' base (snapshotName id)) :
    Directory.readRecord d' (base.child (snapshotName id)) = .ok none := by
  unfold Directory.readRecord
  dsimp only
  rw [← record_eq, h.emptied id hid hcounts]
  rfl

/-- Just the directories that are not cleared still hold what they held. -/
theorem Cleared.holds_iff (h : Cleared base gone d d') (hd : d.Hosts base) :
    Holds d' base name s ↔ Holds d base name s ∧ ∀ id ∈ gone, name ≠ snapshotName id := by
  constructor
  · rintro ⟨hcounts, hread⟩
    have hne : ∀ id ∈ gone, name ≠ snapshotName id := by
      rintro id hid rfl
      rw [h.readRecord_of_mem hid hcounts] at hread
      cases hread
    have hout := hcounts.not_mem_entries hne
    exact ⟨⟨(h.counts_iff hout).1 hcounts, (h.readRecord hd hout).symm.trans hread⟩, hne⟩
  · rintro ⟨⟨hcounts, hread⟩, hne⟩
    have hout := hcounts.not_mem_entries hne
    exact ⟨(h.counts_iff hout).2 hcounts, (h.readRecord hd hout).trans hread⟩

/-- What is left can still be read. -/
theorem Cleared.readable (h : Cleared base gone d d') (hd : d.Hosts base)
    (hread : Readable d base) : Readable d' base := by
  intro name hcounts
  by_cases hgone : ∃ id ∈ gone, name = snapshotName id
  · obtain ⟨id, hid, rfl⟩ := hgone
    exact ⟨none, h.readRecord_of_mem hid hcounts⟩
  · have hout := hcounts.not_mem_entries fun id hid heq => hgone ⟨id, hid, heq⟩
    rw [h.readRecord hd hout]
    exact hread name ((h.counts_iff hout).1 hcounts)

/-- What is left in a directory was there before. -/
theorem Cleared.sublist_recordsIn (h : Cleared base gone d d') (hd : d.Hosts base)
    (name : String) : (recordsIn d' base name).Sublist (recordsIn d base name) := by
  by_cases hcounts : Counts d' base name
  · by_cases hgone : ∃ id ∈ gone, name = snapshotName id
    · obtain ⟨id, hid, rfl⟩ := hgone
      rw [recordsIn_of_ok hcounts (h.readRecord_of_mem hid hcounts)]
      exact List.nil_sublist _
    · have hout := hcounts.not_mem_entries fun id hid heq => hgone ⟨id, hid, heq⟩
      rw [recordsIn, recordsIn, if_pos hcounts, if_pos ((h.counts_iff hout).1 hcounts),
        h.readRecord hd hout]
  · rw [recordsIn_of_not_counts hcounts]
    exact List.nil_sublist _

/-- What is read afterwards is part of what was read before. -/
theorem Cleared.sublist_records (h : Cleared base gone d d') (hd : d.Hosts base) :
    ((entryNames d' base.path).flatMap (recordsIn d' base)).Sublist
      ((entryNames d base.path).flatMap (recordsIn d base)) :=
  ((h.listed.filterMap _).flatMap _).trans
    (List.Sublist.flatMap_right _ fun name _ => h.sublist_recordsIn hd name)

end Directory

/-! ### Removing and closing -/

open Directory

variable {d d' : Disk} {base : Location} {a b c : Archive} {v : Vault} {gone old : List Nat}

/-- The snapshot that storage throws away, if the event is that of such a request. -/
def Event.discardedId? : Event → Option Nat
  | .storage (.discard id) false => some id
  | _ => none

/-- The ids of the snapshots that storage was asked to throw away, without refusing. -/
def discardedIds (events : List Event) : List Nat := events.filterMap Event.discardedId?

theorem discardedIds_append (events more : List Event) :
    discardedIds (events ++ more) = discardedIds events ++ discardedIds more :=
  List.filterMap_append

theorem discardedIds_cons (event : Event) (events : List Event) :
    discardedIds (event :: events) = discardedIds [event] ++ discardedIds events :=
  discardedIds_append [event] events

namespace Vault

/-- A request to throw away a snapshot is refused, or clears its directory. -/
theorem cleared_request (hv : v.medium = .directory base d') (hc : Cleared base old d d')
    (id : Nat) :
    ∃ d'', (v.request (.discard id)).1.medium = .directory base d'' ∧
      Cleared base (discardedIds [(v.request (.discard id)).2.1] ++ old) d d'' := by
  rcases request_cases v (.discard id) with ⟨failure, -, he⟩ | ⟨-, he⟩ <;> rw [he]
  · exact ⟨d', hv, hc⟩
  · have hcleared := hc.cons (shrinks_discard d' base id) (sublist_discard d' base id)
      (emptied_discard hc.hosts id)
    refine ⟨(discard d' base id).1, ?_, hcleared⟩
    rw [hv]
    rfl

/-- A sweep clears the directories of all snapshots for which its request is not refused. -/
theorem cleared_sweep (hv : v.medium = .directory base d') (hc : Cleared base old d d')
    (condition : Snapshot → Bool) (l : List Snapshot) :
    ∃ d'', (v.sweep condition l).vault.medium = .directory base d'' ∧
      Cleared base (discardedIds (v.sweep condition l).events ++ old) d d'' := by
  induction l generalizing v d' old with
  | nil => exact ⟨d', hv, hc⟩
  | cons s l ih =>
    have hlater : ∀ (w : Vault) (event : Event) {d₁ : Disk}, w.medium = .directory base d₁ →
        Cleared base (discardedIds [event] ++ old) d d₁ →
        ∃ d'', (w.sweep condition l).vault.medium = .directory base d'' ∧
          Cleared base (discardedIds (event :: (w.sweep condition l).events) ++ old) d d'' := by
      intro w event d₁ hw hfirst
      rw [discardedIds_cons]
      obtain ⟨d₂, hm, hrest⟩ := ih hw hfirst
      exact ⟨d₂, hm, hrest.append⟩
    obtain ⟨d₁, hv₁, hc₁⟩ := cleared_request hv hc s.id
    rw [sweep]
    split
    · rcases hrequest : v.request (.discard s.id) with ⟨w, event, failure | failure⟩ <;>
        rw [hrequest] at hv₁ hc₁ <;> exact hlater w event hv₁ hc₁
    · exact ih hv hc

/-- What a sweep has thrown away was not refused. -/
theorem mem_discardedIds_of_sweep (v : Vault) (condition : Snapshot → Bool) (l : List Snapshot) :
    ∀ s ∈ (v.sweep condition l).discarded, s.id ∈ discardedIds (v.sweep condition l).events := by
  induction l generalizing v with
  | nil => simp [sweep]
  | cons s l ih =>
    have hlater : ∀ (w : Vault) (event : Event), ∀ t ∈ (w.sweep condition l).discarded,
        t.id ∈ discardedIds (event :: (w.sweep condition l).events) := by
      intro w event t ht
      rw [discardedIds_cons]
      exact List.mem_append_right _ (ih w t ht)
    rw [sweep]
    split
    · rcases hrequest : v.request (.discard s.id) with ⟨w, event, failure | failure⟩
      · refine List.forall_mem_cons.2 ⟨?_, hlater w event⟩
        rw [event_of_request hrequest]
        exact List.mem_cons_self
      · exact hlater w event
    · exact ih v

end Vault

namespace Archive

/-- Dropping records from directories that are cleared changes nothing else. -/
theorem cleared_dropRecords (hc : Cleared base old d d') (l : List Snapshot)
    (hl : ∀ s ∈ l, s.id ∈ old) :
    ∃ d'', dropRecords (.directory base d') l = .directory base d'' ∧ Cleared base old d d'' := by
  induction l generalizing d' with
  | nil => exact ⟨d', rfl, hc⟩
  | cons s l ih =>
    obtain ⟨hs, hrest⟩ := List.forall_mem_cons.1 hl
    exact ih (hc.again hs (shrinks_dropRecord d' base s.id) (sublist_dropRecord d' base s.id)) hrest

/-- Closing clears the directories of what storage throws away. -/
theorem cleared_close (hm : a.vault.medium = .directory base d') (hc : Cleared base old d d')
    (status : JobStatus) :
    ∃ d'', (a.close status).1.vault.medium = .directory base d'' ∧
      Cleared base (discardedIds (a.close status).2.1 ++ old) d d'' := by
  obtain ⟨d₁, hv₁, hc₁⟩ := Vault.cleared_sweep hm hc (fun _ => true) a.retention.backlog
  obtain ⟨d₂, hv₂, hc₂⟩ := Vault.cleared_sweep hv₁ hc₁
    (fun s => s.policy.discard.onStatus status) a.retention.live
  have hevents : discardedIds (a.close status).2.1 =
      discardedIds a.clearance.events ++ discardedIds (a.closure status).events :=
    discardedIds_append _ _
  have hswept : Cleared base (discardedIds (a.close status).2.1 ++ old) d d₂ := by
    rw [hevents]
    exact hc₂.append
  have hdropped : ∀ s ∈ a.clearance.discarded ++ (a.closure status).discarded,
      s.id ∈ discardedIds (a.close status).2.1 ++ old := by
    intro s hs
    rw [hevents]
    refine List.mem_append_left _ (List.mem_append.2 ((List.mem_append.1 hs).imp ?_ ?_))
    · exact Vault.mem_discardedIds_of_sweep _ _ _ s
    · exact Vault.mem_discardedIds_of_sweep _ _ _ s
  obtain ⟨d₃, hm₃, hc₃⟩ := cleared_dropRecords hswept _ hdropped
  refine ⟨d₃, ?_, hc₃⟩
  rw [close_state]
  dsimp only
  rw [show (a.closure status).vault.medium = .directory base d₂ from hv₂]
  exact hm₃

/-- Unregistering a snapshot clears its directory, if its record can be read. -/
theorem cleared_remove (hm : a.vault.medium = .directory base d') (hc : Cleared base old d d')
    (hread : Readable d' base) {id : Nat} {s : Snapshot} (hs : a.retention.find? id = some s) :
    ∃ d'', (a.remove id).1.vault.medium = .directory base d'' ∧
      Cleared base (id :: old) d d'' := by
  rcases remove_cases a id with ⟨hnone, -⟩ | ⟨t, medium, failure, -, hdrop, he⟩
  · rw [hs] at hnone
    cases hnone
  · rw [hm] at hdrop
    rw [he]
    refine ⟨(dropRecord d' base id).1, (Prod.mk.inj hdrop).1.symm, ?_⟩
    exact hc.cons (shrinks_dropRecord d' base id) (sublist_dropRecord d' base id)
      (emptied_dropRecord hc.hosts hread id)

/-- Snapshots are removed from an archive and it is closed, any number of times and with other
policies in between; these are the ids of the snapshots that were removed or that storage has thrown
away. -/
inductive Sheds : Archive → List Nat → Archive → Prop where
  | refl (a : Archive) : Sheds a [] a
  | relabel {a b : Archive} {gone : List Nat} (id : Nat) (policy : SnapshotPolicy) :
    Sheds (a.relabel id policy).1 gone b → Sheds a gone b
  | remove {a b c : Archive} {gone : List Nat} {id : Nat} {s : Snapshot} :
    a.remove id = (b, .ok (some s)) → Sheds b gone c → Sheds a (id :: gone) c
  | close {a b c : Archive} {gone : List Nat} {status : JobStatus} {events : List Event}
    {result : Except SnapshotError Unit} :
    a.close status = (b, events, result) → Sheds b gone c → Sheds a (discardedIds events ++ gone) c

/-- Whatever an archive sheds, just the directories of these snapshots are cleared. -/
theorem Sheds.cleared (h : Sheds a gone b) (hd : d.Hosts base) (hread : Readable d base)
    (hm : a.vault.medium = .directory base d') (hc : Cleared base old d d') :
    ∃ d'', b.vault.medium = .directory base d'' ∧ Cleared base (gone ++ old) d d'' := by
  induction h generalizing d' old with
  | refl a => exact ⟨d', hm, hc⟩
  | relabel id policy _ ih => exact ih hm hc
  | @remove a b c gone id s hremove _ ih =>
    have hfind : a.retention.find? id = some s := by
      rcases remove_cases a id with ⟨-, he⟩ | ⟨t, medium, failure, hfind, -, he⟩
      · rw [he] at hremove
        cases hremove
      · cases failure <;> rw [he] at hremove <;> cases hremove
        exact hfind
    obtain ⟨d₁, hm₁, hc₁⟩ := cleared_remove hm hc (hc.readable hd hread) hfind
    rw [hremove] at hm₁
    obtain ⟨d₂, hm₂, hc₂⟩ := ih hm₁ hc₁
    have hboth : Cleared base (([id] ++ gone) ++ old) d d₂ := hc₂.append
    exact ⟨d₂, hm₂, hboth⟩
  | @close a b c gone status events result hclose _ ih =>
    obtain ⟨d₁, hm₁, hc₁⟩ := cleared_close hm hc status
    rw [hclose] at hm₁ hc₁
    obtain ⟨d₂, hm₂, hc₂⟩ := ih hm₁ hc₁
    exact ⟨d₂, hm₂, hc₂.append⟩

/-! ### Opening again -/

variable {vault : Vault} {maxRetained : Nat} {text : String} {s : Snapshot}

/-- No record is found in two directories if the archive can be opened. -/
theorem eq_of_holds (hopen : open? vault maxRetained = .ok a) (hd : d.Hosts base)
    (hm : a.vault.medium = .directory base d) {name name' : String} (h : Holds d base name s)
    (h' : Holds d base name' s) : name = name' := by
  have hperm := (listing_of_open hopen hd hm).2
  have hnodup : ((entryNames d base.path).flatMap (recordsIn d base)).Nodup :=
    hperm.nodup_iff.1 ((shelves_of_open hopen).ascending.nodup.of_map _)
  have hsymm : Std.Symm (Function.onFun List.Disjoint (recordsIn d base)) :=
    ⟨fun _ _ hdisjoint => hdisjoint.symm⟩
  by_contra hne
  have hdisjoint := (List.nodup_flatMap.1 hnodup).2.forall h.counts.mem_entryNames
    h'.counts.mem_entryNames hne
  exact hdisjoint (mem_recordsIn.2 h) (mem_recordsIn.2 h')

/-- Two lists of snapshots that ascend and have the same members are the same. -/
theorem ascending_ext {l l' : List Snapshot} (h : Retention.Ascending l)
    (h' : Retention.Ascending l') (hmem : ∀ s, s ∈ l ↔ s ∈ l') : l = l' := by
  have hperm : l.Perm l' :=
    (List.perm_ext_iff_of_nodup (h.nodup.of_map _) (h'.nodup.of_map _)).2 hmem
  exact hperm.eq_of_pairwise (fun s t _ _ hst hts => absurd hst hts.asymm) h h'

/-- What is left of a list by one condition is what is left by another one if and only if they agree
on the list. -/
theorem eq_filter_iff {l l' : List Snapshot} {stays keeps : Snapshot → Prop}
    [DecidablePred keeps] (h : Retention.Ascending l) (h' : Retention.Ascending l')
    (hmem : ∀ s, s ∈ l' ↔ s ∈ l ∧ stays s) :
    l' = l.filter (fun s => keeps s) ↔ ∀ s ∈ l, keeps s ↔ stays s := by
  have hfilter : ∀ s, s ∈ l.filter (fun s => keeps s) ↔ s ∈ l ∧ keeps s := fun s => by
    rw [List.mem_filter, decide_eq_true_iff]
  constructor
  · intro heq s hs
    have hsame := (hfilter s).symm.trans (heq ▸ hmem s)
    exact (and_congr_right_iff.1 hsame) hs
  · intro hagree
    refine ascending_ext h' (h.filter _) fun s => ?_
    rw [hmem, hfilter]
    exact and_congr_right fun hs => (hagree s hs).symm

/-- What is removed stays removed exactly if it lay in its own directory.  Let an archive be opened on
a base directory in which there may be any directories with any records that can be read, and let
snapshots be removed from it and the archive be closed, any number of times.  Then the base directory
can be opened again, and tells, in ascending order, just the records that were there, except those in
the directories that are named for the snapshots that were removed or thrown away.  So these
snapshots are gone and all others are listed as before if and only if just their records lay in
these directories. -/
theorem removed_from_own_directory (hlocate : d.locate text = .ok base) (hapart : base.Apart)
    (hopen : open? vault maxRetained = .ok a) (hm : a.vault.medium = .directory base d)
    (hsheds : Sheds a gone b) :
    ∃ d', b.vault.medium = .directory base d' ∧ ∀ n, ∃ c, openDirectory text n d' = .ok c ∧
      Retention.Ascending c.snapshots ∧
      (∀ s, s ∈ c.snapshots ↔
        s ∈ a.snapshots ∧ ∀ id ∈ gone, ¬Holds d base (snapshotName id) s) ∧
      (c.snapshots = a.snapshots.filter (fun s => s.id ∉ gone) ↔
        ∀ s ∈ a.snapshots, s.id ∈ gone ↔ ∃ id ∈ gone, Holds d base (snapshotName id) s) := by
  have hbase := node?_of_open hopen hm
  have hd := Disk.hosts_of_apart hlocate hbase hapart
  have hascending := (shelves_of_open hopen).ascending
  obtain ⟨hread, hperm⟩ := listing_of_open hopen hd hm
  obtain ⟨d', hm', hc⟩ := hsheds.cleared hd hread hm (.refl hd)
  rw [List.append_nil] at hc
  have hnodup := ((hc.sublist_records hd).map (·.id)).nodup
    ((hperm.map (·.id)).nodup_iff.1 hascending.nodup)
  refine ⟨d', hm', fun n => ?_⟩
  obtain ⟨c, hopen', hascending', hlive⟩ :=
    exists_open? hc.hosts (hc.readable hd hread) hnodup .none n
  have hmem : ∀ s, s ∈ c.snapshots ↔
      s ∈ a.snapshots ∧ ∀ id ∈ gone, ¬Holds d base (snapshotName id) s := by
    intro s
    rw [hlive, hperm.mem_iff, mem_listing]
    constructor
    · rintro ⟨name, hholds⟩
      obtain ⟨hbefore, hne⟩ := (hc.holds_iff hd).1 hholds
      exact ⟨⟨name, hbefore⟩, fun id hid h => hne id hid (eq_of_holds hopen hd hm hbefore h)⟩
    · rintro ⟨⟨name, hbefore⟩, hout⟩
      refine ⟨name, (hc.holds_iff hd).2 ⟨hbefore, ?_⟩⟩
      rintro id hid rfl
      exact hout id hid hbefore
  refine ⟨c, ?_, hascending', hmem, ?_⟩
  · have hkept := Disk.locate_of_apart hlocate hbase hapart fun _ hout => hc.outside hout
    have hbase' := hc.hosts.root base.path (List.prefix_refl _)
    unfold openDirectory
    rw [openDirectory_of_locate hkept hbase']
    dsimp only
    rw [hopen']
  · rw [eq_filter_iff hascending hascending' hmem]
    have hnone : ∀ s, (∀ id ∈ gone, ¬Holds d base (snapshotName id) s) ↔
        ¬∃ id ∈ gone, Holds d base (snapshotName id) s := fun s => by
      simp only [not_exists, not_and]
    exact forall₂_congr fun s _ => by rw [hnone, not_iff_not]

/-- A checkpoint that goes with every job. -/
def passingCheckpoint : Snapshot := ⟨7, .ofRetention .neverAfterTermination, 10, 20, ∅, none⟩

/-- A savepoint, which stays. -/
def lastingSavepoint : Snapshot := ⟨9, .savepoint true .canonical, 30, 40, ∅, none⟩

/-- The directory `d`. -/
def plainBase : Location := ⟨"d", ["d"], none⟩

/-- The records of both, that of the savepoint in the directory of another snapshot. -/
def twoRecords : Disk :=
  ⟨[(["d"], .directory), (["d", "chk-7"], .directory),
    (["d", "chk-7", "_metadata"], .file (Record.snapshot.encode passingCheckpoint)),
    (["d", "chk-8"], .directory),
    (["d", "chk-8", "_metadata"], .file (Record.snapshot.encode lastingSavepoint))]⟩

theorem readRecords_twoRecords :
    readRecords twoRecords plainBase = .ok [passingCheckpoint, lastingSavepoint] := by
  have hnames : twoRecords.names ["d"] = .ok ["chk-7", "chk-8"] :=
    congrArg Except.ok (List.mergeSort_of_pairwise (by decide))
  have hread : readRecordsOf twoRecords plainBase ["chk-7", "chk-8"] =
      .ok [passingCheckpoint, lastingSavepoint] := by cbv
  unfold readRecords
  rw [show twoRecords.reach plainBase = .ok ["d"] from rfl, Except.bind, hnames]
  dsimp only
  rw [hread]
  exact congrArg Except.ok (List.mergeSort_of_pairwise (by decide))

/-- When the archive is closed with the job, the checkpoint is gone for good, and the savepoint is
still found where it lies. -/
theorem removed_from_own_directory_of_closed : ∃ a b d' c,
    open? (.of (.directory plainBase twoRecords) .none) 3 = .ok a ∧
    a.snapshots = [passingCheckpoint, lastingSavepoint] ∧ Sheds a [7] b ∧
    b.vault.medium = .directory plainBase d' ∧ openDirectory "d" 3 d' = .ok c ∧
    c.snapshots = [lastingSavepoint] := by
  have hlocate : twoRecords.locate "d" = .ok plainBase := by cbv
  have hapart : plainBase.Apart := by
    intro ds hds
    cases hds
  let a : Archive := ⟨.of (.directory plainBase twoRecords) .none,
    ⟨3, [passingCheckpoint, lastingSavepoint], []⟩⟩
  have hopen : open? (.of (.directory plainBase twoRecords) .none) 3 = .ok a := by
    have hprepare : (Medium.directory plainBase twoRecords).prepare =
        .ok (.directory plainBase twoRecords) := by cbv
    unfold open? Vault.of
    rw [hprepare]
    dsimp only [Medium.records]
    rw [readRecords_twoRecords]
    rfl
  have hclosed : (a.close .finished).2 = ([.storage (.discard 7) false], .ok ()) := by cbv
  have hsheds : Sheds a [7] (a.close .finished).1 := .close (Prod.ext rfl hclosed) (.refl _)
  have hheld : Holds twoRecords plainBase (snapshotName 7) passingCheckpoint :=
    ⟨by decide +kernel, by cbv⟩
  obtain ⟨d', hm, hagain⟩ := removed_from_own_directory hlocate hapart hopen rfl hsheds
  obtain ⟨c, hc, -, -, hexactly⟩ := hagain 3
  refine ⟨a, _, d', c, hopen, rfl, hsheds, hm, hc, hexactly.2 fun s hs => ?_⟩
  rcases List.mem_pair.1 hs with rfl | rfl
  · exact iff_of_true (by decide) ⟨7, by decide, hheld⟩
  · refine iff_of_false (by decide) ?_
    rintro ⟨id, hid, hother⟩
    rw [List.mem_singleton.1 hid] at hother
    cases hheld.record.symm.trans hother.record

/-- The record of the checkpoint in a directory whose number is written with zeros in front. -/
def paddedRecord : Disk :=
  ⟨[(["d"], .directory), (["d", "chk-007"], .directory),
    (["d", "chk-007", "_metadata"], .file (Record.snapshot.encode passingCheckpoint))]⟩

/-- It is listed and removed, but its record stays where it is and is listed again. -/
theorem removed_but_listed_again : ∃ a b d' c,
    openDirectory "d" 1 paddedRecord = .ok a ∧ a.snapshots = [passingCheckpoint] ∧
    a.remove 7 = (b, .ok (some passingCheckpoint)) ∧ b.snapshots = [] ∧
    b.vault.medium = .directory plainBase d' ∧ openDirectory "d" 1 d' = .ok c ∧
    c.snapshots = [passingCheckpoint] := by
  have hopen : openDirectory "d" 1 paddedRecord =
      .ok ⟨.of (.directory plainBase paddedRecord) .none, ⟨1, [passingCheckpoint], []⟩⟩ := by cbv
  exact ⟨_, ⟨.of (.directory plainBase paddedRecord) .none, ⟨1, [], []⟩⟩, paddedRecord, _, hopen,
    rfl, by cbv, rfl, rfl, hopen, rfl⟩

end Archive

end Checkpointing
