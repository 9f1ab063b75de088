import Mathlib.Tactic
import Checkpointing.Proofs.Storage.Archive
import Checkpointing.Proofs.Storage.Directory
import Checkpointing.Proofs.Storage.Retention

/-!
# Records that can be recovered

Every record below a base directory is whole and all its states are there.  Whatever is done to the
directories of other snapshots leaves such a record alone, and whatever removes a snapshot takes its
record first.

* `Kept` is one recoverable snapshot, `Records` the invariant of a disk: there are no records but
  those of recoverable snapshots, and their ids are known;
* `Records.quiet`, `Records.discard`, `Records.dropRecord`, `Records.enter` are the ways in which
  the disk changes;
* `Medium.Recorded` and `Archive.Recorded` are the invariants of a medium and an archive;
  `recorded_subsume`, `recorded_remove`, `recorded_close` and `recorded_add` keep them.
-/

namespace Checkpointing
namespace Directory

open Disk

/-- The record of a snapshot is in its place, and all the states that it tells are there. -/
structure Kept (d : Disk) (base : Location) (s : Snapshot) : Prop where
  recordable : s.Recordable
  usable : (Directory.record base s.id).Usable
  place : d.node? (base.path ++ [snapshotName s.id]) = some .directory
  record : d.node? (base.path ++ [snapshotName s.id, "_metadata"]) =
    some (.file (Record.snapshot.encode s))
  states : ∀ {run : TaskRun} {state : Bytes}, s.handles.find? run = some state →
    HasState d base s.id run state

/-- The invariant of the disk with the base directory, since it was as `start`: no directory outside
the base is gone, and every record in it is that of a snapshot which is kept and known. -/
structure Records (start : Disk) (base : Location) (known : Nat → Prop) (d : Disk) : Prop where
  hosts : d.Hosts base
  since : ∀ {p : Path}, (∀ name rest, p ≠ base.path ++ name :: rest) →
    start.node? p = some .directory → d.node? p = some .directory
  distinct : d.Distinct base.path
  sound : ∀ {name : String} {n : Node}, d.node? (base.path ++ [name, "_metadata"]) = some n →
    ∃ s, name = snapshotName s.id ∧ known s.id ∧ Kept d base s

variable {start d d' : Disk} {base : Location} {known known' : Nat → Prop} {id : Nat}
  {name : String} {s : Snapshot} {touched : String → String → Prop}

theorem HasState.spared {run : TaskRun} {state : Bytes} (h : HasState d base id run state)
    (hs : Spares base id d d') : HasState d' base id run state := by
  have hsame : statesName d' base id = statesName d base id := by
    refine statesName_congr ?_
    rw [isThere, isThere, hs _ (savepointName_mem _)]
  constructor
  · rw [stateFile, hsame]
    exact h.usable
  · rw [hsame, hs _ (statesName_mem d base id)]
    exact h.file

theorem Kept.spared (h : Kept d base s) (hs : Spares base s.id d d') : Kept d' base s where
  recordable := h.recordable
  usable := h.usable
  place := (hs _ (snapshotName_mem _) []).trans h.place
  record := (hs _ (snapshotName_mem _) _).trans h.record
  states hfind := (h.states hfind).spared hs

/-- A state stays where it is as long as its file is not touched. -/
theorem HasState.touches {run : TaskRun} {state : Bytes} (h : HasState d base id run state)
    (ht : Touches base id touched d d') (hout : ∀ name, ¬touched name (stateName run)) :
    HasState d' base id run state := by
  constructor
  · rw [stateFile, ht.states]
    exact h.usable
  · rw [ht.states, ht.files (hout _)]
    exact h.file

theorem Records.mono (h : Records start base known d) (hsub : ∀ i, known i → known' i) :
    Records start base known' d := by
  refine ⟨h.hosts, h.since, h.distinct, fun hthere => ?_⟩
  obtain ⟨s, hname, hknown, hkept⟩ := h.sound hthere
  exact ⟨s, hname, hsub _ hknown, hkept⟩

/-- Only the ids of the records that are there have to be known. -/
theorem Records.restrict (h : Records start base known d)
    (hknown : ∀ s, Kept d base s → known' s.id) : Records start base known' d := by
  refine ⟨h.hosts, h.since, h.distinct, fun hthere => ?_⟩
  obtain ⟨s, hname, -, hkept⟩ := h.sound hthere
  exact ⟨s, hname, hknown s hkept, hkept⟩

/-- After a change in the directories of one snapshot only its own record is in question. -/
theorem Records.within (h : Records start base known d)
    (hw : Within base.path (entries id) d d') (hsub : ∀ i, known i → known' i)
    (hown : ∀ {name n}, name ∈ entries id → d'.node? (base.path ++ [name, "_metadata"]) = some n →
      ∃ s, name = snapshotName s.id ∧ known' s.id ∧ Kept d' base s) :
    Records start base known' d' where
  hosts := h.hosts.within hw
  since {p} hout hdir := by
    refine hw.directories ?_ (h.since hout hdir)
    rintro ⟨name, -, rest, heq⟩
    exact hout name rest heq
  distinct := hw.distinct h.distinct
  sound {name n} hthere := by
    by_cases hname : name ∈ entries id
    · exact hown hname hthere
    · rw [hw.others _ hname] at hthere
      obtain ⟨s, rfl, hknown, hkept⟩ := h.sound hthere
      refine ⟨s, rfl, hsub _ hknown, hkept.spared (spares_of_within hw ?_)⟩
      intro heq
      rw [heq] at hname
      exact hname (snapshotName_mem id)

/-- A record that is found in the directories of a snapshot is its own. -/
theorem Records.own (h : Records start base known d) (hname : name ∈ entries id) {n : Node}
    (hthere : d.node? (base.path ++ [name, "_metadata"]) = some n) :
    ∃ s, s.id = id ∧ name = snapshotName id ∧ known id ∧ Kept d base s := by
  obtain ⟨s, rfl, hknown, hkept⟩ := h.sound hthere
  have hid : s.id = id := by
    by_contra hne
    exact not_mem_entries hne (snapshotName_mem s.id) hname
  exact ⟨s, hid, by rw [hid], hid ▸ hknown, hkept⟩

theorem Records.absent (h : Records start base known d) (hid : ¬known id)
    (hname : name ∈ entries id) : d.node? (base.path ++ [name, "_metadata"]) = none := by
  cases hthere : d.node? (base.path ++ [name, "_metadata"]) with
  | none => rfl
  | some n =>
    obtain ⟨-, -, -, hknown, -⟩ := h.own hname hthere
    exact absurd hknown hid

/-! ### Changes -/

/-- As long as a snapshot is not known, its directories may change in any way that does not make a
record. -/
theorem Records.quiet (h : Records start base known d) (hid : ¬known id)
    (hw : Within base.path (entries id) d d')
    (hsame : ∀ name, d'.node? (base.path ++ [name, "_metadata"]) =
      d.node? (base.path ++ [name, "_metadata"])) : Records start base known d' := by
  refine h.within hw (fun _ hknown => hknown) fun {name n} hname hthere => ?_
  rw [hsame, h.absent hid hname] at hthere
  cases hthere

theorem Records.touches (h : Records start base known d) (hid : ¬known id)
    (ht : Touches base id touched d d') (hrecord : ∀ name, ¬touched name "_metadata") :
    Records start base known d' :=
  h.quiet hid ht.within fun name => ht.files (hrecord name)

/-- A snapshot may be removed in any order that takes its record. -/
theorem Records.shrinks (h : Records start base known d) (hs : Shrinks base.path id d d')
    (hgone : ∀ s, s.id = id → Kept d base s →
      d'.node? (base.path ++ [snapshotName id, "_metadata"]) = none) :
    Records start base known d' := by
  refine h.within hs.within (fun _ hknown => hknown) fun {name n} hname hthere => ?_
  have hbefore : d.node? (base.path ++ [name, "_metadata"]) = some n := by
    rcases hs.nodes (base.path ++ [name, "_metadata"]) with heq | hnone
    · exact heq.symm.trans hthere
    · rw [hnone] at hthere
      cases hthere
  obtain ⟨s, hid, rfl, -, hkept⟩ := h.own hname hbefore
  rw [hgone s hid hkept] at hthere
  cases hthere

theorem Records.discard (h : Records start base known d) (id : Nat) :
    Records start base known (Directory.discard d base id).1 := by
  refine h.shrinks (shrinks_discard d base id) ?_
  rintro s rfl hkept
  exact node?_discard h.hosts hkept.usable.of_child hkept.place _

theorem Records.dropRecord (h : Records start base known d) (id : Nat) :
    Records start base known (Directory.dropRecord d base id).1 := by
  refine h.shrinks (shrinks_dropRecord d base id) ?_
  rintro s rfl hkept
  exact node?_dropRecord h.hosts hkept.usable hkept.record

/-- With its record a snapshot becomes known, if its states were there before. -/
theorem Records.enter (h : Records start base known d) (hid : ¬known s.id) (hs : s.Recordable)
    (hstates : ∀ {run : TaskRun} {state : Bytes}, s.handles.find? run = some state →
      HasState d base s.id run state)
    (hknown : ∀ i, known i → known' i) (hnew : known' s.id) :
    Records start base known' (Directory.saveRecord d base s).1 := by
  rcases hsave : Directory.saveRecord d base s with ⟨d', outcome⟩
  rcases touches_saveRecord h.hosts hsave with ⟨failure, -, ht⟩ | ⟨-, hu, ht, hplace, hrecord⟩
  · exact (h.touches hid ht (by simp)).mono hknown
  · have hkept : Kept d' base s := by
      refine ⟨hs, hu, hplace, hrecord, fun {run state} hfind => (hstates hfind).touches ht ?_⟩
      rintro name ⟨-, hdraft | hrecord⟩
      · exact stateName_ne run (by decide) hdraft
      · exact stateName_ne run (by decide) hrecord
    refine h.within ht.within hknown fun {name n} hname hthere => ?_
    by_cases hself : name = snapshotName s.id
    · exact ⟨s, hself, hnew, hkept⟩
    · rw [ht.files (by simp [hself]), h.absent hid hname] at hthere
      cases hthere

end Directory

/-! ### Media -/

open Directory

/-- The medium is the base directory on a disk whose records can be recovered. -/
def Medium.Recorded (start : Disk) (base : Location) (known : Nat → Prop) (m : Medium) : Prop :=
  ∃ d, m = .directory base d ∧ Records start base known d

variable {start : Disk} {base : Location} {known known' : Nat → Prop} {m : Medium} {v : Vault}

theorem Medium.Recorded.mono (h : m.Recorded start base known) (hsub : ∀ i, known i → known' i) :
    m.Recorded start base known' := by
  obtain ⟨d, hm, hd⟩ := h
  exact ⟨d, hm, hd.mono hsub⟩

theorem Medium.lasting_recorded : Medium.Lasting (Medium.Recorded start base known) where
  discard id h := by
    obtain ⟨d, rfl, hd⟩ := h
    exact ⟨_, rfl, hd.discard id⟩
  dropRecord id h := by
    obtain ⟨d, rfl, hd⟩ := h
    exact ⟨_, rfl, hd.dropRecord id⟩

/-- A request to keep a state writes one file, if it is not refused. -/
theorem Vault.touches_request {w : Vault} {d : Disk} {id : Nat} {run : TaskRun} {state : Bytes}
    {event : Event} {outcome : Option StorageFailure} (hv : v.medium = .directory base d)
    (hbase : d.Hosts base) (h : v.request (.persist id run state) = (w, event, outcome)) :
    ∃ d', w.medium = .directory base d' ∧ Touches base id (fun _ f => f = stateName run) d d' ∧
      (outcome = none → HasState d' base id run state) := by
  rcases request_cases v (.persist id run state) with ⟨failure, -, he⟩ | ⟨-, he⟩
  · cases he.symm.trans h
    exact ⟨d, hv, .refl _ _ _ _, by simp⟩
  · cases he.symm.trans h
    rcases hpersist : Directory.persist d base id run state with ⟨d', outcome⟩
    have hperform : perform v.medium (.persist id run state) = (.directory base d', outcome) := by
      rw [hv]
      show ((Medium.directory base (Directory.persist d base id run state).1,
        (Directory.persist d base id run state).2) : Medium × Option StorageFailure) = _
      rw [hpersist]
    obtain ⟨htouch, hstate⟩ := touches_persist hbase hpersist
    rw [hperform]
    exact ⟨d', rfl, htouch, hstate⟩

/-- Keeping states touches only their files, and when all were kept they are all there. -/
theorem Vault.touches_persistAll {v' : Vault} {d : Disk} {id : Nat}
    {states : List (TaskRun × Bytes)} {events : List Event} {outcome : Option StorageFailure}
    (hv : v.medium = .directory base d) (hbase : d.Hosts base)
    (hnodup : (states.map (·.1)).Nodup) (h : v.persistAll id states = (v', events, outcome)) :
    ∃ d', v'.medium = .directory base d' ∧
      Touches base id (fun _ f => ∃ e ∈ states, f = stateName e.1) d d' ∧
      (outcome = none → ∀ e ∈ states, HasState d' base id e.1 e.2) := by
  induction states generalizing v d events with
  | nil =>
    cases h
    exact ⟨d, hv, .refl _ _ _ _, by simp⟩
  | cons e states ih =>
    obtain ⟨run, state⟩ := e
    obtain ⟨hnew, hnodup⟩ := List.nodup_cons.1 hnodup
    rw [persistAll] at h
    rcases hrequest : v.request (.persist id run state) with ⟨w, event, failure | failure⟩
    · obtain ⟨d₁, hw, htouch, hfirst⟩ := touches_request hv hbase hrequest
      rcases hrest : w.persistAll id states with ⟨w', more, last⟩
      simp only [hrequest, hrest] at h
      cases h
      obtain ⟨d₂, hv', htouches, hall⟩ := ih hw (hbase.within htouch.within) hnodup hrest
      refine ⟨d₂, hv', ?_, fun hnone => List.forall_mem_cons.2 ⟨?_, hall hnone⟩⟩
      · refine (htouch.mono ?_).trans (htouches.mono ?_)
        · exact fun _ f hf => ⟨_, List.mem_cons_self, hf⟩
        · rintro _ f ⟨e, he, hf⟩
          exact ⟨e, List.mem_cons_of_mem _ he, hf⟩
      · -- None of the later files is this one.
        refine (hfirst rfl).touches htouches ?_
        rintro _ ⟨e, he, hsame⟩
        exact hnew (List.mem_map.2 ⟨e, he, (stateName_injective hsame).symm⟩)
    · obtain ⟨d₁, hw, htouch, -⟩ := touches_request hv hbase hrequest
      simp only [hrequest] at h
      cases h
      refine ⟨d₁, hw, htouch.mono ?_, by simp⟩
      exact fun _ f hf => ⟨_, List.mem_cons_self, hf⟩

/-! ### Archives -/

namespace Archive

/-- The records of an archive's medium can be recovered, and the registered ids are known. -/
structure Recorded (start : Disk) (base : Location) (known : Nat → Prop) (a : Archive) : Prop where
  medium : a.vault.medium.Recorded start base known
  live : ∀ s ∈ a.snapshots, known s.id

variable {a : Archive} {id : Nat} {s : Snapshot}

theorem Recorded.mono (h : a.Recorded start base known) (hsub : ∀ i, known i → known' i) :
    a.Recorded start base known' :=
  ⟨h.medium.mono hsub, fun s hs => hsub _ (h.live s hs)⟩

theorem Recorded.request (h : a.Recorded start base known) {call : StorageCall}
    (hcall : call = .discard id ∨ call = .cleanup id) :
    Recorded start base known { a with vault := (a.vault.request call).1 } :=
  ⟨Medium.lasting_recorded.request h.medium hcall, h.live⟩

theorem recorded_subsume (h : a.Recorded start base known) :
    a.subsume.1.Recorded start base known :=
  ⟨Medium.lasting_recorded.subsume h.medium, fun s hs => h.live s (a.sublist_subsume.subset hs)⟩

theorem recorded_relabel (h : a.Recorded start base known) (id : Nat) (policy : SnapshotPolicy) :
    (a.relabel id policy).1.Recorded start base known := by
  refine ⟨h.medium, fun s hs => ?_⟩
  obtain ⟨t, ht, rfl⟩ := List.mem_map.1 hs
  split <;> exact h.live t ht

theorem recorded_remove (h : a.Recorded start base known) (id : Nat) :
    (a.remove id).1.Recorded start base known := by
  refine ⟨Medium.lasting_recorded.remove h.medium id, fun s hs => h.live s ?_⟩
  rcases remove_cases a id with ⟨-, he⟩ | ⟨t, medium, failure, -, -, he⟩ <;> rw [he] at hs
  · exact hs
  · exact List.mem_of_mem_eraseP hs

theorem recorded_close (h : a.Recorded start base known) (status : JobStatus) :
    (a.close status).1.Recorded start base known :=
  ⟨Medium.lasting_recorded.close h.medium status,
    fun s hs => h.live s ((a.sublist_close status).subset hs)⟩

/-- Registering a snapshot makes it known, if its states are there. -/
theorem recorded_add {d : Disk} (hm : a.vault.medium = .directory base d)
    (hd : Records start base known d) (hlive : ∀ s ∈ a.snapshots, known s.id)
    (hid : ¬known s.id) (hs : s.Recordable)
    (hstates : ∀ {run : TaskRun} {state : Bytes}, s.handles.find? run = some state →
      HasState d base s.id run state)
    (hknown : ∀ i, known i → known' i) (hnew : known' s.id) :
    (a.add s).1.Recorded start base known' := by
  have hsave : (a.vault.medium.saveRecord s).1.Recorded start base known' := by
    rw [hm]
    exact ⟨_, rfl, hd.enter hid hs hstates hknown hnew⟩
  have hlive' : ∀ t ∈ a.snapshots, known' t.id := fun t ht => hknown _ (hlive t ht)
  rcases add_cases a s with ⟨-, he⟩ | ⟨-, ⟨medium, failure, hsaved, he⟩ | ⟨medium, hsaved, he⟩⟩
  · rw [he]
    exact ⟨⟨d, hm, hd.mono hknown⟩, hlive'⟩
  · rw [hsaved] at hsave
    rw [he]
    exact ⟨hsave, hlive'⟩
  · rw [hsaved] at hsave
    rw [he]
    refine recorded_subsume ⟨hsave, fun t ht => ?_⟩
    rcases List.mem_cons.1 ((Retention.perm_place s a.retention.live).mem_iff.1 ht) with rfl | ht
    · exact hnew
    · exact hlive' t ht

end Archive
end Checkpointing
