import Mathlib.Tactic
import Checkpointing.Proofs.Storage.Mirror

/-!
# Records that are written over

An archive refuses a snapshot whose id is registered.  An id may also have a record while it is not
registered: that of a snapshot which waits in the backlog, since its data could not be thrown away.
Such a record is written over when another snapshot of that id is added, and when the archive is
closed the data of the new one is thrown away in place of the old one's.

* `Medium.hasRecord_iff`: a record is that of a snapshot;
* `Archive.Attended`: every record is that of a snapshot which the archive holds; kept by every
  exchange;
* `Heedful` are the actions that add no snapshot under an id that waits in the backlog; then no id
  is held twice;
* `overwrites_only_waiting` is the main statement, `waiting_record_overwritten` a record that is
  written over.
-/

namespace Checkpointing

open Directory

variable {start disk : Disk} {base : Location} {m : Medium} {a b : Archive} {s : Snapshot}

/-- Whether there is a record for an id. -/
def Medium.hasRecord (m : Medium) (id : Nat) : Bool :=
  match m with
  | .memory _ => false
  | .directory base disk => disk.isThereAt (record base id)

/-- In a directory that archives have written every record is that of a snapshot. -/
theorem Medium.hasRecord_iff (h : m.Cataloged start base) {id : Nat} :
    m.hasRecord id = true ↔ ∃ s, s.id = id ∧ m.Files s := by
  obtain ⟨d, rfl, hd⟩ := h
  have hthere : (Medium.directory base d).hasRecord id = true ↔
      (record base id).Usable ∧ d.isThere (record base id).path = true :=
    Disk.isThereAt_iff hd.hosts rfl
  rw [hthere]
  constructor
  · rintro ⟨-, hnode⟩
    obtain ⟨n, hnode⟩ := Disk.isThere_iff.1 hnode
    rw [record_eq, Location.path_grandchild] at hnode
    obtain ⟨s, hname, hfiled⟩ := hd.sound hnode
    exact ⟨s, (snapshotName_injective hname).symm, files_directory.2 hfiled⟩
  · rintro ⟨s, rfl, hfiles⟩
    have hfiled := files_directory.1 hfiles
    have hrecord := hfiled.record
    rw [← Location.path_grandchild, ← record_eq] at hrecord
    exact ⟨hfiled.usable, Disk.isThere_iff.2 ⟨_, hrecord⟩⟩

namespace Archive

/-! ### Runs -/

/-- Every record in the directory of an archive is that of a snapshot which the archive holds. -/
structure Attended (start : Disk) (base : Location) (a : Archive) : Prop where
  cataloged : a.vault.medium.Cataloged start base
  held : ∀ s, a.vault.medium.Files s → s.id ∈ a.held

theorem Exchange.attended {taken : List Snapshot} {gone : List Nat}
    (he : Exchange start base a b taken gone) (h : Attended start base a) :
    Attended start base b := by
  refine ⟨he.cataloged, fun s hs => ?_⟩
  obtain ⟨hbefore, hgone⟩ := (he.files s).1 hs
  have hheld : s.id ∈ b.held ++ gone := by
    rw [he.balance.mem_iff, List.mem_append]
    exact hbefore.imp List.mem_map_of_mem fun hs => h.held s hs.1
  exact (List.mem_append.1 hheld).resolve_right hgone

theorem Attended.perform {actions : List Action} (h : Attended start base a)
    (hfits : ∀ s ∈ actions.flatMap Action.added, s.Recordable) :
    Attended start base (a.perform actions) := by
  induction actions generalizing a with
  | nil => exact h
  | cons action actions ih =>
    rw [List.flatMap_cons] at hfits
    obtain ⟨hfirst, hrest⟩ := List.forall_mem_append.1 hfits
    obtain ⟨taken, gone, -, he⟩ := exchange_act h.cataloged hfirst
    exact ih (he.attended h) hrest

/-- An id that waits in the backlog of an archive. -/
def Waiting (a : Archive) (id : Nat) : Prop := id ∈ a.retention.backlog.map (·.id)

instance (a : Archive) (id : Nat) : Decidable (a.Waiting id) :=
  inferInstanceAs (Decidable (id ∈ _))

/-- No action adds a snapshot under an id that waits in the backlog. -/
def Heedful (a : Archive) : List Action → Prop
  | [] => True
  | action :: rest => (∀ s ∈ action.added, ¬a.Waiting s.id) ∧ (a.act action).Heedful rest

theorem Action.nodup_added (action : Action) : (action.added.map (·.id)).Nodup := by
  rcases action with (s | _ | _ | _) | _
  · exact List.nodup_singleton s.id
  all_goals exact List.nodup_nil

/-- A snapshot that an archive takes is new to it if its id does not wait. -/
theorem nodup_of_fresh {taken : List Snapshot} (h : a.held.Nodup)
    (hnodup : (taken.map (·.id)).Nodup) (hfresh : ∀ s ∈ taken, a.retention.contains s.id = false)
    (hheeds : ∀ s ∈ taken, ¬a.Waiting s.id) : (taken.map (·.id) ++ a.held).Nodup := by
  refine List.nodup_append'.2 ⟨hnodup, h, ?_⟩
  intro id hid hheld
  obtain ⟨s, hs, rfl⟩ := List.mem_map.1 hid
  rw [held, List.map_append, List.mem_append] at hheld
  rcases hheld with hlive | hwaits
  · obtain ⟨t, ht, heq⟩ := List.mem_map.1 hlive
    exact Retention.ne_of_contains_eq_false (hfresh s hs) ht heq
  · exact hheeds s hs hwaits

/-- As long as ids that wait are heeded no id is held twice. -/
theorem Heedful.nodup {actions : List Action} (hheeds : a.Heedful actions)
    (ha : a.vault.medium.Cataloged start base) (h : a.held.Nodup)
    (hfits : ∀ s ∈ actions.flatMap Action.added, s.Recordable) :
    (a.perform actions).held.Nodup := by
  induction actions generalizing a with
  | nil => exact h
  | cons action actions ih =>
    rw [List.flatMap_cons] at hfits
    obtain ⟨hfirst, hrest⟩ := List.forall_mem_append.1 hfits
    obtain ⟨taken, gone, hsub, he⟩ := exchange_act ha hfirst
    have htaken : (taken.map (·.id) ++ a.held).Nodup :=
      nodup_of_fresh h (action.nodup_added.sublist (hsub.map _)) he.fresh fun s hs =>
        hheeds.1 s (hsub.subset hs)
    exact ih hheeds.2 he.cataloged (he.balance.nodup_iff.2 htaken).of_append_left hrest

/-! ### The main statement -/

/-- What is thrown away while a call is answered is a snapshot that the archive holds or takes, and
what it takes was not registered. -/
theorem request_of_answer {call : Call} {id : Nat} {refused : Bool}
    (h : .storage (.discard id) refused ∈ (a.answer call).2.1) :
    (∃ s ∈ (Action.call call).added ++ (a.snapshots ++ a.retention.backlog), s.id = id) ∧
      ∀ s ∈ (Action.call call).added, a.retention.contains s.id = false := by
  have hid : id ∈ requestIds (a.answer call).2.1 := List.mem_filterMap.2 ⟨_, h, rfl⟩
  cases call with
  | relabel i policy => cases h
  | remove i => cases h
  | add s =>
    have hid : id ∈ requestIds (a.add s).2.1 := hid
    rcases add_cases a s with ⟨-, he⟩ | ⟨hnew, ⟨medium, failure, -, he⟩ | ⟨medium, -, he⟩⟩ <;>
      rw [he] at hid
    · cases hid
    · cases hid
    · constructor
      · rw [requestIds_subsume] at hid
        obtain ⟨t, ht, rfl⟩ := List.mem_map.1 hid
        have hentered : t ∈ Retention.place s a.snapshots :=
          ((a.withMedium medium).entered s).retention.perm_subsume.subset
            (List.mem_append_left _ ht)
        refine ⟨t, ?_, rfl⟩
        rcases List.mem_cons.1 ((Retention.perm_place s a.snapshots).subset hentered) with rfl | ht
        · exact List.mem_append_left _ (List.mem_singleton.2 rfl)
        · exact List.mem_append_right _ (List.mem_append_left _ ht)
      · intro t ht
        rw [List.mem_singleton.1 ht]
        exact hnew
  | close status =>
    refine ⟨?_, fun s hs => by cases hs⟩
    have hid : id ∈ requestIds (a.close status).2.1 := hid
    rw [requestIds_close] at hid
    obtain ⟨t, ht, rfl⟩ := List.mem_map.1 hid
    refine ⟨t, List.mem_append_right _ ?_, rfl⟩
    rcases List.mem_append.1 ht with ht | ht
    · exact List.mem_append_right _ ht
    · exact List.mem_append_left _ (List.mem_of_mem_filter ht)

/-- An archive writes no record over but one that waits to be thrown away.  Let an archive be opened
on a directory that archives have written, and let anything be added, relabeled, removed, closed and
kept there, whatever requests storage refuses.  A snapshot under whose id there is a record is
refused as registered, and nothing changes, unless its id is not registered and waits in the
backlog.  If no snapshot is ever added under an id that waits, no id is held twice, and whenever
data are thrown away, they are those of the only snapshot that the archive holds or takes under that
id. -/
theorem overwrites_only_waiting {text : String} {faults : FaultPlan} {maxRetained : Nat}
    {actions : List Action} (hlocate : start.locate text = .ok base)
    (hbase : start.node? base.path = some .directory) (hempty : start.listing base.path = [])
    (hwritten : Written text start disk)
    (hstored : open? (.of (.directory base disk) faults) maxRetained = .ok a)
    (hfits : ∀ s ∈ actions.flatMap Action.added, s.Recordable) (hperform : a.perform actions = b) :
    (∀ s, b.vault.medium.hasRecord s.id = true →
      b.add s = (b, [], .error (.alreadyRegistered s.id)) ∨
        b.retention.contains s.id = false ∧ b.Waiting s.id) ∧
    (a.Heedful actions → b.held.Nodup ∧
      ∀ call, (∀ s ∈ (Action.call call).added, ¬b.Waiting s.id) →
        ∀ id refused, .storage (.discard id) refused ∈ (b.answer call).2.1 →
          ∃ s ∈ (Action.call call).added ++ (b.snapshots ++ b.retention.backlog), s.id = id ∧
            ∀ t ∈ (Action.call call).added ++ (b.snapshots ++ b.retention.backlog),
              t.id = id → t = s) := by
  subst hperform
  have hd := catalog_of_written hlocate hbase hempty hwritten
  obtain ⟨a', hopen, hmedium, hascending, hbacklog, hlive⟩ := hd.toLegible.open? faults maxRetained
  cases hopen.symm.trans hstored
  have hattended : Attended start base a := by
    refine ⟨⟨disk, hmedium, hd⟩, fun s hs => ?_⟩
    rw [hmedium, Medium.files_directory] at hs
    exact List.mem_map_of_mem (List.mem_append_left _ ((hlive s).2 hs))
  have hlast := hattended.perform hfits
  constructor
  · intro s hrecord
    obtain ⟨t, hid, hfiles⟩ := (Medium.hasRecord_iff hlast.cataloged).1 hrecord
    have hheld := hlast.held t hfiles
    rw [hid, held, List.map_append, List.mem_append] at hheld
    rcases add_cases (a.perform actions) s with ⟨-, he⟩ | ⟨hnew, -⟩
    · exact Or.inl he
    · refine Or.inr ⟨hnew, hheld.resolve_left fun hin => ?_⟩
      obtain ⟨u, hu, heq⟩ := List.mem_map.1 hin
      exact Retention.ne_of_contains_eq_false hnew hu heq
  · intro hheeds
    have hnodup : a.held.Nodup := by
      rw [held, hbacklog, List.append_nil]
      exact hascending.nodup
    have hnodup := hheeds.nodup hattended.cataloged hnodup hfits
    refine ⟨hnodup, fun call hcall id refused hheard => ?_⟩
    obtain ⟨⟨s, hs, hid⟩, hfresh⟩ := request_of_answer hheard
    have hall := nodup_of_fresh hnodup (Action.call call).nodup_added hfresh hcall
    rw [held, ← List.map_append] at hall
    exact ⟨s, hs, hid, fun t ht hid' => List.inj_on_of_nodup_map hall ht hs (hid'.trans hid.symm)⟩

/-- An archive in an empty directory, whose storage refuses the first request. -/
def renewing : Archive :=
  ⟨.of (.directory ⟨"d", ["d"], none⟩ ⟨[(["d"], .directory)]⟩)
    (fun calls _ => if calls = 0 then some (.of "disk unavailable") else none), .empty 1⟩

/-- Two checkpoints are added, of which the first one is given up for the second one. -/
def renewal : List Action := [.call (.add firstStored), .call (.add secondStored)]

/-- The second checkpoint cannot be added again; the first one has a record too, and waits. -/
theorem overwrites_only_waiting_of_renewal :
    open? (.of renewing.vault.medium renewing.vault.faults) 1 = .ok renewing ∧
    renewing.Heedful renewal ∧ (renewing.perform renewal).vault.medium.hasRecord 2 = true ∧
    (renewing.perform renewal).add secondStored =
      (renewing.perform renewal, [], .error (.alreadyRegistered 2)) ∧
    (renewing.perform renewal).vault.medium.hasRecord 1 = true ∧
    (renewing.perform renewal).Waiting 1 ∧ (renewing.perform renewal).held.Nodup := by
  have hstored : open? (.of renewing.vault.medium renewing.vault.faults) 1 = .ok renewing := by cbv
  have hlocate : (⟨[(["d"], .directory)]⟩ : Disk).locate "d" = .ok ⟨"d", ["d"], none⟩ := by cbv
  have hempty : (⟨[(["d"], .directory)]⟩ : Disk).listing ["d"] = [] := by cbv
  have hfits : ∀ s ∈ renewal.flatMap Action.added, s.Recordable := by
    intro s hs
    have hs : s ∈ [firstStored, secondStored] := hs
    fin_cases hs <;>
      exact ⟨by decide, by decide, by decide, by decide, by decide, by rintro _ ⟨⟩⟩
  have hheeds : renewing.Heedful renewal := ⟨by decide, by decide +kernel, trivial⟩
  have hsecond : (renewing.perform renewal).vault.medium.hasRecord 2 = true := by decide +kernel
  have hfirst : (renewing.perform renewal).vault.medium.hasRecord 1 = true := by decide +kernel
  obtain ⟨hadd, hnodup⟩ :=
    overwrites_only_waiting hlocate (by cbv) hempty .start hstored hfits rfl
  refine ⟨hstored, hheeds, hsecond, ?_, hfirst, ?_, (hnodup hheeds).1⟩
  · exact (hadd secondStored hsecond).resolve_right fun hwaits =>
      absurd hwaits.2 (by decide +kernel)
  · refine ((hadd firstStored hfirst).resolve_left fun he => ?_).2
    have hok : ((renewing.perform renewal).add firstStored).2.2 = .ok [1] := rfl
    rw [he] at hok
    cases hok

/-- A savepoint under the id of the first checkpoint. -/
def renewed : Snapshot := ⟨1, .savepoint true .canonical, 30, 31, ∅, none⟩

/-- The record of the first checkpoint. -/
def firstRecord (a : Archive) : Option Node :=
  a.vault.medium.disk?.bind fun d => d.node? ["d", "chk-1", "_metadata"]

/-- A savepoint is registered under an id that waits, and the record is written over; when the job
fails the savepoint's data are thrown away, although it stays registered. -/
theorem waiting_record_overwritten :
    open? (.of renewing.vault.medium renewing.vault.faults) 1 = .ok renewing ∧
    firstRecord (renewing.perform renewal) = some (.file (Record.snapshot.encode firstStored)) ∧
    ((renewing.perform renewal).add renewed).2 = ([], .ok []) ∧
    firstRecord ((renewing.perform renewal).add renewed).1 =
      some (.file (Record.snapshot.encode renewed)) ∧
    (((renewing.perform renewal).add renewed).1.close .failed).2 =
      ([.storage (.discard 1) false], .ok ()) ∧
    renewed ∈ (((renewing.perform renewal).add renewed).1.close .failed).1.snapshots ∧
    firstRecord (((renewing.perform renewal).add renewed).1.close .failed).1 = none :=
  ⟨by cbv, by decide +kernel, rfl, by decide +kernel, rfl, by decide +kernel, by decide +kernel⟩

end Archive
end Checkpointing
