import Mathlib.Tactic
import Checkpointing.Proofs.Storage.Catalog

/-!
# What becomes of the records on disk

Whatever is done with an archive in a directory, it takes some snapshots and lets go of others, and
the records in the directory come and go with them.

* `Medium.Files` says that a snapshot is on record; `files_discard`, `files_dropRecord`,
  `files_persist` and `files_saveRecord_of_ok` say how each operation changes that, up to
  `Archive.files_subsume` and `Archive.files_close`;
* `Archive.Action` is what a job does with its archive, `Archive.perform` does it;
* `Archive.Exchange` is what an action does to the ids that the archive holds and to what is on
  record; `exchange_act` for any action, from one lemma for each part.
-/

namespace Checkpointing

open Directory

variable {start disk : Disk} {base : Location} {m m' : Medium} {v : Vault}
  {a b c : Archive} {s t : Snapshot}

namespace Directory

/-- Whether a snapshot is on record only depends on what there is in its own directories. -/
theorem filed_of_spares {d d' : Disk} (h : Spares base s.id d d') (hs : Filed d base s) :
    Filed d' base s where
  recordable := hs.recordable
  usable := hs.usable
  place := (h _ (snapshotName_mem _) []).trans hs.place
  record := (h _ (snapshotName_mem _) _).trans hs.record

/-- Where archives write, a snapshot is on record if its record is there. -/
theorem Catalog.filed_iff (h : Catalog start base disk) : Filed disk base s ↔ s.Recordable ∧
    disk.node? (base.path ++ [snapshotName s.id, "_metadata"]) =
      some (.file (Record.snapshot.encode s)) :=
  ⟨fun hs => ⟨hs.recordable, hs.record⟩, fun hs => h.filed hs.1 hs.2⟩

/-- What is on record after directories were removed was so before. -/
theorem Catalog.filed_of_shrinks {id : Nat} {d' : Disk} (h : Catalog start base disk)
    (hshrinks : Shrinks base.path id disk d') (hs : Filed d' base s) : Filed disk base s := by
  refine h.filed_iff.2 ⟨hs.recordable, ?_⟩
  rcases hshrinks.nodes (base.path ++ [snapshotName s.id, "_metadata"]) with heq | hnone
  · exact heq.symm.trans hs.record
  · rw [hs.record] at hnone
    cases hnone

theorem Catalog.not_filed_discard (h : Catalog start base disk) :
    ¬Filed (discard disk base s.id).1 base s := by
  intro hs
  have hbefore := h.filed_of_shrinks (shrinks_discard disk base s.id) hs
  have hnone := node?_discard h.hosts hbefore.usable.of_child hbefore.place "_metadata"
  rw [hs.record] at hnone
  cases hnone

theorem Catalog.not_filed_dropRecord (h : Catalog start base disk) :
    ¬Filed (dropRecord disk base s.id).1 base s := by
  intro hs
  have hbefore := h.filed_of_shrinks (shrinks_dropRecord disk base s.id) hs
  have hnone := node?_dropRecord h.hosts hbefore.usable hbefore.record
  rw [hs.record] at hnone
  cases hnone

end Directory

namespace Medium

/-- The record of a snapshot is in its place in the directory of a medium. -/
inductive Files (s : Snapshot) : Medium → Prop
  | directory {base : Location} {d : Disk} (filed : Filed d base s) : Files s (.directory base d)

theorem files_directory : (directory base disk).Files s ↔ Filed disk base s :=
  ⟨fun h => by cases h; assumption, .directory⟩

theorem Spares.files (h : Spares s.id m m') : m'.Files s ↔ m.Files s := by
  cases h with
  | memory _ => constructor <;> intro hfiles <;> cases hfiles
  | directory same _ =>
    rw [files_directory, files_directory]
    constructor
    · exact filed_of_spares fun name hname rest => (same name hname rest).symm
    · exact filed_of_spares same

/-! ### Operations of a medium -/

theorem files_discard (h : m.Cataloged start base) (id : Nat) :
    (m.discard id).1.Files s ↔ m.Files s ∧ s.id ≠ id := by
  by_cases hid : s.id = id
  · subst hid
    obtain ⟨d, rfl, hd⟩ := h
    exact iff_of_false (fun hs => hd.not_filed_discard (files_directory.1 hs)) fun hs => hs.2 rfl
  · rw [(spares_discard m hid).files, and_iff_left hid]

theorem files_dropRecord (h : m.Cataloged start base) (id : Nat) :
    (m.dropRecord id).1.Files s ↔ m.Files s ∧ s.id ≠ id := by
  by_cases hid : s.id = id
  · subst hid
    obtain ⟨d, rfl, hd⟩ := h
    exact iff_of_false (fun hs => hd.not_filed_dropRecord (files_directory.1 hs)) fun hs => hs.2 rfl
  · rw [(spares_dropRecord m hid).files, and_iff_left hid]

/-- Keeping states puts nothing on record. -/
theorem files_persist (h : m.Cataloged start base) (id : Nat) (run : TaskRun) (state : Bytes) :
    (m.persist id run state).1.Files s ↔ m.Files s := by
  obtain ⟨d, rfl, hd⟩ := h
  have htouches := (touches_persist hd.hosts (Eq.refl (Directory.persist d base id run state))).1
  have hne : ¬"_metadata" = stateName run := fun heq => stateName_ne run (by decide) heq.symm
  refine files_directory.trans (Iff.trans ?_ files_directory.symm)
  rw [(hd.touches htouches fun _ => hne).filed_iff, hd.filed_iff, htouches.files hne]

/-- A record that could not be written changes nothing. -/
theorem files_saveRecord_of_error (h : m.Cataloged start base) {failure : StorageFailure}
    (hsave : m.saveRecord t = (m', some failure)) : m'.Files s ↔ m.Files s := by
  obtain ⟨d, rfl, hd⟩ := h
  rcases hd' : Directory.saveRecord d base t with ⟨d', outcome⟩
  simp only [saveRecord, hd'] at hsave
  cases hsave
  rcases touches_saveRecord hd.hosts hd' with ⟨-, -, ht⟩ | ⟨hnone, -⟩
  · rw [files_directory, files_directory, (hd.touches ht (by simp)).filed_iff, hd.filed_iff,
      ht.files (by simp)]
  · cases hnone

/-- A record that was written puts its snapshot on record, in the place of any other of that id. -/
theorem files_saveRecord_of_ok (h : m.Cataloged start base) (ht : t.Recordable)
    (hsave : m.saveRecord t = (m', none)) : m'.Files s ↔ s = t ∨ m.Files s ∧ s.id ≠ t.id := by
  have hspares : s.id ≠ t.id → Spares s.id m m' := fun hid => by
    have hspares := spares_saveRecord h.housed hid
    rwa [hsave] at hspares
  obtain ⟨d, rfl, hd⟩ := h
  rcases hd' : Directory.saveRecord d base t with ⟨d', outcome⟩
  simp only [saveRecord, hd'] at hsave
  cases hsave
  have hentered := hd.enter ht
  rw [hd'] at hentered
  rcases touches_saveRecord hd.hosts hd' with ⟨failure, hfailure, -⟩ | ⟨-, -, -, -, hrecord⟩
  · cases hfailure
  · by_cases hid : s.id = t.id
    · have hfiled := hentered.filed ht hrecord
      rw [files_directory]
      constructor
      · exact fun hs => Or.inl (hs.eq_of_id hfiled hid)
      · rintro (rfl | hs)
        · exact hfiled
        · exact absurd hid hs.2
    · have hne : s ≠ t := fun heq => hid (heq ▸ rfl)
      rw [(hspares hid).files, or_iff_right hne, and_iff_left hid]

end Medium

/-! ### Sweeps -/

/-- A sweep takes the records of what it throws away. -/
theorem Vault.files_sweep (h : v.medium.Cataloged start base) (condition : Snapshot → Bool)
    (l : List Snapshot) : (v.sweep condition l).vault.medium.Files s ↔
      v.medium.Files s ∧ s.id ∉ (v.sweep condition l).discarded.map (·.id) := by
  induction l generalizing v with
  | nil => simp [sweep]
  | cons t l ih =>
    rw [sweep]
    split
    · rcases request_cases_of_housed h.housed (Or.inl (Eq.refl (StorageCall.discard t.id))) with
        ⟨failure, he⟩ | ⟨he, -⟩ <;> rw [he]
      · exact ih (v := { v with calls := v.calls + 1 }) h
      · refine (ih (v := { v with medium := (v.medium.discard t.id).1, calls := v.calls + 1 })
          (Medium.lasting_cataloged.discard t.id h)).trans ?_
        rw [Medium.files_discard h, List.map_cons, List.mem_cons, not_or, and_assoc]
    · exact ih h

namespace Archive

theorem files_dropRecords (h : m.Cataloged start base) (gone : List Snapshot) :
    (dropRecords m gone).Files s ↔ m.Files s ∧ s.id ∉ gone.map (·.id) := by
  induction gone generalizing m with
  | nil => simp [dropRecords]
  | cons t gone ih =>
    refine (ih (Medium.lasting_cataloged.dropRecord t.id h)).trans ?_
    rw [Medium.files_dropRecord h, List.map_cons, List.mem_cons, not_or, and_assoc]

/-- Only what retention gives up and storage throws away is no longer on record. -/
theorem files_subsume (h : a.vault.medium.Cataloged start base) :
    a.subsume.1.vault.medium.Files s ↔
      a.vault.medium.Files s ∧ s.id ∉ a.subsumption.discarded.map (·.id) := by
  have hswept : a.subsumption.vault.medium.Cataloged start base :=
    Medium.lasting_cataloged.sweep h _ _
  have hsweep : a.subsumption.vault.medium.Files s ↔
      a.vault.medium.Files s ∧ s.id ∉ a.subsumption.discarded.map (·.id) :=
    Vault.files_sweep h _ _
  rw [subsume_state, files_dropRecords hswept, hsweep, and_assoc, and_self]

/-- Only what storage throws away when the archive is closed is no longer on record. -/
theorem files_close (h : a.vault.medium.Cataloged start base) (status : JobStatus) :
    (a.close status).1.vault.medium.Files s ↔ a.vault.medium.Files s ∧
      s.id ∉ (a.clearance.discarded ++ (a.closure status).discarded).map (·.id) := by
  have hcleared : a.clearance.vault.medium.Cataloged start base :=
    Medium.lasting_cataloged.sweep h _ _
  have hclosed : (a.closure status).vault.medium.Cataloged start base :=
    Medium.lasting_cataloged.sweep hcleared _ _
  have hold : a.clearance.vault.medium.Files s ↔
      a.vault.medium.Files s ∧ s.id ∉ a.clearance.discarded.map (·.id) := Vault.files_sweep h _ _
  have hnew : (a.closure status).vault.medium.Files s ↔
      a.clearance.vault.medium.Files s ∧ s.id ∉ (a.closure status).discarded.map (·.id) :=
    Vault.files_sweep hcleared _ _
  rw [close_state, files_dropRecords hclosed, hnew, hold, List.map_append, List.mem_append, not_or]
  tauto

/-! ### Using an archive -/

/-- What a job does with its archive: it asks it for something, or keeps a participant's state in
its vault. -/
inductive Action where
  | call (call : Call)
  | persist (id : Nat) (run : TaskRun) (state : Bytes)

/-- The snapshots that are added. -/
def Action.added : Action → List Snapshot
  | call (.add s) => [s]
  | _ => []

/-- The archive after an action. -/
def act (a : Archive) : Action → Archive
  | .call call => (a.answer call).1
  | .persist id run state => { a with vault := (a.vault.request (.persist id run state)).1 }

/-- The archive after one action after the other. -/
def perform (a : Archive) (actions : List Action) : Archive := actions.foldl act a

/-! ### What an action does -/

/-- What an action does to an archive in a directory: it may take snapshots whose ids are not
registered, and lets go of some ids.  But for the policy no snapshot changes; what it takes comes on
record, in the place of any other of that id, and what it lets go of is no longer on record. -/
structure Exchange (start : Disk) (base : Location) (a b : Archive) (taken : List Snapshot)
    (gone : List Nat) : Prop where
  cataloged : b.vault.medium.Cataloged start base
  balance : (b.held ++ gone).Perm (taken.map (·.id) ++ a.held)
  origin : ∀ t ∈ b.retention.live ++ b.retention.backlog,
    ∃ u ∈ taken ++ (a.retention.live ++ a.retention.backlog), t = { u with policy := t.policy }
  files : ∀ s, b.vault.medium.Files s ↔
    (s ∈ taken ∨ a.vault.medium.Files s ∧ s.id ∉ taken.map (·.id)) ∧ s.id ∉ gone
  fresh : ∀ s ∈ taken, a.retention.contains s.id = false

/-- Nothing is taken or let go of. -/
theorem exchange_of_same (hcataloged : b.vault.medium.Cataloged start base)
    (hheld : b.held = a.held)
    (horigin : ∀ t ∈ b.retention.live ++ b.retention.backlog,
      ∃ u ∈ a.retention.live ++ a.retention.backlog, t = { u with policy := t.policy })
    (hfiles : ∀ s, b.vault.medium.Files s ↔ a.vault.medium.Files s) :
    Exchange start base a b [] [] := by
  refine ⟨hcataloged, ?_, horigin, fun s => by simpa using hfiles s, by simp⟩
  rw [List.append_nil, hheld]
  exact .refl _

/-- Nothing is taken, and what an archive lets go of is no longer on record. -/
theorem exchange_of_give {gone : List Snapshot}
    (hperm : ((b.retention.live ++ b.retention.backlog) ++ gone).Perm
      (a.retention.live ++ a.retention.backlog))
    (hcataloged : b.vault.medium.Cataloged start base)
    (hfiles : ∀ s, b.vault.medium.Files s ↔
      a.vault.medium.Files s ∧ s.id ∉ gone.map (·.id)) :
    Exchange start base a b [] (gone.map (·.id)) := by
  have hids := hperm.map (·.id)
  rw [List.map_append] at hids
  refine ⟨hcataloged, hids, fun t ht => ?_, fun s => by simpa using hfiles s, by simp⟩
  exact ⟨t, hperm.subset (List.mem_append_left _ ht), rfl⟩

theorem exchange_subsume (h : a.vault.medium.Cataloged start base) :
    Exchange start base a a.subsume.1 [] (a.subsumption.discarded.map (·.id)) :=
  exchange_of_give a.perm_subsume (Medium.lasting_cataloged.subsume h) fun _ => files_subsume h

theorem exchange_close (h : a.vault.medium.Cataloged start base) (status : JobStatus) :
    Exchange start base a (a.close status).1 []
      ((a.clearance.discarded ++ (a.closure status).discarded).map (·.id)) :=
  exchange_of_give (a.perm_close status) (Medium.lasting_cataloged.close h status) fun _ =>
    files_close h status

theorem exchange_remove (h : a.vault.medium.Cataloged start base) (id : Nat) :
    ∃ gone, Exchange start base a (a.remove id).1 [] gone := by
  have hcataloged := Medium.lasting_cataloged.remove h id
  rcases remove_cases a id with ⟨-, he⟩ | ⟨t, medium, failure, hfind, hdrop, he⟩ <;>
    rw [he] at hcataloged ⊢
  · exact ⟨[], exchange_of_same h rfl (fun t ht => ⟨t, ht, rfl⟩) fun _ => Iff.rfl⟩
  · obtain ⟨-, rfl⟩ := Retention.mem_of_find? hfind
    refine ⟨_, exchange_of_give (perm_remove hfind) hcataloged fun s => ?_⟩
    have hfiles := Medium.files_dropRecord (s := s) h t.id
    rw [hdrop] at hfiles
    exact hfiles.trans (by rw [List.map_singleton, List.mem_singleton])

/-- A new policy is not written. -/
theorem exchange_relabel (h : a.vault.medium.Cataloged start base) (id : Nat)
    (policy : SnapshotPolicy) : Exchange start base a (a.relabel id policy).1 [] [] := by
  refine exchange_of_same h (a.held_relabel id policy) (fun t ht => ?_) fun _ => Iff.rfl
  rcases List.mem_append.1 ht with ht | ht
  · obtain ⟨u, hu, rfl⟩ := List.mem_map.1 ht
    refine ⟨u, List.mem_append_left _ hu, ?_⟩
    split <;> rfl
  · exact ⟨t, List.mem_append_right _ ht, rfl⟩

theorem exchange_persist (h : a.vault.medium.Cataloged start base) (id : Nat) (run : TaskRun)
    (state : Bytes) : Exchange start base a (a.act (.persist id run state)) [] [] := by
  refine exchange_of_same (Vault.cataloged_request h _) rfl (fun t ht => ⟨t, ht, rfl⟩) fun s => ?_
  show ((a.vault.request (.persist id run state)).1).medium.Files s ↔ _
  rcases Vault.request_cases a.vault (.persist id run state) with ⟨failure, -, he⟩ | ⟨-, he⟩ <;>
    rw [he]
  exact Medium.files_persist h id run state

/-- A snapshot comes on record when it is registered. -/
theorem exchange_enter {medium : Medium} (h : a.vault.medium.Cataloged start base)
    (hs : s.Recordable) (hnew : a.retention.contains s.id = false)
    (hsave : a.vault.medium.saveRecord s = (medium, none)) :
    Exchange start base a ((a.withMedium medium).entered s) [s] [] := by
  have hcataloged := h.saveRecord hs
  rw [hsave] at hcataloged
  have hplaced := (a.withMedium medium).perm_entered s
  refine ⟨hcataloged, ?_, fun t ht => ⟨t, hplaced.subset ht, rfl⟩, fun t => ?_, by simpa using hnew⟩
  · rw [List.append_nil]
    exact hplaced.map Snapshot.id
  · refine (Medium.files_saveRecord_of_ok h hs hsave).trans ?_
    simp

/-- What is let go of right after. -/
theorem Exchange.give {taken : List Snapshot} {gone given : List Nat}
    (h : Exchange start base a b taken gone) (hgive : Exchange start base b c [] given) :
    Exchange start base a c taken (given ++ gone) := by
  refine ⟨hgive.cataloged, ?_, fun t ht => ?_, fun s => ?_, h.fresh⟩
  · rw [← List.append_assoc]
    exact (hgive.balance.append_right gone).trans h.balance
  · obtain ⟨u, hu, heq⟩ := hgive.origin t ht
    obtain ⟨v, hv, heq'⟩ := h.origin u hu
    exact ⟨v, hv, by rw [heq, heq']⟩
  · have hfiles := hgive.files s
    simp only [List.not_mem_nil, false_or, List.map_nil, not_false_eq_true, and_true] at hfiles
    rw [hfiles, h.files, List.mem_append, not_or]
    tauto

theorem exchange_add (h : a.vault.medium.Cataloged start base) (hs : s.Recordable) :
    ∃ taken gone, taken.Sublist [s] ∧ Exchange start base a (a.add s).1 taken gone := by
  have hsaved := h.saveRecord hs
  rcases add_cases a s with ⟨-, he⟩ | ⟨hnew, ⟨medium, failure, hsave, he⟩ | ⟨medium, hsave, he⟩⟩ <;>
    rw [he]
  · exact ⟨[], [], List.nil_sublist _,
      exchange_of_same h rfl (fun t ht => ⟨t, ht, rfl⟩) fun _ => Iff.rfl⟩
  · rw [hsave] at hsaved
    exact ⟨[], [], List.nil_sublist _, exchange_of_same hsaved rfl (fun t ht => ⟨t, ht, rfl⟩)
      fun _ => Medium.files_saveRecord_of_error h hsave⟩
  · have henter := exchange_enter h hs hnew hsave
    exact ⟨[s], _, .refl _, henter.give (exchange_subsume henter.cataloged)⟩

/-- Every action is an exchange, and takes no more than it adds. -/
theorem exchange_act (h : a.vault.medium.Cataloged start base) {action : Action}
    (hfits : ∀ s ∈ action.added, s.Recordable) :
    ∃ taken gone, taken.Sublist action.added ∧
      Exchange start base a (a.act action) taken gone := by
  cases action with
  | persist id run state => exact ⟨[], [], .slnil, exchange_persist h id run state⟩
  | call call =>
    cases call with
    | add s => exact exchange_add h (hfits s (List.mem_singleton.2 rfl))
    | relabel id policy => exact ⟨[], [], .slnil, exchange_relabel h id policy⟩
    | remove id =>
      obtain ⟨gone, hgone⟩ := exchange_remove h id
      exact ⟨[], gone, .slnil, hgone⟩
    | close status => exact ⟨[], _, .slnil, exchange_close h status⟩

end Archive
end Checkpointing
