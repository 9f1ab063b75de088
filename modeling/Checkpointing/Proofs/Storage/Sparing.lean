import Mathlib.Tactic
import Checkpointing.Proofs.Storage.Memory
import Checkpointing.Proofs.Storage.Records

/-!
# What operations leave alone

Every operation of a medium, a vault or an archive is about certain snapshots, and what is kept of
the others is as before, whatever fails.

* `Medium.Housed`: nothing stands in the way of the operations of a medium;
* `Medium.Spares` is the frame of operations; `Spares.load` and `Spares.hasRecord` say what it means
  for the states and the record of a snapshot;
* `spares_persist` and so on are the lemmas of the operations, up to `Archive.spares_subsume`,
  `Archive.spares_remove` and `Archive.spares_close`;
* `Vault.request_cases_of_housed`: throwing a snapshot away only fails if it is refused, and takes
  all its states.
-/

namespace Checkpointing

open Directory

namespace Medium

/-- The base directory of a medium is there, with nothing but tidy directories in it. -/
inductive Housed : Medium → Prop
  | memory (states : Table Nat Handles) : Housed (.memory states)
  | directory {base : Location} {d : Disk} (hosts : d.Hosts base) (tidy : Tidy d base.path) :
      Housed (.directory base d)

/-- What a medium keeps of a snapshot is as before, and its base directory is still in order. -/
inductive Spares (id : Nat) : Medium → Medium → Prop
  | memory {states states' : Table Nat Handles} (same : states'.find? id = states.find? id) :
      Spares id (.memory states) (.memory states')
  | directory {base : Location} {d d' : Disk} (same : Directory.Spares base id d d')
      (housed : Housed (.directory base d) → Housed (.directory base d')) :
      Spares id (.directory base d) (.directory base d')

variable {m m' m'' : Medium} {i id : Nat}

theorem Spares.refl (i : Nat) (m : Medium) : Spares i m m := by
  cases m with
  | memory states => exact .memory rfl
  | directory base d => exact .directory (fun _ _ _ => rfl) id

theorem Spares.trans (h : Spares i m m') (h' : Spares i m' m'') : Spares i m m'' := by
  cases h with
  | memory same =>
    cases h' with
    | memory same' => exact .memory (same'.trans same)
  | directory same housed =>
    cases h' with
    | directory same' housed' => exact .directory (same.trans same') (housed' ∘ housed)

theorem Spares.housed (h : Spares i m m') (hm : m.Housed) : m'.Housed := by
  cases h with
  | memory _ => exact .memory _
  | directory _ housed => exact housed hm

/-- The states of a snapshot that is spared can be loaded as before. -/
theorem Spares.load (h : Spares i m m') (hm : m.Housed) {r : TaskRun} {b : Bytes} :
    m'.load i r = .ok b ↔ m.load i r = .ok b := by
  cases h with
  | memory same => rw [load_memory, load_memory, same]
  | directory same housed =>
    cases hm with
    | directory hosts tidy =>
      cases housed (.directory hosts tidy) with
      | directory hosts' tidy' =>
        refine (load_eq_ok hosts').trans (Iff.trans ⟨fun hs => ?_, fun hs => ?_⟩
          (load_eq_ok hosts).symm)
        · exact hs.spared fun name hname rest => (same name hname rest).symm
        · exact hs.spared same

/-- As far as a medium keeps records, that of a snapshot is in its place. -/
inductive HasRecord (s : Snapshot) : Medium → Prop
  | memory (states : Table Nat Handles) : HasRecord s (.memory states)
  | directory {base : Location} {d : Disk}
      (record : d.node? (base.path ++ [snapshotName s.id, "_metadata"]) =
        some (.file (Record.snapshot.encode s))) : HasRecord s (.directory base d)

theorem Spares.hasRecord {s : Snapshot} (h : Spares s.id m m') (hm : m.HasRecord s) :
    m'.HasRecord s := by
  cases h with
  | memory _ => exact .memory _
  | directory same _ =>
    cases hm with
    | directory record => exact .directory ((same _ (snapshotName_mem _) _).trans record)

/-! ### Operations of a medium -/

theorem spares_of_within {base : Location} {d d' : Disk}
    (hwithin : Disk.Within base.path (entries id) d d')
    (htidy : Tidy d base.path → Tidy d' base.path) (hne : i ≠ id) :
    Spares i (.directory base d) (.directory base d') := by
  refine .directory (Directory.spares_of_within hwithin hne) fun h => ?_
  cases h with
  | directory hosts tidy => exact .directory (hosts.within hwithin) (htidy tidy)

theorem spares_persist (h : m.Housed) (run : TaskRun) (state : Bytes) (hne : i ≠ id) :
    Spares i m (m.persist id run state).1 := by
  cases h with
  | memory states => exact .memory (by rw [Table.find?_insert, if_neg hne])
  | directory hosts tidy =>
    rename_i base d
    have htouches :=
      (touches_persist hosts (Eq.refl (Directory.persist d base id run state))).1
    exact spares_of_within htouches.within htouches.tidy hne

theorem spares_discard (m : Medium) (hne : i ≠ id) : Spares i m (m.discard id).1 := by
  cases m with
  | memory states => exact .memory (by rw [Table.find?_erase, if_neg hne])
  | directory base d =>
    have hshrinks := shrinks_discard d base id
    exact spares_of_within hshrinks.within hshrinks.tidy hne

theorem spares_address (h : m.Housed) (policy : SnapshotPolicy) (hne : i ≠ id) :
    Spares i m (m.address id policy).1 := by
  cases h with
  | memory states => exact .refl _ _
  | directory hosts tidy =>
    rename_i base d
    have hfills := (fills_address hosts (Eq.refl (Directory.address d base id policy))).1
    exact spares_of_within (hfills.within_entries (savepointName_mem id)) hfills.tidy hne

theorem spares_saveRecord {s : Snapshot} (h : m.Housed) (hne : i ≠ s.id) :
    Spares i m (m.saveRecord s).1 := by
  cases h with
  | memory states => exact .refl _ _
  | directory hosts tidy =>
    rename_i base d
    rcases touches_saveRecord hosts (Eq.refl (Directory.saveRecord d base s)) with
      ⟨failure, -, ht⟩ | ⟨-, -, ht, -⟩ <;>
      exact spares_of_within ht.within ht.tidy hne

theorem hasRecord_of_saveRecord {s : Snapshot} (h : m.Housed) (hs : m.saveRecord s = (m', none)) :
    m'.HasRecord s := by
  cases h with
  | memory states =>
    cases hs
    exact .memory _
  | directory hosts tidy =>
    rename_i base d
    rcases hsave : Directory.saveRecord d base s with ⟨d', outcome⟩
    simp only [Medium.saveRecord, hsave] at hs
    cases hs
    rcases touches_saveRecord hosts hsave with ⟨failure, hfail, -⟩ | ⟨-, -, -, -, hrecord⟩
    · cases hfail
    · exact .directory hrecord

theorem spares_dropRecord (m : Medium) (hne : i ≠ id) : Spares i m (m.dropRecord id).1 := by
  cases m with
  | memory states => exact .refl _ _
  | directory base d =>
    have hshrinks := shrinks_dropRecord d base id
    exact spares_of_within hshrinks.within hshrinks.tidy hne

/-- In a medium that is housed discarding succeeds, and takes all states of the snapshot. -/
theorem discard_of_housed (h : m.Housed) (id : Nat) :
    (m.discard id).2 = none ∧ ∀ run state, (m.discard id).1.load id run ≠ .ok state := by
  cases h with
  | memory states =>
    refine ⟨rfl, fun run state hload => ?_⟩
    exact absurd rfl ((load_discard ⟨states, rfl⟩).1 hload).1
  | directory hosts tidy =>
    rename_i base d
    obtain ⟨d', hdiscard, hnone⟩ := discard_of_tidy hosts tidy id
    have hhosts := hosts.within (shrinks_discard d base id).within
    have he : (Medium.directory base d).discard id = (.directory base d', none) := by
      simp only [discard, hdiscard]
    rw [hdiscard] at hhosts
    rw [he]
    exact ⟨rfl, fun run state hload => hnone run state ((load_eq_ok hhosts).1 hload)⟩

end Medium

open Medium

/-! ### Vaults -/

namespace Vault

variable {v : Vault} {i id : Nat}

theorem spares_request (h : v.medium.Housed) (call : StorageCall) (hne : call.id ≠ i) :
    Spares i v.medium (v.request call).1.medium := by
  rcases request_cases v call with ⟨failure, -, he⟩ | ⟨-, he⟩ <;> rw [he]
  · exact .refl _ _
  · cases call with
    | persist id run state => exact spares_persist h run state hne.symm
    | discard id => exact spares_discard _ hne.symm
    | cleanup id => exact spares_discard _ hne.symm

/-- Throwing a snapshot away is refused, and changes nothing, or it succeeds, and no state of the
snapshot is left. -/
theorem request_cases_of_housed (h : v.medium.Housed) {call : StorageCall}
    (hcall : call = .discard id ∨ call = .cleanup id) :
    (∃ failure, v.request call =
      ({ v with calls := v.calls + 1 }, .storage call true, some failure)) ∨
    (v.request call = ({ v with medium := (v.medium.discard id).1, calls := v.calls + 1 },
      .storage call false, none) ∧
      ∀ run state, (v.medium.discard id).1.load id run ≠ .ok state) := by
  obtain ⟨hnone, hload⟩ := discard_of_housed h id
  have hperform : perform v.medium call = ((v.medium.discard id).1, none) := by
    rw [← hnone]
    rcases hcall with rfl | rfl <;> rfl
  rcases request_cases v call with ⟨failure, -, he⟩ | ⟨-, he⟩
  · exact Or.inl ⟨failure, he⟩
  · rw [hperform] at he
    exact Or.inr ⟨he, hload⟩

theorem spares_persistAll (h : v.medium.Housed) (states : List (TaskRun × Bytes)) (hne : id ≠ i) :
    Spares i v.medium (v.persistAll id states).1.medium := by
  induction states generalizing v with
  | nil => exact .refl _ _
  | cons e states ih =>
    obtain ⟨run, state⟩ := e
    have hfirst := spares_request h (.persist id run state) hne
    rw [persistAll]
    rcases hrequest : v.request (.persist id run state) with ⟨w, event, failure | failure⟩ <;>
      rw [hrequest] at hfirst
    · exact hfirst.trans (ih (hfirst.housed h))
    · exact hfirst

/-- What a sweep throws away was listed and meets the condition. -/
theorem mem_discarded_sweep {condition : Snapshot → Bool} {l : List Snapshot} {s : Snapshot}
    (hs : s ∈ (v.sweep condition l).discarded) : s ∈ l ∧ condition s = true := by
  induction l generalizing v with
  | nil => cases hs
  | cons t l ih =>
    rw [sweep] at hs
    split at hs
    · next hcond =>
      rcases hrequest : v.request (.discard t.id) with ⟨w, event, failure | failure⟩ <;>
        rw [hrequest] at hs
      · rcases List.mem_cons.1 hs with rfl | hs
        · exact ⟨List.mem_cons_self, hcond⟩
        · exact ⟨List.mem_cons_of_mem _ (ih hs).1, (ih hs).2⟩
      · exact ⟨List.mem_cons_of_mem _ (ih hs).1, (ih hs).2⟩
    · exact ⟨List.mem_cons_of_mem _ (ih hs).1, (ih hs).2⟩

/-- Only what a sweep throws away is affected; whatever else it asked for was refused. -/
theorem spares_sweep (h : v.medium.Housed) {condition : Snapshot → Bool} {l : List Snapshot}
    (hne : ∀ s ∈ (v.sweep condition l).discarded, s.id ≠ i) :
    Spares i v.medium (v.sweep condition l).vault.medium := by
  induction l generalizing v with
  | nil => exact .refl _ _
  | cons s l ih =>
    rw [sweep] at hne ⊢
    split at hne
    · next hcond =>
      rw [if_pos hcond]
      rcases request_cases_of_housed h (Or.inl (Eq.refl (StorageCall.discard s.id))) with
        ⟨failure, he⟩ | ⟨he, -⟩
      · rw [he] at hne ⊢
        exact ih (v := { v with calls := v.calls + 1 }) h hne
      · rw [he] at hne ⊢
        obtain ⟨hs, hrest⟩ := List.forall_mem_cons.1 hne
        have hfirst : Spares i v.medium (v.medium.discard s.id).1 := spares_discard _ hs.symm
        exact hfirst.trans (ih (hfirst.housed h) hrest)
    · next hcond =>
      rw [if_neg hcond]
      exact ih h hne

end Vault

/-! ### Archives -/

namespace Archive

variable {a : Archive} {i id : Nat}

theorem spares_dropRecords {m : Medium} {gone : List Snapshot} (hne : ∀ s ∈ gone, s.id ≠ i) :
    Spares i m (dropRecords m gone) := by
  induction gone generalizing m with
  | nil => exact .refl _ _
  | cons s gone ih =>
    obtain ⟨hs, hgone⟩ := List.forall_mem_cons.1 hne
    exact (spares_dropRecord m hs.symm).trans (ih hgone)

theorem spares_subsume (h : a.vault.medium.Housed)
    (hne : ∀ s ∈ a.subsumption.discarded, s.id ≠ i) :
    Spares i a.vault.medium a.subsume.1.vault.medium := by
  rw [subsume_state]
  exact (Vault.spares_sweep h hne).trans (spares_dropRecords hne)

theorem spares_remove (a : Archive) (hne : id ≠ i) :
    Spares i a.vault.medium (a.remove id).1.vault.medium := by
  rcases remove_cases a id with ⟨-, he⟩ | ⟨s, medium, failure, -, hdrop, he⟩ <;> rw [he]
  · exact .refl _ _
  · have hspares := spares_dropRecord a.vault.medium hne.symm
    rw [hdrop] at hspares
    exact hspares

theorem spares_close (h : a.vault.medium.Housed) {status : JobStatus}
    (hne : ∀ s ∈ a.clearance.discarded ++ (a.closure status).discarded, s.id ≠ i) :
    Spares i a.vault.medium (a.close status).1.vault.medium := by
  obtain ⟨hold, hnew⟩ := List.forall_mem_append.1 hne
  have hcleared : Spares i a.vault.medium a.clearance.vault.medium := Vault.spares_sweep h hold
  have hclosed : Spares i a.clearance.vault.medium (a.closure status).vault.medium :=
    Vault.spares_sweep (hcleared.housed h) hnew
  rw [close_state]
  exact (hcleared.trans hclosed).trans (spares_dropRecords hne)

end Archive
end Checkpointing
