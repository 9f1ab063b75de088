import Mathlib.Tactic
import Checkpointing.Proofs.Storage.Retention
import Checkpointing.Proofs.Storage.Vault
import Checkpointing.Storage.Archive

/-!
# Laws of archives

* `open?_eq_ok` takes the opening of an archive apart, `add_cases` and `remove_cases` say everything
  that registering a snapshot and unregistering one can do;
* `subsume_state` and `close_state` say what is left after a sweep, `perm_entered`, `perm_remove`,
  `perm_subsume` and `perm_close` that no snapshot is lost;
* `isRequest_of_add`, `isRequest_of_close`: nothing is heard of an archive but its requests to
  storage; `requestIds_subsume` and `requestIds_close` say which snapshots these are about;
* `Medium.Lasting` are the properties of a medium that no removal breaks, up to
  `Medium.Lasting.subsume`, `remove` and `close`.
-/

namespace Checkpointing
namespace Archive

/-- The archive with another medium. -/
def withMedium (a : Archive) (medium : Medium) : Archive :=
  { a with vault := { a.vault with medium := medium } }

/-- The archive in which a snapshot was registered, before retention is enforced. -/
def entered (a : Archive) (s : Snapshot) : Archive :=
  { a with retention := { a.retention with live := Retention.place s a.retention.live } }

theorem perm_entered (a : Archive) (s : Snapshot) :
    ((a.entered s).retention.live ++ (a.entered s).retention.backlog).Perm
      (s :: (a.retention.live ++ a.retention.backlog)) :=
  (Retention.perm_place s a.retention.live).append_right a.retention.backlog

/-- An archive that could be opened has prepared its medium, and has all records that it found. -/
theorem open?_eq_ok {vault : Vault} {maxRetained : Nat} {a : Archive}
    (h : open? vault maxRetained = .ok a) :
    vault.medium.prepare = .ok a.vault.medium ∧ ∃ found, a.vault.medium.records = .ok found ∧
      (Retention.empty maxRetained).insertAll? found = .ok a.retention := by
  unfold open? at h
  split at h
  · cases h
  · next medium hprepare =>
    split at h
    · cases h
    · next found hfound =>
      split at h
      · cases h
      · next retention hinsert =>
        cases h
        exact ⟨hprepare, found, hfound, hinsert⟩

/-- Registering a snapshot fails if its id is registered or if its record cannot be written;
otherwise the snapshot is registered and retention is enforced. -/
theorem add_cases (a : Archive) (s : Snapshot) :
    (a.retention.contains s.id = true ∧ a.add s = (a, [], .error (.alreadyRegistered s.id))) ∨
    (a.retention.contains s.id = false ∧
      ((∃ medium failure, a.vault.medium.saveRecord s = (medium, some failure) ∧
        a.add s = (a.withMedium medium, [], .error (.storage failure))) ∨
      (∃ medium, a.vault.medium.saveRecord s = (medium, none) ∧
        a.add s =
          (((a.withMedium medium).entered s).subsume.1,
            ((a.withMedium medium).entered s).subsume.2.1,
            .ok ((a.withMedium medium).entered s).subsume.2.2)))) := by
  unfold add
  cases hcontains : a.retention.contains s.id with
  | true => exact Or.inl ⟨rfl, by simp⟩
  | false =>
    refine Or.inr ⟨rfl, ?_⟩
    rcases hsave : a.vault.medium.saveRecord s with ⟨medium, failure | failure⟩
    · refine Or.inr ⟨medium, rfl, ?_⟩
      simp only [Retention.insert?, hcontains, Bool.false_eq_true, if_false]
      rfl
    · exact Or.inl ⟨medium, failure, rfl, by simp [withMedium]⟩

/-- Unregistering finds nothing, or takes the snapshot from the list and tries to drop its
record. -/
theorem remove_cases (a : Archive) (id : Nat) :
    (a.retention.find? id = none ∧ a.remove id = (a, .ok none)) ∨
    (∃ s medium failure, a.retention.find? id = some s ∧
      a.vault.medium.dropRecord id = (medium, failure) ∧
      a.remove id = ({ a.withMedium medium with retention := a.retention.remove id },
        match failure with
        | none => .ok (some s)
        | some failure => .error (.storage failure))) := by
  unfold remove
  cases hfind : a.retention.find? id with
  | none => exact Or.inl ⟨rfl, rfl⟩
  | some s =>
    rcases hdrop : a.vault.medium.dropRecord id with ⟨medium, failure⟩
    refine Or.inr ⟨s, medium, failure, rfl, rfl, ?_⟩
    cases failure <;> simp [withMedium]

theorem perm_remove {a : Archive} {id : Nat} {s : Snapshot} (h : a.retention.find? id = some s) :
    (((a.retention.remove id).live ++ a.retention.backlog) ++ [s]).Perm
      (a.retention.live ++ a.retention.backlog) :=
  (List.perm_append_singleton _ _).trans ((Retention.perm_remove h).append_right _).symm

/-! ### Sweeps -/

/-- The sweep that throws away what retention gives up. -/
def subsumption (a : Archive) : Vault.Sweep :=
  a.vault.sweep (fun _ => true) a.retention.subsume.1

/-- The sweep that throws away the backlog when the archive is closed. -/
def clearance (a : Archive) : Vault.Sweep := a.vault.sweep (fun _ => true) a.retention.backlog

/-- The sweep that then throws away what goes with the job. -/
def closure (a : Archive) (status : JobStatus) : Vault.Sweep :=
  a.clearance.vault.sweep (fun s => s.policy.discard.onStatus status) a.retention.live

theorem subsume_state (a : Archive) : a.subsume.1 =
    { vault := { a.subsumption.vault with
        medium := dropRecords a.subsumption.vault.medium a.subsumption.discarded }
      retention := { a.retention with
        live := a.retention.subsume.2
        backlog := a.retention.backlog ++ a.subsumption.kept } } := rfl

theorem close_state (a : Archive) (status : JobStatus) : (a.close status).1 =
    { vault := { (a.closure status).vault with
        medium := dropRecords (a.closure status).vault.medium
          (a.clearance.discarded ++ (a.closure status).discarded) }
      retention := { a.retention with
        live := (a.closure status).kept
        backlog := a.clearance.kept } } := rfl

/-- Enforcing retention loses no snapshot: each one stays, waits in the backlog or is thrown
away. -/
theorem perm_subsume (a : Archive) :
    ((a.subsume.1.retention.live ++ a.subsume.1.retention.backlog) ++ a.subsumption.discarded).Perm
      (a.retention.live ++ a.retention.backlog) := by
  have hswept : (a.subsumption.discarded ++ a.subsumption.kept).Perm _ :=
    Vault.perm_sweep a.vault (fun _ => true) a.retention.subsume.1
  have hdivided := a.retention.perm_subsume
  rw [subsume_state]
  refine List.perm_iff_count.2 fun s => ?_
  have h₁ := hswept.count_eq s
  have h₂ := hdivided.count_eq s
  simp only [List.count_append] at h₁ h₂ ⊢
  omega

/-- Closing loses no snapshot. -/
theorem perm_close (a : Archive) (status : JobStatus) :
    (((a.close status).1.retention.live ++ (a.close status).1.retention.backlog) ++
      (a.clearance.discarded ++ (a.closure status).discarded)).Perm
      (a.retention.live ++ a.retention.backlog) := by
  have hold : (a.clearance.discarded ++ a.clearance.kept).Perm _ :=
    Vault.perm_sweep a.vault (fun _ => true) a.retention.backlog
  have hnew : ((a.closure status).discarded ++ (a.closure status).kept).Perm _ :=
    Vault.perm_sweep a.clearance.vault (fun s => s.policy.discard.onStatus status) a.retention.live
  rw [close_state]
  refine List.perm_iff_count.2 fun s => ?_
  have h₁ := hold.count_eq s
  have h₂ := hnew.count_eq s
  simp only [List.count_append] at h₁ h₂ ⊢
  omega

theorem sublist_subsume (a : Archive) : a.subsume.1.snapshots.Sublist a.snapshots :=
  Retention.sublist_divide _ _ _

theorem sublist_close (a : Archive) (status : JobStatus) :
    (a.close status).1.snapshots.Sublist a.snapshots :=
  Vault.sublist_sweep _ _ _

/-- Unregistering takes the snapshot of that id and no other, whether its record can be dropped or
not. -/
theorem snapshots_remove {a : Archive} (h : Retention.Ascending a.snapshots) (id : Nat) :
    (a.remove id).1.snapshots = a.snapshots.filter fun s => s.id ≠ id := by
  rcases remove_cases a id with ⟨hnone, he⟩ | ⟨s, medium, failure, -, -, he⟩ <;> rw [he]
  · refine (List.filter_eq_self.2 fun s hs => ?_).symm
    simpa using List.find?_eq_none.1 hnone s hs
  · exact Retention.live_remove h id

/-! ### What is heard -/

theorem isRequest_of_subsume (a : Archive) : ∀ e ∈ a.subsume.2.1, e.IsRequest :=
  a.vault.isRequest_of_sweep (fun _ => true) a.retention.subsume.1

theorem isRequest_of_add (a : Archive) (s : Snapshot) : ∀ e ∈ (a.add s).2.1, e.IsRequest := by
  rcases add_cases a s with ⟨-, he⟩ | ⟨-, ⟨medium, failure, -, he⟩ | ⟨medium, -, he⟩⟩
  · simp [he]
  · simp [he]
  · rw [he]
    exact isRequest_of_subsume _

theorem isRequest_of_close (a : Archive) (status : JobStatus) :
    ∀ e ∈ (a.close status).2.1, e.IsRequest :=
  List.forall_mem_append.2 ⟨a.vault.isRequest_of_sweep _ _, Vault.isRequest_of_sweep _ _ _⟩

theorem requestIds_subsume (a : Archive) :
    requestIds a.subsume.2.1 = a.retention.subsume.1.map (·.id) := by
  have hsweep := a.vault.requestIds_sweep (fun _ => true) a.retention.subsume.1
  rw [List.filter_true] at hsweep
  exact hsweep

theorem requestIds_close (a : Archive) (status : JobStatus) :
    requestIds (a.close status).2.1 = (a.retention.backlog ++
      a.retention.live.filter fun s => s.policy.discard.onStatus status).map (·.id) := by
  have hold := a.vault.requestIds_sweep (fun _ => true) a.retention.backlog
  have hnew := a.clearance.vault.requestIds_sweep (fun s => s.policy.discard.onStatus status)
    a.retention.live
  rw [List.filter_true] at hold
  rw [List.map_append, ← hold, ← hnew]
  exact requestIds_append _ _

end Archive

/-! ### What removing does not break -/

/-- A medium that has the property still has it when states are thrown away or a record is
dropped. -/
structure Medium.Lasting (P : Medium → Prop) : Prop where
  discard : ∀ {m : Medium} (id : Nat), P m → P (m.discard id).1
  dropRecord : ∀ {m : Medium} (id : Nat), P m → P (m.dropRecord id).1

namespace Medium.Lasting

variable {P : Medium → Prop} {v : Vault} {a : Archive}

/-- A request to throw away states is harmless, whether it is refused or not. -/
theorem request (hP : Lasting P) (h : P v.medium) {call : StorageCall} {id : Nat}
    (hcall : call = .discard id ∨ call = .cleanup id) : P (v.request call).1.medium := by
  rcases Vault.request_cases v call with ⟨failure, -, he⟩ | ⟨-, he⟩ <;> rw [he]
  · exact h
  · rcases hcall with rfl | rfl <;> exact hP.discard id h

theorem sweep (hP : Lasting P) (h : P v.medium) (condition : Snapshot → Bool)
    (l : List Snapshot) : P (v.sweep condition l).vault.medium := by
  induction l generalizing v with
  | nil => exact h
  | cons s l ih =>
    have hrequest := hP.request h (Or.inl (Eq.refl (StorageCall.discard s.id)))
    rw [Vault.sweep]
    split
    · rcases hcall : v.request (.discard s.id) with ⟨w, event, failure | failure⟩ <;>
        rw [hcall] at hrequest <;> exact ih hrequest
    · exact ih h

theorem dropRecords (hP : Lasting P) {m : Medium} (h : P m) (gone : List Snapshot) :
    P (Archive.dropRecords m gone) := by
  induction gone generalizing m with
  | nil => exact h
  | cons s gone ih => exact ih (hP.dropRecord s.id h)

theorem subsume (hP : Lasting P) (h : P a.vault.medium) : P a.subsume.1.vault.medium := by
  rw [Archive.subsume_state]
  exact hP.dropRecords (hP.sweep h _ _) _

theorem remove (hP : Lasting P) (h : P a.vault.medium) (id : Nat) :
    P (a.remove id).1.vault.medium := by
  rcases Archive.remove_cases a id with ⟨-, he⟩ | ⟨s, medium, failure, -, hdrop, he⟩ <;> rw [he]
  · exact h
  · have hmedium := hP.dropRecord id h
    rw [hdrop] at hmedium
    exact hmedium

theorem close (hP : Lasting P) (h : P a.vault.medium) (status : JobStatus) :
    P (a.close status).1.vault.medium := by
  rw [Archive.close_state]
  exact hP.dropRecords (hP.sweep (hP.sweep h _ _) _ _) _

end Medium.Lasting
end Checkpointing
