import Mathlib.Tactic
import Checkpointing.Proofs.Coordinator.Shelf

/-!
# Disposing of savepoints

A disposal is refused without any effect, or the savepoint is unregistered before storage is asked
to throw its data away.  If storage then fails, the savepoint is no longer registered although its
data may still be there.

* `dispose_effect` says what becomes of the savepoint, `spares_dispose` that all other snapshots are
  left alone;
* `disposal_in_run` puts both together, for every disposal in every run;
* `disposal_not_undone`: a disposal that fails is not undone.
-/

namespace Checkpointing

open Medium

namespace Coordinator

variable {c c' : Coordinator} {id : Nat} {events : List Event}
  {result : Except SnapshotError Snapshot}

/-- Unregistering fails only if the record cannot be dropped. -/
theorem storage_of_remove {a a' : Archive} {e : SnapshotError}
    (h : a.remove id = (a', .error e)) : ∃ failure, e = .storage failure := by
  rcases Archive.remove_cases a id with ⟨-, he⟩ | ⟨s, medium, failure | failure, -, -, he⟩ <;>
    cases he.symm.trans h
  exact ⟨failure, rfl⟩

/-- A disposal is refused without any effect, or a savepoint is unregistered: then storage fails, or
none of the savepoint's states is left. -/
theorem dispose_effect (hs : Retention.Ascending c.archive.snapshots)
    (hm : c.archive.vault.medium.Housed) (h : c.dispose id = (c', events, result)) :
    (c' = c ∧ (result = .error (.notFound id) ∨ result = .error (.notSavepoint id))) ∨
    (∃ s ∈ c.archive.snapshots, s.id = id ∧ s.isSavepoint = true ∧
      c'.archive.snapshots = c.archive.snapshots.filter (fun t => t.id ≠ id) ∧
      ((∃ failure, result = .error (.storage failure)) ∨
        (result = .ok s ∧ ∀ run state, c'.archive.vault.medium.load id run ≠ .ok state))) := by
  have hsnapshots := Archive.snapshots_remove hs id
  rcases dispose_cases c id with ⟨-, he⟩ | ⟨s, hfind, ⟨-, he⟩ | ⟨hkind, hremoves⟩⟩
  · cases he.symm.trans h
    exact Or.inl ⟨rfl, Or.inl rfl⟩
  · cases he.symm.trans h
    exact Or.inl ⟨rfl, Or.inr rfl⟩
  · obtain ⟨hmem, hid⟩ := Retention.mem_of_find? hfind
    refine Or.inr ⟨s, hmem, hid, hkind, ?_⟩
    rcases hremoves with ⟨a, e, hremove, he⟩ |
      ⟨a, removed, vault, event, failure, hremove, hrequest, he⟩ <;>
      rw [hremove] at hsnapshots <;> cases he.symm.trans h
    · obtain ⟨failure, rfl⟩ := storage_of_remove hremove
      exact ⟨hsnapshots, Or.inl ⟨failure, rfl⟩⟩
    · refine ⟨hsnapshots, ?_⟩
      have hremoved : a.vault.medium.Housed := by
        have hspares := Archive.spares_remove c.archive (show id ≠ id + 1 by omega)
        rw [hremove] at hspares
        exact hspares.housed hm
      rcases Vault.request_cases_of_housed hremoved (Or.inr (Eq.refl (StorageCall.cleanup id)))
        with ⟨failure, hcall⟩ | ⟨hcall, hgone⟩ <;> cases hcall.symm.trans hrequest
      · exact Or.inl ⟨failure, rfl⟩
      · exact Or.inr ⟨rfl, hgone⟩

/-- Whatever comes of a disposal, it leaves the data of all other snapshots alone. -/
theorem spares_dispose (hm : c.archive.vault.medium.Housed)
    (h : c.dispose id = (c', events, result)) {i : Nat} (hne : id ≠ i) :
    Spares i c.archive.vault.medium c'.archive.vault.medium := by
  have hspares := Archive.spares_remove c.archive hne
  rcases dispose_cases c id with ⟨-, he⟩ | ⟨s, -, ⟨-, he⟩ | ⟨-, ⟨a, e, hremove, he⟩ |
    ⟨a, removed, vault, event, failure, hremove, hrequest, he⟩⟩⟩ <;> cases he.symm.trans h
  · exact .refl _ _
  · exact .refl _ _
  · rw [hremove] at hspares
    exact hspares
  · rw [hremove] at hspares
    have hcleanup := Vault.spares_request (hspares.housed hm) (.cleanup id) hne
    rw [hrequest] at hcleanup
    exact hspares.trans hcleanup

end Coordinator

/-! ### The main statement -/

section

variable {settings : Settings} {archive : Archive} {hasHandler : Bool} {start c : Coordinator}
  {history : List Moment}

/-- What a disposal leaves, in every run and whatever fails.  If it is refused, nothing has
happened.  If storage fails, the savepoint is no longer registered.  If it succeeds, the savepoint
is no longer registered and none of its states can be loaded.  In any case all other snapshots stay
registered, and their states can be loaded as before. -/
theorem disposal_in_run (hascending : Retention.Ascending archive.snapshots)
    (hhoused : archive.vault.medium.Housed)
    (hopen : Coordinator.open? settings archive hasHandler = .ok start)
    (hrun : Run SameMedium start history c) {m : Moment} (hm : m ∈ history) {id : Nat}
    (hrequest : m.request = .dispose id) :
    ∃ result, m.reply = .disposed result ∧
      (∀ e, result = .error e → (∀ failure, e ≠ .storage failure) → m.after = m.before) ∧
      (∀ failure, result = .error (.storage failure) →
        (∃ s ∈ m.before.archive.snapshots, s.id = id ∧ s.isSavepoint = true) ∧
          m.after.archive.snapshots = m.before.archive.snapshots.filter fun s => s.id ≠ id) ∧
      (∀ s, result = .ok s → s ∈ m.before.archive.snapshots ∧ s.id = id ∧ s.isSavepoint = true ∧
        (m.after.archive.snapshots = m.before.archive.snapshots.filter fun s => s.id ≠ id) ∧
        ∀ run state, m.after.archive.vault.medium.load id run ≠ .ok state) ∧
      ∀ s ∈ m.before.archive.snapshots, s.id ≠ id →
        s ∈ m.after.archive.snapshots ∧ ∀ run state,
          (m.after.archive.vault.medium.load s.id run = .ok state ↔
            m.before.archive.vault.medium.load s.id run = .ok state) := by
  have horderly := Coordinator.orderly_of_open hopen
  obtain ⟨harchive, -, hshelved⟩ := Coordinator.state_of_open hascending hopen
  rw [← harchive] at hhoused
  have hs := ((hshelved.of_run hrun horderly).2 m hm).1.ascending
  have hbase := (Coordinator.housed_of_run hrun horderly hshelved hhoused).2 m hm
  obtain ⟨past, future, rfl⟩ := List.append_of_mem hm
  obtain ⟨-, -, -, -, -, hstep, -⟩ := hrun.moment
  obtain ⟨before, request, events, reply, after⟩ := m
  dsimp only at hrequest hs hbase hstep ⊢
  subst hrequest
  cases Coordinator.Performs.of_step hstep with
  | dispose h =>
    rename_i result
    refine ⟨result, rfl, ?_⟩
    have hspares := fun {i} (hne : id ≠ i) => Coordinator.spares_dispose hbase h hne
    rcases Coordinator.dispose_effect hs hbase h with
      ⟨rfl, hrefused⟩ | ⟨s, hmem, hid, hkind, hsnapshots, hdone⟩
    · refine ⟨fun _ _ _ => rfl, fun failure he => ?_, fun s he => ?_,
        fun s hs _ => ⟨hs, fun _ _ => Iff.rfl⟩⟩
      · rcases hrefused with hresult | hresult <;> cases hresult.symm.trans he
      · rcases hrefused with hresult | hresult <;> cases hresult.symm.trans he
    · refine ⟨fun e he hother => ?_, fun _ _ => ⟨⟨s, hmem, hid, hkind⟩, hsnapshots⟩, fun t ht => ?_,
        fun t ht hne => ⟨?_, fun run state => (hspares hne.symm).load hbase⟩⟩
      · rcases hdone with ⟨failure, hresult⟩ | ⟨hresult, -⟩ <;> cases hresult.symm.trans he
        exact absurd rfl (hother failure)
      · rcases hdone with ⟨failure, hresult⟩ | ⟨hresult, hgone⟩ <;> cases hresult.symm.trans ht
        exact ⟨hmem, hid, hkind, hsnapshots, hgone⟩
      · rw [hsnapshots]
        exact List.mem_filter.2 ⟨ht, decide_eq_true hne⟩

end

/-- A savepoint of one task, of which the user then disposes. -/
def disposalOfSavepoint : List Request :=
  [.register ⟨1, 0, 0⟩ .running, .trigger (.savepoint true .canonical) 10,
    .acknowledge 1 ⟨1, 0, 0⟩ [7] 20, .dispose 1]

/-- A disposal that succeeds: the savepoint and its state are gone. -/
theorem disposal_in_run_of_savepoint : ∃ archive start c history m s,
    Archive.open? (.of (.memory ∅) .none) 1 = .ok archive ∧
    Coordinator.open? .default archive false = .ok start ∧
    start.perform disposalOfSavepoint = (history, c) ∧ m ∈ history ∧ m.request = .dispose 1 ∧
    m.reply = .disposed (.ok s) ∧ m.before.archive.snapshots = [s] ∧
    m.after.archive.snapshots = [] ∧
    ∀ run state, m.after.archive.vault.medium.load 1 run ≠ .ok state := by
  obtain ⟨archive, start, history, c, m, s, harchive, hopen, hperform, hm, hrequest, hreply,
      hbefore, hafter⟩ : ∃ archive start history c m s,
        Archive.open? (.of (.memory ∅) .none) 1 = .ok archive ∧
        Coordinator.open? .default archive false = .ok start ∧
        start.perform disposalOfSavepoint = (history, c) ∧ m ∈ history ∧
        m.request = .dispose 1 ∧ m.reply = .disposed (.ok s) ∧ m.before.archive.snapshots = [s] ∧
        m.after.archive.snapshots = [] :=
    ⟨_, _, _, _, _, _, rfl, rfl, rfl, List.mem_of_getLast? rfl, rfl, rfl, rfl, rfl⟩
  have hrun : Run SameMedium start _ _ := Run.of_perform SameMedium.refl start disposalOfSavepoint
  rw [hperform] at hrun
  cases harchive
  have hascending : Retention.Ascending
      (Archive.snapshots ⟨.of (.memory ∅) .none, .empty 1⟩) := .nil
  obtain ⟨result, hanswer, -, -, hdone, -⟩ :=
    disposal_in_run hascending (.memory ∅) hopen hrun hm hrequest
  cases hreply.symm.trans hanswer
  exact ⟨_, start, c, history, m, s, rfl, hopen, hperform, hm, hrequest, hreply, hbefore, hafter,
    (hdone s rfl).2.2.2.2⟩

/-- A disposal that fails is not undone: here storage refuses to throw the data away, and the
savepoint is not registered any more. -/
theorem disposal_not_undone : ∃ archive start history c m failure,
    Archive.open? (.of (.memory ∅) (FaultRule.plan [⟨.cleanup, none, none⟩])) 1 = .ok archive ∧
    Coordinator.open? .default archive false = .ok start ∧
    start.perform disposalOfSavepoint = (history, c) ∧ m ∈ history ∧ m.request = .dispose 1 ∧
    m.reply = .disposed (.error (.storage failure)) ∧
    m.before.archive.snapshots.map (·.id) = [1] ∧ m.after.archive.snapshots = [] ∧
    m.after.archive.vault.medium.load 1 ⟨1, 0, 0⟩ = .ok [7] :=
  ⟨_, _, _, _, _, _, rfl, rfl, rfl, List.mem_of_getLast? rfl, rfl, rfl, rfl, rfl, rfl⟩

end Checkpointing
