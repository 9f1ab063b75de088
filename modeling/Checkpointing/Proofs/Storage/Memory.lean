import Mathlib.Tactic
import Checkpointing.Proofs.Storage.Archive
import Checkpointing.Proofs.Table

/-!
# Laws of memory

What can be loaded from a medium in memory after each operation, in terms of what could be loaded
before.

* `load_persist`, `load_discard` for one operation of the medium;
* `load_persistAll`, `load_persistAll_of_ne`, `load_sweep` for the series of requests that a vault
  makes, whatever is refused.
-/

namespace Checkpointing
namespace Medium

/-- The medium keeps states in memory. -/
def InMemory (m : Medium) : Prop := ∃ states, m = memory states

variable {m : Medium} {id i : Nat} {run r : TaskRun} {state b : Bytes}

theorem InMemory.persist (h : m.InMemory) (id : Nat) (run : TaskRun) (state : Bytes) :
    (m.persist id run state).1.InMemory ∧ (m.persist id run state).2 = none := by
  obtain ⟨states, rfl⟩ := h
  exact ⟨⟨_, rfl⟩, rfl⟩

theorem InMemory.discard (h : m.InMemory) (id : Nat) :
    (m.discard id).1.InMemory ∧ (m.discard id).2 = none := by
  obtain ⟨states, rfl⟩ := h
  exact ⟨⟨_, rfl⟩, rfl⟩

theorem InMemory.address (h : m.InMemory) (id : Nat) (policy : SnapshotPolicy) :
    (m.address id policy).1 = m := by
  obtain ⟨states, rfl⟩ := h
  rfl

theorem InMemory.saveRecord (h : m.InMemory) (s : Snapshot) : m.saveRecord s = (m, none) := by
  obtain ⟨states, rfl⟩ := h
  rfl

theorem InMemory.dropRecord (h : m.InMemory) (id : Nat) : m.dropRecord id = (m, none) := by
  obtain ⟨states, rfl⟩ := h
  rfl

theorem InMemory.dropRecords (h : m.InMemory) (gone : List Snapshot) :
    Archive.dropRecords m gone = m := by
  induction gone with
  | nil => rfl
  | cons s gone ih =>
    show Archive.dropRecords (m.dropRecord s.id).1 gone = m
    rw [h.dropRecord]
    exact ih

theorem load_memory {states : Table Nat Handles} :
    (memory states).load i r = .ok b ↔ (states.find? i).bind (fun t => t.find? r) = some b := by
  simp only [load]
  split
  · next state hfind => simp [hfind]
  · next hfind => simp [hfind]

theorem load_persist (h : m.InMemory) :
    (m.persist id run state).1.load i r = .ok b ↔
      if i = id ∧ r = run then b = state else m.load i r = .ok b := by
  obtain ⟨states, rfl⟩ := h
  show (memory (states.insert id (((states.find? id).getD ∅).insert run state))).load i r = _ ↔ _
  rw [load_memory, load_memory, Table.find?_insert]
  by_cases hid : i = id
  · subst hid
    by_cases hrun : r = run
    · simp [hrun, Table.find?_insert, eq_comm]
    · cases hfind : states.find? i <;> simp [hrun, Table.find?_insert]
  · simp [hid]

theorem load_discard (h : m.InMemory) :
    (m.discard id).1.load i r = .ok b ↔ i ≠ id ∧ m.load i r = .ok b := by
  obtain ⟨states, rfl⟩ := h
  show (memory (states.erase id)).load i r = _ ↔ _
  rw [load_memory, load_memory, Table.find?_erase]
  by_cases hid : i = id <;> simp [hid]

end Medium

/-- In memory the record of a snapshot is no obstacle to unregistering it. -/
theorem Archive.remove_inMemory {a : Archive} {id : Nat} {s : Snapshot}
    (h : a.vault.medium.InMemory) (hfind : a.retention.find? id = some s) :
    a.remove id = ({ a with retention := a.retention.remove id }, .ok (some s)) := by
  simp [remove, hfind, h.dropRecord]

namespace Vault

open Medium

variable {v v' : Vault} {id i : Nat} {r : TaskRun} {b : Bytes}

/-- In memory a request only fails when it is refused. -/
theorem request_inMemory (h : v.medium.InMemory) (call : StorageCall) :
    (v.request call).1.medium.InMemory ∧
      ((∃ failure, v.request call =
          ({ v with calls := v.calls + 1 }, .storage call true, some failure)) ∨
        v.request call =
          ({ v with medium := (perform v.medium call).1, calls := v.calls + 1 },
            .storage call false, none)) := by
  have hperform : (perform v.medium call).1.InMemory ∧ (perform v.medium call).2 = none := by
    cases call with
    | persist id run state => exact h.persist id run state
    | discard id => exact h.discard id
    | cleanup id => exact h.discard id
  rcases request_cases v call with ⟨failure, -, he⟩ | ⟨-, he⟩
  · rw [he]
    exact ⟨h, Or.inl ⟨failure, rfl⟩⟩
  · rw [he, hperform.2]
    exact ⟨hperform.1, Or.inr rfl⟩

/-- After all states were kept, exactly they can be loaded for their runs. -/
theorem load_persistAll {states : List (TaskRun × Bytes)} {events : List Event}
    (h : v.medium.InMemory) (hdistinct : (states.map (·.1)).Nodup)
    (hkeep : v.persistAll id states = (v', events, none)) :
    v'.medium.InMemory ∧ ∀ {i r b}, v'.medium.load i r = .ok b ↔
      if i = id ∧ r ∈ states.map (·.1) then (r, b) ∈ states else v.medium.load i r = .ok b := by
  induction states generalizing v events with
  | nil =>
    cases hkeep
    exact ⟨h, by simp⟩
  | cons e states ih =>
    obtain ⟨run, state⟩ := e
    rw [List.map_cons, List.nodup_cons] at hdistinct
    rw [persistAll] at hkeep
    obtain ⟨hmemory, ⟨failure, he⟩ | he⟩ := request_inMemory h (.persist id run state)
    · rw [he] at hkeep
      cases hkeep
    · rw [he] at hkeep hmemory
      dsimp only at hkeep
      rcases hrest : Vault.persistAll { v with
          medium := (perform v.medium (.persist id run state)).1, calls := v.calls + 1 } id states
        with ⟨w, more, outcome⟩
      rw [hrest] at hkeep
      cases hkeep
      obtain ⟨hlast, hload⟩ := ih hmemory hdistinct.2 hrest
      refine ⟨hlast, ?_⟩
      intro i r b
      rw [hload]
      have hfirst : (perform v.medium (.persist id run state)).1.load i r = .ok b ↔
          if i = id ∧ r = run then b = state else v.medium.load i r = .ok b := load_persist h
      rw [hfirst]
      -- The state that comes first is not overwritten, since its run is not among the others.
      have hother : (run, b) ∉ states := fun hmem => hdistinct.1 (List.mem_map.2 ⟨_, hmem, rfl⟩)
      have hkey : run ∉ states.map (·.1) := hdistinct.1
      by_cases hid : i = id
      · by_cases hrun : r = run
        · subst hrun
          simp only [hid, hkey, hother, List.map_cons, List.mem_cons, and_self, and_false,
            if_true, if_false, Prod.mk.injEq, true_and, or_false]
        · simp only [hid, hrun, List.map_cons, List.mem_cons, false_or, true_and, and_false,
            if_false, Prod.mk.injEq, false_and]
      · simp only [hid, false_and, if_false]

theorem inMemory_persistAll (h : v.medium.InMemory) (id : Nat) (states : List (TaskRun × Bytes)) :
    (v.persistAll id states).1.medium.InMemory := by
  induction states generalizing v with
  | nil => exact h
  | cons e states ih =>
    obtain ⟨run, state⟩ := e
    rw [persistAll]
    obtain ⟨hmemory, ⟨failure, he⟩ | he⟩ := request_inMemory h (.persist id run state)
    · rw [he]
      exact h
    · rw [he] at hmemory ⊢
      exact ih hmemory

/-- Keeping states of one checkpoint, whatever fails, leaves the states of the others. -/
theorem load_persistAll_of_ne (h : v.medium.InMemory) (states : List (TaskRun × Bytes))
    (hid : i ≠ id) :
    (v.persistAll id states).1.medium.load i r = .ok b ↔ v.medium.load i r = .ok b := by
  induction states generalizing v with
  | nil => rfl
  | cons e states ih =>
    obtain ⟨run, state⟩ := e
    rw [persistAll]
    obtain ⟨hmemory, ⟨failure, he⟩ | he⟩ := request_inMemory h (.persist id run state)
    · rw [he]
    · rw [he] at hmemory ⊢
      refine (ih hmemory).trans ?_
      show (v.medium.persist id run state).1.load i r = .ok b ↔ _
      rw [load_persist h, if_neg (by simp [hid])]

/-- A sweep leaves the states of all snapshots but those that are thrown away. -/
theorem load_sweep (h : v.medium.InMemory) (condition : Snapshot → Bool) (l : List Snapshot) :
    (v.sweep condition l).vault.medium.InMemory ∧ ∀ {i r b},
      (v.sweep condition l).vault.medium.load i r = .ok b ↔
        i ∉ (v.sweep condition l).discarded.map (·.id) ∧ v.medium.load i r = .ok b := by
  induction l generalizing v with
  | nil => exact ⟨h, by simp [sweep]⟩
  | cons s l ih =>
    rw [sweep]
    split
    · obtain ⟨hmemory, ⟨failure, he⟩ | he⟩ := request_inMemory h (.discard s.id)
      · rw [he]
        exact ih h
      · rw [he] at hmemory ⊢
        obtain ⟨hlast, hload⟩ := ih hmemory
        refine ⟨hlast, ?_⟩
        intro i r b
        refine hload.trans ?_
        show _ ∧ (v.medium.discard s.id).1.load i r = .ok b ↔ _
        rw [load_discard h, List.map_cons, List.mem_cons, not_or]
        tauto
    · exact ih h

end Vault
end Checkpointing
