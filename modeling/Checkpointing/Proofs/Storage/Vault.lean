import Mathlib.Tactic
import Checkpointing.Proofs.News
import Checkpointing.Storage.Vault

/-!
# Laws of vaults

A request is refused and changes nothing, or it reaches the medium.

* `request_cases` says everything that a request can do;
* `event_request` says what is heard of a request, `persist_of_persistAll` what is heard while
  states are kept; `events_of_persistAll`: when all were kept, there was one accepted request for
  each;
* `isRequest_of_persistAll`, `isRequest_of_sweep`: nothing else is heard of a vault;
  `requestIds_persistAll` and `requestIds_sweep` say which snapshots its requests are about;
* `perm_sweep`, `sublist_sweep`: a sweep loses no snapshot, and what it keeps stays in its order.
-/

namespace Checkpointing
namespace Vault

/-- A request is refused before it reaches the medium, or the medium performs it. -/
theorem request_cases (v : Vault) (call : StorageCall) :
    (∃ failure, v.faults v.calls call = some failure ∧
      v.request call = ({ v with calls := v.calls + 1 }, .storage call true, some failure)) ∨
    (v.faults v.calls call = none ∧
      v.request call = ({ v with medium := (perform v.medium call).1, calls := v.calls + 1 },
        .storage call false, (perform v.medium call).2)) := by
  unfold request
  cases v.faults v.calls call with
  | some failure => exact Or.inl ⟨failure, rfl, rfl⟩
  | none => exact Or.inr ⟨rfl, rfl⟩

/-- The event of a request that did not fail. -/
theorem event_of_request {v v' : Vault} {call : StorageCall} {event : Event}
    (h : v.request call = (v', event, none)) : event = .storage call false := by
  rcases request_cases v call with ⟨failure, -, he⟩ | ⟨-, he⟩
  · cases he.symm.trans h
  · exact (Prod.mk.inj (Prod.mk.inj (he.symm.trans h)).2).1.symm

/-- What is heard of a request is whether it was refused. -/
theorem event_request (v : Vault) (call : StorageCall) :
    ∃ refused, (v.request call).2.1 = .storage call refused := by
  rcases request_cases v call with ⟨failure, -, he⟩ | ⟨-, he⟩
  · exact ⟨true, by rw [he]⟩
  · exact ⟨false, by rw [he]⟩

theorem isRequest_of_request (v : Vault) (call : StorageCall) :
    (v.request call).2.1.IsRequest := by
  obtain ⟨refused, he⟩ := v.event_request call
  exact ⟨call, refused, he⟩

theorem requestId?_request (v : Vault) (call : StorageCall) :
    (v.request call).2.1.requestId? = some call.id := by
  obtain ⟨refused, he⟩ := v.event_request call
  rw [he]
  rfl

/-- The requests to keep states, none of them refused. -/
def persisted (id : Nat) (states : List (TaskRun × Bytes)) : List Event :=
  states.map fun e => .storage (.persist id e.1 e.2) false

/-- When all states were kept, storage had accepted one request for each, in order. -/
theorem events_of_persistAll {v v' : Vault} {id : Nat} {states : List (TaskRun × Bytes)}
    {events : List Event} (h : v.persistAll id states = (v', events, none)) :
    events = persisted id states := by
  induction states generalizing v events with
  | nil => cases h; rfl
  | cons e states ih =>
    obtain ⟨run, state⟩ := e
    rw [persistAll] at h
    rcases hrequest : v.request (.persist id run state) with ⟨w, event, failure | failure⟩
    · rcases hrest : w.persistAll id states with ⟨w', more, outcome⟩
      simp only [hrequest, hrest] at h
      cases h
      rw [event_of_request hrequest, ih hrest]
      rfl
    · simp only [hrequest] at h
      cases h

/-- While states are kept nothing is heard but requests to keep one of them. -/
theorem persist_of_persistAll (v : Vault) (id : Nat) (states : List (TaskRun × Bytes)) :
    ∀ e ∈ (v.persistAll id states).2.1, ∃ entry ∈ states, ∃ refused,
      e = .storage (.persist id entry.1 entry.2) refused := by
  induction states generalizing v with
  | nil => simp [persistAll]
  | cons entry states ih =>
    obtain ⟨run, state⟩ := entry
    obtain ⟨refused, hfirst⟩ := v.event_request (.persist id run state)
    have hhead : ∃ entry ∈ (run, state) :: states, ∃ refused,
        (v.request (.persist id run state)).2.1 =
          .storage (.persist id entry.1 entry.2) refused :=
      ⟨(run, state), List.mem_cons_self, refused, hfirst⟩
    rw [persistAll]
    rcases hrequest : v.request (.persist id run state) with ⟨w, event, failure | failure⟩ <;>
      rw [hrequest] at hhead
    · refine List.forall_mem_cons.2 ⟨hhead, fun e he => ?_⟩
      obtain ⟨other, hmem, hother⟩ := ih w e he
      exact ⟨other, List.mem_cons_of_mem _ hmem, hother⟩
    · exact List.forall_mem_singleton.2 hhead

theorem isRequest_of_persistAll (v : Vault) (id : Nat) (states : List (TaskRun × Bytes)) :
    ∀ e ∈ (v.persistAll id states).2.1, e.IsRequest := by
  intro e he
  obtain ⟨entry, -, refused, rfl⟩ := v.persist_of_persistAll id states e he
  exact ⟨_, refused, rfl⟩

theorem isRequest_of_sweep (v : Vault) (condition : Snapshot → Bool) (l : List Snapshot) :
    ∀ e ∈ (v.sweep condition l).events, e.IsRequest := by
  induction l generalizing v with
  | nil => simp [sweep]
  | cons s l ih =>
    have hfirst := isRequest_of_request v (.discard s.id)
    rw [sweep]
    split
    · rcases hrequest : v.request (.discard s.id) with ⟨w, event, failure | failure⟩ <;>
        rw [hrequest] at hfirst <;> exact List.forall_mem_cons.2 ⟨hfirst, ih w⟩
    · exact ih v

theorem requestIds_persistAll (v : Vault) (id : Nat) (states : List (TaskRun × Bytes)) :
    ∀ i ∈ requestIds (v.persistAll id states).2.1, i = id := by
  intro i hi
  obtain ⟨e, he, hid⟩ := List.mem_filterMap.1 hi
  obtain ⟨entry, -, refused, rfl⟩ := v.persist_of_persistAll id states e he
  exact (Option.some.inj hid).symm

/-- A sweep makes a request for every snapshot that meets the condition, whatever fails. -/
theorem requestIds_sweep (v : Vault) (condition : Snapshot → Bool) (l : List Snapshot) :
    requestIds (v.sweep condition l).events = (l.filter condition).map (·.id) := by
  induction l generalizing v with
  | nil => rfl
  | cons s l ih =>
    have hfirst := requestId?_request v (.discard s.id)
    rw [sweep]
    split
    · next hcond =>
      rw [List.filter_cons_of_pos hcond, List.map_cons]
      rcases hrequest : v.request (.discard s.id) with ⟨w, event, failure | failure⟩ <;>
        rw [hrequest] at hfirst <;> rw [requestIds, List.filterMap_cons_some hfirst] <;>
        exact congrArg (s.id :: ·) (ih w)
    · next hcond =>
      rw [List.filter_cons_of_neg hcond]
      exact ih v

/-- A sweep loses no snapshot: each one is thrown away or kept. -/
theorem perm_sweep (v : Vault) (condition : Snapshot → Bool) (l : List Snapshot) :
    ((v.sweep condition l).discarded ++ (v.sweep condition l).kept).Perm l := by
  induction l generalizing v with
  | nil => exact .refl _
  | cons s l ih =>
    rw [sweep]
    split
    · rcases v.request (.discard s.id) with ⟨w, event, failure | failure⟩
      · exact (ih w).cons s
      · exact List.perm_middle.trans ((ih w).cons s)
    · exact List.perm_middle.trans ((ih v).cons s)

/-- What a sweep keeps stays in its order. -/
theorem sublist_sweep (v : Vault) (condition : Snapshot → Bool) (l : List Snapshot) :
    (v.sweep condition l).kept.Sublist l := by
  induction l generalizing v with
  | nil => exact .slnil
  | cons s l ih =>
    rw [sweep]
    split
    · rcases v.request (.discard s.id) with ⟨w, event, failure | failure⟩
      · exact (ih w).cons s
      · exact (ih w).cons_cons s
    · exact (ih v).cons_cons s

end Vault
end Checkpointing
