import Mathlib.Tactic
import Checkpointing.Proofs.Coordinator.Rounds
import Checkpointing.Proofs.Storage.Retention
import Checkpointing.Proofs.Storage.Vault

/-!
# What a step does to the archive

Most steps leave the archive alone and make no request to storage.  The others finalize a full
round, change what is registered at the user's wish, or close the archive.

* `requestIds_abortRounds`: nothing is asked of storage when rounds are aborted;
* `Files` lists what can happen; `Files.of_step` says that nothing else does;
* `contains_rounds_step`: the only round that a step can open is that of the next id, so
  `IsOver.step`: what is over stays over.
-/

namespace Checkpointing
namespace Coordinator

/-! ### What is asked of storage -/

theorem requestIds_settled (id : Nat) (s : Settlement) : requestIds (settled id s) = [] := by
  refine List.filterMap_eq_nil_iff.2 fun e he => ?_
  rcases List.mem_append.1 he with hcall | hdelivery
  · obtain ⟨call, -, rfl⟩ := List.mem_map.1 hcall
    rfl
  · obtain ⟨delivery, -, rfl⟩ := Option.map_eq_some_iff.1 (Option.mem_toList.1 hdelivery)
    rfl

theorem requestIds_settled? (id : Nat) (s : Option Settlement) :
    requestIds ((s.map (settled id)).getD []) = [] := by
  cases s with
  | none => rfl
  | some s => exact requestIds_settled id s

theorem requestIds_farewell (r : Round) (reason : SnapshotError) :
    requestIds (r.farewell reason) = [] :=
  requestIds_settled? _ _

theorem requestIds_delivery (r : Round) (info : SnapshotInfo) :
    requestIds (r.delivery info) = [] :=
  requestIds_settled? _ _

theorem requestIds_cleanup (vault : Vault) (id : Nat) (events : List Event) :
    requestIds ((vault.request (.cleanup id)).2.1 :: events) = id :: requestIds events :=
  List.filterMap_cons_some (vault.requestId?_request (.cleanup id))

theorem requestIds_failure (b : FailureBudget) (reason : SnapshotError) :
    requestIds (b.failure reason).2 = [] := by
  unfold FailureBudget.failure
  dsimp only
  split_ifs <;> rfl

theorem requestIds_abortRound (c : Coordinator) (id : Nat) (reason : SnapshotError) :
    requestIds (c.abortRound id reason).2.1 = [] := by
  unfold abortRound
  cases c.rounds.find? id with
  | none => rfl
  | some r =>
    dsimp only
    cases r.abort? reason with
    | none => rfl
    | some settlement => simp [requestIds_settled, requestIds_failure]

theorem requestIds_abortRounds (c : Coordinator) (reason : Nat → SnapshotError) (ids : List Nat) :
    requestIds (c.abortRounds reason ids).2 = [] := by
  induction ids generalizing c with
  | nil => rfl
  | cons id ids ih =>
    show requestIds ((c.abortRound id (reason id)).2.1 ++
      ((c.abortRound id (reason id)).1.abortRounds reason ids).2) = []
    rw [requestIds_append, requestIds_abortRound, ih]
    rfl

/-! ### What can happen -/

/-- What a step, asked by `request`, does to the archive of `c` and asks of storage. -/
inductive Files (c : Coordinator) (request : Request) (c' : Coordinator) (events : List Event)
    (reply : Reply) : Prop
  | same (archive : c'.archive = c.archive) (silent : requestIds events = [])
  /-- The snapshot of a full round could not be stored, and what there is of it is cleaned up. -/
  | failed {id : Nat} {run : TaskRun} {state : Bytes} {now : Int} {r r' : Round} {a : Archive}
      {kept : List Event} {reason : SnapshotError}
      (asked : request = .acknowledge id run state now) (there : c.rounds.find? id = some r)
      (full : r.acknowledge run state = (r', .completes))
      (gone : c'.rounds.find? id = none)
      (finalized : finalize c.archive r' now = (a, kept, .error reason))
      (archive : c'.archive = { a with vault := (a.vault.request (.cleanup r'.id)).1 })
      (heard : (a.vault.request (.cleanup r'.id)).2.1 ∈ events)
      (requests : requestIds events = requestIds kept ++ [r'.id])
  /-- The snapshot of a full round was stored. -/
  | finished {id : Nat} {run : TaskRun} {state : Bytes} {now : Int} {r r' : Round} {a : Archive}
      {kept : List Event} {s : Snapshot}
      (asked : request = .acknowledge id run state now) (there : c.rounds.find? id = some r)
      (full : r.acknowledge run state = (r', .completes))
      (gone : c'.rounds.find? id = none)
      (finalized : finalize c.archive r' now = (a, kept, .ok s)) (archive : c'.archive = a)
      (requests : requestIds events = requestIds kept)
      (answered : reply = .acknowledged (.ok .completes))
  /-- The latest snapshot was restored without claiming it. -/
  | relabeled {latest : Snapshot} (asked : request = .restore .noClaim)
      (newest : c.archive.latest? = some latest) (claimed : latest.policy.unclaimed = false)
      (archive : c'.archive = (c.archive.relabel latest.id .unclaimedSnapshot).1)
      (silent : requestIds events = [])
      (answered : ∃ s, c.archive.retention.find? latest.id = some s ∧
        reply = .restored (.ok (some { s with policy := .unclaimedSnapshot })))
  /-- A snapshot was unregistered, but its record could not be dropped. -/
  | removed {id : Nat} {e : SnapshotError} (asked : request = .dispose id)
      (unregistered : c.archive.remove id = (c'.archive, .error e))
      (silent : requestIds events = [])
  /-- A snapshot was unregistered and what there is of it is cleaned up. -/
  | disposed {id : Nat} {a : Archive} {s : Snapshot} {removed : Option Snapshot}
      (asked : request = .dispose id) (found : c.archive.retention.find? id = some s)
      (unregistered : c.archive.remove id = (a, .ok removed))
      (archive : c'.archive = { a with vault := (a.vault.request (.cleanup id)).1 })
      (heard : (a.vault.request (.cleanup id)).2.1 ∈ events)
      (requests : requestIds events = [id])
  | closed {status : JobStatus} (asked : request = .close status)
      (archive : c'.archive = (c.archive.close status).1)
      (requests : requestIds events = requestIds (c.archive.close status).2.1)

variable {c c' : Coordinator} {request : Request} {events : List Event} {reply : Reply}

theorem Files.of_step (hc : c.Orderly) (h : c.step request = .ok (c', events, reply)) :
    Files c request c' events reply := by
  cases Performs.of_step h with
  | register run state =>
    exact .same (archive_register c run state) rfl
  | trigger htrigger =>
    rcases trigger_cases htrigger with ⟨reason, -, rfl, rfl, -⟩ | ⟨-, -, hlaunch, -⟩
    · exact .same rfl rfl
    · obtain ⟨rfl, rfl⟩ := Prod.mk.inj hlaunch
      exact .same rfl (requestIds_signals _ _)
  | acknowledge hack =>
    rename_i id run state now result
    rcases acknowledge_cases c id run state now with ⟨-, he⟩ | ⟨r, hfind, ⟨r', hr', he⟩ | ⟨-, he⟩⟩
    · cases he.symm.trans hack
      exact .same rfl rfl
    · have hgone := find?_rounds_complete c r' now
      rw [← he, hack, hc.own_of_completes hfind hr'] at hgone
      rcases hfinal : finalize c.archive r' now with ⟨a, kept, reason | s⟩
      · obtain ⟨budget, breach, hbudget, hcomplete⟩ := complete_of_error hfinal
        have hbreach := requestIds_failure c.budget reason
        rw [hbudget] at hbreach
        cases hcomplete.symm.trans (he.symm.trans hack)
        refine .failed rfl hfind hr' hgone hfinal rfl (by simp) ?_
        rw [requestIds_append, requestIds_cleanup, requestIds_append, requestIds_append,
          requestIds_farewell, requestIds_signals, hbreach]
        rfl
      · obtain ⟨budget, hcomplete⟩ := complete_of_ok hfinal
        cases hcomplete.symm.trans (he.symm.trans hack)
        refine .finished rfl hfind hr' hgone hfinal rfl ?_ rfl
        rw [requestIds_append, requestIds_append, requestIds_append, requestIds_delivery,
          requestIds_abortRounds, requestIds_signals]
        exact List.append_nil _
    · cases he.symm.trans hack
      exact .same rfl rfl
  | decline hdecline =>
    rename_i id run reason any
    rcases decline_cases c id run reason with he | ⟨-, he⟩
    · cases he.symm.trans hdecline
      exact .same rfl rfl
    · obtain ⟨budget, hstate⟩ := abortRound_state c id (.declined id run reason)
      have hsilent := requestIds_abortRound c id (.declined id run reason)
      rw [← he, hdecline] at hstate hsilent
      obtain rfl : c' = _ := hstate
      exact .same rfl hsilent
  | update hupdate =>
    rename_i run state
    obtain ⟨ids, budget, hstate⟩ := update_state c run state
    have hsilent : requestIds (c.update run state).2 = [] := by
      rcases update_cases c run state with ⟨-, he⟩ | ⟨-, he⟩ <;> rw [he]
      · rfl
      · exact requestIds_abortRounds _ _ _
    rw [hupdate] at hstate hsilent
    obtain rfl : c' = _ := hstate
    exact .same (archive_register c run state) hsilent
  | expire habort =>
    rename_i id any
    obtain ⟨budget, hstate⟩ := abortRound_state c id (.expired id)
    have hsilent := requestIds_abortRound c id (.expired id)
    rw [habort] at hstate hsilent
    obtain rfl : c' = _ := hstate
    exact .same rfl hsilent
  | restore hrestore =>
    rename_i mode result
    rcases restore_cases c mode with ⟨-, he⟩ | ⟨latest, hlatest, ⟨-, he⟩ | ⟨hmode, hlabel⟩⟩
    · cases he.symm.trans hrestore
      exact .same rfl rfl
    · cases he.symm.trans hrestore
      exact .same rfl rfl
    · obtain rfl : mode = .noClaim := by
        cases mode with
        | claim => exact absurd (Or.inl rfl) hmode
        | noClaim => rfl
      -- The latest snapshot is registered, so it is found under its id.
      obtain ⟨t, hfind⟩ : ∃ t, c.archive.retention.find? latest.id = some t := by
        refine Option.isSome_iff_exists.1 (List.find?_isSome.2 ⟨latest, ?_, by simp⟩)
        exact Retention.mem_of_latest? hlatest
      have hfound : (c.archive.relabel latest.id .unclaimedSnapshot).2 =
          some { t with policy := .unclaimedSnapshot } := by
        refine (Retention.find?_relabel _ _ _).trans ?_
        rw [hfind]
        rfl
      rcases hlabel with ⟨s, hsome, he⟩ | ⟨hnone, he⟩
      · cases he.symm.trans hrestore
        cases hfound.symm.trans hsome
        have hclaimed : latest.policy.unclaimed = false := by
          rw [Bool.eq_false_iff]
          exact fun hunclaimed => hmode (Or.inr hunclaimed)
        exact .relabeled rfl hlatest hclaimed rfl rfl ⟨t, hfind, rfl⟩
      · cases hfound.symm.trans hnone
  | dispose hdispose =>
    rename_i id result
    rcases dispose_cases c id with ⟨-, he⟩ | ⟨s, hfind, ⟨-, he⟩ | ⟨-, ⟨a, e, hremove, he⟩ |
      ⟨a, removed, vault, event, failure, hremove, hrequest, he⟩⟩⟩ <;>
      cases he.symm.trans hdispose
    · exact .same rfl rfl
    · exact .same rfl rfl
    · exact .removed rfl hremove rfl
    · have hrequests := requestIds_cleanup a.vault id []
      rw [hrequest] at hrequests
      exact .disposed rfl hfind hremove (by rw [hrequest]) (by simp [hrequest]) hrequests
  | close hclose =>
    rename_i status result
    rcases close_cases c status with ⟨-, he⟩ | ⟨-, budget, he⟩ <;> cases he.symm.trans hclose
    · exact .same rfl rfl
    · refine .closed rfl rfl ?_
      rw [requestIds_append, requestIds_abortRounds]
      rfl

/-- The only round that a step can open is that of the next id. -/
theorem contains_rounds_step (hc : c.Orderly) (h : c.step request = .ok (c', events, reply))
    {id : Nat} (hin : c'.rounds.contains id = true) :
    c.rounds.contains id = true ∨ id = c.nextId := by
  obtain ⟨r', hfind'⟩ := Table.contains_iff.1 hin
  rcases find?_rounds_step hc h hfind' with ⟨_, _, -, -, hid, -⟩ | ⟨r, hfind, -⟩
  · exact Or.inr hid
  · exact Or.inl (Table.contains_iff.2 ⟨r, hfind⟩)

/-- The id was handed out and its round is over. -/
def IsOver (c : Coordinator) (id : Nat) : Prop := id < c.nextId ∧ c.rounds.contains id = false

/-- A round that was under way and is gone is over. -/
theorem isOver_of_gone (hc : c.Orderly) (h : c.step request = .ok (c', events, reply)) {id : Nat}
    {r : Round} (there : c.rounds.find? id = some r) (gone : c'.rounds.find? id = none) :
    c'.IsOver id :=
  ⟨(hc.numbered there).trans_le (nextId_le_step hc h), Table.contains_eq_false_iff.2 gone⟩

/-- What is over stays over. -/
theorem IsOver.step (hc : c.Orderly) (h : c.step request = .ok (c', events, reply)) {id : Nat}
    (hover : c.IsOver id) : c'.IsOver id := by
  obtain ⟨hlt, hout⟩ := hover
  refine ⟨lt_of_lt_of_le hlt (nextId_le_step hc h), ?_⟩
  by_contra hin
  rcases contains_rounds_step hc h (by simpa using hin) with hold | hnew
  · rw [hold] at hout
    cases hout
  · omega

end Coordinator
end Checkpointing
