import Mathlib.Tactic
import Checkpointing.Proofs.Storage.Eviction

/-!
# Closing an archive

When an archive is closed, all that has to go is attempted; what fails is kept, reported, and can be
attempted again.

* `Archive.due` are the snapshots that have to go, `Archive.tries` what comes of the requests to
  throw them away;
* `Vault.complaints` are the reports of those that fail;
* `Vault.filter_staying`, `Vault.filter_not_staying`: of what has to go those stay that failed, of
  the rest all;
* `close_events`, `close_retention` and `close_result` say what closing does, `retention_of_none`
  what it does when nothing fails;
* `due_reopened` and `retention_reopened` say what closing does once more;
* `closes_at_once_or_later` is the main statement.
-/

namespace Checkpointing
namespace Vault

variable {l l' : List Snapshot} {tries tries' : List (Event × Option StorageFailure)}

/-- The vault after requests that are made one after the other. -/
def after (v : Vault) (calls : List StorageCall) : Vault :=
  calls.foldl (fun v call => (v.request call).1) v

/-- What is reported of the snapshots for which the attempt failed. -/
def complaints (l : List Snapshot) (tries : List (Event × Option StorageFailure)) :
    List SnapshotError :=
  (l.zip tries).filterMap fun e => e.2.2.map fun failure => .undiscarded e.1.id failure.text

theorem length_attempts (v : Vault) (calls : List StorageCall) :
    (v.attempts calls).length = calls.length := by
  induction calls generalizing v with
  | nil => rfl
  | cons call calls ih => rw [attempts, List.length_cons, List.length_cons, ih]

theorem length_discards (v : Vault) (l : List Snapshot) :
    (v.attempts (l.map fun s => .discard s.id)).length = l.length := by
  rw [length_attempts, List.length_map]

theorem attempts_append (v : Vault) (calls more : List StorageCall) :
    v.attempts (calls ++ more) = v.attempts calls ++ (v.after calls).attempts more := by
  induction calls generalizing v with
  | nil => rfl
  | cons call calls ih =>
    rw [List.cons_append, attempts, attempts, ih]
    rfl

/-- What is heard of each request is that it was made, and whether it was refused. -/
theorem requests_attempts (v : Vault) (calls : List StorageCall) :
    List.Forall₂ (fun call event => ∃ refused, event = .storage call refused) calls
      ((v.attempts calls).map (·.1)) := by
  induction calls generalizing v with
  | nil => exact .nil
  | cons call calls ih =>
    rw [attempts, List.map_cons]
    exact .cons (v.event_request call) (ih _)

theorem complaints_append (h : tries.length = l.length) :
    complaints (l ++ l') (tries ++ tries') = complaints l tries ++ complaints l' tries' := by
  rw [complaints, List.zip_append h.symm, List.filterMap_append]
  rfl

/-- Nothing is reported just when no attempt failed. -/
theorem complaints_eq_nil_iff (h : tries.length = l.length) :
    complaints l tries = [] ↔ ∀ t ∈ tries, t.2 = none := by
  have htries : tries = (l.zip tries).map Prod.snd := (List.map_snd_zip h.le).symm
  constructor
  · intro hnothing t ht
    rw [htries] at ht
    obtain ⟨e, he, rfl⟩ := List.mem_map.1 ht
    exact Option.map_eq_none_iff.1 (List.filterMap_eq_nil_iff.1 hnothing e he)
  · intro hnone
    refine List.filterMap_eq_nil_iff.2 fun e he => ?_
    rw [hnone e.2 (List.of_mem_zip he).2]
    rfl

/-- After a sweep the requests for all snapshots that meet the condition were made. -/
theorem vault_sweep (v : Vault) (condition : Snapshot → Bool) (l : List Snapshot) :
    (v.sweep condition l).vault = v.after ((l.filter condition).map fun s => .discard s.id) := by
  induction l generalizing v with
  | nil => rfl
  | cons s l ih =>
    rw [sweep]
    split
    · next hgoes =>
      rw [List.filter_cons_of_pos hgoes, List.map_cons, after, List.foldl_cons]
      rcases v.request (.discard s.id) with ⟨w, event, failure | failure⟩ <;> exact ih w
    · next hstays =>
      rw [List.filter_cons_of_neg hstays]
      exact ih v

/-- A sweep reports every request that fails, in order. -/
theorem complaints_sweep (v : Vault) (condition : Snapshot → Bool) (l : List Snapshot) :
    ((v.sweep condition l).failures.map fun e => SnapshotError.undiscarded e.1 e.2.text) =
      complaints (l.filter condition)
        (v.attempts ((l.filter condition).map fun s => .discard s.id)) := by
  induction l generalizing v with
  | nil => rfl
  | cons s l ih =>
    rw [sweep]
    split
    · next hgoes =>
      rw [List.filter_cons_of_pos hgoes, List.map_cons, attempts]
      rcases v.request (.discard s.id) with ⟨w, event, failure | failure⟩
      · exact ih w
      · exact congrArg (SnapshotError.undiscarded s.id failure.text :: ·) (ih w)
    · next hstays =>
      rw [List.filter_cons_of_neg hstays]
      exact ih v

/-! ### What stays -/

theorem failed_eq_nil (h : ∀ t ∈ tries, t.2 = none) : failed l tries = [] := by
  have hnone : ((l.zip tries).filter fun e => e.2.2.isSome) = [] := by
    refine List.filter_eq_nil_iff.2 fun e he => ?_
    rw [h e.2 (List.of_mem_zip he).2]
    simp
  rw [failed, hnone]
  rfl

/-- Among the snapshots that failed are only such as had to go. -/
theorem mem_of_mem_failed {s : Snapshot} (h : s ∈ failed l tries) : s ∈ l := by
  obtain ⟨e, he, rfl⟩ := List.mem_map.1 h
  exact (List.of_mem_zip (List.mem_of_mem_filter he)).1

theorem failed_append (h : l.length ≤ tries.length) :
    failed (l ++ l') tries = failed l (tries.take l.length) ++ failed l' (tries.drop l.length) := by
  have hlength : l.length = (tries.take l.length).length := by
    rw [List.length_take, min_eq_left h]
  conv_lhs => rw [← List.take_append_drop l.length tries]
  rw [failed, List.zip_append hlength, List.filter_append, List.map_append]
  rfl

/-- Of what has to go those stay that failed. -/
theorem filter_staying (goes : Snapshot → Bool) (l : List Snapshot)
    (tries : List (Event × Option StorageFailure)) :
    (staying goes l tries).filter goes = failed (l.filter goes) tries := by
  induction l generalizing tries with
  | nil => rfl
  | cons s l ih =>
    rw [staying]
    split
    · next hgoes =>
      have hfirst : (failed [s] tries).filter goes = failed [s] tries := by
        refine List.filter_eq_self.2 fun t ht => ?_
        rwa [List.mem_singleton.1 (mem_of_mem_failed ht)]
      rw [List.filter_append, hfirst, ih, List.filter_cons_of_pos hgoes, ← failed_cons]
    · next hstays =>
      rw [List.filter_cons_of_neg hstays, List.filter_cons_of_neg hstays, ih]

/-- All others stay. -/
theorem filter_not_staying (goes : Snapshot → Bool) (l : List Snapshot)
    (tries : List (Event × Option StorageFailure)) :
    (staying goes l tries).filter (fun s => !goes s) = l.filter fun s => !goes s := by
  induction l generalizing tries with
  | nil => rfl
  | cons s l ih =>
    rw [staying]
    split
    · next hgoes =>
      have hfirst : (failed [s] tries).filter (fun t => !goes t) = [] := by
        refine List.filter_eq_nil_iff.2 fun t ht => ?_
        rw [List.mem_singleton.1 (mem_of_mem_failed ht), hgoes]
        simp
      rw [List.filter_append, hfirst, ih, List.nil_append,
        List.filter_cons_of_neg (by simp [hgoes])]
    · next hstays =>
      rw [List.filter_cons_of_pos (by simp [hstays]), ih,
        List.filter_cons_of_pos (by simp [hstays])]

/-- When no attempt fails, only what need not go stays. -/
theorem staying_eq_filter {goes : Snapshot → Bool} (h : ∀ t ∈ tries, t.2 = none) :
    staying goes l tries = l.filter fun s => !goes s := by
  have hnone : (staying goes l tries).filter goes = [] := by
    rw [filter_staying, failed_eq_nil h]
  rw [← filter_not_staying goes l tries]
  refine (List.filter_eq_self.2 fun s hs => ?_).symm
  simpa using List.filter_eq_nil_iff.1 hnone s hs

end Vault

namespace Archive

/-- Whether a snapshot goes when the job ends in a status. -/
def goesWith (status : JobStatus) (s : Snapshot) : Bool := s.policy.discard.onStatus status

/-- The snapshots that have to go when the archive is closed: the whole backlog, then the live ones
that go with the job. -/
def due (a : Archive) (status : JobStatus) : List Snapshot :=
  a.retention.backlog ++ a.retention.live.filter (goesWith status)

/-- What comes of the requests to throw these away. -/
def tries (a : Archive) (status : JobStatus) : List (Event × Option StorageFailure) :=
  a.vault.attempts ((a.due status).map fun s => .discard s.id)

variable {a : Archive} {status : JobStatus}

theorem length_tries (a : Archive) (status : JobStatus) :
    (a.tries status).length = (a.due status).length :=
  Vault.length_discards _ _

/-- The first tries are those of the backlog, the others those of the live snapshots. -/
theorem tries_eq (a : Archive) (status : JobStatus) :
    a.tries status =
      a.vault.attempts (a.retention.backlog.map fun s => .discard s.id) ++
        a.clearance.vault.attempts
          ((a.retention.live.filter (goesWith status)).map fun s => .discard s.id) := by
  rw [clearance, Vault.vault_sweep, List.filter_true, ← Vault.attempts_append, ← List.map_append]
  rfl

/-- The sweep of the live snapshots is over those that go with the job. -/
theorem closure_eq (a : Archive) (status : JobStatus) :
    a.closure status = a.clearance.vault.sweep (goesWith status) a.retention.live := rfl

theorem close_events (a : Archive) (status : JobStatus) :
    (a.close status).2.1 = (a.tries status).map (·.1) := by
  have hevents : (a.close status).2.1 = a.clearance.events ++ (a.closure status).events := rfl
  rw [hevents, closure_eq, Vault.events_sweep, tries_eq, List.map_append, clearance,
    Vault.events_sweep, List.filter_true]

/-- In the backlog stays what failed, in the list what failed and what need not go. -/
theorem close_retention (a : Archive) (status : JobStatus) : (a.close status).1.retention =
    { a.retention with
      live := Vault.staying (goesWith status) a.retention.live
        ((a.tries status).drop a.retention.backlog.length)
      backlog := Vault.failed a.retention.backlog
        ((a.tries status).take a.retention.backlog.length) } := by
  have hlength := a.vault.length_discards a.retention.backlog
  rw [tries_eq, List.drop_left' hlength, List.take_left' hlength, close_state, closure_eq,
    Vault.kept_sweep]
  dsimp only
  rw [clearance, Vault.kept_sweep, Vault.staying_true, List.filter_true]

/-- Closing succeeds or reports all that failed. -/
theorem close_result (a : Archive) (status : JobStatus) : (a.close status).2.2 =
    if (Vault.complaints (a.due status) (a.tries status)).isEmpty then .ok ()
    else .error (.discardFailures (Vault.complaints (a.due status) (a.tries status))) := by
  have hfailures : ((a.clearance.failures ++ (a.closure status).failures).map fun e =>
      SnapshotError.undiscarded e.1 e.2.text) =
        Vault.complaints (a.due status) (a.tries status) := by
    have hlength := a.vault.length_discards a.retention.backlog
    rw [tries_eq, due, Vault.complaints_append hlength, List.map_append, closure_eq,
      Vault.complaints_sweep, clearance, Vault.complaints_sweep, List.filter_true]
  rw [← hfailures]
  rfl

/-- Closing succeeds just when nothing failed. -/
theorem close_eq_ok_iff :
    (a.close status).2.2 = .ok () ↔ ∀ t ∈ a.tries status, t.2 = none := by
  rw [← Vault.complaints_eq_nil_iff (length_tries a status), ← List.isEmpty_iff, close_result]
  split
  · next hnothing => simp only [hnothing]
  · next hsome => simp only [reduceCtorEq, hsome, Bool.false_eq_true]

theorem reason_of_close {reason : SnapshotError} (h : (a.close status).2.2 = .error reason) :
    reason = .discardFailures (Vault.complaints (a.due status) (a.tries status)) := by
  rw [close_result] at h
  split at h
  · cases h
  · cases h
    rfl

/-- When nothing fails, the backlog is empty afterwards and just that is left which need not go. -/
theorem retention_of_none (h : ∀ t ∈ a.tries status, t.2 = none) : (a.close status).1.retention =
    { a.retention with
      live := a.retention.live.filter fun s => !goesWith status s
      backlog := [] } := by
  rw [close_retention, Vault.staying_eq_filter fun t ht => h t (List.mem_of_mem_drop ht),
    Vault.failed_eq_nil fun t ht => h t (List.mem_of_mem_take ht)]

/-- The archive as closing leaves it, in any state of storage. -/
def reopened (a : Archive) (status : JobStatus) (v : Vault) : Archive :=
  { (a.close status).1 with vault := v }

/-- Just those have to go afterwards for which the attempt failed. -/
theorem due_reopened (a : Archive) (status : JobStatus) (v : Vault) :
    (a.reopened status v).due status = Vault.failed (a.due status) (a.tries status) := by
  have hle : a.retention.backlog.length ≤ (a.tries status).length := by
    rw [length_tries, due, List.length_append]
    exact Nat.le_add_right _ _
  rw [due, reopened, close_retention]
  dsimp only
  rw [Vault.filter_staying, due, Vault.failed_append hle]

/-- Once nothing fails any more, it does not matter what failed before. -/
theorem retention_reopened {v : Vault}
    (h : ∀ t ∈ (a.reopened status v).tries status, t.2 = none) :
    ((a.reopened status v).close status).1.retention =
      { a.retention with
        live := a.retention.live.filter fun s => !goesWith status s
        backlog := [] } := by
  rw [retention_of_none h, reopened, close_retention]
  dsimp only
  rw [Vault.filter_not_staying]

/-! ### The main statement -/

/-- Closing attempts everything, reports everything and can be done again.  Whatever an archive
holds, whatever the job ends in and whichever requests fail: storage is asked once to throw away
each snapshot of the backlog, whatever its policy, and then each live one that goes with the job, in
order, and nothing else; in the backlog stay those for which this failed; in the list stay, in
order, those that need not go and those for which it failed; and closing succeeds just when nothing
failed, or reports each failure, in order.  If it is closed again, in any state of storage in which
no request fails, only what had failed is asked for, closing succeeds, the backlog is empty and just
that is left which need not go: the same as if nothing had failed in the first place. -/
theorem closes_at_once_or_later {b : Archive} {events : List Event}
    {result : Except SnapshotError Unit} (hclose : a.close status = (b, events, result)) :
    List.Forall₂ (fun s event => ∃ refused, event = .storage (.discard s.id) refused)
      (a.due status) events ∧
    events = (a.tries status).map (·.1) ∧
    b.retention =
      { a.retention with
        live := Vault.staying (goesWith status) a.retention.live
          ((a.tries status).drop a.retention.backlog.length)
        backlog := Vault.failed a.retention.backlog
          ((a.tries status).take a.retention.backlog.length) } ∧
    (result = .ok () ↔ ∀ t ∈ a.tries status, t.2 = none) ∧
    (∀ reason, result = .error reason →
      reason = .discardFailures (Vault.complaints (a.due status) (a.tries status))) ∧
    ∀ v, (∀ t ∈ { b with vault := v }.tries status, t.2 = none) →
      { b with vault := v }.due status = Vault.failed (a.due status) (a.tries status) ∧
      ({ b with vault := v }.close status).2.2 = .ok () ∧
      ({ b with vault := v }.close status).1.retention =
        { a.retention with
          live := a.retention.live.filter fun s => !goesWith status s
          backlog := [] } ∧
      ∀ w, (∀ t ∈ { a with vault := w }.tries status, t.2 = none) →
        ({ b with vault := v }.close status).1.retention =
          ({ a with vault := w }.close status).1.retention := by
  obtain rfl : (a.close status).1 = b := by rw [hclose]
  obtain rfl : (a.close status).2.1 = events := by rw [hclose]
  obtain rfl : (a.close status).2.2 = result := by rw [hclose]
  have hrequests := a.vault.requests_attempts ((a.due status).map fun s => .discard s.id)
  refine ⟨?_, close_events a status, close_retention a status, close_eq_ok_iff,
    fun _ => reason_of_close, fun v hagain => ?_⟩
  · rw [close_events]
    exact List.forall₂_map_left_iff.1 hrequests
  · have hlast := retention_reopened hagain
    exact ⟨due_reopened a status v, close_eq_ok_iff.2 hagain, hlast,
      fun w hw => hlast.trans (retention_of_none hw).symm⟩

/-- An archive whose backlog holds a savepoint and a checkpoint, and whose list a savepoint and two
checkpoints that go when the job is finished; one of each kind cannot be thrown away. -/
def halfStuck : Archive where
  vault := .of (.memory ∅) (FaultRule.plan [⟨.discard, some 1, none⟩, ⟨.discard, some 4, none⟩])
  retention :=
    { cap := 2
      live := [⟨3, .savepoint true .canonical, 30, 31, ∅, none⟩,
        ⟨4, .ofRetention .onFailure, 40, 41, ∅, none⟩,
        ⟨5, .ofRetention .onFailure, 50, 51, ∅, none⟩]
      backlog := [⟨1, .savepoint true .canonical, 10, 11, ∅, none⟩,
        ⟨2, .ofRetention .onFailure, 20, 21, ∅, none⟩] }

theorem closes_at_once_or_later_of_halfStuck : ∃ b events result,
    halfStuck.close .finished = (b, events, result) ∧
    (halfStuck.due .finished).map (·.id) = [1, 2, 4, 5] ∧
    events.length = (halfStuck.due .finished).length ∧
    b.retention.live.map (·.id) = [3, 4] ∧ b.retention.backlog.map (·.id) = [1] ∧
    result = .error (.discardFailures
      [.undiscarded 1 "discard of 1 failed: disk unavailable",
        .undiscarded 4 "discard of 4 failed: disk unavailable"]) ∧
    (∀ t ∈ { b with vault := .of (.memory ∅) .none }.tries .finished, t.2 = none) ∧
    ({ b with vault := .of (.memory ∅) .none }.close .finished).2.2 = .ok () ∧
    ({ b with vault := .of (.memory ∅) .none }.close .finished).1.retention =
      ({ halfStuck with vault := .of (.memory ∅) .none }.close .finished).1.retention := by
  obtain ⟨b, events, result, hclose, hlive, hbacklog, hresult, hagain⟩ : ∃ b events result,
      halfStuck.close .finished = (b, events, result) ∧
      b.retention.live.map (·.id) = [3, 4] ∧ b.retention.backlog.map (·.id) = [1] ∧
      result = .error (.discardFailures
        [.undiscarded 1 "discard of 1 failed: disk unavailable",
          .undiscarded 4 "discard of 4 failed: disk unavailable"]) ∧
      ∀ t ∈ { b with vault := .of (.memory ∅) .none }.tries .finished, t.2 = none :=
    ⟨_, _, _, rfl, rfl, rfl, rfl, by decide⟩
  obtain ⟨hrequests, -, -, -, -, hretry⟩ := closes_at_once_or_later hclose
  obtain ⟨-, hok, -, hsame⟩ := hretry _ hagain
  exact ⟨b, events, result, hclose, rfl, hrequests.length_eq.symm, hlive, hbacklog, hresult, hagain,
    hok, hsame _ (by decide)⟩

end Archive
end Checkpointing
