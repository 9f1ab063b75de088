import Mathlib.Tactic
import Checkpointing.Proofs.Coordinator.Settlement

/-!
# When the job is failed

A job tolerates so many failed checkpoints in a row.  It is failed when one more fails, right after
that failure and once; after the next completed checkpoint the count starts afresh.

* `failureLog` keeps of the events what matters here: checkpoints that complete, those that are
  aborted for a reason that counts, and the calls that fail the job; `failuresInRow` reads the
  failures since the last completed checkpoint off it;
* `Reckoning` says how a budget follows its log, and `FailsJob` in which places of the log the job
  is failed; `Reckoning.failsJob` connects them;
* `reckoning_abortRounds`, `reckoning_complete` and others lead to `reckoning_step` and
  `reckoning_of_run`: every run keeps to the reckoning;
* `job_fails_once_per_breach` is the main statement.
-/

namespace Checkpointing

/-! ### The log of failures -/

namespace Event

/-- A checkpoint completes. -/
def isCompletion : Event → Bool
  | notice (.completed ..) => true
  | _ => false

/-- A checkpoint is aborted because its time is over, a task is lost or declines, or storage fails.
That another checkpoint overtakes it or the job ends is no failure. -/
def isFailure : Event → Bool
  | notice (.aborted _ (.expired _)) => true
  | notice (.aborted _ (.unreachable ..)) => true
  | notice (.aborted _ (.declined ..)) => true
  | notice (.aborted _ (.storage _)) => true
  | _ => false

theorem isFailure_aborted (id : Nat) (reason : SnapshotError) :
    (notice (.aborted id reason)).isFailure = reason.countsAsFailure := by
  cases reason <;> rfl

/-- The job is failed. -/
def isFailJob : Event → Bool
  | failJob .. => true
  | _ => false

end Event

/-- Of some events those that matter for the failure of the job, in their order. -/
def failureLog (events : List Event) : List Event :=
  events.filter fun e => e.isCompletion || e.isFailure || e.isFailJob

/-- The failures since the last completed checkpoint, or since the start. -/
def failuresInRow (events : List Event) : Nat :=
  (events.reverse.takeWhile fun e => !e.isCompletion).countP Event.isFailure

theorem failuresInRow_append_singleton (events : List Event) (e : Event) :
    failuresInRow (events ++ [e]) =
      if e.isCompletion then 0 else failuresInRow events + if e.isFailure then 1 else 0 := by
  unfold failuresInRow
  rw [List.reverse_append, List.reverse_singleton, List.singleton_append, List.takeWhile_cons]
  cases hcompletion : e.isCompletion with
  | true => simp
  | false => simp [List.countP_cons]

/-- There are no more failures in a row than failures. -/
theorem failuresInRow_le (events : List Event) :
    failuresInRow events ≤ events.countP Event.isFailure := by
  unfold failuresInRow
  calc (events.reverse.takeWhile fun e => !e.isCompletion).countP Event.isFailure
      ≤ events.reverse.countP Event.isFailure := (List.takeWhile_sublist _).countP_le
    _ = events.countP Event.isFailure := List.countP_reverse

@[simp]
theorem failureLog_append (l l' : List Event) :
    failureLog (l ++ l') = failureLog l ++ failureLog l' :=
  List.filter_append ..

/-- The log is enough to count the failures in a row. -/
theorem failuresInRow_failureLog (events : List Event) :
    failuresInRow (failureLog events) = failuresInRow events := by
  induction events using List.reverseRecOn with
  | nil => rfl
  | append_singleton events e ih =>
    rw [failureLog_append, failuresInRow_append_singleton]
    by_cases hlogged : (e.isCompletion || e.isFailure || e.isFailJob) = true
    · have hsingle : failureLog [e] = [e] := List.filter_eq_self.2 (by simpa using hlogged)
      rw [hsingle, failuresInRow_append_singleton, ih]
    · have hsingle : failureLog [e] = [] := List.filter_eq_nil_iff.2 (by simpa using hlogged)
      simp only [Bool.or_eq_true, not_or, Bool.not_eq_true] at hlogged
      rw [hsingle, List.append_nil, ih, hlogged.1.1, hlogged.1.2]
      rfl

theorem failureLog_eq_nil {events : List Event}
    (h : ∀ e ∈ events, (e.isCompletion || e.isFailure || e.isFailJob) = false) :
    failureLog events = [] :=
  List.filter_eq_nil_iff.2 fun e he => by simp [h e he]

theorem failureLog_of_requests {events : List Event} (h : ∀ e ∈ events, e.IsRequest) :
    failureLog events = [] :=
  failureLog_eq_nil fun e he => by
    obtain ⟨call, refused, rfl⟩ := h e he
    rfl

@[simp]
theorem failureLog_signals {α : Type} (signal : α → Signal) (l : List α) :
    failureLog (l.map fun a => .signal (signal a)) = [] :=
  failureLog_eq_nil fun e he => by
    obtain ⟨a, -, rfl⟩ := List.mem_map.1 he
    rfl

theorem failureLog_verdict_ok (id : Nat) (info : SnapshotInfo) :
    failureLog (verdict id (.ok info)) =
      [.notice (.completed id info.triggeredAt info.completedAt)] :=
  rfl

theorem failureLog_verdict_error (id : Nat) (reason : SnapshotError) :
    failureLog (verdict id (.error reason)) =
      if reason.countsAsFailure then [.notice (.aborted id reason)] else [] := by
  have hresolved : (Event.resolved id (.error reason)).isFailure = false := rfl
  cases hcounts : reason.countsAsFailure <;>
    simp [failureLog, verdict, Event.isCompletion, Event.isFailJob, Event.isFailure_aborted,
      hcounts, hresolved]

/-! ### How a budget follows its log -/

namespace FailureBudget

variable {b b' b'' : FailureBudget} {log log' : List Event} {reason : SnapshotError}

theorem failure_of_not_counts (h : reason.countsAsFailure = false) :
    b.failure reason = (b, []) := by
  simp [failure, h]

/-- A failure that counts fails the job if as many as are tolerated went before. -/
theorem failure_of_counts (hcounts : reason.countsAsFailure = true)
    (hbreached : b.breached = b.exceeded) (hhandled : b.hasHandler = true) :
    (b.failure reason).1.failures = b.failures + 1 ∧
    (b.failure reason).1.breached = (b.failure reason).1.exceeded ∧
    (b.failure reason).1.tolerable = b.tolerable ∧ (b.failure reason).1.hasHandler = true ∧
    (b.failure reason).2 =
      if b.tolerable = some b.failures then [.failJob (b.failures + 1) reason] else [] := by
  unfold failure
  rw [if_pos hcounts]
  dsimp only
  cases htolerable : b.tolerable with
  | none => simp [exceeded, htolerable, hbreached, hhandled]
  | some n =>
    simp only [exceeded, htolerable] at hbreached
    by_cases hlt : n < b.failures
    · have hne : n ≠ b.failures := by omega
      simp [exceeded, hbreached, hlt, hne, hhandled, Nat.lt_succ_of_lt hlt]
    · by_cases heq : n = b.failures
      · simp [exceeded, hbreached, heq, hhandled]
      · have hle : ¬ n < b.failures + 1 := by omega
        simp [exceeded, hbreached, hlt, hle, heq, hhandled]

theorem failureLog_failure (b : FailureBudget) (reason : SnapshotError) :
    failureLog (b.failure reason).2 = (b.failure reason).2 := by
  unfold failure
  dsimp only
  split_ifs <;> rfl

/-- The budget `b` becomes another one while it takes note of what is in a log. -/
inductive Reckoning (b : FailureBudget) : List Event → FailureBudget → Prop
  | nil : Reckoning b [] b
  | completed {log : List Event} {b' : FailureBudget} {id : Nat} {triggeredAt completedAt : Int}
      (h : Reckoning b log b') :
      Reckoning b (log ++ [.notice (.completed id triggeredAt completedAt)]) b'.success
  | failed {log : List Event} {b' : FailureBudget} {id : Nat} {reason : SnapshotError}
      (h : Reckoning b log b') (hcounts : reason.countsAsFailure = true) :
      Reckoning b (log ++ .notice (.aborted id reason) :: (b'.failure reason).2)
        (b'.failure reason).1

theorem Reckoning.append (h : Reckoning b log b') (h' : Reckoning b' log' b'') :
    Reckoning b (log ++ log') b'' := by
  induction h' with
  | nil => simpa using h
  | completed _ ih =>
    rw [← List.append_assoc]
    exact ih.completed
  | failed _ hcounts ih =>
    rw [← List.append_assoc]
    exact ih.failed hcounts

/-- Nothing in the log, nothing in the budget. -/
theorem Reckoning.eq_of_nil (h : Reckoning b [] b') : b' = b := by
  generalize hlog : ([] : List Event) = log at h
  cases h with
  | nil => rfl
  | completed _ => simp at hlog
  | failed _ _ => simp at hlog

/-- What a budget knows of the log so far. -/
structure Tracks (b : FailureBudget) (tolerable : Option Nat) (log : List Event) : Prop where
  tolerable : b.tolerable = tolerable
  handled : b.hasHandler = true
  failures : b.failures = failuresInRow log
  breached : b.breached = b.exceeded

end FailureBudget

/-- In this log the job is failed after each failure that is one more in a row than is tolerated,
right then and with the number of them, and in no other place. -/
structure FailsJob (tolerable : Option Nat) (log : List Event) : Prop where
  called : ∀ {first rest : List Event} {n : Nat} {reason : SnapshotError},
    log = first ++ .failJob n reason :: rest →
      ∃ earlier id, first = earlier ++ [.notice (.aborted id reason)] ∧
        tolerable = some (failuresInRow earlier) ∧ n = failuresInRow earlier + 1
  due : ∀ {first rest : List Event} {id : Nat} {reason : SnapshotError},
    log = first ++ .notice (.aborted id reason) :: rest →
      tolerable = some (failuresInRow first) →
        ∃ later, rest = .failJob (failuresInRow first + 1) reason :: later

/-- An element of a list with one more at the end is that one, or it is in the list before. -/
theorem append_singleton_eq_append_cons {α : Type} {l first rest : List α} {x y : α}
    (h : l ++ [x] = first ++ y :: rest) :
    (l = first ∧ x = y ∧ rest = []) ∨ ∃ rest', rest = rest' ++ [x] ∧ l = first ++ y :: rest' := by
  induction rest using List.reverseRecOn with
  | nil =>
    obtain ⟨hl, hx⟩ := List.append_inj' h rfl
    exact Or.inl ⟨hl, List.singleton_inj.1 hx, rfl⟩
  | append_singleton rest' z _ =>
    rw [← List.cons_append, ← List.append_assoc] at h
    obtain ⟨hl, hx⟩ := List.append_inj' h rfl
    rw [List.singleton_inj.1 hx]
    exact Or.inr ⟨rest', rfl, hl⟩

namespace FailsJob

variable {tolerable : Option Nat} {log : List Event} {id : Nat} {reason : SnapshotError}

theorem nil : FailsJob tolerable [] where
  called h := by simp at h
  due h := by simp at h

/-- One more event that neither fails the job nor is a reason to fail it. -/
theorem snoc (h : FailsJob tolerable log) {e : Event} (hcall : ∀ n reason, e ≠ .failJob n reason)
    (hdue : ∀ id reason, e = .notice (.aborted id reason) →
      tolerable ≠ some (failuresInRow log)) : FailsJob tolerable (log ++ [e]) where
  called {first rest n reason} hsplit := by
    rcases append_singleton_eq_append_cons hsplit with ⟨-, he, -⟩ | ⟨rest', -, hlog⟩
    · exact absurd he (hcall n reason)
    · exact h.called hlog
  due {first rest id reason} hsplit htolerable := by
    rcases append_singleton_eq_append_cons hsplit with ⟨rfl, he, -⟩ | ⟨rest', hrest, hlog⟩
    · exact absurd htolerable (hdue id reason he)
    · obtain ⟨later, hlater⟩ := h.due hlog htolerable
      exact ⟨later ++ [e], by rw [hrest, hlater]; rfl⟩

/-- A failure for which the job is failed. -/
theorem breach (h : FailsJob tolerable log) (htolerable : tolerable = some (failuresInRow log)) :
    FailsJob tolerable (log ++ [.notice (.aborted id reason),
      .failJob (failuresInRow log + 1) reason]) := by
  rw [show log ++ [.notice (.aborted id reason), .failJob (failuresInRow log + 1) reason] =
    (log ++ [.notice (.aborted id reason)]) ++ [.failJob (failuresInRow log + 1) reason] by simp]
  constructor
  · intro first rest n reason' hsplit
    rcases append_singleton_eq_append_cons hsplit with ⟨rfl, he, -⟩ | ⟨rest', -, hlog⟩
    · cases he
      exact ⟨log, id, rfl, htolerable, rfl⟩
    · rcases append_singleton_eq_append_cons hlog with ⟨-, he, -⟩ | ⟨rest'', -, hold⟩
      · cases he
      · exact h.called hold
  · intro first rest id' reason' hsplit htolerable'
    rcases append_singleton_eq_append_cons hsplit with ⟨-, he, -⟩ | ⟨rest', hrest, hlog⟩
    · cases he
    · rcases append_singleton_eq_append_cons hlog with ⟨rfl, he, rfl⟩ | ⟨rest'', hrest', hold⟩
      · cases he
        exact ⟨[], hrest⟩
      · obtain ⟨later, hlater⟩ := h.due hold htolerable'
        exact ⟨later ++ _ ++ _, by rw [hrest, hrest', hlater]; rfl⟩

end FailsJob

namespace FailureBudget

variable {b b' : FailureBudget} {tolerable : Option Nat} {log : List Event} {id : Nat}
  {reason : SnapshotError}

theorem tracks_fresh (tolerable : Option Nat) :
    (fresh tolerable true).Tracks tolerable [] where
  tolerable := rfl
  handled := rfl
  failures := rfl
  breached := by cases tolerable <;> simp [fresh, exceeded]

/-- A budget that follows its log fails the job where it should. -/
theorem Reckoning.failsJob (h : Reckoning b log b') (hb : b.Tracks tolerable []) :
    b'.Tracks tolerable log ∧ FailsJob tolerable log := by
  induction h with
  | nil => exact ⟨hb, .nil⟩
  | @completed log b' id triggeredAt completedAt _ ih =>
    obtain ⟨htracks, hfails⟩ := ih
    refine ⟨⟨htracks.tolerable, htracks.handled, ?_, ?_⟩, hfails.snoc (by simp) (by simp)⟩
    · rw [failuresInRow_append_singleton]
      rfl
    · unfold success exceeded
      cases b'.tolerable <;> simp
  | @failed log b' id reason _ hcounts ih =>
    obtain ⟨htracks, hfails⟩ := ih
    obtain ⟨hfailures, hbreached, htolerable, hhandled, hcall⟩ :=
      failure_of_counts hcounts htracks.breached htracks.handled
    have hcount :
        failuresInRow (log ++ [.notice (.aborted id reason)]) = failuresInRow log + 1 := by
      rw [failuresInRow_append_singleton]
      simp [Event.isCompletion, Event.isFailure_aborted, hcounts]
    rw [htracks.tolerable, htracks.failures] at hcall
    by_cases hdue : tolerable = some (failuresInRow log)
    · rw [if_pos hdue] at hcall
      rw [hcall]
      refine ⟨⟨htolerable.trans htracks.tolerable, hhandled, ?_, hbreached⟩, hfails.breach hdue⟩
      rw [List.append_cons, failuresInRow_append_singleton, hcount, hfailures, htracks.failures]
      rfl
    · rw [if_neg hdue] at hcall
      rw [hcall]
      refine ⟨⟨htolerable.trans htracks.tolerable, hhandled, ?_, hbreached⟩,
        hfails.snoc (by simp) fun _ _ _ => hdue⟩
      rw [hcount, hfailures, htracks.failures]

end FailureBudget

/-! ### Operations and their reckoning -/

namespace Coordinator

open FailureBudget

variable {c c' start : Coordinator} {request : Request} {events : List Event} {reply : Reply}
  {outside : Vault → Vault → Prop} {history : List Moment}

/-- A round that is aborted is one failure, if its reason counts. -/
theorem reckoning_failure (b : FailureBudget) (id : Nat) (reason : SnapshotError) :
    Reckoning b (failureLog (verdict id (.error reason)) ++ failureLog (b.failure reason).2)
      (b.failure reason).1 := by
  rw [failureLog_failure, failureLog_verdict_error]
  by_cases hcounts : reason.countsAsFailure = true
  · rw [if_pos hcounts]
    exact Reckoning.nil.failed hcounts
  · rw [if_neg hcounts, failure_of_not_counts (by simpa using hcounts)]
    exact .nil

theorem reckoning_abortRound (hrounds : ∀ {id r}, c.rounds.find? id = some r → r.UnderWay id)
    (id : Nat) (reason : SnapshotError) :
    Reckoning c.budget (failureLog (c.abortRound id reason).2.1)
      (c.abortRound id reason).1.budget := by
  cases hfind : c.rounds.find? id with
  | none =>
    have he : c.abortRound id reason = (c, [], false) := by simp [abortRound, hfind]
    rw [he]
    exact .nil
  | some r =>
    obtain ⟨budget, breach, hbreach, he⟩ := abortRound_of_find? hfind (hrounds hfind) reason
    have hfailure := reckoning_failure c.budget id reason
    rw [hbreach] at hfailure
    rw [he]
    simpa using hfailure

theorem reckoning_abortRounds (hrounds : ∀ {id r}, c.rounds.find? id = some r → r.UnderWay id)
    (reason : Nat → SnapshotError) (ids : List Nat) :
    Reckoning c.budget (failureLog (c.abortRounds reason ids).2)
      (c.abortRounds reason ids).1.budget := by
  induction ids generalizing c with
  | nil => exact .nil
  | cons id ids ih =>
    obtain ⟨budget, hstate⟩ := abortRound_state c id (reason id)
    have hfirst := reckoning_abortRound hrounds id (reason id)
    have hrest := ih (c := (c.abortRound id (reason id)).1) fun hfind => by
      rw [hstate] at hfind
      exact hrounds (Table.find?_of_find?_erase hfind)
    show Reckoning c.budget (failureLog ((c.abortRound id (reason id)).2.1 ++
      ((c.abortRound id (reason id)).1.abortRounds reason ids).2)) _
    rw [failureLog_append]
    exact hfirst.append hrest

/-- Rounds that are aborted for reasons that do not count leave no trace in the log. -/
theorem failureLog_abortRounds (hrounds : ∀ {id r}, c.rounds.find? id = some r → r.UnderWay id)
    (reason : Nat → SnapshotError) (hreason : ∀ id, (reason id).countsAsFailure = false)
    (ids : List Nat) : failureLog (c.abortRounds reason ids).2 = [] := by
  induction ids generalizing c with
  | nil => rfl
  | cons id ids ih =>
    obtain ⟨budget, hstate⟩ := abortRound_state c id (reason id)
    have hrest := ih (c := (c.abortRound id (reason id)).1) fun hfind => by
      rw [hstate] at hfind
      exact hrounds (Table.find?_of_find?_erase hfind)
    have hfirst : failureLog (c.abortRound id (reason id)).2.1 = [] := by
      cases hfind : c.rounds.find? id with
      | none => simp [abortRound, hfind, failureLog]
      | some r =>
        obtain ⟨_, _, hbreach, he⟩ := abortRound_of_find? hfind (hrounds hfind) (reason id)
        rw [failure_of_not_counts (hreason id)] at hbreach
        obtain ⟨rfl, rfl⟩ := Prod.mk.inj hbreach
        simp [he, failureLog_verdict_error, hreason id]
    show failureLog ((c.abortRound id (reason id)).2.1 ++
      ((c.abortRound id (reason id)).1.abortRounds reason ids).2) = []
    rw [failureLog_append, hfirst, hrest, List.append_nil]

theorem budget_abortRounds (hrounds : ∀ {id r}, c.rounds.find? id = some r → r.UnderWay id)
    (reason : Nat → SnapshotError) (hreason : ∀ id, (reason id).countsAsFailure = false)
    (ids : List Nat) : (c.abortRounds reason ids).1.budget = c.budget := by
  have hreckoning := reckoning_abortRounds hrounds reason ids
  rw [failureLog_abortRounds hrounds reason hreason ids] at hreckoning
  exact hreckoning.eq_of_nil

theorem budget_complete_of_ok {r : Round} {now : Int} {a : Archive} {kept : List Event}
    {s : Snapshot} (hrounds : ∀ {id r}, c.rounds.find? id = some r → r.UnderWay id)
    (hfinal : finalize c.archive r now = (a, kept, .ok s)) :
    (c.complete r now).1.budget = c.budget.success := by
  have hbudget := budget_abortRounds (c := { c with rounds := c.rounds.erase r.id, archive := a })
    (fun hfind => hrounds (Table.find?_of_find?_erase hfind))
    (fun id => .subsumed id r.id) (fun _ => rfl)
    (overtaken { c with rounds := c.rounds.erase r.id, archive := a } r.id)
  unfold complete
  simp only [hfinal]
  exact congrArg FailureBudget.success hbudget

/-- A full round is one failure if its snapshot cannot be stored, and else the end of all failures
before. -/
theorem reckoning_complete {r : Round} {id : Nat} (now : Int)
    (hrounds : ∀ {id r}, c.rounds.find? id = some r → r.UnderWay id) (hr : r.Full id) :
    Reckoning c.budget (failureLog (c.complete r now).2.1) (c.complete r now).1.budget := by
  have hkept := failureLog_of_requests (isRequest_of_finalize c.archive r now)
  rcases hfinal : finalize c.archive r now with ⟨a, kept, reason | s⟩
  · rw [hfinal] at hkept
    obtain ⟨budget, breach, hbreach, he⟩ := complete_of_error hfinal
    have hcleanup : failureLog (kept ++ [(a.vault.request (.cleanup r.id)).2.1]) = [] := by
      rw [failureLog_append, hkept]
      exact failureLog_of_requests (by simpa using a.vault.isRequest_of_request (.cleanup r.id))
    have hfailure := reckoning_failure c.budget id reason
    rw [hbreach] at hfailure
    rw [he, Round.farewell_eq_verdict hr.toFollowed, List.append_cons, failureLog_append,
      hcleanup]
    simpa using hfailure
  · rw [hfinal] at hkept
    have hbudget := budget_complete_of_ok hrounds hfinal
    obtain ⟨budget, he⟩ := complete_of_ok hfinal
    obtain rfl := eq_draft_of_finalize hfinal
    have haborts := failureLog_abortRounds
      (c := { c with rounds := c.rounds.erase r.id, archive := a })
      (fun hfind => hrounds (Table.find?_of_find?_erase hfind))
      (fun id => .subsumed id r.id) (fun _ => rfl)
      (overtaken { c with rounds := c.rounds.erase r.id, archive := a } r.id)
    rw [hbudget, he, Round.delivery_eq_verdict hr rfl]
    simp only [failureLog_append, hkept, haborts, failureLog_verdict_ok, failureLog_signals,
      List.nil_append, List.append_nil]
    exact Reckoning.nil.completed

/-- Closing leaves no trace in the log, however many rounds it aborts. -/
theorem quiet_close (hc : c.Orderly) (status : JobStatus) :
    (c.close status).1.budget = c.budget ∧ failureLog (c.close status).2.1 = [] := by
  have hlog := failureLog_abortRounds (c := { c with closed := true }) hc.underWay
    (fun id => .shutDown id) (fun _ => rfl) c.rounds.keys
  have hbudget := budget_abortRounds (c := { c with closed := true }) hc.underWay
    (fun id => .shutDown id) (fun _ => rfl) c.rounds.keys
  have hstorage := failureLog_of_requests (Archive.isRequest_of_close c.archive status)
  rcases close_cases c status with ⟨-, he⟩ | ⟨hclosed, budget, he⟩
  · rw [he]
    exact ⟨rfl, rfl⟩
  · constructor
    · unfold close
      rw [if_neg (by simp [hclosed])]
      exact hbudget
    · rw [he, failureLog_append, hlog, hstorage]
      rfl

/-- The log of a trigger is empty. -/
theorem failureLog_launch (c : Coordinator) (policy : SnapshotPolicy) (now : Int) (nextId : Nat) :
    failureLog (c.launch policy now nextId).2 = [] :=
  failureLog_signals (fun run => .trigger run c.nextId now policy) c.runs

theorem failureLog_dispose (c : Coordinator) (id : Nat) : failureLog (c.dispose id).2.1 = [] := by
  apply failureLog_of_requests
  rcases dispose_cases c id with ⟨-, he⟩ | ⟨s, -, ⟨-, he⟩ | ⟨-, ⟨a, e, -, he⟩ |
    ⟨a, removed, vault, event, failure, -, hrequest, he⟩⟩⟩ <;> rw [he]
  · simp
  · simp
  · simp
  · have hstorage := a.vault.isRequest_of_request (.cleanup id)
    rw [hrequest] at hstorage
    simpa using hstorage

theorem reckoning_step (hc : c.Orderly) (h : c.step request = .ok (c', events, reply)) :
    Reckoning c.budget (failureLog events) c'.budget := by
  cases Performs.of_step h with
  | register run state =>
    rcases register_state c run state with he | he <;> rw [he] <;> exact .nil
  | trigger htrigger =>
    rename_i policy now answer
    rcases trigger_cases htrigger with ⟨reason, -, rfl, rfl, -⟩ | ⟨-, -, hlaunch, -⟩
    · exact .nil
    · have hquiet := failureLog_launch c policy now (c.nextId + 1)
      have hbudget : (c.launch policy now (c.nextId + 1)).1.budget = c.budget := rfl
      rw [← hlaunch] at hquiet hbudget
      rw [hquiet, hbudget]
      exact .nil
  | acknowledge hack =>
    rename_i id run state now result
    rcases acknowledge_cases c id run state now with ⟨-, he⟩ | ⟨r, hfind, ⟨r', hr', he⟩ | ⟨-, he⟩⟩
    · cases he.symm.trans hack
      exact .nil
    · have hcomplete := reckoning_complete now hc.underWay
        ((hc.underWay hfind).full_of_completes hr')
      rwa [← he, hack] at hcomplete
    · cases he.symm.trans hack
      exact .nil
  | decline hdecline =>
    rename_i id run reason any
    rcases decline_cases c id run reason with he | ⟨-, he⟩
    · cases he.symm.trans hdecline
      exact .nil
    · have habort := reckoning_abortRound hc.underWay id (.declined id run reason)
      rwa [← he, hdecline] at habort
  | update hupdate =>
    rename_i run state
    have hsame : (c.register run state).budget = c.budget := by
      rcases register_state c run state with he | he <;> rw [he]
    rcases update_cases c run state with ⟨-, he⟩ | ⟨-, he⟩
    · cases he.symm.trans hupdate
      rw [hsame]
      exact .nil
    · have habort := reckoning_abortRounds (c := c.register run state)
        (fun hfind => hc.underWay (by rwa [rounds_register] at hfind))
        (fun id => .unreachable id run) (c.waitingFor run)
      rwa [← he, hupdate, hsame] at habort
  | expire habort =>
    rename_i id any
    have hreckoning := reckoning_abortRound hc.underWay id (.expired id)
    rwa [habort] at hreckoning
  | restore hrestore =>
    rename_i mode result
    obtain ⟨archive, nextId, -, hstate⟩ := restore_state c mode
    rw [hrestore] at hstate
    obtain rfl : c' = _ := hstate
    exact .nil
  | dispose hdispose =>
    rename_i id result
    have hquiet := failureLog_dispose c id
    obtain ⟨archive, hstate⟩ := dispose_state c id
    rw [hdispose] at hstate hquiet
    obtain rfl : c' = _ := hstate
    rw [hquiet]
    exact .nil
  | close hclose =>
    rename_i status result
    obtain ⟨hbudget, hquiet⟩ := quiet_close hc status
    rw [hclose] at hbudget hquiet
    rw [hquiet, hbudget]
    exact .nil

theorem failureLog_of_rejected (h : c.step request = .ok (c', events, reply)) {e : SnapshotError}
    (hreply : reply = .triggered (.error e)) : failureLog events = [] := by
  cases Performs.of_step h with
  | trigger htrigger =>
    rcases trigger_cases htrigger with ⟨reason, -, -, rfl, -⟩ | ⟨-, -, -, rfl⟩
    · rfl
    · cases hreply
  | _ => cases hreply

theorem failureLog_of_close (hc : c.Orderly) {status : JobStatus}
    (h : c.step (.close status) = .ok (c', events, reply)) : failureLog events = [] := by
  cases Performs.of_step h with
  | close hclose =>
    have hquiet := (quiet_close hc status).2
    rwa [hclose] at hquiet

theorem reckoning_of_run (h : Run outside start history c) (hstart : start.Orderly) :
    Reckoning start.budget (failureLog (history.flatMap (·.events))) c.budget := by
  induction h with
  | nil => exact .nil
  | @snoc past c c' vault request events reply run change step ih =>
    have horderly := (Orderly.of_run run hstart).1.withVault vault
    rw [List.flatMap_append, failureLog_append]
    have hstep := reckoning_step horderly step
    simpa using ih.append hstep

end Coordinator

/-- In every run in which somebody is there to fail the job: the count is that of the failures
since the last completed checkpoint; right after each failure that is one more in a row than the
settings tolerate the job is failed with that number, and it is failed at no other time, so never if
any number is tolerated.  A trigger that is refused and the end of the job leave the count alone. -/
theorem job_fails_once_per_breach {settings : Settings} {archive : Archive}
    {outside : Vault → Vault → Prop} {start c : Coordinator} {history : List Moment}
    (hopen : Coordinator.open? settings archive true = .ok start)
    (hrun : Run outside start history c) :
    c.budget.failures = failuresInRow (history.flatMap (·.events)) ∧
    c.budget.failures ≤ (history.flatMap (·.events)).countP Event.isFailure ∧
    FailsJob settings.tolerableFailures (failureLog (history.flatMap (·.events))) ∧
    (settings.tolerableFailures = none →
      ∀ n reason, .failJob n reason ∉ history.flatMap (·.events)) ∧
    (∀ m ∈ history,
      ((∃ e, m.reply = .triggered (.error e)) ∨ ∃ status, m.request = .close status) →
        m.after.budget = m.before.budget ∧ failureLog m.events = []) := by
  have hstart := Coordinator.orderly_of_open hopen
  have hreckoning := Coordinator.reckoning_of_run hrun hstart
  rw [(Coordinator.start_of_open hopen).2.2.2] at hreckoning
  obtain ⟨htracks, hfails⟩ :=
    hreckoning.failsJob (FailureBudget.tracks_fresh settings.tolerableFailures)
  have hcount := htracks.failures.trans (failuresInRow_failureLog _)
  refine ⟨hcount, ?_, hfails, fun hnone n reason hmem => ?_, fun m hm hquiet => ?_⟩
  · rw [hcount]
    exact failuresInRow_le _
  · have hlogged : .failJob n reason ∈ failureLog (history.flatMap (·.events)) :=
      List.mem_filter.2 ⟨hmem, rfl⟩
    obtain ⟨first, rest, hsplit⟩ := List.append_of_mem hlogged
    obtain ⟨earlier, id, -, htolerable, -⟩ := hfails.called hsplit
    rw [hnone] at htolerable
    cases htolerable
  · have hstep := hrun.step_of_mem hm
    have horderly := ((Coordinator.Orderly.of_run hrun hstart).2 m hm).1
    have hlog : failureLog m.events = [] := by
      rcases hquiet with ⟨e, hreply⟩ | ⟨status, hreq⟩
      · exact Coordinator.failureLog_of_rejected hstep hreply
      · rw [hreq] at hstep
        exact Coordinator.failureLog_of_close horderly hstep
    have hreckoning := Coordinator.reckoning_step horderly hstep
    rw [hlog] at hreckoning
    exact ⟨hreckoning.eq_of_nil, hlog⟩

/-- The job is failed for the second of three failures in a row, and after a checkpoint that
completes for the second failure again. -/
def failingRequests : List Request :=
  [.register ⟨1, 0, 0⟩ .running,
    .trigger (.ofRetention .onFailure) 10, .expire 1,
    .trigger (.ofRetention .onFailure) 20, .expire 2,
    .trigger (.ofRetention .onFailure) 30, .expire 3,
    .trigger (.ofRetention .onFailure) 40, .acknowledge 4 ⟨1, 0, 0⟩ [7] 41,
    .trigger (.ofRetention .onFailure) 50, .decline 5 ⟨1, 0, 0⟩ "busy",
    .trigger (.ofRetention .onFailure) 60, .trigger (.ofRetention .onFailure) 61,
    .update ⟨1, 0, 0⟩ .failed, .close .failed]

theorem job_fails_once_per_breach_of_two :
    ∃ start c history,
      Coordinator.open? { Settings.default with tolerableFailures := some 1 }
        ⟨.of (.memory ∅) .none, .empty 1⟩ true = .ok start ∧
      start.perform failingRequests = (history, c) ∧
      (history.flatMap (·.events)).filter Event.isFailJob =
        [.failJob 2 (.expired 2), .failJob 2 (.unreachable 6 ⟨1, 0, 0⟩)] ∧
      c.budget.failures = failuresInRow (history.flatMap (·.events)) ∧
      FailsJob (some 1) (failureLog (history.flatMap (·.events))) := by
  obtain ⟨start, c, history, hopen, hperform, hcalls⟩ :
      ∃ start c history,
        Coordinator.open? { Settings.default with tolerableFailures := some 1 }
          ⟨.of (.memory ∅) .none, .empty 1⟩ true = .ok start ∧
        start.perform failingRequests = (history, c) ∧
        (history.flatMap (·.events)).filter Event.isFailJob =
          [.failJob 2 (.expired 2), .failJob 2 (.unreachable 6 ⟨1, 0, 0⟩)] :=
    ⟨_, _, _, rfl, rfl, rfl⟩
  have hrun : Run Eq start _ _ := Run.of_perform (fun _ => rfl) start failingRequests
  rw [hperform] at hrun
  obtain ⟨hcount, -, hfails, -⟩ := job_fails_once_per_breach hopen hrun
  exact ⟨start, c, history, hopen, hperform, hcalls, hcount, hfails⟩

end Checkpointing
