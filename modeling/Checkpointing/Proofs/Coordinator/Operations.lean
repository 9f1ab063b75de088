import Mathlib.Tactic
import Checkpointing.Coordinator.Basic
import Checkpointing.Proofs.Round

/-!
# What the operations of a coordinator do

One lemma for each operation says everything that it can do: which fields change, which events it
causes and what it answers.  Later proofs cite these lemmas and do not open the operations again.

* `abortRound_state`, `abortRounds_state`: rounds go and the failure budget changes, nothing else;
* `trigger_cases`, `acknowledge_cases`, `restore_cases`, `dispose_cases`;
* `finalize_cases`, `complete_of_error`, `complete_of_ok` for the end of a full round.
-/

namespace Checkpointing

/-- The vault after an address for a snapshot was asked for. -/
def Vault.addressed (v : Vault) (id : Nat) (policy : SnapshotPolicy) : Vault :=
  { v with medium := (v.medium.address id policy).1 }

/-- What is heard of a round when it is aborted. -/
def Round.farewell (r : Round) (reason : SnapshotError) : List Event :=
  (((r.abort? reason).map (·.2)).map (Coordinator.settled r.id)).getD []

/-- What is heard of a round when it is completed. -/
def Round.delivery (r : Round) (info : SnapshotInfo) : List Event :=
  (((r.complete? info).map (·.2)).map (Coordinator.settled r.id)).getD []

namespace Coordinator

/-! ### Opening rounds -/

theorem trigger_cases {c c' : Coordinator} {policy : SnapshotPolicy} {now : Int}
    {events : List Event} {answer : Except SnapshotError Nat}
    (h : c.trigger policy now = .ok (c', events, answer)) :
    (∃ reason, c.obstacle policy now = .ok (some reason) ∧ c' = c ∧ events = [] ∧
      answer = .error (.rejected reason)) ∨
    (c.obstacle policy now = .ok none ∧ c.nextId < Word.max64 ∧
      (c', events) = c.launch policy now (c.nextId + 1) ∧ answer = .ok c.nextId) := by
  unfold trigger at h
  cases hobs : c.obstacle policy now with
  | error overflow => rw [hobs] at h; cases h
  | ok obstacle =>
    rw [hobs] at h
    cases obstacle with
    | some reason =>
      cases h
      exact Or.inl ⟨reason, rfl, rfl, rfl, rfl⟩
    | none =>
      have h : (Word.next? Word.max64 c.nextId).map
          (fun nextId => ((c.launch policy now nextId).1, (c.launch policy now nextId).2,
            Except.ok c.nextId)) = .ok (c', events, answer) := h
      cases hnext : Word.next? Word.max64 c.nextId with
      | error overflow => rw [hnext] at h; cases h
      | ok nextId =>
        rw [hnext] at h
        obtain ⟨hlt, rfl⟩ := Word.next?_eq_ok_iff.1 hnext
        cases h
        exact Or.inr ⟨rfl, hlt, rfl, rfl⟩

/-- There is a task wherever nothing stands in the way of a trigger. -/
theorem runs_ne_nil_of_obstacle {c : Coordinator} {policy : SnapshotPolicy} {now : Int}
    (h : c.obstacle policy now = .ok none) : c.runs ≠ [] := by
  unfold obstacle at h
  by_cases hclosed : c.closed = true
  · rw [if_pos hclosed] at h; cases h
  · rw [if_neg hclosed] at h
    by_cases hsize : c.tasks.size = 0
    · rw [if_pos hsize] at h; cases h
    · intro hnil
      refine hsize ?_
      have hlen := congrArg List.length hnil
      simpa [runs, Table.values, Table.size] using hlen

/-! ### Aborting rounds -/

/-- Aborting a round takes it from the table and changes the failure budget. -/
theorem abortRound_state (c : Coordinator) (id : Nat) (reason : SnapshotError) :
    ∃ budget, (c.abortRound id reason).1 =
      { c with rounds := c.rounds.erase id, budget := budget } := by
  unfold abortRound
  cases hfind : c.rounds.find? id with
  | none => exact ⟨c.budget, by rw [Table.erase_of_find?_eq_none hfind]⟩
  | some r =>
    cases habort : r.abort? reason with
    | none => exact ⟨c.budget, by simp only [habort]⟩
    | some settled => exact ⟨(c.budget.failure reason).1, by simp only [habort]⟩

theorem abortRounds_state (c : Coordinator) (reason : Nat → SnapshotError) (ids : List Nat) :
    ∃ budget, (c.abortRounds reason ids).1 =
      { c with rounds := c.rounds.eraseAll ids, budget := budget } := by
  induction ids generalizing c with
  | nil => exact ⟨c.budget, rfl⟩
  | cons id ids ih =>
    obtain ⟨first, hfirst⟩ := abortRound_state c id (reason id)
    obtain ⟨budget, hrest⟩ := ih (c.abortRound id (reason id)).1
    refine ⟨budget, ?_⟩
    show ((c.abortRound id (reason id)).1.abortRounds reason ids).1 = _
    rw [hrest, hfirst]
    rfl

/-! ### Completing rounds -/

/-- The snapshot that a full round leaves. -/
def draft (a : Archive) (r : Round) (now : Int) : Snapshot :=
  r.snapshot now (a.vault.medium.address r.id r.policy).2

/-- Finalizing fails while the states are kept, fails when the snapshot is registered, or
registers it. -/
theorem finalize_cases (a : Archive) (r : Round) (now : Int) :
    (∃ vault kept failure,
      (a.vault.addressed r.id r.policy).persistAll r.id r.acked.entries =
        (vault, kept, some failure) ∧
      finalize a r now = ({ a with vault := vault }, kept, .error (.storage failure))) ∨
    (∃ vault kept, (a.vault.addressed r.id r.policy).persistAll r.id r.acked.entries =
        (vault, kept, none) ∧
      ((∃ a' added e,
        Archive.add { a with vault := vault } (draft a r now) = (a', added, .error e) ∧
        finalize a r now = (a', kept ++ added, .error e)) ∨
      (∃ a' added gone,
        Archive.add { a with vault := vault } (draft a r now) = (a', added, .ok gone) ∧
        finalize a r now = (a', kept ++ added, .ok (draft a r now))))) := by
  unfold finalize
  show _ ∨ _
  simp only [show ({ a.vault with medium := (a.vault.medium.address r.id r.policy).1 } : Vault) =
      a.vault.addressed r.id r.policy from rfl,
    show r.snapshot now (a.vault.medium.address r.id r.policy).2 = draft a r now from rfl,
    show (draft a r now).handles = r.acked from rfl]
  rcases hkeep : (a.vault.addressed r.id r.policy).persistAll r.id r.acked.entries with
    ⟨vault, kept, failure | failure⟩
  · refine Or.inr ⟨vault, kept, rfl, ?_⟩
    rcases hadd : Archive.add { a with vault := vault } (draft a r now) with
      ⟨a', added, e | gone⟩
    · exact Or.inl ⟨a', added, e, rfl, by simp only [hadd]⟩
    · exact Or.inr ⟨a', added, gone, rfl, by simp only [hadd]⟩
  · exact Or.inl ⟨vault, kept, failure, rfl, rfl⟩

/-- What finalizing returns is the draft. -/
theorem eq_draft_of_finalize {a a' : Archive} {r : Round} {now : Int} {kept : List Event}
    {s : Snapshot} (h : finalize a r now = (a', kept, .ok s)) : s = draft a r now := by
  rcases finalize_cases a r now with ⟨vault, kept', failure, -, he⟩ |
    ⟨vault, kept', -, ⟨a₁, added, reason, -, he⟩ | ⟨a₁, added, gone, -, he⟩⟩ <;>
    cases he.symm.trans h
  rfl

theorem mem_overtaken {c : Coordinator} {i id : Nat} :
    i ∈ c.overtaken id ↔ ∃ r, c.rounds.find? i = some r ∧ i < id ∧ r.policy.forced = false :=
  Table.mem_keys_filter_iff.trans (by simp)

/-- A round does not overtake itself. -/
theorem overtaken_erase (c : Coordinator) (id : Nat) (a : Archive) :
    overtaken { c with rounds := c.rounds.erase id, archive := a } id = c.overtaken id := by
  unfold overtaken
  simp only [Table.erase, List.filter_filter]
  congr 1
  refine List.filter_congr fun entry _ => ?_
  obtain ⟨i, r⟩ := entry
  by_cases hlt : i < id
  · simp [hlt, hlt.ne]
  · simp [hlt]

theorem complete_of_error {c : Coordinator} {r : Round} {now : Int} {a : Archive}
    {kept : List Event} {reason : SnapshotError}
    (h : finalize c.archive r now = (a, kept, .error reason)) :
    ∃ budget breach, c.budget.failure reason = (budget, breach) ∧
      c.complete r now =
        ({ c with
           rounds := c.rounds.erase r.id
           archive := { a with vault := (a.vault.request (.cleanup r.id)).1 }
           budget := budget },
          kept ++ (a.vault.request (.cleanup r.id)).2.1 :: (r.farewell reason ++
            (r.expected.map fun run => .signal (.abort run r.id reason)) ++ breach),
          .error reason) := by
  refine ⟨_, _, rfl, ?_⟩
  unfold complete
  simp only [h]
  rfl

theorem complete_of_ok {c : Coordinator} {r : Round} {now : Int} {a : Archive}
    {kept : List Event} {s : Snapshot}
    (h : finalize c.archive r now = (a, kept, .ok s)) :
    ∃ budget,
      c.complete r now =
        ({ c with
           rounds := (c.rounds.erase r.id).eraseAll
             (overtaken { c with rounds := c.rounds.erase r.id, archive := a } r.id)
           archive := a
           budget := budget },
          kept ++ (r.delivery s.info ++
            (abortRounds { c with rounds := c.rounds.erase r.id, archive := a }
              (fun id => .subsumed id r.id)
              (overtaken { c with rounds := c.rounds.erase r.id, archive := a } r.id)).2 ++
            (r.expected.map fun run => .signal (.complete run r.id))),
          .ok .completes) := by
  obtain ⟨budget, hstate⟩ := abortRounds_state
    { c with rounds := c.rounds.erase r.id, archive := a } (fun id => .subsumed id r.id)
    (overtaken { c with rounds := c.rounds.erase r.id, archive := a } r.id)
  refine ⟨budget.success, ?_⟩
  unfold complete
  simp only [h, hstate, List.append_assoc]
  rfl

/-- Whatever comes of it, completing a round takes that round from the table and perhaps others. -/
theorem complete_state (c : Coordinator) (r : Round) (now : Int) :
    ∃ ids archive budget, (c.complete r now).1 =
      { c with
        rounds := c.rounds.eraseAll (r.id :: ids)
        archive := archive
        budget := budget } := by
  rcases hfinal : finalize c.archive r now with ⟨a, kept, reason | s⟩
  · obtain ⟨budget, breach, -, he⟩ := complete_of_error hfinal
    exact ⟨[], _, budget, by rw [he]; rfl⟩
  · obtain ⟨budget, he⟩ := complete_of_ok hfinal
    exact ⟨_, a, budget, by rw [he]; rfl⟩

theorem acknowledge_cases (c : Coordinator) (id : Nat) (run : TaskRun) (state : Bytes)
    (now : Int) :
    (c.rounds.find? id = none ∧ c.acknowledge id run state now = (c, [], .ok .unknownTask)) ∨
    (∃ r, c.rounds.find? id = some r ∧
      ((∃ r', r.acknowledge run state = (r', .completes) ∧
        c.acknowledge id run state now = c.complete r' now) ∨
      ((r.acknowledge run state).2 ≠ .completes ∧
        c.acknowledge id run state now =
          ({ c with rounds := c.rounds.insert id (r.acknowledge run state).1 }, [],
            .ok (r.acknowledge run state).2)))) := by
  unfold acknowledge
  cases hfind : c.rounds.find? id with
  | none => exact Or.inl ⟨rfl, rfl⟩
  | some r =>
    refine Or.inr ⟨r, rfl, ?_⟩
    dsimp only
    rcases hack : r.acknowledge run state with ⟨r', result⟩
    cases result with
    | completes => exact Or.inl ⟨r', rfl, rfl⟩
    | accepted => exact Or.inr ⟨by simp, rfl⟩
    | alreadyAcknowledged => exact Or.inr ⟨by simp, rfl⟩
    | unknownTask => exact Or.inr ⟨by simp, rfl⟩

/-! ### Restoring, disposing, closing -/

/-- Restoring finds nothing, answers the latest snapshot as it is, or answers it under the policy
of a snapshot that is not claimed. -/
theorem restore_cases (c : Coordinator) (mode : ClaimMode) :
    (c.archive.latest? = none ∧ c.restore mode = (c, .ok none)) ∨
    (∃ latest, c.archive.latest? = some latest ∧
      (((mode = .claim ∨ latest.policy.unclaimed = true) ∧
        c.restore mode =
          ({ c with nextId := max c.nextId (latest.id + 1) }, .ok (some latest))) ∨
      (¬(mode = .claim ∨ latest.policy.unclaimed = true) ∧
        ((∃ s, (c.archive.relabel latest.id .unclaimedSnapshot).2 = some s ∧
          c.restore mode =
            ({ c with
               archive := (c.archive.relabel latest.id .unclaimedSnapshot).1
               nextId := max c.nextId (latest.id + 1) }, .ok (some s))) ∨
        ((c.archive.relabel latest.id .unclaimedSnapshot).2 = none ∧
          c.restore mode =
            ({ c with archive := (c.archive.relabel latest.id .unclaimedSnapshot).1 },
              .error (.notFound latest.id))))))) := by
  unfold restore
  cases hlatest : c.archive.latest? with
  | none => exact Or.inl ⟨rfl, rfl⟩
  | some latest =>
    refine Or.inr ⟨latest, rfl, ?_⟩
    by_cases hclaim : mode = .claim ∨ latest.policy.unclaimed = true
    · exact Or.inl ⟨hclaim, by simp only [hclaim, if_true]⟩
    · refine Or.inr ⟨hclaim, ?_⟩
      rcases hlabel : c.archive.relabel latest.id .unclaimedSnapshot with ⟨a, none | s⟩
      · exact Or.inr ⟨rfl, by simp only [hclaim, hlabel, if_false]⟩
      · exact Or.inl ⟨s, rfl, by simp only [hclaim, hlabel, if_false]⟩

/-- Restoring moves the next id behind that of the latest snapshot, if it is not there already. -/
theorem restore_state (c : Coordinator) (mode : ClaimMode) :
    ∃ archive nextId,
      (nextId = c.nextId ∨ ∃ latest, c.archive.latest? = some latest ∧
        nextId = max c.nextId (latest.id + 1)) ∧
      (c.restore mode).1 = { c with archive := archive, nextId := nextId } := by
  rcases restore_cases c mode with ⟨-, he⟩ | ⟨latest, hlatest, ⟨-, he⟩ | ⟨-, ⟨s, -, he⟩ |
    ⟨-, he⟩⟩⟩
  · exact ⟨c.archive, c.nextId, Or.inl rfl, by rw [he]⟩
  · exact ⟨c.archive, _, Or.inr ⟨latest, hlatest, rfl⟩, by rw [he]⟩
  · exact ⟨_, _, Or.inr ⟨latest, hlatest, rfl⟩, by rw [he]⟩
  · exact ⟨_, c.nextId, Or.inl rfl, by rw [he]⟩

/-- Disposing is refused, fails when the savepoint is unregistered, or asks storage to throw the
savepoint's data away. -/
theorem dispose_cases (c : Coordinator) (id : Nat) :
    (c.archive.retention.find? id = none ∧ c.dispose id = (c, [], .error (.notFound id))) ∨
    (∃ s, c.archive.retention.find? id = some s ∧
      ((s.isSavepoint = false ∧ c.dispose id = (c, [], .error (.notSavepoint id))) ∨
      (s.isSavepoint = true ∧
        ((∃ a e, c.archive.remove id = (a, .error e) ∧
          c.dispose id = ({ c with archive := a }, [], .error e)) ∨
        (∃ a removed vault event failure, c.archive.remove id = (a, .ok removed) ∧
          a.vault.request (.cleanup id) = (vault, event, failure) ∧
          c.dispose id = ({ c with archive := { a with vault := vault } }, [event],
            match failure with
            | none => .ok s
            | some f => .error (.storage f))))))) := by
  unfold dispose
  cases hfind : c.archive.retention.find? id with
  | none => exact Or.inl ⟨rfl, rfl⟩
  | some s =>
    refine Or.inr ⟨s, rfl, ?_⟩
    cases hkind : s.isSavepoint with
    | false => exact Or.inl ⟨rfl, by simp [hkind]⟩
    | true =>
      refine Or.inr ⟨rfl, ?_⟩
      rcases hremove : c.archive.remove id with ⟨a, e | removed⟩
      · exact Or.inl ⟨a, e, rfl, by simp [hkind]⟩
      · rcases hrequest : a.vault.request (.cleanup id) with ⟨vault, event, failure⟩
        refine Or.inr ⟨a, removed, vault, event, failure, rfl, hrequest, ?_⟩
        cases failure <;> simp [hkind, hrequest]

theorem dispose_state (c : Coordinator) (id : Nat) :
    ∃ archive, (c.dispose id).1 = { c with archive := archive } := by
  rcases dispose_cases c id with ⟨-, he⟩ | ⟨s, -, ⟨-, he⟩ | ⟨-, ⟨a, e, -, he⟩ |
    ⟨a, removed, vault, event, failure, -, -, he⟩⟩⟩
  · exact ⟨c.archive, by rw [he]⟩
  · exact ⟨c.archive, by rw [he]⟩
  · exact ⟨a, by rw [he]⟩
  · exact ⟨_, by rw [he]⟩

/-- Closing again does nothing; the first time all rounds are aborted and the archive is closed. -/
theorem close_cases (c : Coordinator) (status : JobStatus) :
    (c.closed = true ∧ c.close status = (c, [], .ok ())) ∨
    (c.closed = false ∧ ∃ budget, c.close status =
      ({ c with
         closed := true
         rounds := c.rounds.eraseAll c.rounds.keys
         budget := budget
         archive := (c.archive.close status).1 },
        (abortRounds { c with closed := true } (fun id => .shutDown id) c.rounds.keys).2 ++
          (c.archive.close status).2.1,
        (c.archive.close status).2.2)) := by
  unfold close
  cases hclosed : c.closed with
  | true => exact Or.inl ⟨rfl, by simp⟩
  | false =>
    obtain ⟨budget, hstate⟩ := abortRounds_state { c with closed := true }
      (fun id => .shutDown id) c.rounds.keys
    exact Or.inr ⟨rfl, budget, by simp [hstate]⟩

/-- A decline is ignored or aborts the round. -/
theorem decline_cases (c : Coordinator) (id : Nat) (run : TaskRun) (reason : String) :
    c.decline id run reason = (c, [], false) ∨
    ((∃ r, c.rounds.find? id = some r ∧ run ∈ r.expected) ∧
      c.decline id run reason = c.abortRound id (.declined id run reason)) := by
  unfold decline
  cases hfind : c.rounds.find? id with
  | none => exact Or.inl rfl
  | some r =>
    by_cases hmem : run ∈ r.expected
    · exact Or.inr ⟨⟨r, rfl, hmem⟩, by simp [Round.expects_iff.2 hmem]⟩
    · exact Or.inl (by simp [Round.expects, hmem])

/-- The ids of the rounds that wait for a run. -/
def waitingFor (c : Coordinator) (run : TaskRun) : List Nat :=
  (c.rounds.entries.filter fun (_, r) => r.awaits run).map (·.1)

theorem mem_waitingFor {c : Coordinator} {run : TaskRun} {id : Nat} :
    id ∈ c.waitingFor run ↔ ∃ r, c.rounds.find? id = some r ∧ r.awaits run = true :=
  Table.mem_keys_filter_iff

theorem register_state (c : Coordinator) (run : TaskRun) (state : TaskState) :
    c.register run state = c ∨
      c.register run state = { c with tasks := c.tasks.insert run.slot (run, state) } := by
  unfold register
  split
  · split
    · exact Or.inl rfl
    · exact Or.inr rfl
  · exact Or.inr rfl

@[simp]
theorem rounds_register (c : Coordinator) (run : TaskRun) (state : TaskState) :
    (c.register run state).rounds = c.rounds := by
  rcases register_state c run state with he | he <;> rw [he]

@[simp]
theorem archive_register (c : Coordinator) (run : TaskRun) (state : TaskState) :
    (c.register run state).archive = c.archive := by
  rcases register_state c run state with he | he <;> rw [he]

/-- Beside the task map, an update changes something only if the run is not running: then the
rounds that wait for it are aborted. -/
theorem update_cases (c : Coordinator) (run : TaskRun) (state : TaskState) :
    (state.isRunning = true ∧ c.update run state = (c.register run state, [])) ∨
    (state.isRunning = false ∧ c.update run state =
      (c.register run state).abortRounds (fun id => .unreachable id run) (c.waitingFor run)) := by
  have hrounds := rounds_register c run state
  unfold update
  cases hrun : state.isRunning with
  | true => exact Or.inl ⟨rfl, rfl⟩
  | false => exact Or.inr ⟨rfl, by simp only [hrounds, waitingFor]; rfl⟩

theorem update_state (c : Coordinator) (run : TaskRun) (state : TaskState) :
    ∃ ids budget, (c.update run state).1 =
      { c.register run state with rounds := c.rounds.eraseAll ids, budget := budget } := by
  have hregister := rounds_register c run state
  rcases update_cases c run state with ⟨-, he⟩ | ⟨-, he⟩
  · exact ⟨[], (c.register run state).budget, by rw [he, ← hregister]; rfl⟩
  · obtain ⟨budget, hstate⟩ := abortRounds_state (c.register run state)
      (fun id => .unreachable id run) (c.waitingFor run)
    exact ⟨c.waitingFor run, budget, by rw [he, hstate, hregister]⟩

/-! ### Requests -/

/-- Which operation performs a request, and what becomes of its answer. -/
inductive Performs (c : Coordinator) : Request → Coordinator → List Event → Reply → Prop
  | register (run : TaskRun) (state : TaskState) :
      Performs c (.register run state) (c.register run state) [] .done
  | trigger {policy : SnapshotPolicy} {now : Int} {c' : Coordinator} {events : List Event}
      {answer : Except SnapshotError Nat} (h : c.trigger policy now = .ok (c', events, answer)) :
      Performs c (.trigger policy now) c' events (.triggered answer)
  | acknowledge {id : Nat} {run : TaskRun} {state : Bytes} {now : Int} {c' : Coordinator}
      {events : List Event} {result : Except SnapshotError AckResult}
      (h : c.acknowledge id run state now = (c', events, result)) :
      Performs c (.acknowledge id run state now) c' events (.acknowledged result)
  | decline {id : Nat} {run : TaskRun} {reason : String} {c' : Coordinator} {events : List Event}
      {any : Bool} (h : c.decline id run reason = (c', events, any)) :
      Performs c (.decline id run reason) c' events (.aborted any)
  | update {run : TaskRun} {state : TaskState} {c' : Coordinator} {events : List Event}
      (h : c.update run state = (c', events)) :
      Performs c (.update run state) c' events .done
  | expire {id : Nat} {c' : Coordinator} {events : List Event} {any : Bool}
      (h : c.abortRound id (.expired id) = (c', events, any)) :
      Performs c (.expire id) c' events (.aborted any)
  | restore {mode : ClaimMode} {c' : Coordinator}
      {result : Except SnapshotError (Option Snapshot)} (h : c.restore mode = (c', result)) :
      Performs c (.restore mode) c' [] (.restored result)
  | dispose {id : Nat} {c' : Coordinator} {events : List Event}
      {result : Except SnapshotError Snapshot} (h : c.dispose id = (c', events, result)) :
      Performs c (.dispose id) c' events (.disposed result)
  | close {status : JobStatus} {c' : Coordinator} {events : List Event}
      {result : Except SnapshotError Unit} (h : c.close status = (c', events, result)) :
      Performs c (.close status) c' events (.closed result)

theorem Performs.of_step {c c' : Coordinator} {request : Request} {events : List Event}
    {reply : Reply} (h : c.step request = .ok (c', events, reply)) :
    Performs c request c' events reply := by
  cases request with
  | register run state => cases h; exact .register run state
  | trigger policy now =>
    dsimp only [step] at h
    rcases htrigger : c.trigger policy now with overflow | ⟨d, evs, answer⟩
    · rw [htrigger] at h; cases h
    · rw [htrigger] at h; cases h; exact .trigger htrigger
  | acknowledge id run state now => cases h; exact .acknowledge rfl
  | decline id run reason => cases h; exact .decline rfl
  | update run state => cases h; exact .update rfl
  | expire id => cases h; exact .expire rfl
  | restore mode => cases h; exact .restore rfl
  | dispose id => cases h; exact .dispose rfl
  | close status => cases h; exact .close rfl

end Coordinator
end Checkpointing
