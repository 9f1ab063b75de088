import Mathlib.Tactic
import Checkpointing.Proofs.Coordinator.Settlement

/-!
# Reports of tasks

The coordinator knows of the tasks what it was told: every report names one run of one subtask and
the state that this run is in.

* `lastReport?` reads the latest report on exactly one run off a history;
* `tasks_of_report` and `tasks_of_quiet` say what a step does to the task map, `find?_rounds_update`
  and `newsOf_update` what a run that is not running does to the rounds;
* `Attested` ties the task map and the runs that rounds wait for to the reports; it is kept by every
  step, as long as tasks are not registered behind the back of the rounds;
* `AwaitsCurrent` says that only current runs are waited for, which a step keeps if the run before
  has stopped;
* `awaited_is_running`: no round waits for a run that has left the running state;
* `awaited_until_overtaken`: a round may wait for a run that is no longer the current one of its
  subtask, exactly if a newer run was reported after the trigger and nobody reported the older one
  to have stopped.
-/

namespace Checkpointing

/-- The run that a request reports on, with the state it is in. -/
def Request.report? : Request → Option (TaskRun × TaskState)
  | .register run state | .update run state => some (run, state)
  | _ => none

/-- Whether a request registers a task. -/
def Request.isRegister : Request → Bool
  | .register _ _ => true
  | _ => false

/-- Whether a checkpoint was triggered. -/
def Reply.isTriggered : Reply → Bool
  | .triggered (.ok _) => true
  | _ => false

theorem Request.report?_eq_some {request : Request} {run : TaskRun} {state : TaskState} :
    request.report? = some (run, state) ↔
      request = .register run state ∨ request = .update run state := by
  cases request <;> simp [report?]

/-- The latest report on exactly this run, whatever was reported on other runs. -/
def lastReport? : List Moment → TaskRun → Option TaskState
  | [], _ => none
  | m :: later, run => (lastReport? later run).or
      (m.request.report?.bind fun report => if report.1 = run then some report.2 else none)

/-- Tasks are registered before the first checkpoint is triggered.  From then on all that is heard
of them are updates. -/
def RegistersFirst (history : List Moment) : Prop :=
  history.Pairwise fun earlier later =>
    earlier.reply.isTriggered = true → later.request.isRegister = false

instance (history : List Moment) : Decidable (RegistersFirst history) :=
  inferInstanceAs (Decidable (history.Pairwise fun earlier later =>
    earlier.reply.isTriggered = true → later.request.isRegister = false))

/-- In this moment a newer run of the same subtask is reported. -/
def Moment.Overtakes (m : Moment) (run : TaskRun) : Prop :=
  ∃ newer state, m.request.report? = some (newer, state) ∧ newer.slot = run.slot ∧
    run.attempt < newer.attempt

/-- No newer run of a subtask is reported while the one before it counts as running. -/
def StopsFirst (history : List Moment) : Prop :=
  ∀ m ∈ history, ∀ report ∈ m.request.report?, ∀ current ∈ m.before.tasks.find? report.1.slot,
    current.2 = .running → report.1.attempt ≤ current.1.attempt

instance (history : List Moment) : Decidable (StopsFirst history) :=
  inferInstanceAs (Decidable (∀ m ∈ history, ∀ report ∈ m.request.report?,
    ∀ current ∈ m.before.tasks.find? report.1.slot,
      current.2 = .running → report.1.attempt ≤ current.1.attempt))

/-! ### Histories of reports -/

theorem lastReport?_append (past : List Moment) (m : Moment) (run : TaskRun) :
    lastReport? (past ++ [m]) run = (lastReport? [m] run).or (lastReport? past run) := by
  induction past with
  | nil => simp [lastReport?]
  | cons first past ih => simp [lastReport?, ih, Option.or_assoc]

section

variable {past : List Moment} {m : Moment} {run : TaskRun}

theorem lastReport?_of_quiet (hquiet : m.request.report? = none) :
    lastReport? (past ++ [m]) run = lastReport? past run := by
  simp [lastReport?_append, lastReport?, hquiet]

theorem lastReport?_of_report {reported : TaskRun} {state : TaskState}
    (hreport : m.request.report? = some (reported, state)) :
    lastReport? (past ++ [m]) run =
      if reported = run then some state else lastReport? past run := by
  rw [lastReport?_append]
  by_cases heq : reported = run <;> simp [lastReport?, hreport, heq]

theorem Moment.overtakes_iff {reported : TaskRun} {state : TaskState}
    (hreport : m.request.report? = some (reported, state)) :
    m.Overtakes run ↔ reported.slot = run.slot ∧ run.attempt < reported.attempt := by
  simp [Overtakes, hreport]

theorem Moment.not_overtakes_of_quiet (hquiet : m.request.report? = none) : ¬m.Overtakes run := by
  simp [Overtakes, hquiet]

end

/-- Two runs of one subtask are the same if it is the same attempt. -/
theorem TaskRun.eq_iff_of_slot_eq {run other : TaskRun} (h : run.slot = other.slot) :
    run = other ↔ run.attempt = other.attempt := by
  obtain ⟨v, s, i⟩ := run
  obtain ⟨w, t, j⟩ := other
  simp_all [slot]

namespace Coordinator

variable {c c' : Coordinator} {request : Request} {events : List Event} {reply : Reply}

/-! ### The task map -/

/-- A report on an older run than the current one is ignored, any other is noted. -/
theorem register_cases (c : Coordinator) (run : TaskRun) (state : TaskState) :
    (∃ current s, c.tasks.find? run.slot = some (current, s) ∧ run.attempt < current.attempt ∧
      c.register run state = c) ∨
    ((∀ current s, c.tasks.find? run.slot = some (current, s) → current.attempt ≤ run.attempt) ∧
      c.register run state = { c with tasks := c.tasks.insert run.slot (run, state) }) := by
  unfold register
  cases hfind : c.tasks.find? run.slot with
  | none => exact Or.inr ⟨by simp, rfl⟩
  | some entry =>
    obtain ⟨current, s⟩ := entry
    by_cases hlt : run.attempt < current.attempt
    · exact Or.inl ⟨current, s, rfl, hlt, by simp [hlt]⟩
    · refine Or.inr ⟨fun current' s' h => ?_, by simp [hlt]⟩
      cases h
      omega

/-- A step without a report leaves the task map alone. -/
theorem tasks_of_quiet (hc : c.Orderly) (h : c.step request = .ok (c', events, reply))
    (hquiet : request.report? = none) : c'.tasks = c.tasks := by
  rcases tasks_step hc h with he | ⟨run, state, rfl | rfl, -⟩
  · exact he
  · cases hquiet
  · cases hquiet

/-- A report is noted, whether it is a registration or an update. -/
theorem tasks_of_report (h : c.step request = .ok (c', events, reply)) {run : TaskRun}
    {state : TaskState} (hreport : request.report? = some (run, state)) :
    c'.tasks = (c.register run state).tasks := by
  cases Performs.of_step h with
  | register run state =>
    cases hreport
    rfl
  | update hupdate =>
    cases hreport
    obtain ⟨ids, budget, hstate⟩ := update_state c run state
    rw [hupdate] at hstate
    obtain rfl : c' = _ := hstate
    rfl
  | trigger | acknowledge | decline | expire | restore | dispose | close => cases hreport

/-- All tasks are running where nothing stands in the way of a trigger. -/
theorem running_of_obstacle {policy : SnapshotPolicy} {now : Int}
    (h : c.obstacle policy now = .ok none) {slot : Slot} {run : TaskRun} {state : TaskState}
    (hfind : c.tasks.find? slot = some (run, state)) : state = .running := by
  have hmem : (run, state) ∈ c.tasks.values := Table.mem_values_iff.2 ⟨slot, hfind⟩
  unfold obstacle at h
  split_ifs at h with hclosed hnone hstopped
  · cases h
  · cases h
  · cases h
  all_goals
    rw [Bool.not_eq_true', Bool.not_eq_false] at hstopped
    exact TaskState.isRunning_iff.1 (List.all_eq_true.1 hstopped _ hmem)

/-- All tasks are running when a checkpoint is triggered. -/
theorem running_of_triggered {policy : SnapshotPolicy} {now : Int} {id : Nat}
    (h : c.step (.trigger policy now) = .ok (c', events, .triggered (.ok id))) {slot : Slot}
    {run : TaskRun} {state : TaskState} (hfind : c.tasks.find? slot = some (run, state)) :
    state = .running := by
  cases Performs.of_step h with
  | trigger htrigger =>
    rcases trigger_cases htrigger with ⟨reason, -, -, -, hanswer⟩ | ⟨hobs, -⟩
    · cases hanswer
    · exact running_of_obstacle hobs hfind

/-! ### Updates -/

/-- When a run is not running, the rounds that wait for it go and the others stay as they are. -/
theorem find?_rounds_update {run : TaskRun} {state : TaskState} (hstate : state ≠ .running)
    {id : Nat} {r : Round} :
    (c.update run state).1.rounds.find? id = some r ↔
      c.rounds.find? id = some r ∧ r.awaits run = false := by
  obtain ⟨hrun, -⟩ | ⟨-, he⟩ := update_cases c run state
  · exact absurd (TaskState.isRunning_iff.1 hrun) hstate
  · obtain ⟨budget, hrounds⟩ := abortRounds_state (c.register run state)
      (fun id => .unreachable id run) (c.waitingFor run)
    rw [he, hrounds, rounds_register, Table.find?_eraseAll]
    by_cases hmem : id ∈ c.waitingFor run
    · obtain ⟨r', hfind, hawaits⟩ := mem_waitingFor.1 hmem
      simp only [if_pos hmem, hfind, Option.some.injEq, reduceCtorEq, false_iff, not_and,
        Bool.not_eq_false]
      rintro rfl
      exact hawaits
    · rw [if_neg hmem, iff_self_and]
      intro hfind
      by_contra hawaits
      exact hmem (mem_waitingFor.2 ⟨r, hfind, by simpa using hawaits⟩)

/-- When a run is not running, everybody who waits for the outcome of a round that waits for it
hears that it is unreachable, and nothing is heard of any other round. -/
theorem newsOf_update (hc : c.Orderly) {run : TaskRun} {state : TaskState}
    (hstate : state ≠ .running) (id : Nat) :
    newsOf id (c.update run state).2 =
      if id ∈ c.waitingFor run then verdict id (.error (.unreachable id run)) else [] := by
  obtain ⟨hrun, -⟩ | ⟨-, he⟩ := update_cases c run state
  · exact absurd (TaskState.isRunning_iff.1 hrun) hstate
  · have hrounds := rounds_register c run state
    obtain ⟨hnodup, hin⟩ := nodup_keys_filter c.rounds fun entry => entry.2.awaits run
    have hended := ended_abortRounds (c := c.register run state) (fun id => .unreachable id run)
      (c.waitingFor run) (by rw [hrounds]; exact hc.underWay) hnodup (by rw [hrounds]; exact hin)
    rw [he]
    split
    · next hmem => exact hended.newsOf_eq_verdict (List.mem_map_of_mem hmem)
    · next hmem => exact hended.newsOf_eq_nil (by simpa using hmem)

/-! ### Who is waited for -/

/-- A round that waits for a run after a step was triggered in it, while the run was current and
running, or has waited for it before; then the run was not reported to have stopped. -/
theorem awaits_step (hc : c.Orderly) (h : c.step request = .ok (c', events, reply)) {id : Nat}
    {r' : Round} {run : TaskRun} (hr' : c'.rounds.find? id = some r')
    (hawaits : r'.awaits run = true) :
    (request.report? = none ∧ c.tasks.find? run.slot = some (run, .running)) ∨
    (∃ r, c.rounds.find? id = some r ∧ r.awaits run = true ∧
      ∀ state, request = .update run state → state = .running) := by
  rcases find?_rounds_step hc h hr' with ⟨policy, now, rfl, rfl, -, -, -, rfl⟩ |
    ⟨r, hfind, ⟨run', state, now, rfl, -, rfl⟩ | ⟨-, rfl⟩⟩
  · obtain ⟨state, hfind⟩ := hc.mem_runs_iff.1 (Round.awaits_start.1 hawaits)
    obtain rfl := running_of_triggered h hfind
    exact Or.inl ⟨rfl, hfind⟩
  · exact Or.inr ⟨r, hfind, Round.awaits_of_acknowledge hawaits, by simp⟩
  · refine Or.inr ⟨r', hfind, hawaits, ?_⟩
    rintro state rfl
    by_contra hstate
    obtain rfl : (c.update run state).1 = c' := by
      cases h
      rfl
    have hnot := ((find?_rounds_update hstate).1 hr').2
    rw [hawaits] at hnot
    cases hnot

/-- The task map knows the latest report on every current run, and rounds wait only for runs whose
latest report is that they are running. -/
structure Attested (past : List Moment) (c : Coordinator) : Prop where
  current : ∀ {slot : Slot} {run : TaskRun} {state : TaskState},
    c.tasks.find? slot = some (run, state) → lastReport? past run = some state
  awaited : ∀ {id : Nat} {r : Round} {run : TaskRun},
    c.rounds.find? id = some r → r.awaits run = true → lastReport? past run = some .running

section

variable {past : List Moment} {m : Moment}

/-- What is reported on the current runs is noted; what is reported on others is not about them. -/
theorem current_of_report
    (h : m.before.step m.request = .ok (m.after, m.events, m.reply))
    (hreport : m.request.report?.isSome = true)
    (hcurrent : ∀ {slot : Slot} {run : TaskRun} {state : TaskState},
      m.before.tasks.find? slot = some (run, state) →
        run.slot = slot ∧ lastReport? past run = some state)
    {slot : Slot} {run : TaskRun} {state : TaskState}
    (hfind : m.after.tasks.find? slot = some (run, state)) :
    run.slot = slot ∧ lastReport? (past ++ [m]) run = some state := by
  obtain ⟨⟨reported, state'⟩, hreport⟩ := Option.isSome_iff_exists.1 hreport
  rw [tasks_of_report h hreport] at hfind
  rw [lastReport?_of_report hreport]
  rcases register_cases m.before reported state' with
    ⟨newest, s, hnewest, hlt, he⟩ | ⟨-, he⟩ <;> rw [he] at hfind
  · obtain ⟨hslot, hlast⟩ := hcurrent hfind
    have hne : reported ≠ run := by
      rintro rfl
      rw [hslot, hfind] at hnewest
      cases hnewest
      exact lt_irrefl _ hlt
    rw [if_neg hne]
    exact ⟨hslot, hlast⟩
  · rw [Table.find?_insert] at hfind
    split at hfind
    · next hslot =>
      cases hfind
      exact ⟨hslot.symm, if_pos rfl⟩
    · next hother =>
      obtain ⟨hslot, hlast⟩ := hcurrent hfind
      rw [if_neg fun heq => hother (by rw [heq, hslot])]
      exact ⟨hslot, hlast⟩

theorem Attested.current_step (hc : m.before.Orderly)
    (h : m.before.step m.request = .ok (m.after, m.events, m.reply))
    (hattested : Attested past m.before) {slot : Slot} {run : TaskRun} {state : TaskState}
    (hfind : m.after.tasks.find? slot = some (run, state)) :
    lastReport? (past ++ [m]) run = some state := by
  cases hreport : m.request.report? with
  | none =>
    rw [tasks_of_quiet hc h hreport] at hfind
    rw [lastReport?_of_quiet hreport]
    exact hattested.current hfind
  | some report =>
    have hsome : m.request.report?.isSome = true := by rw [hreport]; rfl
    exact (current_of_report h hsome
      (fun hold => ⟨hc.seated hold, hattested.current hold⟩) hfind).2

theorem Attested.step (hc : m.before.Orderly)
    (h : m.before.step m.request = .ok (m.after, m.events, m.reply))
    (hfirst : m.request.isRegister = true → ∀ id, m.before.rounds.contains id = false)
    (hattested : Attested past m.before) : Attested (past ++ [m]) m.after where
  current := hattested.current_step hc h
  awaited := fun {id r' run} hr' hawaits => by
    rcases awaits_step hc h hr' hawaits with ⟨hquiet, hfind⟩ | ⟨r, hfind, hold, hupdate⟩
    · rw [lastReport?_of_quiet hquiet]
      exact hattested.current hfind
    · have hrunning := hattested.awaited hfind hold
      cases hreport : m.request.report? with
      | none => rwa [lastReport?_of_quiet hreport]
      | some report =>
        obtain ⟨reported, state⟩ := report
        rw [lastReport?_of_report hreport]
        split
        · next heq =>
          subst heq
          rcases Request.report?_eq_some.1 hreport with hreq | hreq
          · have hnone := hfirst (by rw [hreq]; rfl) id
            exact absurd rfl (Table.ne_of_contains_eq_false hnone hfind)
          · rw [hupdate state hreq]
        · exact hrunning

end

variable {outside : Vault → Vault → Prop} {start : Coordinator} {past future history : List Moment}

/-- There are no rounds before a checkpoint is triggered. -/
theorem no_rounds_of_run (h : Run outside start past c) (hstart : start.Orderly)
    (hempty : start.rounds = ∅) (hnone : ∀ m ∈ past, m.reply.isTriggered = false) (id : Nat) :
    c.rounds.contains id = false := by
  by_contra hin
  obtain ⟨r, hfind⟩ := Table.contains_iff.1 (by simpa using hin)
  obtain ⟨⟨trigger, hmem, hopens⟩, -⟩ := (traced_of_run h hstart hempty).1 hfind
  have htriggered := hnone trigger hmem
  rw [hopens.reply] at htriggered
  cases htriggered

/-- Where tasks are registered first, they are registered while there are no rounds. -/
theorem no_rounds_of_registersFirst (h : Run outside start past c) (hstart : start.Orderly)
    (hempty : start.rounds = ∅) {m : Moment} (hfirst : RegistersFirst (past ++ [m]))
    (hregister : m.request.isRegister = true) (id : Nat) : c.rounds.contains id = false := by
  refine no_rounds_of_run h hstart hempty (fun earlier hmem => ?_) id
  have hlast := (List.pairwise_append.1 hfirst).2.2 earlier hmem m List.mem_cons_self
  by_contra htriggered
  rw [hlast (by simpa using htriggered)] at hregister
  cases hregister

theorem attested_of_run (h : Run outside start past c) (hstart : start.Orderly)
    (hempty : start.rounds = ∅) (htasks : start.tasks = ∅) (hfirst : RegistersFirst past) :
    Attested past c := by
  induction h with
  | nil => exact ⟨by simp [htasks], by simp [hempty]⟩
  | @snoc past c c' vault request events reply run change step ih =>
    have horderly := (Orderly.of_run run hstart).1.withVault vault
    obtain ⟨hcurrent, hawaited⟩ := ih (List.pairwise_append.1 hfirst).1
    exact Attested.step (m := ⟨c.withVault vault, request, events, reply, c'⟩) horderly step
      (no_rounds_of_registersFirst run hstart hempty hfirst) ⟨hcurrent, hawaited⟩

/-! ### Which run is current -/

/-- A run stays the current one of its subtask until a newer one is reported, and it never is again
afterwards. -/
theorem current_step {m : Moment} (hc : m.before.Orderly)
    (h : m.before.step m.request = .ok (m.after, m.events, m.reply)) {run current : TaskRun}
    {state : TaskState} (hfind : m.before.tasks.find? run.slot = some (current, state))
    (hle : run.attempt ≤ current.attempt) :
    ∃ current' state', m.after.tasks.find? run.slot = some (current', state') ∧
      run.attempt ≤ current'.attempt ∧ (current' = run ↔ current = run ∧ ¬m.Overtakes run) := by
  cases hreport : m.request.report? with
  | none =>
    refine ⟨current, state, by rwa [tasks_of_quiet hc h hreport], hle, ?_⟩
    exact (and_iff_left (Moment.not_overtakes_of_quiet hreport)).symm
  | some report =>
    obtain ⟨reported, state'⟩ := report
    rw [tasks_of_report h hreport, Moment.overtakes_iff hreport,
      TaskRun.eq_iff_of_slot_eq (hc.seated hfind)]
    rcases register_cases m.before reported state' with ⟨newest, s, hnewest, hlt, he⟩ |
      ⟨hnewest, he⟩ <;> rw [he]
    · refine ⟨current, state, hfind, hle, ?_⟩
      rw [TaskRun.eq_iff_of_slot_eq (hc.seated hfind), iff_self_and]
      rintro hsame ⟨hslot, hnewer⟩
      rw [hslot, hfind] at hnewest
      cases hnewest
      omega
    · by_cases hslot : run.slot = reported.slot
      · have holder := hnewest current state (hslot ▸ hfind)
        refine ⟨reported, state', by rw [hslot, Table.find?_insert_self], hle.trans holder, ?_⟩
        rw [TaskRun.eq_iff_of_slot_eq hslot.symm, and_iff_right hslot.symm]
        omega
      · refine ⟨current, state, by rwa [Table.find?_insert_of_ne _ _ hslot], hle, ?_⟩
        rw [TaskRun.eq_iff_of_slot_eq (hc.seated hfind), iff_self_and]
        exact fun _ hover => hslot hover.1.symm

theorem current_of_run (h : Run outside start future c) (hstart : start.Orderly) {run : TaskRun}
    {state : TaskState} (hfind : start.tasks.find? run.slot = some (run, state)) :
    ∃ current state', c.tasks.find? run.slot = some (current, state') ∧
      run.attempt ≤ current.attempt ∧ (current = run ↔ ∀ m ∈ future, ¬m.Overtakes run) := by
  induction h with
  | nil => exact ⟨run, state, hfind, le_rfl, by simp⟩
  | @snoc future c c' vault request events reply hrun change step ih =>
    obtain ⟨current, s, hcurrent, hle, hiff⟩ := ih
    have horderly := (Orderly.of_run hrun hstart).1.withVault vault
    obtain ⟨current', s', hafter, hle', hiff'⟩ :=
      current_step (m := ⟨c.withVault vault, request, events, reply, c'⟩) horderly step hcurrent hle
    refine ⟨current', s', hafter, hle', ?_⟩
    rw [hiff', hiff]
    simp [or_imp, forall_and]

/-- Rounds wait only for runs that are current and running. -/
def AwaitsCurrent (c : Coordinator) : Prop :=
  ∀ id r run, c.rounds.find? id = some r → r.awaits run = true →
    c.tasks.find? run.slot = some (run, .running)

/-- No round waits for an older run if none was waited for, and if no newer run is reported while
the one before it counts as running. -/
theorem AwaitsCurrent.step {m : Moment} (hc : m.before.Orderly)
    (h : m.before.step m.request = .ok (m.after, m.events, m.reply))
    (hfirst : m.request.isRegister = true → ∀ id, m.before.rounds.contains id = false)
    (hstops : ∀ report ∈ m.request.report?, ∀ current ∈ m.before.tasks.find? report.1.slot,
      current.2 = .running → report.1.attempt ≤ current.1.attempt)
    (hcurrent : m.before.AwaitsCurrent) : m.after.AwaitsCurrent := by
  intro id r' run hr' hawaits
  rcases awaits_step hc h hr' hawaits with ⟨hquiet, hrunning⟩ | ⟨r, hfind, hold, hupdate⟩
  · rwa [tasks_of_quiet hc h hquiet]
  · have hbefore := hcurrent id r run hfind hold
    cases hreport : m.request.report? with
    | none => rwa [tasks_of_quiet hc h hreport]
    | some report =>
      obtain ⟨reported, state⟩ := report
      rw [tasks_of_report h hreport]
      rcases register_cases m.before reported state with
        ⟨-, -, -, -, he⟩ | ⟨hnewest, he⟩ <;> rw [he]
      · exact hbefore
      · by_cases hslot : run.slot = reported.slot
        · -- The report is on a run that is neither newer nor older than the one waited for.
          have hle : reported.attempt ≤ run.attempt :=
            hstops (reported, state) hreport (run, .running) (hslot ▸ hbefore) rfl
          have hge := hnewest run .running (hslot ▸ hbefore)
          obtain rfl := (TaskRun.eq_iff_of_slot_eq hslot).2 (le_antisymm hge hle)
          rcases Request.report?_eq_some.1 hreport with hreq | hreq
          · have hnone := hfirst (by rw [hreq]; rfl) id
            exact absurd rfl (Table.ne_of_contains_eq_false hnone hfind)
          · rw [hupdate state hreq, Table.find?_insert_self]
        · rwa [Table.find?_insert_of_ne _ _ hslot]

/-- Where every run is reported to have stopped before a newer one of its subtask is reported, the
rounds wait only for current runs, and these are running. -/
theorem awaitsCurrent_of_run (h : Run outside start past c) (hstart : start.Orderly)
    (hempty : start.rounds = ∅) (hfirst : RegistersFirst past) (hstops : StopsFirst past) :
    c.AwaitsCurrent := by
  induction h with
  | nil =>
    intro id r run hfind
    simp [hempty] at hfind
  | @snoc past c c' vault request events reply hrun change step ih =>
    have horderly := (Orderly.of_run hrun hstart).1.withVault vault
    have hbefore := ih (List.pairwise_append.1 hfirst).1 fun m hm =>
      hstops m (List.mem_append_left _ hm)
    exact AwaitsCurrent.step (m := ⟨c.withVault vault, request, events, reply, c'⟩) horderly step
      (no_rounds_of_registersFirst hrun hstart hempty hfirst)
      (hstops _ (List.mem_append_right _ List.mem_cons_self)) hbefore

end Coordinator

variable {settings : Settings} {archive : Archive} {hasHandler : Bool}
  {outside : Vault → Vault → Prop} {start c : Coordinator} {history : List Moment}

/-- Where tasks are registered before the first checkpoint, no round ever waits for a run that has
left the running state: the latest report on exactly that run is that it is running.  A report that
a run is not running aborts the rounds that wait for it, as everybody hears who waits for their
outcome; nothing is heard of the others, which stay as they are. -/
theorem awaited_is_running (hopen : Coordinator.open? settings archive hasHandler = .ok start)
    (hrun : Run outside start history c) (hfirst : RegistersFirst history) :
    (∀ id r run, c.rounds.find? id = some r → r.awaits run = true →
      lastReport? history run = some .running) ∧
    ∀ vault run state, state ≠ .running → ∃ c' events,
      (c.withVault vault).step (.update run state) = .ok (c', events, .done) ∧
      (∀ id r, c'.rounds.find? id = some r ↔
        c.rounds.find? id = some r ∧ r.awaits run = false) ∧
      (∀ id r, c.rounds.find? id = some r → r.awaits run = true →
        newsOf id events = verdict id (.error (.unreachable id run))) ∧
      ∀ id, (∀ r, c.rounds.find? id = some r → r.awaits run = false) → newsOf id events = [] := by
  obtain ⟨-, -, hempty, htasks⟩ := Coordinator.eq_of_open hopen
  have hstart := Coordinator.orderly_of_open hopen
  refine ⟨fun id r run hfind hawaits => ?_, fun vault run state hstate => ?_⟩
  · exact (Coordinator.attested_of_run hrun hstart hempty htasks hfirst).awaited hfind hawaits
  · have hc : (c.withVault vault).Orderly := (Coordinator.Orderly.of_run hrun hstart).1.withVault _
    have hnews : ∀ id, newsOf id ((c.withVault vault).update run state).2 =
        if id ∈ (c.withVault vault).waitingFor run then verdict id (.error (.unreachable id run))
        else [] :=
      Coordinator.newsOf_update hc hstate
    refine ⟨((c.withVault vault).update run state).1, ((c.withVault vault).update run state).2, rfl,
      fun id r => Coordinator.find?_rounds_update hstate, ?_, ?_⟩
    · intro id r hfind hawaits
      have hmem : id ∈ (c.withVault vault).waitingFor run :=
        Coordinator.mem_waitingFor.2 ⟨r, hfind, hawaits⟩
      rw [hnews, if_pos hmem]
    · intro id hnone
      rw [hnews, if_neg fun hmem => ?_]
      obtain ⟨r, hfind, hawaits⟩ := Coordinator.mem_waitingFor.1 hmem
      rw [hnone r hfind] at hawaits
      cases hawaits

/-- A task fails after its acknowledgment and is restarted; a second checkpoint is triggered, and
then the first run is reported once more. -/
def staleReports : List Request :=
  [.register ⟨1, 0, 0⟩ .running, .register ⟨2, 0, 0⟩ .running,
    .trigger (.ofRetention .onFailure) 10, .acknowledge 1 ⟨1, 0, 0⟩ [7] 20,
    .update ⟨1, 0, 0⟩ .failed, .update ⟨1, 0, 1⟩ .running,
    .trigger (.savepoint true .canonical) 30, .update ⟨1, 0, 0⟩ .canceled]

/-- The second run fails as well: this aborts the second checkpoint and leaves the first one. -/
theorem awaited_is_running_after_stale_reports : ∃ start history c c' events,
    Coordinator.open? .default ⟨.of (.memory ∅) .none, .empty 1⟩ false = .ok start ∧
    start.perform staleReports = (history, c) ∧ RegistersFirst history ∧
    lastReport? history ⟨1, 0, 0⟩ = some .canceled ∧
    lastReport? history ⟨1, 0, 1⟩ = some .running ∧
    c.step (.update ⟨1, 0, 1⟩ .failed) = .ok (c', events, .done) ∧
    (∃ r, c'.rounds.find? 1 = some r ∧ r.acked.find? ⟨1, 0, 0⟩ = some [7]) ∧
    newsOf 1 events = [] ∧ c'.rounds.contains 2 = false ∧
    newsOf 2 events = verdict 2 (.error (.unreachable 2 ⟨1, 0, 1⟩)) := by
  obtain ⟨start, history, c, r, s, hopen, hperform, hfirst, hstale, hfind, hacked, hdone,
      hforced, howes⟩ : ∃ start history c r s,
        Coordinator.open? .default ⟨.of (.memory ∅) .none, .empty 1⟩ false = .ok start ∧
        start.perform staleReports = (history, c) ∧ RegistersFirst history ∧
        lastReport? history ⟨1, 0, 0⟩ = some .canceled ∧
        c.rounds.find? 1 = some r ∧ r.acked.find? ⟨1, 0, 0⟩ = some [7] ∧
        r.awaits ⟨1, 0, 1⟩ = false ∧
        c.rounds.find? 2 = some s ∧ s.awaits ⟨1, 0, 1⟩ = true :=
    ⟨_, _, _, _, _, rfl, rfl, by decide +kernel, rfl, rfl, rfl, rfl, rfl, rfl⟩
  have hrun : Run Eq start _ _ := Run.of_perform (fun _ => rfl) start staleReports
  rw [hperform] at hrun
  obtain ⟨hrunning, hupdate⟩ := awaited_is_running hopen hrun hfirst
  obtain ⟨c', events, hstep, hrounds, haborted, hquiet⟩ :=
    hupdate c.archive.vault ⟨1, 0, 1⟩ .failed (by simp)
  refine ⟨start, history, c, c', events, hopen, hperform, hfirst, hstale,
    hrunning 2 s _ hforced howes, hstep, ⟨r, (hrounds 1 r).2 ⟨hfind, hdone⟩, hacked⟩,
    hquiet 1 ?_, ?_, haborted 2 s hforced howes⟩
  · intro r' hfind'
    cases hfind.symm.trans hfind'
    exact hdone
  · by_contra hin
    obtain ⟨s', hfind'⟩ := Table.contains_iff.1 (by simpa using hin)
    obtain ⟨hold, hnot⟩ := (hrounds 2 s').1 hfind'
    cases hforced.symm.trans hold
    rw [howes] at hnot
    cases hnot

/-- A run for which a round waits was current and running at the trigger of that round, and it is
current still unless a newer run of its subtask was reported since then.  If every run is reported
to have stopped before a newer one is reported, the rounds wait for current runs only. -/
theorem awaited_until_overtaken
    (hopen : Coordinator.open? settings archive hasHandler = .ok start)
    (hrun : Run outside start history c) :
    (∀ id r run, c.rounds.find? id = some r → r.awaits run = true →
      ∃ past trigger future, history = past ++ trigger :: future ∧
        trigger.reply = .triggered (.ok id) ∧
        trigger.before.tasks.find? run.slot = some (run, .running) ∧
        ∃ current state, c.tasks.find? run.slot = some (current, state) ∧
          run.attempt ≤ current.attempt ∧
          (current = run ↔ ∀ m ∈ future, ¬m.Overtakes run)) ∧
    (RegistersFirst history → StopsFirst history →
      ∀ id r run, c.rounds.find? id = some r → r.awaits run = true →
        c.tasks.find? run.slot = some (run, .running)) := by
  obtain ⟨-, -, hempty, htasks⟩ := Coordinator.eq_of_open hopen
  have hstart := Coordinator.orderly_of_open hopen
  refine ⟨fun id r run hfind hawaits => ?_,
    Coordinator.awaitsCurrent_of_run hrun hstart hempty⟩
  obtain ⟨⟨trigger, hmem, hopens⟩, -⟩ := (traced_of_run hrun hstart hempty).1 hfind
  obtain ⟨past, future, rfl⟩ := List.append_of_mem hmem
  obtain ⟨d, vault, hpast, -, hbefore, hstep, hfuture⟩ := hrun.moment
  have horderly : trigger.before.Orderly := by
    rw [hbefore]
    exact (Coordinator.Orderly.of_run hpast hstart).1.withVault vault
  rw [hopens.request, hopens.reply] at hstep
  -- Whoever is waited for is a participant, so it was one of the runs that were current then.
  have hparticipant : run ∈ trigger.before.runs := by
    have hmember := (Round.awaits_iff.1 hawaits).1
    rwa [hopens.expected, TaskRun.mem_sortDistinct] at hmember
  obtain ⟨state, hcurrent⟩ := horderly.mem_runs_iff.1 hparticipant
  obtain rfl := Coordinator.running_of_triggered hstep hcurrent
  have hafter : trigger.after.tasks.find? run.slot = some (run, .running) := by
    rwa [Coordinator.tasks_of_quiet horderly hstep rfl]
  exact ⟨past, trigger, future, rfl, hopens.reply, hcurrent,
    Coordinator.current_of_run hfuture (horderly.step hstep) hafter⟩

/-- A task is restarted, and nobody reports that its first run has stopped. -/
def unannouncedRestart : List Request :=
  [.register ⟨1, 0, 0⟩ .running, .trigger (.ofRetention .onFailure) 10, .update ⟨1, 0, 1⟩ .running]

/-- Here the task fails first, and the checkpoint is triggered again with its second run. -/
theorem awaited_until_overtaken_of_announced : ∃ start history c,
    Coordinator.open? .default ⟨.of (.memory ∅) .none, .empty 1⟩ false = .ok start ∧
    start.perform staleReports = (history, c) ∧ RegistersFirst history ∧ StopsFirst history ∧
    c.tasks.find? ⟨1, 0⟩ = some (⟨1, 0, 1⟩, .running) ∧
    ∃ past trigger future, history = past ++ trigger :: future ∧
      trigger.reply = .triggered (.ok 2) ∧ ∀ m ∈ future, ¬m.Overtakes ⟨1, 0, 1⟩ := by
  obtain ⟨start, history, c, s, hopen, hperform, hfirst, hstops, hforced, howes⟩ :
      ∃ start history c s,
        Coordinator.open? .default ⟨.of (.memory ∅) .none, .empty 1⟩ false = .ok start ∧
        start.perform staleReports = (history, c) ∧ RegistersFirst history ∧ StopsFirst history ∧
        c.rounds.find? 2 = some s ∧ s.awaits ⟨1, 0, 1⟩ = true :=
    ⟨_, _, _, _, rfl, rfl, by decide +kernel, by decide +kernel, rfl, rfl⟩
  have hrun : Run Eq start _ _ := Run.of_perform (fun _ => rfl) start staleReports
  rw [hperform] at hrun
  obtain ⟨hsince, hcurrent⟩ := awaited_until_overtaken hopen hrun
  have hnow := hcurrent hfirst hstops 2 s ⟨1, 0, 1⟩ hforced howes
  obtain ⟨past, trigger, future, hsplit, hreply, -, current, state, hfind, -, hiff⟩ :=
    hsince 2 s ⟨1, 0, 1⟩ hforced howes
  cases hfind.symm.trans hnow
  exact ⟨start, history, c, hopen, hperform, hfirst, hstops, hnow, past, trigger, future, hsplit,
    hreply, hiff.1 rfl⟩

/-- A checkpoint still waits for the first run of a task after the second one is running, and an
acknowledgment of the first one completes it. -/
theorem awaited_although_overtaken : ∃ start history c r,
    Coordinator.open? .default ⟨.of (.memory ∅) .none, .empty 1⟩ false = .ok start ∧
    start.perform unannouncedRestart = (history, c) ∧ history.length = 3 ∧
    c.tasks.find? ⟨1, 0⟩ = some (⟨1, 0, 1⟩, .running) ∧
    c.rounds.find? 1 = some r ∧ r.awaits ⟨1, 0, 0⟩ = true ∧
    (c.acknowledge 1 ⟨1, 0, 0⟩ [7] 20).2.2 = .ok .completes :=
  ⟨_, _, _, _, rfl, rfl, rfl, rfl, rfl, rfl, rfl⟩

end Checkpointing
