import Mathlib.Tactic
import Checkpointing.Proofs.Coordinator.Reports

/-!
# Reports in any order

Several runs of one subtask report to the coordinator on their own, so that what an older run
reports may arrive anywhere among the reports of its successors.  In what order the reports of
different runs arrive makes no difference.

* `SameReports` compares two histories run by run;
* `Noted` ties the task map to the latest reports, `Noted.find?_iff` reads it off them;
* `Staffed` says that there are no rounds without tasks; then `frame_of_run` says what reports
  change besides;
* `interleaving_makes_no_difference` is the main statement.
-/

namespace Checkpointing

/-- What a request reports of the run. -/
def Request.reported? (run : TaskRun) (request : Request) : Option TaskState :=
  request.report?.bind fun report => if report.1 = run then some report.2 else none

/-- What is reported of a run, in the order of the reports. -/
def reportsOn (run : TaskRun) (past : List Moment) : List TaskState :=
  (past.map (·.request)).filterMap (Request.reported? run)

/-- The same is reported of every run in both histories, in the same order; the reports on different
runs may be interleaved in any way. -/
def SameReports (past past' : List Moment) : Prop :=
  ∀ run, reportsOn run past = reportsOn run past'

/-- Nothing but reports. -/
def OnlyReports (past : List Moment) : Prop := ∀ m ∈ past, m.request.report?.isSome = true

instance (past : List Moment) : Decidable (OnlyReports past) :=
  inferInstanceAs (Decidable (∀ m ∈ past, m.request.report?.isSome = true))

variable {past past' : List Moment} {run : TaskRun}

/-- The latest report on a run is the last of those on it. -/
theorem lastReport?_eq (past : List Moment) (run : TaskRun) :
    lastReport? past run = (reportsOn run past).getLast? := by
  induction past with
  | nil => rfl
  | cons m later ih =>
    have hlast : lastReport? (m :: later) run =
        (lastReport? later run).or (m.request.reported? run) := rfl
    rw [hlast, ih, reportsOn, reportsOn, List.map_cons]
    cases hreported : m.request.reported? run with
    | none => rw [List.filterMap_cons_none hreported, Option.or_none]
    | some state =>
      rw [List.filterMap_cons_some hreported, List.getLast?_cons]
      cases ((later.map (·.request)).filterMap (Request.reported? run)).getLast? <;> rfl

theorem SameReports.lastReport?_eq (h : SameReports past past') :
    lastReport? past = lastReport? past' :=
  funext fun run => by rw [Checkpointing.lastReport?_eq, Checkpointing.lastReport?_eq, h run]

namespace Coordinator

variable {c c' c₁ c₂ start : Coordinator} {request : Request} {events : List Event} {reply : Reply}
  {outside : Vault → Vault → Prop}

/-! ### The task map -/

/-- The task map knows of every run that is current what was reported of it last, and no run was
ever reported that is newer than the current one of its subtask. -/
structure Noted (past : List Moment) (c : Coordinator) : Prop where
  current : ∀ {slot : Slot} {run : TaskRun} {state : TaskState},
    c.tasks.find? slot = some (run, state) → run.slot = slot ∧ lastReport? past run = some state
  newest : ∀ {run : TaskRun} {state : TaskState}, lastReport? past run = some state →
    ∃ current s, c.tasks.find? run.slot = some (current, s) ∧ run.attempt ≤ current.attempt

/-- The current run of a subtask is the newest one that was ever reported, in the state that was
reported of it last. -/
theorem Noted.find?_iff (h : Noted past c) {slot : Slot} {state : TaskState} :
    c.tasks.find? slot = some (run, state) ↔
      run.slot = slot ∧ lastReport? past run = some state ∧
        ∀ newer, newer.slot = slot → run.attempt < newer.attempt →
          lastReport? past newer = none := by
  constructor
  · intro hfind
    obtain ⟨hslot, hlast⟩ := h.current hfind
    refine ⟨hslot, hlast, fun newer hnewer hlt => ?_⟩
    by_contra hsome
    obtain ⟨s, hreported⟩ := Option.ne_none_iff_exists'.1 hsome
    obtain ⟨current, s', hcurrent, hle⟩ := h.newest hreported
    rw [hnewer, hfind] at hcurrent
    cases hcurrent
    exact absurd hlt (not_lt.2 hle)
  · rintro ⟨rfl, hlast, hnone⟩
    obtain ⟨current, s, hcurrent, hle⟩ := h.newest hlast
    obtain ⟨hslot, hstate⟩ := h.current hcurrent
    rcases hle.lt_or_eq with hlt | heq
    · rw [hnone current hslot hlt] at hstate
      cases hstate
    · obtain rfl := (TaskRun.eq_iff_of_slot_eq hslot.symm).2 heq
      rw [hlast] at hstate
      cases hstate
      exact hcurrent

/-- A report is noted if no newer run was reported before. -/
theorem Noted.step {m : Moment} (h : Noted past m.before)
    (hstep : m.before.step m.request = .ok (m.after, m.events, m.reply))
    (hreport : m.request.report?.isSome = true) : Noted (past ++ [m]) m.after where
  current := current_of_report hstep hreport h.current
  newest := fun {run state} hlast => by
    obtain ⟨⟨reported, state'⟩, hreport⟩ := Option.isSome_iff_exists.1 hreport
    rw [tasks_of_report hstep hreport]
    rw [lastReport?_of_report hreport] at hlast
    rcases register_cases m.before reported state' with ⟨current, s, hcurrent, hlt, he⟩ |
      ⟨hnewest, he⟩ <;> rw [he]
    · split at hlast
      · next heq => exact ⟨current, s, heq ▸ hcurrent, heq ▸ hlt.le⟩
      · exact h.newest hlast
    · rw [Table.find?_insert]
      split at hlast
      · next heq => exact ⟨reported, state', if_pos (by rw [heq]), heq ▸ le_rfl⟩
      · obtain ⟨current, s, hcurrent, hle⟩ := h.newest hlast
        split
        · next hslot =>
          exact ⟨reported, state', rfl, hle.trans (hnewest current s (hslot ▸ hcurrent))⟩
        · exact ⟨current, s, hcurrent, hle⟩

theorem Noted.of_run (h : Run outside start past c) (hnone : start.tasks = ∅)
    (honly : OnlyReports past) : Noted past c := by
  induction h with
  | nil => exact ⟨by simp [hnone], fun hlast => nomatch hlast⟩
  | @snoc past c c' vault request events reply run change step ih =>
    obtain ⟨hcurrent, hnewest⟩ := ih fun m hm => honly m (List.mem_append_left _ hm)
    exact Noted.step (m := ⟨c.withVault vault, request, events, reply, c'⟩) ⟨hcurrent, hnewest⟩ step
      (honly _ (List.mem_append_right _ List.mem_cons_self))

/-! ### The rounds and all else -/

/-- There are no rounds without tasks. -/
def Staffed (c : Coordinator) : Prop := c.tasks = ∅ → c.rounds = ∅

/-- Tasks stay known, and only tasks take part in a new round. -/
theorem Staffed.step (h : c.Staffed) (hc : c.Orderly)
    (hstep : c.step request = .ok (c', events, reply)) : c'.Staffed := by
  intro hnone'
  have hnone : c.tasks = ∅ := by
    rcases tasks_step hc hstep with he | ⟨run, state, -, he⟩
    · rw [← he, hnone']
    · have hfind := Table.find?_insert_self c.tasks run.slot (run, state)
      rw [← he, hnone', Table.find?_emptyCollection] at hfind
      cases hfind
  refine Table.eq_empty_of_find?_eq_none fun id => ?_
  by_contra hsome
  obtain ⟨r', hr'⟩ := Option.ne_none_iff_exists'.1 hsome
  rcases find?_rounds_step hc hstep hr' with ⟨policy, now, -, -, -, hruns, -⟩ | ⟨r, hfind, -⟩
  · rw [runs, hnone] at hruns
    exact hruns rfl
  · rw [h hnone, Table.find?_emptyCollection] at hfind
    cases hfind

theorem staffed_of_run (h : Run outside start past c) (hstart : start.Orderly)
    (hstaffed : start.Staffed) : c.Staffed :=
  (h.invariant (P := fun c => c.Orderly ∧ c.Staffed) (fun _ hc => ⟨hc.1.withVault _, hc.2⟩)
    (fun hc hstep => ⟨hc.1.step hstep, hc.2.step hc.1 hstep⟩) ⟨hstart, hstaffed⟩).1.2

/-- Without rounds, a report changes nothing but the task map and the failures in a row. -/
theorem frame_of_report (h : c.step request = .ok (c', events, reply))
    (hreport : request.report?.isSome = true) (hempty : c.rounds = ∅) :
    ∃ tasks budget, c' = { c with tasks := tasks, budget := budget } := by
  obtain ⟨⟨run, state⟩, hreport⟩ := Option.isSome_iff_exists.1 hreport
  have hregister : ∃ tasks, c.register run state = { c with tasks := tasks } := by
    rcases register_state c run state with he | he
    · exact ⟨c.tasks, he⟩
    · exact ⟨_, he⟩
  obtain ⟨tasks, hregister⟩ := hregister
  rcases Request.report?_eq_some.1 hreport with rfl | rfl
  · obtain rfl : c.register run state = c' := by cases h; rfl
    exact ⟨tasks, c.budget, hregister⟩
  · obtain rfl : (c.update run state).1 = c' := by cases h; rfl
    obtain ⟨ids, budget, hupdate⟩ := update_state c run state
    have hrounds : c.rounds.eraseAll ids = c.rounds := by
      rw [hempty]
      refine Table.eq_empty_of_find?_eq_none fun id => ?_
      rw [Table.find?_eraseAll, Table.find?_emptyCollection, ite_self]
    exact ⟨tasks, budget, by rw [hupdate, hregister, hrounds]⟩

theorem frame_of_run (h : Run outside start past c) (honly : OnlyReports past)
    (hempty : start.rounds = ∅) : ∃ archive tasks budget,
      c = { start with archive := archive, tasks := tasks, budget := budget } := by
  induction h with
  | nil => exact ⟨start.archive, start.tasks, start.budget, rfl⟩
  | @snoc past c c' vault request events reply run change step ih =>
    have hlast := honly _ (List.mem_append_right _ List.mem_cons_self)
    obtain ⟨archive, _, _, rfl⟩ := ih fun m hm => honly m (List.mem_append_left _ hm)
    obtain ⟨tasks, budget, hafter⟩ := frame_of_report step hlast hempty
    exact ⟨_, tasks, budget, hafter⟩

/-- What is heard of a trigger and what it answers. -/
theorem answer_trigger (c : Coordinator) (policy : SnapshotPolicy) (now : Int) :
    (c.step (.trigger policy now)).map Prod.snd = (c.obstacle policy now).bind fun
      | some reason => .ok ([], .triggered (.error (.rejected reason)))
      | none => (Word.next? Word.max64 c.nextId).map fun nextId =>
        ((c.launch policy now nextId).2, .triggered (.ok c.nextId)) := by
  rw [step, trigger]
  rcases c.obstacle policy now with overflow | reason | reason
  · rfl
  · simp only [Except.bind]
    cases Word.next? Word.max64 c.nextId <;> rfl
  · rfl

end Coordinator

/-! ### The main statement -/

variable {settings : Settings} {archive : Archive} {hasHandler : Bool}
  {outside : Vault → Vault → Prop} {origin start c c' : Coordinator} {before : List Moment}

/-- The task map does not depend on how the reports on different runs interleave.  Two histories of
reports from a coordinator without tasks, in which the same is reported of every run in the same
order, lead to the same task map: it holds of each subtask the newest run that was ever reported, in
the state that was reported of it last.  So a trigger is answered alike after both, and the same
runs are asked to take part. -/
theorem interleaving_makes_no_difference
    (hopen : Coordinator.open? settings archive hasHandler = .ok origin)
    (hbefore : Run outside origin before start) (hnone : start.tasks = ∅)
    (hrun : Run outside start past c) (hrun' : Run outside start past' c')
    (honly : OnlyReports past) (honly' : OnlyReports past') (hsame : SameReports past past') :
    c.tasks = c'.tasks ∧
    (∀ slot run state, c.tasks.find? slot = some (run, state) ↔
      run.slot = slot ∧ lastReport? past run = some state ∧
        ∀ newer, newer.slot = slot → run.attempt < newer.attempt →
          lastReport? past newer = none) ∧
    ∀ vault vault' policy now,
      ((c.withVault vault).step (.trigger policy now)).map Prod.snd =
        ((c'.withVault vault').step (.trigger policy now)).map Prod.snd := by
  have hnoted := Coordinator.Noted.of_run hrun hnone honly
  have hnoted' := Coordinator.Noted.of_run hrun' hnone honly'
  have htasks : c.tasks = c'.tasks := by
    refine Table.eq_of_find?_eq fun slot => Option.ext fun ⟨run, state⟩ => ?_
    rw [hnoted.find?_iff, hnoted'.find?_iff, hsame.lastReport?_eq]
  have hstaffed : start.Staffed :=
    Coordinator.staffed_of_run hbefore (Coordinator.orderly_of_open hopen)
      fun _ => Coordinator.rounds_of_open hopen
  have hempty := hstaffed hnone
  refine ⟨htasks, fun slot run state => hnoted.find?_iff, fun vault vault' policy now => ?_⟩
  obtain ⟨archive, tasks, budget, rfl⟩ := Coordinator.frame_of_run hrun honly hempty
  obtain ⟨archive', tasks', budget', rfl⟩ := Coordinator.frame_of_run hrun' honly' hempty
  obtain rfl : tasks = tasks' := htasks
  -- A trigger does not ask for the archive or the failures in a row.
  rw [Coordinator.answer_trigger, Coordinator.answer_trigger]
  rfl

/-- A task fails and is restarted, while another task runs. -/
def promptReports : List Request :=
  [.register ⟨2, 0, 0⟩ .running, .register ⟨1, 0, 0⟩ .running, .update ⟨1, 0, 0⟩ .failed,
    .register ⟨1, 0, 1⟩ .running]

/-- The same, but what is reported of the first run arrives after the report on the second one, and
no task is registered but the second run. -/
def lateReports : List Request :=
  [.update ⟨1, 0, 1⟩ .running, .update ⟨1, 0, 0⟩ .running, .update ⟨2, 0, 0⟩ .running,
    .update ⟨1, 0, 0⟩ .failed]

/-- Nothing else is reported of a run in the one list than in the other. -/
theorem reported_promptReports (run : TaskRun) :
    promptReports.filterMap (Request.reported? run) =
      lateReports.filterMap (Request.reported? run) := by
  by_cases hfirst : run = ⟨1, 0, 0⟩
  · subst hfirst
    rfl
  · by_cases hsecond : run = ⟨1, 0, 1⟩
    · subst hsecond
      rfl
    · simp [promptReports, lateReports, Request.reported?, Request.report?, Ne.symm hfirst,
        Ne.symm hsecond, List.filterMap_cons]

/-- Either way the second run is current, and a checkpoint is triggered in which it takes part. -/
theorem interleaving_makes_no_difference_of_restart : ∃ start past past' c c',
    Coordinator.open? .default ⟨.of (.memory ∅) .none, .empty 1⟩ false = .ok start ∧
    start.perform promptReports = (past, c) ∧ start.perform lateReports = (past', c') ∧
    c'.tasks = c.tasks ∧ c'.tasks.find? ⟨1, 0⟩ = some (⟨1, 0, 1⟩, .running) ∧
    (c'.step (.trigger (.ofRetention .onFailure) 10)).map Prod.snd =
      .ok ([.notice (.triggered 1 10),
        .signal (.trigger ⟨1, 0, 1⟩ 1 10 (.ofRetention .onFailure)),
        .signal (.trigger ⟨2, 0, 0⟩ 1 10 (.ofRetention .onFailure))], .triggered (.ok 1)) := by
  obtain ⟨start, past, past', c, c', hopen, hnone, hperform, hperform', hasked, hasked', honly,
      honly', hfind, htrigger⟩ : ∃ start past past' c c',
        Coordinator.open? .default ⟨.of (.memory ∅) .none, .empty 1⟩ false = .ok start ∧
        start.tasks = ∅ ∧
        start.perform promptReports = (past, c) ∧ start.perform lateReports = (past', c') ∧
        past.map (·.request) = promptReports ∧ past'.map (·.request) = lateReports ∧
        OnlyReports past ∧ OnlyReports past' ∧
        c.tasks.find? ⟨1, 0⟩ = some (⟨1, 0, 1⟩, .running) ∧
        (c.step (.trigger (.ofRetention .onFailure) 10)).map Prod.snd =
          .ok ([.notice (.triggered 1 10),
            .signal (.trigger ⟨1, 0, 1⟩ 1 10 (.ofRetention .onFailure)),
            .signal (.trigger ⟨2, 0, 0⟩ 1 10 (.ofRetention .onFailure))], .triggered (.ok 1)) :=
    ⟨_, _, _, _, _, rfl, rfl, rfl, rfl, rfl, rfl, by decide, by decide, rfl, rfl⟩
  have hsame : SameReports past past' := fun run => by
    rw [reportsOn, reportsOn, hasked, hasked', reported_promptReports]
  have hrun : Run Eq start _ _ := Run.of_perform (fun _ => rfl) start promptReports
  have hrun' : Run Eq start _ _ := Run.of_perform (fun _ => rfl) start lateReports
  rw [hperform] at hrun
  rw [hperform'] at hrun'
  obtain ⟨htasks, -, hanswer⟩ :=
    interleaving_makes_no_difference hopen .nil hnone hrun hrun' honly honly' hsame
  have hlate := hanswer c.archive.vault c'.archive.vault (.ofRetention .onFailure) 10
  exact ⟨start, past, past', c, c', hopen, hperform, hperform', htasks.symm, htasks ▸ hfind,
    hlate.symm.trans htrigger⟩

end Checkpointing
