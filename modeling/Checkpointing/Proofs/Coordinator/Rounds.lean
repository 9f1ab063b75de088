import Mathlib.Tactic
import Checkpointing.Proofs.Coordinator.Run

/-!
# The rounds of a coordinator

How the table of rounds changes in a step, and the invariant of rounds and tasks that follows.

* `Orderly`: every round is under way, stands under its own id, which was handed out before, and
  every run stands under its own subtask;
* `eq_of_open`: how a coordinator starts;
* `step_cases`: a step opens the round of the next id, records an acknowledgment, or only takes
  rounds away;
* `Orderly.step`, `Orderly.of_run`: a step keeps the invariant, so it holds throughout every run;
* `nextId_le_of_run`, `expected_of_run`: ids only grow along a run, and participants do not change.
-/

namespace Checkpointing
namespace Coordinator

/-- What holds of the rounds and the tasks of every coordinator that can be reached. -/
structure Orderly (c : Coordinator) : Prop where
  underWay : ∀ {id : Nat} {r : Round}, c.rounds.find? id = some r → r.UnderWay id
  /-- The ids of rounds were handed out before. -/
  numbered : ∀ {id : Nat} {r : Round}, c.rounds.find? id = some r → id < c.nextId
  seated : ∀ {slot : Slot} {run : TaskRun} {state : TaskState},
    c.tasks.find? slot = some (run, state) → run.slot = slot

/-- A coordinator starts with the archive that it is given, without tasks and rounds. -/
theorem eq_of_open {settings : Settings} {archive : Archive} {hasHandler : Bool}
    {c : Coordinator} (h : open? settings archive hasHandler = .ok c) :
    firstId archive = .ok c.nextId ∧ c.archive = archive ∧ c.rounds = ∅ ∧ c.tasks = ∅ := by
  unfold open? at h
  cases hfirst : firstId archive with
  | error overflow =>
    rw [hfirst] at h
    cases h
  | ok nextId =>
    rw [hfirst] at h
    cases h
    exact ⟨rfl, rfl, rfl, rfl⟩

/-- It starts with the settings that it is given, open, and without triggers and failures. -/
theorem start_of_open {settings : Settings} {archive : Archive} {hasHandler : Bool}
    {c : Coordinator} (h : open? settings archive hasHandler = .ok c) :
    c.settings = settings ∧ c.lastTrigger = none ∧ c.closed = false ∧
      c.budget = .fresh settings.tolerableFailures hasHandler := by
  unfold open? at h
  cases hfirst : firstId archive with
  | error overflow =>
    rw [hfirst] at h
    cases h
  | ok nextId =>
    rw [hfirst] at h
    cases h
    exact ⟨rfl, rfl, rfl, rfl⟩

theorem orderly_of_open {settings : Settings} {archive : Archive} {hasHandler : Bool}
    {c : Coordinator} (h : open? settings archive hasHandler = .ok c) : c.Orderly := by
  obtain ⟨-, -, hrounds, htasks⟩ := eq_of_open h
  constructor <;> simp [hrounds, htasks]

theorem rounds_of_open {settings : Settings} {archive : Archive} {hasHandler : Bool}
    {c : Coordinator} (h : open? settings archive hasHandler = .ok c) : c.rounds = ∅ :=
  (eq_of_open h).2.2.1

/-- The current runs are those that stand in the task map, each under its own subtask. -/
theorem Orderly.mem_runs_iff {c : Coordinator} (hc : c.Orderly) {run : TaskRun} :
    run ∈ c.runs ↔ ∃ state, c.tasks.find? run.slot = some (run, state) := by
  simp only [runs, List.mem_map, Table.mem_values_iff]
  constructor
  · rintro ⟨⟨run', state⟩, ⟨slot, hfind⟩, rfl⟩
    exact ⟨state, by rw [hc.seated hfind]; exact hfind⟩
  · rintro ⟨state, hfind⟩
    exact ⟨(run, state), ⟨_, hfind⟩, rfl⟩

/-! ### How the state changes -/

/-- The task map as it was, or with the run of the request noted under its own subtask. -/
def TasksNote (request : Request) (tasks tasks' : Table Slot (TaskRun × TaskState)) : Prop :=
  tasks' = tasks ∨ ∃ run state, (request = .register run state ∨ request = .update run state) ∧
    tasks' = tasks.insert run.slot (run, state)

/-- A state in which rounds may have gone, but none was opened and none heard of an
acknowledgment. -/
structure Reduces (request : Request) (c c' : Coordinator) : Prop where
  rounds : ∃ ids, c'.rounds = c.rounds.eraseAll ids
  tasks : TasksNote request c.tasks c'.tasks
  nextId : c'.nextId = c.nextId ∨ ∃ latest, c.archive.latest? = some latest ∧
    c'.nextId = max c.nextId (latest.id + 1)
  settings : c'.settings = c.settings
  lastTrigger : c'.lastTrigger = c.lastTrigger

theorem Reduces.refl (request : Request) (c : Coordinator) : Reduces request c c :=
  ⟨⟨[], rfl⟩, Or.inl rfl, Or.inl rfl, rfl, rfl⟩

theorem reduces_register (c : Coordinator) {request : Request} {run : TaskRun} {state : TaskState}
    (h : request = .register run state ∨ request = .update run state) :
    Reduces request c (c.register run state) := by
  rcases register_state c run state with he | he <;> rw [he]
  · exact .refl request c
  · exact ⟨⟨[], rfl⟩, Or.inr ⟨run, state, h, rfl⟩, Or.inl rfl, rfl, rfl⟩

variable {c c' : Coordinator} {request : Request} {events : List Event} {reply : Reply}

/-- The round that an acknowledgment completes stands under its own id. -/
theorem Orderly.own_of_completes (hc : c.Orderly) {id : Nat} {run : TaskRun} {state : Bytes}
    {r r' : Round} (hfind : c.rounds.find? id = some r)
    (hfull : r.acknowledge run state = (r', .completes)) : r'.id = id := by
  obtain ⟨-, -, -, rfl, -⟩ := Round.acknowledge_eq_completes hfull
  exact (hc.underWay hfind).own

/-- A round that got its last acknowledgment is none of those that are not under way. -/
theorem Orderly.ne_of_completes (hc : c.Orderly) {i id : Nat} {run : TaskRun} {state : Bytes}
    {r r' : Round} (hout : c.rounds.contains i = false) (hfind : c.rounds.find? id = some r)
    (hfull : r.acknowledge run state = (r', .completes)) : r'.id ≠ i := by
  rw [hc.own_of_completes hfind hfull]
  exact Table.ne_of_contains_eq_false hout hfind

/-- A completed round is gone. -/
theorem find?_rounds_complete (c : Coordinator) (r : Round) (now : Int) :
    (c.complete r now).1.rounds.find? r.id = none := by
  obtain ⟨ids, archive, budget, hstate⟩ := complete_state c r now
  rw [hstate, Table.find?_eraseAll, if_pos List.mem_cons_self]

/-- A step opens the round of the next id, records an acknowledgment, or only takes rounds away,
among them the one that a last acknowledgment was for. -/
theorem step_cases (hc : c.Orderly) (h : c.step request = .ok (c', events, reply)) :
    (∃ policy now, request = .trigger policy now ∧ reply = .triggered (.ok c.nextId) ∧
      c.obstacle policy now = .ok none ∧ (c', events) = c.launch policy now (c.nextId + 1)) ∨
    (∃ id run state now r, request = .acknowledge id run state now ∧
      reply = .acknowledged (.ok (r.acknowledge run state).2) ∧ c.rounds.find? id = some r ∧
      (r.acknowledge run state).2 ≠ .completes ∧ events = [] ∧
      c' = { c with rounds := c.rounds.insert id (r.acknowledge run state).1 }) ∨
    (Reduces request c c' ∧ (∀ id, reply ≠ .triggered (.ok id)) ∧
      ∀ id run state now, request = .acknowledge id run state now →
        c'.rounds.find? id = none) := by
  cases Performs.of_step h with
  | register run state =>
    exact Or.inr (Or.inr ⟨reduces_register c (Or.inl rfl), by simp, by simp⟩)
  | trigger htrigger =>
    rename_i policy now answer
    rcases trigger_cases htrigger with ⟨reason, -, rfl, -, rfl⟩ | ⟨hobs, -, hlaunch, rfl⟩
    · exact Or.inr (Or.inr ⟨.refl _ c', by simp, by simp⟩)
    · exact Or.inl ⟨policy, now, rfl, rfl, hobs, hlaunch⟩
  | acknowledge hack =>
    rename_i id run state now result
    rcases acknowledge_cases c id run state now with ⟨hnone, he⟩ | ⟨r, hfind, ⟨r', hr', he⟩ |
      ⟨hres, he⟩⟩
    · cases he.symm.trans hack
      refine Or.inr (Or.inr ⟨.refl _ c, by simp, fun i _ _ _ hi => ?_⟩)
      cases hi
      exact hnone
    · have hgone := find?_rounds_complete c r' now
      rw [← he, hack, hc.own_of_completes hfind hr'] at hgone
      obtain ⟨ids, archive, budget, hstate⟩ := complete_state c r' now
      rw [← he, hack] at hstate
      obtain rfl : c' = _ := hstate
      refine Or.inr (Or.inr ⟨⟨⟨_, rfl⟩, Or.inl rfl, Or.inl rfl, rfl, rfl⟩, by simp, ?_⟩)
      intro i _ _ _ hi
      cases hi
      exact hgone
    · cases he.symm.trans hack
      exact Or.inr (Or.inl ⟨id, run, state, now, r, rfl, rfl, hfind, hres, rfl, rfl⟩)
  | decline hdecline =>
    rename_i id run reason any
    rcases decline_cases c id run reason with he | ⟨-, he⟩
    · cases he.symm.trans hdecline
      exact Or.inr (Or.inr ⟨.refl _ c, by simp, by simp⟩)
    · obtain ⟨budget, hstate⟩ := abortRound_state c id (.declined id run reason)
      rw [← he, hdecline] at hstate
      obtain rfl : c' = _ := hstate
      exact Or.inr (Or.inr ⟨⟨⟨[id], rfl⟩, Or.inl rfl, Or.inl rfl, rfl, rfl⟩, by simp, by simp⟩)
  | update hupdate =>
    rename_i run state
    obtain ⟨ids, budget, hstate⟩ := update_state c run state
    rw [hupdate] at hstate
    obtain rfl : c' = _ := hstate
    have hregister := reduces_register c (Or.inr (Eq.refl (Request.update run state)))
    exact Or.inr (Or.inr ⟨⟨⟨ids, rfl⟩, hregister.tasks, hregister.nextId, hregister.settings,
      hregister.lastTrigger⟩, by simp, by simp⟩)
  | expire habort =>
    rename_i id any
    obtain ⟨budget, hstate⟩ := abortRound_state c id (.expired id)
    rw [habort] at hstate
    obtain rfl : c' = _ := hstate
    exact Or.inr (Or.inr ⟨⟨⟨[id], rfl⟩, Or.inl rfl, Or.inl rfl, rfl, rfl⟩, by simp, by simp⟩)
  | restore hrestore =>
    rename_i mode result
    obtain ⟨archive, nextId, hnext, hstate⟩ := restore_state c mode
    rw [hrestore] at hstate
    obtain rfl : c' = _ := hstate
    exact Or.inr (Or.inr ⟨⟨⟨[], rfl⟩, Or.inl rfl, hnext, rfl, rfl⟩, by simp, by simp⟩)
  | dispose hdispose =>
    rename_i id result
    obtain ⟨archive, hstate⟩ := dispose_state c id
    rw [hdispose] at hstate
    obtain rfl : c' = _ := hstate
    exact Or.inr (Or.inr ⟨⟨⟨[], rfl⟩, Or.inl rfl, Or.inl rfl, rfl, rfl⟩, by simp, by simp⟩)
  | close hclose =>
    rename_i status result
    rcases close_cases c status with ⟨-, he⟩ | ⟨-, budget, he⟩
    · cases he.symm.trans hclose
      exact Or.inr (Or.inr ⟨.refl _ c, by simp, by simp⟩)
    · cases he.symm.trans hclose
      exact Or.inr (Or.inr ⟨⟨⟨c.rounds.keys, rfl⟩, Or.inl rfl, Or.inl rfl, rfl, rfl⟩, by simp,
        by simp⟩)

/-- Ids only grow. -/
theorem nextId_le_step (hc : c.Orderly) (h : c.step request = .ok (c', events, reply)) :
    c.nextId ≤ c'.nextId := by
  rcases step_cases hc h with ⟨_, _, -, -, -, hlaunch⟩ | ⟨_, _, _, _, _, -, -, -, -, -, rfl⟩ |
    ⟨hreduces, -⟩
  · obtain ⟨rfl, -⟩ := Prod.mk.inj hlaunch
    exact Nat.le_succ _
  · exact le_rfl
  · rcases hreduces.nextId with hsame | ⟨latest, -, hmax⟩
    · exact hsame.ge
    · exact hmax ▸ le_max_left _ _

/-- A round that is there after a step was opened by it under the next id, or was there before and
has heard of the request. -/
theorem find?_rounds_step (hc : c.Orderly) (h : c.step request = .ok (c', events, reply)) {id : Nat}
    {r' : Round} (hr' : c'.rounds.find? id = some r') :
    (∃ policy now, request = .trigger policy now ∧ reply = .triggered (.ok id) ∧
      id = c.nextId ∧ c.runs ≠ [] ∧ c'.nextId = c.nextId + 1 ∧
      r' = (Round.start id policy now c.runs [relay]).takeFuture) ∨
    (∃ r, c.rounds.find? id = some r ∧
      ((∃ run state now, request = .acknowledge id run state now ∧
        (r.acknowledge run state).2 ≠ .completes ∧ r' = (r.acknowledge run state).1) ∨
      ((∀ run state now, request ≠ .acknowledge id run state now) ∧ r' = r))) := by
  rcases step_cases hc h with ⟨policy, now, hreq, hreply, hobs, hlaunch⟩ |
    ⟨i, run, state, now, r, hreq, -, hfind, hres, -, rfl⟩ | ⟨hreduces, -, hack⟩
  · obtain ⟨rfl, -⟩ := Prod.mk.inj hlaunch
    rw [Table.find?_insert] at hr'
    split at hr'
    · next hid =>
      subst hid
      exact Or.inl ⟨policy, now, hreq, hreply, rfl, runs_ne_nil_of_obstacle hobs, rfl,
        (Option.some.inj hr').symm⟩
    · exact Or.inr ⟨r', hr', Or.inr ⟨by simp [hreq], rfl⟩⟩
  · rw [Table.find?_insert] at hr'
    split at hr'
    · next hid =>
      subst hid
      exact Or.inr ⟨r, hfind, Or.inl ⟨run, state, now, hreq, hres, (Option.some.inj hr').symm⟩⟩
    · next hid =>
      refine Or.inr ⟨r', hr', Or.inr ⟨fun _ _ _ hi => hid ?_, rfl⟩⟩
      rw [hreq] at hi
      cases hi
      rfl
  · obtain ⟨ids, hrounds⟩ := hreduces.rounds
    have hfind : c.rounds.find? id = some r' := by
      rw [hrounds, Table.find?_eraseAll] at hr'
      split at hr'
      · cases hr'
      · exact hr'
    refine Or.inr ⟨r', hfind, Or.inr ⟨fun _ _ _ hi => ?_, rfl⟩⟩
    rw [hack _ _ _ _ hi] at hr'
    cases hr'

/-! ### The invariant -/

theorem seated_insert {tasks : Table Slot (TaskRun × TaskState)} {run : TaskRun} {state : TaskState}
    (h : ∀ {slot run state}, tasks.find? slot = some (run, state) → run.slot = slot) {slot : Slot}
    {run' : TaskRun} {state' : TaskState}
    (hfind : (tasks.insert run.slot (run, state)).find? slot = some (run', state')) :
    run'.slot = slot := by
  rw [Table.find?_insert] at hfind
  split at hfind
  · next heq =>
    cases hfind
    exact heq.symm
  · exact h hfind

theorem tasks_step (hc : c.Orderly) (h : c.step request = .ok (c', events, reply)) :
    TasksNote request c.tasks c'.tasks := by
  rcases step_cases hc h with ⟨_, _, -, -, -, hlaunch⟩ | ⟨_, _, _, _, _, -, -, -, -, -, rfl⟩ |
    ⟨hreduces, -⟩
  · obtain ⟨rfl, -⟩ := Prod.mk.inj hlaunch
    exact Or.inl rfl
  · exact Or.inl rfl
  · exact hreduces.tasks

theorem Orderly.step (hc : c.Orderly) (h : c.step request = .ok (c', events, reply)) :
    c'.Orderly where
  underWay := fun {id r'} hr' => by
    rcases find?_rounds_step hc h hr' with ⟨policy, now, -, -, -, hruns, -, rfl⟩ |
      ⟨r, hfind, ⟨run, state, now, -, hres, rfl⟩ | ⟨-, rfl⟩⟩
    · exact Round.underWay_start hruns
    · exact (hc.underWay hfind).acknowledge hres
    · exact hc.underWay hfind
  numbered := fun {id r'} hr' => by
    rcases find?_rounds_step hc h hr' with ⟨_, _, -, -, hid, -, hnext, -⟩ | ⟨r, hfind, -⟩
    · omega
    · exact lt_of_lt_of_le (hc.numbered hfind) (nextId_le_step hc h)
  seated := fun {slot run state} hfind => by
    rcases tasks_step hc h with he | ⟨run', state', -, he⟩
    · exact hc.seated (he ▸ hfind)
    · exact seated_insert hc.seated (he ▸ hfind)

theorem Orderly.withVault (hc : c.Orderly) (vault : Vault) : (c.withVault vault).Orderly :=
  ⟨hc.underWay, hc.numbered, hc.seated⟩

variable {outside : Vault → Vault → Prop} {start : Coordinator} {past : List Moment}

theorem Orderly.of_run (h : Run outside start past c) (hstart : start.Orderly) :
    c.Orderly ∧ ∀ m ∈ past, m.before.Orderly ∧ m.after.Orderly :=
  h.invariant (fun _ hc => hc.withVault _) Orderly.step hstart

/-- Ids only grow along a run. -/
theorem nextId_le_of_run (h : Run outside start past c) (hstart : start.Orderly) :
    start.nextId ≤ c.nextId := by
  have hkeep := h.invariant (P := fun c => c.Orderly ∧ start.nextId ≤ c.nextId)
    (fun _ hc => ⟨hc.1.withVault _, hc.2⟩)
    (fun hc hs => ⟨hc.1.step hs, hc.2.trans (nextId_le_step hc.1 hs)⟩) ⟨hstart, le_rfl⟩
  exact hkeep.1.2

theorem settings_step (hc : c.Orderly) (h : c.step request = .ok (c', events, reply)) :
    c'.settings = c.settings := by
  rcases step_cases hc h with ⟨policy, now, -, -, -, hlaunch⟩ |
    ⟨_, _, _, _, _, -, -, -, -, -, rfl⟩ | ⟨hreduces, -⟩
  · obtain ⟨rfl, -⟩ := Prod.mk.inj hlaunch
    rfl
  · rfl
  · exact hreduces.settings

theorem settings_of_run (h : Run outside start past c) (hstart : start.Orderly) :
    c.settings = start.settings ∧ ∀ m ∈ past, m.before.settings = start.settings := by
  have hkeep := h.invariant (P := fun c => c.Orderly ∧ c.settings = start.settings)
    (fun _ hc => ⟨hc.1.withVault _, hc.2⟩)
    (fun hc hs => ⟨hc.1.step hs, (settings_step hc.1 hs).trans hc.2⟩) ⟨hstart, rfl⟩
  exact ⟨hkeep.1.2, fun m hm => (hkeep.2 m hm).1.2⟩

/-- The ids of a run lie between those of its start and of its end. -/
theorem nextId_le_of_mem (h : Run outside start past c) (hstart : start.Orderly) {m : Moment}
    (hm : m ∈ past) : start.nextId ≤ m.before.nextId ∧ m.after.nextId ≤ c.nextId := by
  have hafter := ((Orderly.of_run h hstart).2 m hm).2
  obtain ⟨first, rest, rfl⟩ := List.append_of_mem hm
  obtain ⟨d, vault, hfirst, -, hbefore, -, hrest⟩ := h.moment
  have hle : start.nextId ≤ d.nextId := nextId_le_of_run hfirst hstart
  rw [hbefore]
  exact ⟨hle, nextId_le_of_run hrest hafter⟩

/-- The participants of a round are fixed when it starts. -/
theorem expected_of_run (h : Run outside start past c) (hstart : start.Orderly) {id : Nat}
    {r r' : Round} (hr : start.rounds.find? id = some r) (hr' : c.rounds.find? id = some r') :
    r'.expected = r.expected := by
  induction h generalizing r' with
  | nil =>
    cases hr.symm.trans hr'
    rfl
  | @snoc past c c' vault request events reply run change step ih =>
    have horderly := (Orderly.of_run run hstart).1.withVault vault
    rcases find?_rounds_step horderly step hr' with ⟨_, _, -, -, hnew, -⟩ |
      ⟨t, ht, ⟨_, _, _, -, -, rfl⟩ | ⟨-, rfl⟩⟩
    · -- The id was handed out before the run started.
      have hlt : id < c.nextId := (hstart.numbered hr).trans_le (nextId_le_of_run run hstart)
      have hnext : id = c.nextId := hnew
      omega
    · exact (Round.expected_acknowledge t _ _).trans (ih ht)
    · exact ih ht

end Coordinator
end Checkpointing
