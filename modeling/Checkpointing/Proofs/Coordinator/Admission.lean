import Mathlib.Tactic
import Checkpointing.Proofs.Coordinator.Settlement

/-!
# Which triggers are admitted

A trigger is admitted while the coordinator is open and all of its tasks are running.  One that is
not forced also needs room among the rounds under way, and a pause since the latest trigger, forced
ones included.  The pause is compared as a signed word; one that no signed word holds is not kept.

* `Coordinator.Admits` lists the conditions, and `obstacle_eq_none_iff` says that there are no
  others;
* `starts` are the times at which triggers that are not forced were accepted, and `KeepsPause` says
  that any two of them are far enough apart;
* `Paced.step`, `keepsPause_of_run`: a trigger that is admitted keeps the pause to all earlier ones;
* `pause_is_kept` is the main statement, `pause_is_not_kept` a run with too long a pause.
-/

namespace Checkpointing

namespace Coordinator

variable {c c' start : Coordinator} {request : Request} {events : List Event} {reply : Reply}
  {policy : SnapshotPolicy} {now : Int} {outside : Vault → Vault → Prop} {past : List Moment}

/-! ### What stands in the way of a trigger -/

/-- Nothing stands in the way of a trigger. -/
structure Admits (c : Coordinator) (policy : SnapshotPolicy) (now : Int) : Prop where
  isOpen : c.closed = false
  hasTasks : c.tasks.size ≠ 0
  running : (c.tasks.values.all fun (_, state) => state.isRunning) = true
  /-- There is room for another round. -/
  room : policy.forced = false → c.rounds.size < c.settings.maxConcurrent
  /-- The pause since the latest trigger is over. -/
  rested : policy.forced = false → ∀ last, c.lastTrigger = some last →
    Word.IsSigned (now - last) ∧ c.settings.pauseMillis ≤ now - last

theorem obstacle_eq_none_iff : c.obstacle policy now = .ok none ↔ c.Admits policy now := by
  unfold obstacle
  by_cases hclosed : c.closed = true
  · rw [if_pos hclosed]
    exact iff_of_false (by simp) fun h => by simp [h.isOpen] at hclosed
  rw [if_neg hclosed]
  by_cases hsize : c.tasks.size = 0
  · rw [if_pos hsize]
    exact iff_of_false (by simp) fun h => h.hasTasks hsize
  rw [if_neg hsize]
  by_cases hrunning : (c.tasks.values.all fun (_, state) => state.isRunning) = true
  swap
  · rw [if_pos (by simpa using hrunning)]
    exact iff_of_false (by simp) fun h => hrunning h.running
  rw [if_neg (by simpa using hrunning)]
  have hopen : c.closed = false := by simpa using hclosed
  cases hforced : policy.forced with
  | true => exact iff_of_true rfl ⟨hopen, hsize, hrunning, by simp [hforced], by simp [hforced]⟩
  | false =>
    rw [if_neg (by simp)]
    by_cases hroom : c.settings.maxConcurrent ≤ c.rounds.size
    · rw [if_pos hroom]
      exact iff_of_false (by simp) fun h => absurd (h.room hforced) (by omega)
    rw [if_neg hroom]
    cases hlast : c.lastTrigger with
    | none => exact iff_of_true rfl ⟨hopen, hsize, hrunning, fun _ => by omega, by simp [hlast]⟩
    | some last =>
      have hrest : (Word.difference? now last).map
            (fun pause =>
              if pause < c.settings.pauseMillis then some RejectReason.minimumPause else none) =
            Except.ok none ↔
          Word.IsSigned (now - last) ∧ c.settings.pauseMillis ≤ now - last := by
        unfold Word.difference?
        by_cases hfits : Word.IsSigned (now - last) <;>
          simp [hfits, Except.map]
      refine hrest.trans ⟨fun h => ?_, fun h => h.rested hforced last hlast⟩
      refine ⟨hopen, hsize, hrunning, fun _ => by omega, fun _ last' hlast' => ?_⟩
      cases hlast.symm.trans hlast'
      exact h

/-- A trigger that is admitted opens a round. -/
theorem step_of_admits (h : c.Admits policy now) (hid : c.nextId < Word.max64) :
    c.step (.trigger policy now) =
      .ok ((c.launch policy now (c.nextId + 1)).1, (c.launch policy now (c.nextId + 1)).2,
        .triggered (.ok c.nextId)) := by
  have hnext : Word.next? Word.max64 c.nextId = .ok (c.nextId + 1) :=
    Word.next?_eq_ok_iff.2 ⟨hid, rfl⟩
  simp only [step, trigger, obstacle_eq_none_iff.2 h, Except.bind, hnext, Except.map]

/-! ### The latest trigger -/

/-- A step accepts a trigger that is admitted, or leaves the time of the latest trigger alone. -/
theorem lastTrigger_step (hc : c.Orderly) (h : c.step request = .ok (c', events, reply)) :
    (∃ policy now, request = .trigger policy now ∧ reply = .triggered (.ok c.nextId) ∧
      c.Admits policy now ∧ c'.lastTrigger = some now) ∨
    ((∀ id, reply ≠ .triggered (.ok id)) ∧ c'.lastTrigger = c.lastTrigger) := by
  rcases step_cases hc h with ⟨policy, now, hreq, hreply, hobs, hlaunch⟩ |
    ⟨_, _, _, _, _, -, rfl, -, -, -, rfl⟩ | ⟨hreduces, hno, -⟩
  · obtain ⟨rfl, -⟩ := Prod.mk.inj hlaunch
    exact Or.inl ⟨policy, now, hreq, hreply, obstacle_eq_none_iff.1 hobs, rfl⟩
  · exact Or.inr ⟨by simp, rfl⟩
  · exact Or.inr ⟨hno, hreduces.lastTrigger⟩

end Coordinator

/-! ### The pause between triggers -/

/-- When a trigger that is not forced was accepted in this moment. -/
def Moment.start? (m : Moment) : Option Int :=
  match m.request, m.reply with
  | .trigger policy now, .triggered (.ok _) => if policy.forced then none else some now
  | _, _ => none

/-- When triggers that are not forced were accepted, in the order in which they were. -/
def starts (history : List Moment) : List Int := history.filterMap Moment.start?

/-- Triggers are asked for in the order of their times, whether they are accepted or not. -/
def Chronological (requests : List Request) : Prop :=
  (requests.filterMap Request.triggerTime?).Pairwise (· ≤ ·)

instance (requests : List Request) : Decidable (Chronological requests) :=
  inferInstanceAs (Decidable (List.Pairwise _ _))

/-- There is a pause between any two accepted triggers that are not forced. -/
def KeepsPause (pause : Int) (history : List Moment) : Prop :=
  (starts history).Pairwise fun earlier later => pause ≤ later - earlier

instance (pause : Int) (history : List Moment) : Decidable (KeepsPause pause history) :=
  inferInstanceAs (Decidable (List.Pairwise _ _))

/-- However a coordinator with these settings is used, with triggers in the order of their times,
it keeps a pause between those that are not forced. -/
def Settings.Enforces (settings : Settings) (pause : Int) : Prop :=
  ∀ (archive : Archive) (hasHandler : Bool) (outside : Vault → Vault → Prop)
    (start c : Coordinator) (history : List Moment),
    Coordinator.open? settings archive hasHandler = .ok start → Run outside start history c →
      Chronological (history.map (·.request)) → KeepsPause pause history

theorem starts_append (past : List Moment) (m : Moment) :
    starts (past ++ [m]) = starts past ++ m.start?.toList := by
  rw [starts, List.filterMap_append, ← starts]
  cases hstart : m.start? <;> simp [hstart]

theorem Moment.start?_eq_some_iff {m : Moment} {time : Int} :
    m.start? = some time ↔ ∃ policy id, m.request = .trigger policy time ∧
      m.reply = .triggered (.ok id) ∧ policy.forced = false := by
  unfold start?
  split
  · next policy now id hreq hreply =>
    rw [hreq, hreply]
    cases hforced : policy.forced <;> simp [hforced]
  · next hno =>
    refine iff_of_false (by simp) ?_
    rintro ⟨policy, id, hreq, hreply, -⟩
    exact hno policy time id hreq hreply

namespace Coordinator

variable {c start : Coordinator} {outside : Vault → Vault → Prop} {past : List Moment}

/-- The latest trigger was asked for in the past, and no start of the past is later. -/
structure Paced (past : List Moment) (c : Coordinator) : Prop where
  asked : ∀ last, c.lastTrigger = some last →
    last ∈ (past.map (·.request)).filterMap Request.triggerTime?
  latest : ∀ time ∈ starts past, ∃ last, c.lastTrigger = some last ∧ time ≤ last

section

variable {m : Moment}

/-- A start comes after the pause since the latest trigger, and so since every earlier start. -/
theorem Paced.pause_le (hpaced : Paced past m.before) (hc : m.before.Orderly)
    (h : m.before.step m.request = .ok (m.after, m.events, m.reply)) {time now : Int}
    (htime : time ∈ starts past) (hstart : m.start? = some now) :
    m.before.settings.pauseMillis ≤ now - time := by
  obtain ⟨policy, id, hreq, hreply, hforced⟩ := Moment.start?_eq_some_iff.1 hstart
  rcases lastTrigger_step hc h with ⟨policy', now', hreq', -, hadmits, -⟩ | ⟨hno, -⟩
  · cases hreq.symm.trans hreq'
    obtain ⟨last, hlast, hle⟩ := hpaced.latest time htime
    have hpause := (hadmits.rested hforced last hlast).2
    omega
  · exact absurd hreply (hno id)

theorem Paced.step (hpaced : Paced past m.before) (hc : m.before.Orderly)
    (h : m.before.step m.request = .ok (m.after, m.events, m.reply))
    (htimes : Chronological ((past ++ [m]).map (·.request))) : Paced (past ++ [m]) m.after := by
  rw [Chronological, List.map_append, List.filterMap_append, List.pairwise_append] at htimes
  have hsplit : ∀ time, time ∈ starts (past ++ [m]) →
      time ∈ starts past ∨ m.start? = some time := by
    intro time htime
    simpa [starts_append] using htime
  rcases lastTrigger_step hc h with ⟨policy, now, hreq, hreply, -, hlast⟩ | ⟨hno, hlast⟩
  · have hnow : now ∈ ([m].map (·.request)).filterMap Request.triggerTime? := by
      simp [hreq, Request.triggerTime?]
    constructor
    · intro last hlast'
      cases hlast.symm.trans hlast'
      rw [List.map_append, List.filterMap_append]
      exact List.mem_append_right _ hnow
    · intro time htime
      refine ⟨now, hlast, ?_⟩
      rcases hsplit time htime with hold | hnew
      · -- The latest trigger of the past lies between its starts and this one.
        obtain ⟨last, hlast', hle⟩ := hpaced.latest time hold
        exact hle.trans (htimes.2.2 last (hpaced.asked last hlast') now hnow)
      · obtain ⟨policy', id, hreq', -, -⟩ := Moment.start?_eq_some_iff.1 hnew
        cases hreq.symm.trans hreq'
        exact le_rfl
  · constructor
    · intro last hlast'
      rw [List.map_append, List.filterMap_append]
      exact List.mem_append_left _ (hpaced.asked last (hlast.symm.trans hlast'))
    · intro time htime
      rw [hlast]
      rcases hsplit time htime with hold | hnew
      · exact hpaced.latest time hold
      · obtain ⟨policy, id, -, hreply, -⟩ := Moment.start?_eq_some_iff.1 hnew
        exact absurd hreply (hno id)

end

/-- The starts of a run keep the pause that is compared with. -/
theorem keepsPause_of_run (h : Run outside start past c) (hstart : start.Orderly)
    (hrested : start.lastTrigger = none) (htimes : Chronological (past.map (·.request))) :
    Paced past c ∧ KeepsPause start.settings.pauseMillis past := by
  induction h with
  | nil => exact ⟨⟨by simp [hrested], by simp [starts]⟩, .nil⟩
  | @snoc past c c' vault request events reply run change step ih =>
    have hpast : Chronological (past.map (·.request)) := by
      rw [Chronological, List.map_append, List.filterMap_append] at htimes
      exact (List.pairwise_append.1 htimes).1
    obtain ⟨hpaced, hkeeps⟩ := ih hpast
    have horderly := (Orderly.of_run run hstart).1.withVault vault
    have hsettings : (c.withVault vault).settings = start.settings := (settings_of_run run hstart).1
    replace hpaced : Paced past (c.withVault vault) := ⟨hpaced.asked, hpaced.latest⟩
    refine ⟨Paced.step (m := ⟨_, _, _, _, _⟩) hpaced horderly step htimes, ?_⟩
    rw [KeepsPause, starts_append, List.pairwise_append]
    refine ⟨hkeeps, ?_, fun time htime now hnow => ?_⟩
    · cases Moment.start? _ <;> simp
    · rw [← hsettings]
      exact Paced.pause_le (m := ⟨_, _, _, _, _⟩) hpaced horderly step htime
        (Option.mem_toList.1 hnow)

end Coordinator

/-! ### Which pauses are kept -/

/-- A run of two triggers with a round that times out between them. -/
def hurriedRequests (settings : Settings) : List Request :=
  [.register ⟨1, 0, 0⟩ .running, .trigger settings.periodicPolicy 0, .expire 1,
    .trigger settings.periodicPolicy (max 0 settings.pauseMillis)]

theorem Settings.maxConcurrent_pos {settings : Settings} (h : settings.validate = .ok ()) :
    0 < settings.maxConcurrent := by
  unfold Settings.validate at h
  split_ifs at h
  omega

namespace Coordinator

variable {c : Coordinator} {policy : SnapshotPolicy} {now later : Int}

/-- Once the round of a trigger is over, the trigger is admitted again after the pause. -/
theorem Admits.again (h : c.Admits policy now) (hempty : c.rounds = ∅)
    (hfits : Word.IsSigned (later - now)) (hpause : c.settings.pauseMillis ≤ later - now)
    (nextId : Nat) (reason : SnapshotError) :
    ((c.launch policy now nextId).1.abortRound c.nextId reason).1.Admits policy later := by
  obtain ⟨budget, hstate⟩ := abortRound_state (c.launch policy now nextId).1 c.nextId reason
  rw [hstate]
  refine ⟨h.isOpen, h.hasTasks, h.running, fun hforced => ?_, fun _ last hlast => ?_⟩
  · have hgone : ∀ r : Round, ((c.rounds.insert c.nextId r).erase c.nextId).size = 0 := by
      intro r
      rw [hempty]
      simp [Table.size, Table.erase, Table.insert, Table.insertEntry,
        EmptyCollection.emptyCollection, Table.empty]
    have hroom := h.room hforced
    show ((c.rounds.insert c.nextId _).erase c.nextId).size < c.settings.maxConcurrent
    rw [hgone]
    omega
  · cases hlast
    exact ⟨hfits, hpause⟩

/-- Between two triggers that are admitted the first round times out. -/
theorem Admits.twice (h : c.Admits policy now) (hempty : c.rounds = ∅)
    (hid : c.nextId + 1 < Word.max64) (hforced : policy.forced = false)
    (hfits : Word.IsSigned (later - now)) (hpause : c.settings.pauseMillis ≤ later - now) :
    ∃ history c', Run Eq c history c' ∧
      history.map (·.request) =
        [.trigger policy now, .expire c.nextId, .trigger policy later] ∧
      starts history = [now, later] := by
  have hagain := h.again hempty hfits hpause (c.nextId + 1) (.expired c.nextId)
  have hnext : ((c.launch policy now (c.nextId + 1)).1.abortRound c.nextId
      (.expired c.nextId)).1.nextId = c.nextId + 1 := by
    obtain ⟨budget, hstate⟩ :=
      abortRound_state (c.launch policy now (c.nextId + 1)).1 c.nextId (.expired c.nextId)
    rw [hstate]
    rfl
  have hlast := step_of_admits hagain (by rw [hnext]; exact hid)
  have hlaunch := step_of_admits h (by omega)
  obtain ⟨events, any, hexpire⟩ :
      ∃ events any, (c.launch policy now (c.nextId + 1)).1.step (.expire c.nextId) =
        .ok (((c.launch policy now (c.nextId + 1)).1.abortRound c.nextId (.expired c.nextId)).1,
          events, .aborted any) := ⟨_, _, rfl⟩
  refine ⟨_, _, ((Run.nil.extend hlaunch).extend hexpire).extend hlast, rfl, ?_⟩
  simp [starts, List.filterMap_cons, Moment.start?, hforced]

/-- The second trigger is accepted as soon as the pause that is compared with is over. -/
theorem exists_hurried {settings : Settings} (hvalid : settings.validate = .ok ()) :
    ∃ archive start c history, open? settings archive false = .ok start ∧
      Run Eq start history c ∧ history.map (·.request) = hurriedRequests settings ∧
      starts history = [0, max 0 settings.pauseMillis] := by
  obtain ⟨start, hopen⟩ :
      ∃ start, open? settings ⟨.of (.memory ∅) .none, .empty 1⟩ false = .ok start := ⟨_, rfl⟩
  obtain ⟨hid, -, hrounds, htasks⟩ := eq_of_open hopen
  obtain ⟨rfl, hlast, hopened, -⟩ := start_of_open hopen
  replace hid : start.nextId = 1 := (Except.ok.inj hid).symm
  have hregister : start.register ⟨1, 0, 0⟩ .running =
      { start with tasks := Table.insert ∅ ⟨1, 0⟩ (⟨1, 0, 0⟩, .running) } := by
    simp [register, htasks, TaskRun.slot]
  have hfirst : (start.register ⟨1, 0, 0⟩ .running).Admits start.settings.periodicPolicy 0 := by
    rw [hregister]
    have hroom := Settings.maxConcurrent_pos hvalid
    refine ⟨hopened, show (Table.insert ∅ _ _).size ≠ 0 by decide, rfl, fun _ => ?_, ?_⟩
    · rwa [hrounds]
    · simp [hlast]
  have hgreatest : start.settings.pauseMillis ≤ Word.maxSigned :=
    (Word.isSigned_toSigned start.settings.minPause.millis).2
  have hfits : Word.IsSigned (max 0 start.settings.pauseMillis - 0) := by
    unfold Word.IsSigned Word.minSigned Word.maxSigned at *
    omega
  have hpause : (start.register ⟨1, 0, 0⟩ .running).settings.pauseMillis ≤
      max 0 start.settings.pauseMillis - 0 := by
    rw [hregister, sub_zero]
    exact le_max_right _ _
  obtain ⟨rest, c, hrest, hrequests, hstarts⟩ := hfirst.twice (by rw [hregister]; exact hrounds)
    (by rw [hregister]; simp [hid, Word.max64]) rfl hfits hpause
  have hstep : start.step (.register ⟨1, 0, 0⟩ .running) =
      .ok (start.register ⟨1, 0, 0⟩ .running, [], .done) := rfl
  refine ⟨_, start, c, _, hopen, (Run.nil.extend hstep).append hrest, ?_, ?_⟩
  · rw [List.map_append, hrequests, hregister, hurriedRequests]
    simp [hid]
  · rw [starts, List.filterMap_append, ← starts, ← starts, hstarts]
    rfl

end Coordinator

/-- A pause that is enforced is no longer than the pause that is compared with. -/
theorem Settings.le_pauseMillis_of_enforces {settings : Settings}
    (hvalid : settings.validate = .ok ()) {pause : Int} (h : settings.Enforces pause) :
    pause ≤ max 0 settings.pauseMillis := by
  obtain ⟨archive, start, c, history, hopen, hrun, hrequests, hstarts⟩ :=
    Coordinator.exists_hurried hvalid
  have htimes : Chronological (history.map (·.request)) := by
    rw [hrequests]
    show List.Pairwise _ [0, max 0 settings.pauseMillis]
    simp
  have hkeeps := h archive false Eq start c history hopen hrun htimes
  rw [KeepsPause, hstarts] at hkeeps
  simpa using hkeeps

/-- A pause between the triggers that are not forced is kept in every run, however the coordinator
is used meanwhile.  It is the pause of the settings exactly if a signed word can hold that. -/
theorem pause_is_kept {settings : Settings} (hvalid : settings.validate = .ok ()) :
    settings.Enforces settings.pauseMillis ∧
    (settings.Enforces settings.minPause.millis ↔
      (settings.minPause.millis : Int) ≤ Word.maxSigned) := by
  have henforces : settings.Enforces settings.pauseMillis := by
    intro archive hasHandler outside start c history hopen hrun htimes
    obtain ⟨rfl, hrested, -⟩ := Coordinator.start_of_open hopen
    exact (Coordinator.keepsPause_of_run hrun (Coordinator.orderly_of_open hopen) hrested htimes).2
  refine ⟨henforces, fun h => ?_, fun hfits => ?_⟩
  · have hle := Settings.le_pauseMillis_of_enforces hvalid h
    have hgreatest : settings.pauseMillis ≤ Word.maxSigned :=
      (Word.isSigned_toSigned settings.minPause.millis).2
    unfold Word.maxSigned at *
    omega
  · have heq : settings.pauseMillis = settings.minPause.millis := Word.toSigned_of_le hfits
    rwa [← heq]

/-- A trigger comes too early, a forced one starts the pause anew, and two that are not forced are
accepted with five seconds between them at the least. -/
def pausedRequests : List Request :=
  [.register ⟨1, 0, 0⟩ .running, .trigger (.ofRetention .neverAfterTermination) 10, .expire 1,
    .trigger (.ofRetention .neverAfterTermination) 5009,
    .trigger (.savepoint true .canonical) 6000,
    .trigger (.ofRetention .neverAfterTermination) 10999,
    .trigger (.ofRetention .neverAfterTermination) 11000]

theorem pause_is_kept_of_five_seconds :
    ∃ (settings : Settings) (start c : Coordinator) (history : List Moment),
      settings.validate = .ok () ∧ (settings.minPause.millis : Int) ≤ Word.maxSigned ∧
      Coordinator.open? settings ⟨.of (.memory ∅) .none, .empty 1⟩ false = .ok start ∧
      start.perform pausedRequests = (history, c) ∧
      Chronological (history.map (·.request)) ∧ starts history = [10, 11000] ∧
      settings.Enforces settings.minPause.millis ∧ KeepsPause 5000 history := by
  let settings : Settings :=
    { Settings.default.withMaxConcurrent 9 with minPause := .ofSeconds 5 }
  obtain ⟨start, c, history, hopen, hperform, hstarts, htimes⟩ :
      ∃ start c history,
        Coordinator.open? settings ⟨.of (.memory ∅) .none, .empty 1⟩ false = .ok start ∧
        start.perform pausedRequests = (history, c) ∧
        starts history = [10, 11000] ∧ Chronological (history.map (·.request)) :=
    ⟨_, _, _, rfl, rfl, by decide +kernel, by decide +kernel⟩
  have hrun : Run Eq start _ _ := Run.of_perform (fun _ => rfl) start pausedRequests
  rw [hperform] at hrun
  have hvalid : settings.validate = .ok () := rfl
  have henforces := (pause_is_kept hvalid).2.2 (by decide)
  have hkeeps := henforces _ _ _ _ _ _ hopen hrun htimes
  rw [show (settings.minPause.millis : Int) = 5000 from by decide] at hkeeps
  exact ⟨settings, start, c, history, hvalid, by decide, hopen, hperform, htimes, hstarts,
    henforces, hkeeps⟩

/-- With a pause of more milliseconds than a signed word holds, two triggers that are not forced
are accepted ten milliseconds apart. -/
theorem pause_is_not_kept :
    ∃ (settings : Settings) (start c : Coordinator) (history : List Moment),
      settings = { Settings.default.withMaxConcurrent 2 with
        minPause := .ofMillis 9223372036854775808 } ∧
      settings.validate = .ok () ∧
      Coordinator.open? settings ⟨.of (.memory ∅) .none, .empty 1⟩ false = .ok start ∧
      start.perform [.register ⟨1, 0, 0⟩ .running, .trigger (.ofRetention .onFailure) 10,
        .trigger (.ofRetention .onFailure) 20] = (history, c) ∧
      Chronological (history.map (·.request)) ∧ starts history = [10, 20] ∧
      ¬ KeepsPause settings.minPause.millis history := by
  refine ⟨_, _, _, _, rfl, rfl, rfl, rfl, ?_, ?_, ?_⟩ <;> decide +kernel

end Checkpointing
