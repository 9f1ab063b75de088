import Mathlib.Tactic
import Checkpointing.Proofs.Coordinator.Cut
import Checkpointing.Proofs.Storage.Archive

/-!
# Every checkpoint settles exactly once

Every triggered checkpoint ends at most once, when its round leaves the table of rounds.  In that
moment listeners get one notice and whoever waits gets the same outcome; nothing else is heard of
the checkpoint between the trigger and that moment, before or afterwards.

* `Ended` says that certain rounds left the table and that the news of a moment are the verdicts on
  them; `Ends` adds that completed rounds left a snapshot;
* `ends_acknowledge`, `ends_update`, `ends_close` and others say so of each operation, and
  `news_of_step` of a step: it opens one round or ends some;
* `SettlesOnce` is the story of one checkpoint; `pending_or_settled` is the induction over runs;
* `settles_exactly_once` is the main statement, for every checkpoint and for the statistics.
-/

namespace Checkpointing

/-! ### Rounds that end -/

/-- The rounds in `ended`, and no others, left the table, and the news are the verdicts on them. -/
structure Ended (rounds rounds' : Table Nat Round) (events : List Event)
    (ended : List (Nat × Outcome)) : Prop where
  distinct : (ended.map (·.1)).Nodup
  present : ∀ id ∈ ended.map (·.1), rounds.contains id = true
  rounds : ∀ id, rounds'.contains id = true ↔ rounds.contains id = true ∧ id ∉ ended.map (·.1)
  news : news events = verdicts ended

namespace Ended

variable {rounds rounds' : Table Nat Round} {events : List Event} {ended : List (Nat × Outcome)}

theorem of_quiet (hrounds : ∀ id, rounds'.contains id = rounds.contains id)
    (hnews : Checkpointing.news events = []) : Ended rounds rounds' events [] :=
  ⟨List.nodup_nil, by simp, by simp [hrounds], hnews⟩

/-- Events that are no news may come before and after. -/
theorem surround (h : Ended rounds rounds' events ended) (first last : List Event)
    (hfirst : Checkpointing.news first = []) (hlast : Checkpointing.news last = []) :
    Ended rounds rounds' (first ++ (events ++ last)) ended :=
  ⟨h.distinct, h.present, h.rounds, by simp [hfirst, hlast, h.news]⟩

/-- A round that ends before others do. -/
theorem cons {id : Nat} (outcome : Outcome) (hin : rounds.contains id = true)
    (h : Ended (rounds.erase id) rounds' events ended) :
    Ended rounds rounds' (verdict id outcome ++ events) ((id, outcome) :: ended) := by
  refine ⟨?_, ?_, fun i => ?_, ?_⟩
  · refine List.nodup_cons.2 ⟨fun hmem => ?_, h.distinct⟩
    exact (Table.contains_erase.1 (h.present id hmem)).2 rfl
  · refine List.forall_mem_cons.2 ⟨hin, fun i hi => ?_⟩
    exact (Table.contains_erase.1 (h.present i hi)).1
  · rw [h.rounds, Table.contains_erase, List.map_cons, List.mem_cons, not_or, and_assoc]
  · rw [news_append, h.news]
    have hone := news_verdicts [(id, outcome)]
    simp only [verdicts, List.flatMap_cons, List.flatMap_nil, List.append_nil] at hone
    rw [hone]
    rfl

/-- The table shrinks by the number of rounds that end. -/
theorem size (h : Ended rounds rounds' events ended) :
    rounds'.size + ended.length = rounds.size := by
  have hdisjoint : rounds'.keys.Disjoint (ended.map (·.1)) := fun id hkey hend =>
    ((h.rounds id).1 (Table.mem_keys_iff.1 hkey)).2 hend
  -- Every round that was there has either stayed or ended.
  have hperm : (rounds'.keys ++ ended.map (·.1)).Perm rounds.keys := by
    refine (List.perm_ext_iff_of_nodup
      (rounds'.nodup_keys.append h.distinct hdisjoint) rounds.nodup_keys).2 fun id => ?_
    rw [List.mem_append, Table.mem_keys_iff, Table.mem_keys_iff, h.rounds]
    constructor
    · rintro (⟨hin, -⟩ | hend)
      · exact hin
      · exact h.present id hend
    · intro hin
      by_cases hend : id ∈ ended.map (·.1)
      · exact Or.inr hend
      · exact Or.inl ⟨hin, hend⟩
  have hlen := hperm.length_eq
  rwa [List.length_append, List.length_map, Table.length_keys, Table.length_keys] at hlen

/-- Nothing is heard of a checkpoint that does not end. -/
theorem newsOf_eq_nil (h : Ended rounds rounds' events ended) {id : Nat}
    (hid : id ∉ ended.map (·.1)) : newsOf id events = [] := by
  rw [← newsOf_news, h.news, newsOf_verdicts_of_notMem hid]

/-- Of a checkpoint that ends one verdict is heard. -/
theorem newsOf_eq_verdict (h : Ended rounds rounds' events ended) {id : Nat} {outcome : Outcome}
    (hid : (id, outcome) ∈ ended) : newsOf id events = verdict id outcome := by
  rw [← newsOf_news, h.news, newsOf_verdicts h.distinct hid]

end Ended

/-! ### What is heard of the operations -/

theorem news_failure (b : FailureBudget) (reason : SnapshotError) :
    news (b.failure reason).2 = [] := by
  refine news_eq_nil fun e he => ?_
  unfold FailureBudget.failure at he
  dsimp only at he
  split_ifs at he <;> simp_all [Event.subject?]

theorem Round.farewell_eq_verdict {r : Round} {id : Nat} (h : r.Followed id)
    (reason : SnapshotError) : r.farewell reason = verdict id (.error reason) := by
  obtain ⟨rfl, hprog, ⟨future, hwait⟩, listener, hheard⟩ := h
  simp [farewell, abort?, isInProgress, hprog, deliver, hwait, Notice.tell, hheard,
    Coordinator.settled, verdict]

theorem Round.delivery_eq_verdict {r : Round} {id : Nat} (h : r.Full id) {info : SnapshotInfo}
    (htime : info.triggeredAt = r.triggeredAt) : r.delivery info = verdict id (.ok info) := by
  obtain ⟨⟨rfl, hprog, ⟨future, hwait⟩, listener, hheard⟩, hfull⟩ := h
  simp [delivery, complete?, isInProgress, hprog, hfull, deliver, hwait, Notice.tell, hheard,
    Coordinator.settled, verdict, htime]

namespace Coordinator

/-- Aborting a round that is there ends it. -/
theorem abortRound_of_find? {c : Coordinator} {id : Nat} {r : Round}
    (hfind : c.rounds.find? id = some r) (hr : r.UnderWay id) (reason : SnapshotError) :
    ∃ budget breach, c.budget.failure reason = (budget, breach) ∧ c.abortRound id reason =
      ({ c with rounds := c.rounds.erase id, budget := budget },
        verdict id (.error reason) ++
          (r.owed.map fun run => .signal (.abort run id reason)) ++ breach, true) := by
  refine ⟨(c.budget.failure reason).1, (c.budget.failure reason).2, rfl, ?_⟩
  rw [← Round.farewell_eq_verdict hr.toFollowed]
  unfold abortRound
  simp [hfind, Round.farewell, Round.abort?, Round.isInProgress, hr.inProgress, settled, hr.own]

theorem ended_abortRounds {c : Coordinator} (reason : Nat → SnapshotError) (ids : List Nat)
    (hrounds : ∀ {id r}, c.rounds.find? id = some r → r.UnderWay id) (hnodup : ids.Nodup)
    (hin : ∀ id ∈ ids, c.rounds.contains id = true) :
    Ended c.rounds (c.abortRounds reason ids).1.rounds (c.abortRounds reason ids).2
      (ids.map fun id => (id, .error (reason id))) := by
  induction ids generalizing c with
  | nil => exact .of_quiet (fun _ => rfl) rfl
  | cons id ids ih =>
    rw [List.nodup_cons] at hnodup
    obtain ⟨r, hfind⟩ := Table.contains_iff.1 (hin id List.mem_cons_self)
    obtain ⟨budget, breach, hbreach, he⟩ := abortRound_of_find? hfind (hrounds hfind) (reason id)
    have hstays : ∀ i ∈ ids, (c.rounds.erase id).contains i = true := by
      intro i hi
      have hne : i ≠ id := fun heq => hnodup.1 (heq ▸ hi)
      simpa [Table.contains, Table.find?_erase, hne] using hin i (List.mem_cons_of_mem _ hi)
    have hrest := ih (c := { c with rounds := c.rounds.erase id, budget := budget })
      (fun hfind' => hrounds (Table.find?_of_find?_erase hfind')) hnodup.2 hstays
    have hquiet : news breach = [] := by
      have h := news_failure c.budget (reason id)
      rwa [hbreach] at h
    have hall := (hrest.surround
      ((r.owed.map fun run => .signal (.abort run id (reason id))) ++ breach) []
      (by simp [hquiet]) rfl).cons (.error (reason id)) (hin id List.mem_cons_self)
    have hshow : c.abortRounds reason (id :: ids) =
        (((c.abortRound id (reason id)).1.abortRounds reason ids).1,
          (c.abortRound id (reason id)).2.1 ++
            ((c.abortRound id (reason id)).1.abortRounds reason ids).2) := rfl
    rw [hshow, he]
    simpa [List.append_assoc] using hall

/-- Aborting one round ends it if it is there. -/
theorem ended_abortRound {c : Coordinator} (id : Nat) (reason : SnapshotError)
    (hrounds : ∀ {id r}, c.rounds.find? id = some r → r.UnderWay id) :
    ∃ ended, Ended c.rounds (c.abortRound id reason).1.rounds (c.abortRound id reason).2.1 ended ∧
      ∀ e ∈ ended, ∃ reason, e.2 = .error reason := by
  cases hfind : c.rounds.find? id with
  | none =>
    have he : c.abortRound id reason = (c, [], false) := by simp [abortRound, hfind]
    rw [he]
    exact ⟨[], .of_quiet (fun _ => rfl) rfl, by simp⟩
  | some r =>
    have hall := ended_abortRounds (fun _ => reason) [id] hrounds
      (List.nodup_singleton id) (by simp [Table.contains, hfind])
    have hshow : c.abortRounds (fun _ => reason) [id] =
        ((c.abortRound id reason).1, (c.abortRound id reason).2.1 ++ []) := rfl
    rw [hshow, List.append_nil] at hall
    exact ⟨_, hall, by simp⟩

/-- The keys of the entries that meet a condition are distinct and bound. -/
theorem nodup_keys_filter (t : Table Nat Round) (p : Nat × Round → Bool) :
    ((t.entries.filter p).map (·.1)).Nodup ∧
      ∀ id ∈ (t.entries.filter p).map (·.1), t.contains id = true := by
  refine ⟨(List.filter_sublist.map _).nodup t.nodup_keys, fun id hid => ?_⟩
  exact Table.mem_keys_iff.1 ((List.filter_sublist.map _).subset hid)

/-- A completed round, and the snapshot that it left. -/
structure Completes (m : Moment) (id : Nat) (info : SnapshotInfo) (s : Snapshot) : Prop where
  registers : m.Registers s
  own : s.id = id
  info : s.info = info
  /-- The round was there, and the snapshot has its time. -/
  round : ∃ r, m.before.rounds.find? id = some r ∧ s.triggeredAt = r.triggeredAt
  request : ∃ run state, m.request = .acknowledge id run state s.completedAt

/-- Finalizing only makes requests to storage. -/
theorem isRequest_of_finalize (a : Archive) (r : Round) (now : Int) :
    ∀ e ∈ (finalize a r now).2.1, e.IsRequest := by
  have hpersist := (a.vault.addressed r.id r.policy).isRequest_of_persistAll r.id r.acked.entries
  rcases finalize_cases a r now with ⟨vault, kept, failure, hkeep, hf⟩ |
    ⟨vault, kept, hkeep, hf⟩ <;> rw [hkeep] at hpersist
  · rw [hf]
    exact hpersist
  · have hadded := Archive.isRequest_of_add { a with vault := vault } (draft a r now)
    rcases hf with ⟨a', added, reason, hadd, hf⟩ | ⟨a', added, gone, hadd, hf⟩ <;>
      rw [hadd] at hadded <;> rw [hf] <;>
      exact List.forall_mem_append.2 ⟨hpersist, hadded⟩

theorem news_finalize (a : Archive) (r : Round) (now : Int) : news (finalize a r now).2.1 = [] :=
  news_eq_nil fun e he => (isRequest_of_finalize a r now e he).subject?

/-- A full round whose snapshot could not be stored ends alone. -/
theorem ended_complete_of_error {c : Coordinator} {r : Round} {id : Nat} {now : Int} {a : Archive}
    {kept : List Event} {reason : SnapshotError} (hin : c.rounds.contains id = true)
    (hr : r.Full id) (hfinal : finalize c.archive r now = (a, kept, .error reason)) :
    Ended c.rounds (c.complete r now).1.rounds (c.complete r now).2.1 [(id, .error reason)] := by
  have hkept := news_finalize c.archive r now
  rw [hfinal] at hkept
  obtain ⟨budget, breach, hbreach, he⟩ := complete_of_error hfinal
  have hquiet := news_failure c.budget reason
  rw [hbreach] at hquiet
  have hrequest := (a.vault.isRequest_of_request (.cleanup r.id)).subject?
  rw [he, Round.farewell_eq_verdict hr.toFollowed, hr.own]
  rw [hr.own] at hrequest
  have hone : Ended c.rounds (c.rounds.erase id) (verdict id (.error reason) ++ [])
      [(id, .error reason)] :=
    .cons _ hin (.of_quiet (fun _ => rfl) rfl)
  have hall := hone.surround (kept ++ [(a.vault.request (.cleanup id)).2.1])
    ((r.expected.map fun run => .signal (.abort run id reason)) ++ breach)
    (by rw [news_append, hkept, news_eq_nil (by simpa using hrequest)]; rfl)
    (by rw [news_append, news_signals, hquiet]; rfl)
  simpa [List.append_assoc] using hall

/-- A full round whose snapshot was stored ends together with the rounds that it overtakes. -/
theorem ended_complete_of_ok {c : Coordinator} {r : Round} {id : Nat} {now : Int} {a : Archive}
    {kept : List Event} {s : Snapshot}
    (hrounds : ∀ {i r}, c.rounds.find? i = some r → r.UnderWay i)
    (hin : c.rounds.contains id = true) (hr : r.Full id)
    (hfinal : finalize c.archive r now = (a, kept, .ok s)) :
    Ended c.rounds (c.complete r now).1.rounds (c.complete r now).2.1
      ((id, .ok s.info) :: (c.overtaken id).map fun i => (i, .error (.subsumed i id))) := by
  have hkept := news_finalize c.archive r now
  rw [hfinal] at hkept
  obtain ⟨budget, he⟩ := complete_of_ok hfinal
  obtain rfl := eq_draft_of_finalize hfinal
  have hrest := ended_abortRounds (c := { c with rounds := c.rounds.erase id, archive := a })
    (fun i => .subsumed i id)
    (overtaken { c with rounds := c.rounds.erase id, archive := a } id)
    (fun hfind => hrounds (Table.find?_of_find?_erase hfind))
    (nodup_keys_filter _ _).1 (nodup_keys_filter _ _).2
  have hall := (hrest.cons (.ok (draft c.archive r now).info) hin).surround kept
    (r.expected.map fun run => .signal (.complete run id)) hkept (by simp)
  obtain ⟨budget', hstate⟩ := abortRounds_state
    { c with rounds := c.rounds.erase id, archive := a } (fun i => .subsumed i id)
    (overtaken { c with rounds := c.rounds.erase id, archive := a } id)
  rw [he, Round.delivery_eq_verdict hr rfl, hr.own]
  rw [hstate] at hall
  rw [overtaken_erase] at hall ⊢
  simpa [List.append_assoc] using hall

/-- Completing a full round ends it, and perhaps others, of which none ends well. -/
theorem ended_complete {c : Coordinator} {r : Round} {id : Nat} (now : Int)
    (hrounds : ∀ {i r}, c.rounds.find? i = some r → r.UnderWay i)
    (hin : c.rounds.contains id = true) (hr : r.Full id) :
    ∃ ended, Ended c.rounds (c.complete r now).1.rounds (c.complete r now).2.1 ended ∧
      ∀ i info, (i, .ok info) ∈ ended → i = id ∧ info = (draft c.archive r now).info ∧
        (c.complete r now).2.2 = .ok .completes := by
  rcases hfinal : finalize c.archive r now with ⟨a, kept, reason | s⟩
  · exact ⟨_, ended_complete_of_error hin hr hfinal, by simp⟩
  · refine ⟨_, ended_complete_of_ok hrounds hin hr hfinal, fun i info hmem => ?_⟩
    obtain ⟨budget, he⟩ := complete_of_ok hfinal
    obtain rfl := eq_draft_of_finalize hfinal
    simp only [List.mem_cons, List.mem_map, Prod.mk.injEq, reduceCtorEq, and_false, exists_false,
      or_false, Except.ok.injEq] at hmem
    exact ⟨hmem.1, hmem.2, by rw [he]⟩

/-! ### What is heard of a step -/

/-- Rounds end in this moment, if any, and each one that ends well leaves its snapshot. -/
def Ends (m : Moment) : Prop :=
  ∃ ended, Ended m.before.rounds m.after.rounds m.events ended ∧
    ∀ id info, (id, .ok info) ∈ ended → ∃ s, Completes m id info s

theorem Ends.of_quiet {m : Moment} (hrounds : m.after.rounds = m.before.rounds)
    (hnews : news m.events = []) : Ends m := by
  refine ⟨[], .of_quiet (fun id => ?_) hnews, by simp⟩
  rw [hrounds]

/-- A moment in which no round ends well. -/
theorem Ends.of_errors {m : Moment} {ended : List (Nat × Outcome)}
    (h : Ended m.before.rounds m.after.rounds m.events ended)
    (herrors : ∀ e ∈ ended, ∃ reason, e.2 = .error reason) : Ends m := by
  refine ⟨ended, h, ?_⟩
  intro id info hmem
  obtain ⟨reason, hreason⟩ := herrors _ hmem
  cases hreason

variable {c c' : Coordinator} {request : Request} {events : List Event} {reply : Reply}

theorem ends_abortRound (hc : c.Orderly) {id : Nat} {reason : SnapshotError} {any : Bool}
    (h : c.abortRound id reason = (c', events, any)) : Ends ⟨c, request, events, reply, c'⟩ := by
  obtain ⟨ended, hended, herrors⟩ := ended_abortRound id reason hc.underWay
  rw [h] at hended
  exact .of_errors hended herrors

/-- An acknowledgment ends no round, or ends the one that it is for and those that it overtakes. -/
theorem ends_acknowledge (hc : c.Orderly) {id : Nat} {run : TaskRun} {state : Bytes} {now : Int}
    {result : Except SnapshotError AckResult}
    (h : c.acknowledge id run state now = (c', events, result)) :
    Ends ⟨c, .acknowledge id run state now, events, .acknowledged result, c'⟩ := by
  rcases acknowledge_cases c id run state now with ⟨-, he⟩ | ⟨r, hfind, ⟨r', hr', he⟩ | ⟨-, he⟩⟩
  · cases he.symm.trans h
    exact .of_quiet rfl rfl
  · have hunder := hc.underWay hfind
    have hid := hc.own_of_completes hfind hr'
    obtain ⟨-, -, -, hrecord, -⟩ := Round.acknowledge_eq_completes hr'
    obtain ⟨ended, hended, hok⟩ := ended_complete now hc.underWay
      (Table.contains_iff.2 ⟨r, hfind⟩) (hunder.full_of_completes hr')
    rw [← he, h] at hended hok
    refine ⟨ended, hended, fun i info hmem => ?_⟩
    obtain ⟨rfl, hinfo, rfl⟩ := hok i info hmem
    have hstep : c.step (.acknowledge i run state now) =
        .ok (c', events, .acknowledged (.ok .completes)) := by
      simp only [step, h]
    -- The round that the step completed is the one that was found here.
    obtain ⟨r₁, r₁', hfind₁, hr₁', hregisters⟩ :=
      completes_step (m := ⟨c, _, events, _, c'⟩) hstep rfl rfl
    cases hfind₁.symm.trans hfind
    cases hr₁'.symm.trans hr'
    exact ⟨_, hregisters, hid, hinfo.symm, ⟨r, hfind, by rw [hrecord]; rfl⟩, run, state, rfl⟩
  · -- The round stays, with another handle.
    cases he.symm.trans h
    refine ⟨[], .of_quiet (fun i => ?_) rfl, by simp⟩
    by_cases heq : i = id <;> simp [Table.contains, Table.find?_insert, heq, hfind]

/-- A task that cannot go on ends the rounds that wait for it. -/
theorem ends_update (hc : c.Orderly) {run : TaskRun} {state : TaskState}
    (h : c.update run state = (c', events)) : Ends ⟨c, request, events, reply, c'⟩ := by
  have hrounds := rounds_register c run state
  rcases update_cases c run state with ⟨-, he⟩ | ⟨-, he⟩
  · cases he.symm.trans h
    exact .of_quiet hrounds rfl
  · obtain ⟨hnodup, hin⟩ := nodup_keys_filter c.rounds fun entry => entry.2.awaits run
    have hended := ended_abortRounds (c := c.register run state) (fun id => .unreachable id run)
      (c.waitingFor run) (by rw [hrounds]; exact hc.underWay) hnodup (by rw [hrounds]; exact hin)
    rw [← he, h, hrounds] at hended
    exact .of_errors hended (by simp)

theorem ends_dispose {id : Nat} {result : Except SnapshotError Snapshot}
    (h : c.dispose id = (c', events, result)) : Ends ⟨c, request, events, reply, c'⟩ := by
  rcases dispose_cases c id with ⟨-, he⟩ | ⟨s, -, ⟨-, he⟩ | ⟨-, ⟨a, e, -, he⟩ |
    ⟨a, removed, vault, event, failure, -, hrequest, he⟩⟩⟩ <;> cases he.symm.trans h
  · exact .of_quiet rfl rfl
  · exact .of_quiet rfl rfl
  · exact .of_quiet rfl rfl
  · have hstorage := (a.vault.isRequest_of_request (.cleanup id)).subject?
    rw [hrequest] at hstorage
    exact .of_quiet rfl (news_eq_nil (by simpa using hstorage))

/-- Closing ends all rounds. -/
theorem ends_close (hc : c.Orderly) {status : JobStatus} {result : Except SnapshotError Unit}
    (h : c.close status = (c', events, result)) : Ends ⟨c, request, events, reply, c'⟩ := by
  rcases close_cases c status with ⟨-, he⟩ | ⟨-, budget, he⟩ <;> cases he.symm.trans h
  · exact .of_quiet rfl rfl
  · have hended := ended_abortRounds (c := { c with closed := true }) (fun id => .shutDown id)
      c.rounds.keys hc.underWay c.rounds.nodup_keys fun id hid => Table.mem_keys_iff.1 hid
    obtain ⟨budget', hstate⟩ := abortRounds_state { c with closed := true }
      (fun id => .shutDown id) c.rounds.keys
    rw [hstate] at hended
    have hstorage := news_eq_nil fun e he =>
      (Archive.isRequest_of_close c.archive status e he).subject?
    exact .of_errors (hended.surround [] _ rfl hstorage) (by simp)

/-- A moment opens the round of the next id, or ends some rounds and opens none. -/
theorem news_of_step {m : Moment} (hc : m.before.Orderly)
    (h : m.before.step m.request = .ok (m.after, m.events, m.reply)) :
    (∃ policy now, m.request = .trigger policy now ∧
      m.reply = .triggered (.ok m.before.nextId) ∧
      news m.events = [.notice (.triggered m.before.nextId now)] ∧
      m.before.rounds.contains m.before.nextId = false ∧
      m.after.nextId = m.before.nextId + 1 ∧
      m.after.rounds.size = m.before.rounds.size + 1 ∧
      ∀ id, m.after.rounds.contains id = true ↔
        id = m.before.nextId ∨ m.before.rounds.contains id = true) ∨
    ((∀ id, m.reply ≠ .triggered (.ok id)) ∧ Ends m) := by
  obtain ⟨c, request, events, reply, c'⟩ := m
  dsimp only at hc h ⊢
  cases Performs.of_step h with
  | register run state => exact Or.inr ⟨by simp, .of_quiet (rounds_register c run state) rfl⟩
  | trigger htrigger =>
    rename_i policy now answer
    rcases trigger_cases htrigger with ⟨reason, -, rfl, rfl, rfl⟩ | ⟨hobs, -, hlaunch, rfl⟩
    · exact Or.inr ⟨by simp, .of_quiet rfl rfl⟩
    · obtain ⟨rfl, rfl⟩ := Prod.mk.inj hlaunch
      have hnew : c.rounds.find? c.nextId = none := by
        by_contra hin
        obtain ⟨r, hfind⟩ := Option.ne_none_iff_exists'.1 hin
        exact lt_irrefl _ (hc.numbered hfind)
      refine Or.inl ⟨policy, now, rfl, rfl, ?_, Table.contains_eq_false_iff.2 hnew, rfl,
        Table.size_insert_of_find?_eq_none _ hnew, fun id => ?_⟩
      · exact congrArg (_ :: ·) (news_signals _ c.runs)
      · by_cases heq : id = c.nextId <;> simp [Table.contains, Table.find?_insert, heq]
  | acknowledge hack => exact Or.inr ⟨by simp, ends_acknowledge hc hack⟩
  | decline hdecline =>
    rename_i id run reason any
    refine Or.inr ⟨by simp, ?_⟩
    rcases decline_cases c id run reason with he | ⟨-, he⟩
    · cases he.symm.trans hdecline
      exact .of_quiet rfl rfl
    · exact ends_abortRound hc (he.symm.trans hdecline)
  | update hupdate => exact Or.inr ⟨by simp, ends_update hc hupdate⟩
  | expire habort => exact Or.inr ⟨by simp, ends_abortRound hc habort⟩
  | restore hrestore =>
    rename_i mode result
    obtain ⟨archive, nextId, -, hstate⟩ := restore_state c mode
    rw [hrestore] at hstate
    obtain rfl : c' = _ := hstate
    exact Or.inr ⟨by simp, .of_quiet rfl rfl⟩
  | dispose hdispose => exact Or.inr ⟨by simp, ends_dispose hdispose⟩
  | close hclose => exact Or.inr ⟨by simp, ends_close hc hclose⟩

end Coordinator

/-! ### The story of one checkpoint -/

/-- In this moment a checkpoint ends: its round leaves the table, and listeners and whoever waits
hear the same, either of the snapshot that the archive has accepted or of the reason why there is
none. -/
structure Settles (id : Nat) (m : Moment) : Prop where
  before : m.before.rounds.contains id = true
  after : m.after.rounds.contains id = false
  heard : (∃ s, m.Registers s ∧ s.id = id ∧ newsOf id m.events =
      [.notice (.completed id s.triggeredAt s.completedAt), .resolved id (.ok s.info)]) ∨
    ∃ reason, newsOf id m.events = [.notice (.aborted id reason), .resolved id (.error reason)]

/-- In these moments the round of a checkpoint stays in the table and nothing is heard of it. -/
def Pends (id : Nat) (moments : List Moment) : Prop :=
  ∀ m ∈ moments, m.after.rounds.contains id = true ∧ newsOf id m.events = []

/-- In these moments the round of a checkpoint stays out of the table and nothing is heard of it. -/
def Rests (id : Nat) (moments : List Moment) : Prop :=
  ∀ m ∈ moments, m.after.rounds.contains id = false ∧ newsOf id m.events = []

/-- From a trigger to the state `c`: the trigger is heard of and the round is there; either it is
still there and nothing more was heard, or the checkpoint has settled in one moment, before and
after which nothing was heard. -/
structure SettlesOnce (id : Nat) (past : List Moment) (trigger : Moment) (future : List Moment)
    (c : Coordinator) : Prop where
  fresh : Rests id past
  triggered : ∃ time, newsOf id trigger.events = [.notice (.triggered id time)]
  opened : trigger.after.rounds.contains id = true
  outcome : (c.rounds.contains id = true ∧ Pends id future) ∨
    (c.rounds.contains id = false ∧ ∃ waiting m rest, future = waiting ++ m :: rest ∧
      Pends id waiting ∧ Settles id m ∧ Rests id rest)

namespace Coordinator

/-- Of a round that is there, a moment brings no news, or the checkpoint settles in it. -/
theorem newsOf_of_contains {m : Moment} {id : Nat} (hc : m.before.Orderly)
    (h : m.before.step m.request = .ok (m.after, m.events, m.reply))
    (hin : m.before.rounds.contains id = true) :
    (m.after.rounds.contains id = true ∧ newsOf id m.events = []) ∨ Settles id m := by
  rcases news_of_step hc h with ⟨policy, now, -, -, hnews, hnew, -, -, hrounds⟩ |
    ⟨-, ended, hended, hcompletes⟩
  · refine Or.inl ⟨(hrounds id).2 (Or.inr hin), ?_⟩
    have hne : m.before.nextId ≠ id := fun heq => by
      rw [heq, hin] at hnew
      cases hnew
    rw [← newsOf_news, hnews]
    simp [newsOf, Event.subject?, hne]
  · by_cases hmem : id ∈ ended.map (·.1)
    · obtain ⟨⟨i, outcome⟩, hpair, rfl⟩ := List.mem_map.1 hmem
      refine Or.inr ⟨hin, ?_, ?_⟩
      · exact Bool.eq_false_iff.2 fun hafter => ((hended.rounds i).1 hafter).2 hmem
      · have hnews := hended.newsOf_eq_verdict hpair
        cases outcome with
        | error reason => exact Or.inr ⟨reason, hnews⟩
        | ok info =>
          obtain ⟨s, hs⟩ := hcompletes i info hpair
          obtain rfl := hs.info
          exact Or.inl ⟨s, hs.registers, hs.own, hnews⟩
    · exact Or.inl ⟨(hended.rounds id).2 ⟨hin, hmem⟩, hended.newsOf_eq_nil hmem⟩

/-- Of a round that is not there, a moment brings no news if its id was handed out before or
still is not. -/
theorem newsOf_of_not_contains {m : Moment} {id : Nat} (hc : m.before.Orderly)
    (h : m.before.step m.request = .ok (m.after, m.events, m.reply))
    (hid : id < m.before.nextId ∨ m.after.nextId ≤ id)
    (hout : m.before.rounds.contains id = false) :
    m.after.rounds.contains id = false ∧ newsOf id m.events = [] := by
  rcases news_of_step hc h with ⟨policy, now, -, -, hnews, -, hnext, -, hrounds⟩ |
    ⟨-, ended, hended, -⟩
  · have hne : m.before.nextId ≠ id := by omega
    refine ⟨Bool.eq_false_iff.2 fun hafter => ?_, ?_⟩
    · rcases (hrounds id).1 hafter with heq | hin
      · exact hne heq.symm
      · rw [hout] at hin
        cases hin
    · rw [← newsOf_news, hnews]
      simp [newsOf, Event.subject?, hne]
  · refine ⟨Bool.eq_false_iff.2 fun hafter => ?_, hended.newsOf_eq_nil fun hmem => ?_⟩
    · have hin := ((hended.rounds id).1 hafter).1
      rw [hout] at hin
      cases hin
    · have hin := hended.present id hmem
      rw [hout] at hin
      cases hin

variable {outside : Vault → Vault → Prop} {start c : Coordinator} {history : List Moment}

/-- Nothing is heard of an id before it is handed out. -/
theorem rests_of_nextId_le (h : Run outside start history c) (hstart : start.Orderly)
    {id : Nat} (hid : c.nextId ≤ id) : Rests id history := by
  induction h with
  | nil => simp [Rests]
  | @snoc past c c' vault request events reply run change step ih =>
    have horderly := (Orderly.of_run run hstart).1.withVault vault
    have hle : (c.withVault vault).nextId ≤ c'.nextId := nextId_le_step horderly step
    replace hle : c.nextId ≤ c'.nextId := hle
    have hout : (c.withVault vault).rounds.contains id = false := by
      refine Table.contains_eq_false_iff.2 (Option.eq_none_iff_forall_ne_some.2 fun r hfind => ?_)
      have hlt : id < c.nextId := horderly.numbered hfind
      omega
    refine List.forall_mem_append.2 ⟨ih (by omega), List.forall_mem_singleton.2 ?_⟩
    exact newsOf_of_not_contains (m := ⟨_, _, _, _, _⟩) horderly step (Or.inr hid) hout

/-- From a state in which the round of a checkpoint is there, the checkpoint pends or settles in
one moment. -/
theorem pending_or_settled {d : Coordinator} (h : Run outside d history c) (hd : d.Orderly)
    {id : Nat} (hin : d.rounds.contains id = true) :
    (c.rounds.contains id = true ∧ Pends id history) ∨
    (c.rounds.contains id = false ∧ ∃ waiting m rest, history = waiting ++ m :: rest ∧
      Pends id waiting ∧ Settles id m ∧ Rests id rest) := by
  induction h with
  | nil => exact Or.inl ⟨hin, by simp [Pends]⟩
  | @snoc past c c' vault request events reply run change step ih =>
    have horderly := (Orderly.of_run run hd).1.withVault vault
    rcases ih with ⟨hthere, hpends⟩ | ⟨hgone, waiting, m, rest, rfl, hpends, hsettles, hrests⟩
    · rcases newsOf_of_contains (m := ⟨_, _, _, _, _⟩) horderly step hthere with hpend | hsettle
      · exact Or.inl ⟨hpend.1,
          List.forall_mem_append.2 ⟨hpends, List.forall_mem_singleton.2 hpend⟩⟩
      · exact Or.inr ⟨hsettle.after, past, _, [], rfl, hpends, hsettle, by simp [Rests]⟩
    · -- The id was handed out long ago, so the step cannot open a round for it again.
      have hlt : id < c.nextId := by
        obtain ⟨r, hfind⟩ := Table.contains_iff.1 hin
        exact lt_of_lt_of_le (hd.numbered hfind) (nextId_le_of_run run hd)
      have hquiet := newsOf_of_not_contains (m := ⟨_, _, _, _, _⟩) horderly step
        (Or.inl hlt) hgone
      refine Or.inr ⟨hquiet.1, waiting, m, rest ++ [_], List.append_assoc .., hpends, hsettles, ?_⟩
      exact List.forall_mem_append.2 ⟨hrests, List.forall_mem_singleton.2 hquiet⟩

end Coordinator

/-! ### The main statement -/

/-- When a request triggers a checkpoint. -/
def Request.triggerTime? : Request → Option Int
  | .trigger _ time => some time
  | _ => none

/-- When a request acknowledges a checkpoint. -/
def Request.ackTime? : Request → Option Int
  | .acknowledge _ _ _ now => some now
  | _ => none

/-- The differences between the times of acknowledgments and of triggers are timestamps. -/
def TimesFit (requests : List Request) : Prop :=
  ∀ time ∈ requests.filterMap Request.triggerTime?, ∀ now ∈ requests.filterMap Request.ackTime?,
    Word.IsSigned (now - time)

instance (requests : List Request) : Decidable (TimesFit requests) :=
  inferInstanceAs (Decidable (∀ time ∈ _, ∀ now ∈ _, Word.IsSigned (now - time)))

theorem TimesFit.of_append {past future : List Request} (h : TimesFit (past ++ future)) :
    TimesFit past := fun time htime now hnow =>
  h time (by simp [List.filterMap_append, htime]) now (by simp [List.filterMap_append, hnow])

open Coordinator in
/-- Statistics that listen from the start hear everything without overflow, and count every
checkpoint as completed, aborted or under way. -/
theorem statistics_of_run {outside : Vault → Vault → Prop} {start c : Coordinator}
    {history : List Moment} (h : Run outside start history c) (hstart : start.Orderly)
    (hempty : start.rounds = ∅) (htimes : TimesFit (history.map (·.request))) :
    ∃ stats, Statistics.empty.observeAll (history.flatMap (·.events)) = .ok stats ∧
      stats.triggered = stats.completed + stats.aborted + c.rounds.size := by
  induction h with
  | nil => exact ⟨_, rfl, by rw [hempty]; rfl⟩
  | @snoc past c c' vault request events reply run change step ih =>
    rw [List.map_append] at htimes
    obtain ⟨stats, hstats, hbalance⟩ := ih htimes.of_append
    have horderly := (Orderly.of_run run hstart).1.withVault vault
    rw [List.flatMap_append, Statistics.observeAll_append, hstats, List.flatMap_singleton]
    show ∃ stats', stats.observeAll events = .ok stats' ∧ _
    rw [← stats.observeAll_news]
    rcases news_of_step (m := ⟨_, _, _, _, _⟩) horderly step with
      ⟨policy, now, -, -, hnews, -, -, hsize, -⟩ | ⟨-, ended, hended, hcompletes⟩
    · dsimp only at hnews hsize
      rw [hnews]
      refine ⟨_, rfl, ?_⟩
      show stats.triggered + 1 = stats.completed + stats.aborted + c'.rounds.size
      have hsize : c'.rounds.size = c.rounds.size + 1 := hsize
      omega
    · have hnews := hended.news
      have hsize : c'.rounds.size + ended.length = c.rounds.size := hended.size
      dsimp only at hnews
      rw [hnews]
      obtain ⟨stats', hstats', htriggered, hsum⟩ := stats.observeAll_verdicts ended
        fun id info hmem => by
          obtain ⟨s, hs⟩ := hcompletes id info hmem
          obtain ⟨r, hfind, htime⟩ := hs.round
          obtain ⟨run', state, hreq⟩ := hs.request
          -- The duration lies between a trigger of the past and this acknowledgment.
          obtain ⟨⟨trigger, ht, hopens⟩, -⟩ := (traced_of_run run hstart hempty).1 hfind
          rw [← hs.info]
          show Word.IsSigned (s.completedAt - s.triggeredAt)
          rw [htime]
          refine htimes _ (List.mem_filterMap.2 ⟨trigger.request, ?_, ?_⟩) _
            (List.mem_filterMap.2 ⟨request, by simp, by rw [show request = _ from hreq]; rfl⟩)
          · exact List.mem_append_left _ (List.mem_map_of_mem ht)
          · rw [hopens.request]; rfl
      refine ⟨stats', hstats', ?_⟩
      show stats'.triggered = stats'.completed + stats'.aborted + c'.rounds.size
      omega

/-- Every checkpoint settles exactly once and everybody hears the same outcome, in every run and
whatever storage refuses or the outside does to it; the statistics count each checkpoint as
triggered once, and as completed, aborted or under way. -/
theorem settles_exactly_once {settings : Settings} {archive : Archive} {hasHandler : Bool}
    {outside : Vault → Vault → Prop} {start c : Coordinator} {history : List Moment}
    (hopen : Coordinator.open? settings archive hasHandler = .ok start)
    (hrun : Run outside start history c) :
    (∀ past trigger future id, history = past ++ trigger :: future →
      trigger.reply = .triggered (.ok id) → SettlesOnce id past trigger future c) ∧
    (TimesFit (history.map (·.request)) → ∃ stats,
      Statistics.empty.observeAll (history.flatMap (·.events)) = .ok stats ∧
      stats.triggered = stats.completed + stats.aborted + c.rounds.size ∧
      stats.inProgress = c.rounds.size) := by
  have hstart := Coordinator.orderly_of_open hopen
  have hempty := Coordinator.rounds_of_open hopen
  refine ⟨fun past trigger future id hsplit hreply => ?_, fun htimes => ?_⟩
  · subst hsplit
    obtain ⟨d, vault, hpast, -, hbefore, hstep, hfuture⟩ := hrun.moment
    have horderly : trigger.before.Orderly := by
      rw [hbefore]
      exact (Coordinator.Orderly.of_run hpast hstart).1.withVault vault
    rcases Coordinator.news_of_step horderly hstep with
      ⟨policy, now, -, hanswer, hnews, -, -, -, hrounds⟩ | ⟨hno, -⟩
    · cases hreply.symm.trans hanswer
      refine ⟨?_, ⟨now, ?_⟩, (hrounds _).2 (Or.inl rfl), ?_⟩
      · exact Coordinator.rests_of_nextId_le hpast hstart (by rw [hbefore]; exact le_rfl)
      · rw [← newsOf_news, hnews]
        simp [newsOf, Event.subject?]
      · exact Coordinator.pending_or_settled hfuture (horderly.step hstep)
          ((hrounds _).2 (Or.inl rfl))
    · exact absurd hreply (hno id)
  · obtain ⟨stats, hstats, hbalance⟩ := statistics_of_run hrun hstart hempty htimes
    exact ⟨stats, hstats, hbalance, by rw [Statistics.inProgress]; omega⟩

theorem settles_exactly_once_after_restart :
    ∃ start c past trigger future stats,
      Coordinator.open? .default ⟨.of (.memory ∅) .none, .empty 1⟩ false = .ok start ∧
      start.perform restartRequests = (past ++ trigger :: future, c) ∧
      SettlesOnce 1 past trigger future c ∧
      Statistics.empty.observeAll ((past ++ trigger :: future).flatMap (·.events)) = .ok stats ∧
      stats.triggered = stats.completed + stats.aborted + c.rounds.size ∧
      stats.inProgress = c.rounds.size := by
  obtain ⟨start, c, past, trigger, future, hopen, hperform, hreply, hrequests⟩ :
      ∃ start c past trigger future,
        Coordinator.open? .default ⟨.of (.memory ∅) .none, .empty 1⟩ false = .ok start ∧
        start.perform restartRequests = (past ++ trigger :: future, c) ∧
        trigger.reply = .triggered (.ok 1) ∧
        (past ++ trigger :: future).map (·.request) = restartRequests :=
    ⟨_, _, [_, _], _, _, rfl, rfl, rfl, rfl⟩
  have hrun : Run Eq start _ _ := Run.of_perform (fun _ => rfl) start restartRequests
  rw [hperform] at hrun
  obtain ⟨hsettles, hstatistics⟩ := settles_exactly_once hopen hrun
  obtain ⟨stats, hstats⟩ := hstatistics (by rw [hrequests]; decide)
  exact ⟨start, c, past, trigger, future, stats, hopen, hperform,
    hsettles past trigger future 1 rfl hreply, hstats⟩

end Checkpointing
