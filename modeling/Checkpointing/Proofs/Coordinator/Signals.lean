import Mathlib.Tactic
import Checkpointing.Proofs.Coordinator.Shelf
import Checkpointing.Proofs.Coordinator.Subsumption

/-!
# The signals of a checkpoint

What the tasks are told of one checkpoint: those that take part are asked to, and then all of them
are told that it has its snapshot, or those that it still waits for are told that it has none.

* `signalsOf` selects the signals about one checkpoint;
* `signalsOf_abortRounds`: those who still owe something to a round hear that it is aborted;
* `Tells` lists what a step can tell; `Tells.of_step` says that it tells nothing else;
* `Moment.Dismisses` is the end of a round; `dismisses_of_step`: the tasks hear of it when the round
  leaves the table, and `signalsOf_eq_nil_of_step`: otherwise they hear nothing;
* `Conversation` is the story of one checkpoint; `silent_of_nextId_le`, `silent_of_pends` and
  `silent_of_isOver` are the inductions over the parts of a run in which nothing is sent;
* `signals_are_consistent` is the main statement.
-/

namespace Checkpointing

/-- The signals about one checkpoint, in the order in which they are sent. -/
def signalsOf (id : Nat) (events : List Event) : List Signal :=
  (events.filterMap Event.signal?).filter fun s => s.id == id

@[simp]
theorem signalsOf_nil (id : Nat) : signalsOf id [] = [] := rfl

@[simp]
theorem signalsOf_append (id : Nat) (l l' : List Event) :
    signalsOf id (l ++ l') = signalsOf id l ++ signalsOf id l' := by
  simp [signalsOf]

theorem signalsOf_eq_nil {events : List Event} (h : ∀ e ∈ events, e.signal? = none) (id : Nat) :
    signalsOf id events = [] := by
  rw [signalsOf, List.filterMap_eq_nil_iff.2 h, List.filter_nil]

theorem signalsOf_cons {e : Event} (h : e.signal? = none) (id : Nat) (events : List Event) :
    signalsOf id (e :: events) = signalsOf id events := by
  rw [signalsOf, List.filterMap_cons_none h, ← signalsOf]

/-- Of signals that are about one checkpoint, each is about that one or none is. -/
theorem signalsOf_map {α : Type} (f : Nat → α → Signal) (h : ∀ i a, (f i a).id = i) (id i : Nat)
    (l : List α) :
    signalsOf id (l.map fun a => .signal (f i a)) = if id = i then l.map (f id) else [] := by
  have hsignals : (l.map fun a => Event.signal (f i a)).filterMap Event.signal? = l.map (f i) := by
    rw [List.filterMap_map]
    exact congrFun List.filterMap_eq_map l
  rw [signalsOf, hsignals]
  split
  · next heq =>
    rw [heq]
    exact List.filter_eq_self.2 (by simp [h])
  · next hne => exact List.filter_eq_nil_iff.2 (by simp [h, Ne.symm hne])

/-- Some runs are told that a checkpoint is over without a snapshot. -/
theorem signalsOf_aborts (id i : Nat) (reason : SnapshotError) (runs : List TaskRun) :
    signalsOf i (runs.map fun run => .signal (.abort run id reason)) =
      if i = id then runs.map fun run => .abort run i reason else [] :=
  signalsOf_map (fun i run => .abort run i reason) (fun _ _ => rfl) i id runs

theorem signalsOf_requests {events : List Event} (h : ∀ e ∈ events, e.IsRequest) (id : Nat) :
    signalsOf id events = [] := by
  refine signalsOf_eq_nil (fun e he => ?_) id
  obtain ⟨call, refused, rfl⟩ := h e he
  rfl

theorem signalsOf_verdict (i id : Nat) (outcome : Outcome) :
    signalsOf i (verdict id outcome) = [] := by
  cases outcome <;> rfl

theorem signalsOf_failure (b : FailureBudget) (reason : SnapshotError) (id : Nat) :
    signalsOf id (b.failure reason).2 = [] := by
  unfold FailureBudget.failure
  dsimp only
  split_ifs <;> rfl

namespace Coordinator

variable {c c' : Coordinator} {request : Request} {events : List Event} {reply : Reply}

/-! ### Rounds that are aborted -/

/-- Who still owes an acknowledgment to the round of an id. -/
def owing (c : Coordinator) (id : Nat) : List TaskRun :=
  ((c.rounds.find? id).map Round.owed).getD []

theorem owing_of_find? {id : Nat} {r : Round} (h : c.rounds.find? id = some r) :
    c.owing id = r.owed := by
  simp [owing, h]

theorem owing_of_not_contains {id : Nat} (h : c.rounds.contains id = false) : c.owing id = [] := by
  simp [owing, Table.contains_eq_false_iff.1 h]

/-- Nobody owes anything to a round that was taken away. -/
theorem owing_of_erase {id : Nat} (h : c'.rounds = c.rounds.erase id) (i : Nat) :
    c'.owing i = if i = id then [] else c.owing i := by
  rw [owing, h, Table.find?_erase]
  split
  · rfl
  · rw [owing]

theorem signalsOf_abortRound (hrounds : ∀ {id r}, c.rounds.find? id = some r → r.UnderWay id)
    (id : Nat) (reason : SnapshotError) (i : Nat) :
    signalsOf i (c.abortRound id reason).2.1 =
      if i = id then (c.owing i).map fun run => .abort run i reason else [] := by
  cases hfind : c.rounds.find? id with
  | none =>
    have hquiet : c.abortRound id reason = (c, [], false) := by simp [abortRound, hfind]
    rw [hquiet]
    split
    · next heq => simp [heq, owing, hfind]
    · rfl
  | some r =>
    obtain ⟨budget, breach, hbreach, he⟩ := abortRound_of_find? hfind (hrounds hfind) reason
    have hquiet := signalsOf_failure c.budget reason i
    rw [hbreach] at hquiet
    rw [he, signalsOf_append, signalsOf_append, signalsOf_verdict, hquiet,
      signalsOf_aborts, List.nil_append, List.append_nil]
    split
    · next heq => rw [heq, owing_of_find? hfind]
    · rfl

theorem signalsOf_abortRounds (hrounds : ∀ {id r}, c.rounds.find? id = some r → r.UnderWay id)
    (reason : Nat → SnapshotError) (ids : List Nat) (i : Nat) :
    signalsOf i (c.abortRounds reason ids).2 =
      if i ∈ ids then (c.owing i).map fun run => .abort run i (reason i) else [] := by
  induction ids generalizing c with
  | nil => rfl
  | cons id ids ih =>
    obtain ⟨budget, hstate⟩ := abortRound_state c id (reason id)
    have hrest := ih (c := (c.abortRound id (reason id)).1) fun {i r} hfind => by
      rw [hstate] at hfind
      exact hrounds (Table.find?_of_find?_erase hfind)
    have hgone : (c.abortRound id (reason id)).1.rounds = c.rounds.erase id := by rw [hstate]
    show signalsOf i ((c.abortRound id (reason id)).2.1 ++
      ((c.abortRound id (reason id)).1.abortRounds reason ids).2) = _
    rw [signalsOf_append, signalsOf_abortRound hrounds, hrest, owing_of_erase hgone]
    -- Once the round is gone nobody is told again.
    by_cases hid : i = id <;> simp [hid]

/-! ### What a step can tell -/

/-- What a step tells the tasks of each checkpoint, and what it does to the rounds. -/
inductive Tells (c : Coordinator) (request : Request) (c' : Coordinator) (events : List Event)
    (reply : Reply) : Prop
  /-- A round is opened, and everybody who takes part is asked to. -/
  | opened {policy : SnapshotPolicy} {now : Int} (asked : request = .trigger policy now)
      (answered : reply = .triggered (.ok c.nextId)) (next : c'.nextId = c.nextId + 1)
      (rounds : c'.rounds =
        c.rounds.insert c.nextId (Round.start c.nextId policy now c.runs [relay]).takeFuture)
      (told : ∀ i, signalsOf i events =
        if i = c.nextId then c.runs.map fun run => .trigger run i now policy else [])
  /-- Rounds are aborted, if any, and those that they wait for are told. -/
  | dropped (ids : List Nat) (reason : Nat → SnapshotError)
      (unopened : ∀ id, reply ≠ .triggered (.ok id))
      (asked : ∀ id run state now, request = .acknowledge id run state now →
        c.rounds.contains id = false)
      (rounds : c'.rounds = c.rounds.eraseAll ids)
      (told : ∀ i, signalsOf i events =
        if i ∈ ids then (c.owing i).map fun run => .abort run i (reason i) else [])
  /-- A round goes on after an acknowledgment. -/
  | recorded {id : Nat} {r r' : Round} {result : AckResult}
      (answered : reply = .acknowledged (.ok result)) (there : c.rounds.find? id = some r)
      (rounds : c'.rounds = c.rounds.insert id r') (told : ∀ i, signalsOf i events = [])
  /-- The snapshot of a full round could not be stored, and all who took part are told. -/
  | failed {id : Nat} {run : TaskRun} {state : Bytes} {now : Int} {r : Round}
      {reason : SnapshotError} (asked : request = .acknowledge id run state now)
      (answered : reply = .acknowledged (.error reason)) (there : c.rounds.find? id = some r)
      (rounds : c'.rounds = c.rounds.erase id)
      (told : ∀ i, signalsOf i events =
        if i = id then r.expected.map fun run => .abort run i reason else [])
  /-- The snapshot of a full round was stored, and all who took part are told; so are those that
  older rounds still wait for. -/
  | finished {id : Nat} {run : TaskRun} {state : Bytes} {now : Int} {r : Round}
      (asked : request = .acknowledge id run state now)
      (answered : reply = .acknowledged (.ok .completes)) (there : c.rounds.find? id = some r)
      (rounds : c'.rounds = (c.rounds.erase id).eraseAll (c.overtaken id))
      (told : ∀ i, signalsOf i events =
        if i = id then r.expected.map fun run => .complete run i
        else if i ∈ c.overtaken id then
          (c.owing i).map fun run => .abort run i (.subsumed i id)
        else [])

/-- A step that changes no round and tells nobody. -/
theorem Tells.of_quiet (hreply : ∀ id, reply ≠ .triggered (.ok id))
    (hasked : ∀ id run state now, request = .acknowledge id run state now →
      c.rounds.contains id = false)
    (hrounds : c'.rounds = c.rounds) (htold : ∀ i, signalsOf i events = []) :
    Tells c request c' events reply :=
  .dropped [] (fun id => .expired id) hreply hasked hrounds (by simp [htold])

theorem tells_abortRound (hc : c.Orderly) {id : Nat} {reason : SnapshotError} {any : Bool}
    (h : c.abortRound id reason = (c', events, any)) (hreply : ∀ id, reply ≠ .triggered (.ok id))
    (hasked : ∀ id run state now, request ≠ .acknowledge id run state now) :
    Tells c request c' events reply := by
  obtain ⟨budget, hstate⟩ := abortRound_state c id reason
  have htold := signalsOf_abortRound hc.underWay id reason
  rw [h] at hstate htold
  obtain rfl : c' = _ := hstate
  refine .dropped [id] (fun _ => reason) hreply
    (fun i run state now hi => absurd hi (hasked i run state now)) rfl fun i => ?_
  simpa using htold i

theorem tells_acknowledge (hc : c.Orderly) {id : Nat} {run : TaskRun} {state : Bytes} {now : Int}
    {result : Except SnapshotError AckResult}
    (h : c.acknowledge id run state now = (c', events, result)) :
    Tells c (.acknowledge id run state now) c' events (.acknowledged result) := by
  rcases acknowledge_cases c id run state now with ⟨hnone, he⟩ | ⟨r, hfind, ⟨r', hr', he⟩ | ⟨-, he⟩⟩
  · cases he.symm.trans h
    refine .of_quiet (by simp) (fun i _ _ _ hi => ?_) rfl fun _ => rfl
    cases hi
    exact Table.contains_eq_false_iff.2 hnone
  · have hfull := (hc.underWay hfind).full_of_completes hr'
    have hkept := isRequest_of_finalize c.archive r' now
    rcases hfinal : finalize c.archive r' now with ⟨a, kept, reason | s⟩ <;> rw [hfinal] at hkept
    · obtain ⟨budget, breach, hbreach, hfailed⟩ := complete_of_error hfinal
      cases hfailed.symm.trans (he.symm.trans h)
      obtain ⟨-, -, -, rfl, -⟩ := Round.acknowledge_eq_completes hr'
      have hquiet := fun i => signalsOf_failure c.budget reason i
      rw [hbreach] at hquiet
      refine .failed rfl rfl hfind (by rw [hfull.own]) fun i => ?_
      obtain ⟨call, refused, hcleanup⟩ := a.vault.isRequest_of_request (.cleanup id)
      rw [Round.farewell_eq_verdict hfull.toFollowed, hfull.own, signalsOf_append,
        signalsOf_cons (by rw [hcleanup]; rfl), signalsOf_append, signalsOf_append,
        signalsOf_requests hkept, signalsOf_verdict, signalsOf_aborts, hquiet, List.append_nil]
      rfl
    · obtain ⟨budget, hstored⟩ := complete_of_ok hfinal
      cases hstored.symm.trans (he.symm.trans h)
      obtain ⟨-, -, -, rfl, -⟩ := Round.acknowledge_eq_completes hr'
      obtain rfl := eq_draft_of_finalize hfinal
      have habort := fun i => signalsOf_abortRounds
        (c := { c with rounds := c.rounds.erase id, archive := a })
        (fun hfind => hc.underWay (Table.find?_of_find?_erase hfind))
        (fun i => .subsumed i id) (c.overtaken id) i
      refine .finished rfl rfl hfind (by rw [hfull.own, overtaken_erase]) fun i => ?_
      rw [hfull.own, overtaken_erase, Round.delivery_eq_verdict hfull rfl, signalsOf_append,
        signalsOf_append, signalsOf_append, signalsOf_requests hkept, signalsOf_verdict, habort,
        signalsOf_map (fun i run => .complete run i) (fun _ _ => rfl), owing_of_erase (c := c) rfl]
      by_cases hid : i = id
      · have hnot : id ∉ c.overtaken id := by simp [mem_overtaken]
        simp [hid, hnot, Round.record]
      · simp [hid]
  · cases he.symm.trans h
    exact .recorded rfl hfind rfl fun _ => rfl

theorem Tells.of_step (hc : c.Orderly) (h : c.step request = .ok (c', events, reply)) :
    Tells c request c' events reply := by
  cases Performs.of_step h with
  | register run state =>
    exact .of_quiet (by simp) (by simp) (rounds_register c run state) fun _ => rfl
  | trigger htrigger =>
    rename_i policy now answer
    rcases trigger_cases htrigger with ⟨reason, -, rfl, rfl, rfl⟩ | ⟨-, -, hlaunch, rfl⟩
    · exact .of_quiet (by simp) (by simp) rfl fun _ => rfl
    · obtain ⟨rfl, rfl⟩ := Prod.mk.inj hlaunch
      refine .opened rfl rfl rfl rfl fun i => ?_
      rw [signalsOf_cons rfl]
      exact signalsOf_map (fun i run => .trigger run i now policy) (fun _ _ => rfl) i c.nextId
        c.runs
  | acknowledge hack => exact tells_acknowledge hc hack
  | decline hdecline =>
    rename_i id run reason any
    rcases decline_cases c id run reason with he | ⟨-, he⟩
    · cases he.symm.trans hdecline
      exact .of_quiet (by simp) (by simp) rfl fun _ => rfl
    · exact tells_abortRound hc (he.symm.trans hdecline) (by simp) (by simp)
  | update hupdate =>
    rename_i run state
    rcases update_cases c run state with ⟨-, he⟩ | ⟨-, he⟩
    · cases he.symm.trans hupdate
      exact .of_quiet (by simp) (by simp) (rounds_register c run state) fun _ => rfl
    · have hrounds := rounds_register c run state
      obtain ⟨budget, hstate⟩ := abortRounds_state (c.register run state)
        (fun id => .unreachable id run) (c.waitingFor run)
      have htold := signalsOf_abortRounds (c := c.register run state)
        (by rw [hrounds]; exact hc.underWay) (fun id => .unreachable id run) (c.waitingFor run)
      have howing : ∀ i, (c.register run state).owing i = c.owing i := by simp [owing]
      simp only [← he, hupdate, howing] at hstate htold
      obtain rfl : c' = _ := hstate
      exact .dropped _ _ (by simp) (by simp) (by rw [hrounds]) htold
  | expire habort => exact tells_abortRound hc habort (by simp) (by simp)
  | restore hrestore =>
    rename_i mode result
    obtain ⟨archive, nextId, -, hstate⟩ := restore_state c mode
    rw [hrestore] at hstate
    obtain rfl : c' = _ := hstate
    exact .of_quiet (by simp) (by simp) rfl fun _ => rfl
  | dispose hdispose =>
    rename_i id result
    rcases dispose_cases c id with ⟨-, he⟩ | ⟨s, -, ⟨-, he⟩ | ⟨-, ⟨a, e, -, he⟩ |
      ⟨a, removed, vault, event, failure, -, hrequest, he⟩⟩⟩ <;> cases he.symm.trans hdispose
    · exact .of_quiet (by simp) (by simp) rfl fun _ => rfl
    · exact .of_quiet (by simp) (by simp) rfl fun _ => rfl
    · exact .of_quiet (by simp) (by simp) rfl fun _ => rfl
    · have hstorage := a.vault.isRequest_of_request (.cleanup id)
      rw [hrequest] at hstorage
      exact .of_quiet (by simp) (by simp) rfl (signalsOf_requests (by simpa using hstorage))
  | close hclose =>
    rename_i status result
    rcases close_cases c status with ⟨-, he⟩ | ⟨-, budget, he⟩ <;> cases he.symm.trans hclose
    · exact .of_quiet (by simp) (by simp) rfl fun _ => rfl
    · have htold := signalsOf_abortRounds (c := { c with closed := true }) hc.underWay
        (fun id => .shutDown id) c.rounds.keys
      refine .dropped c.rounds.keys (fun id => .shutDown id) (by simp) (by simp) rfl fun i => ?_
      rw [signalsOf_append, signalsOf_requests (Archive.isRequest_of_close c.archive status),
        List.append_nil]
      exact htold i

/-! ### The participants -/

/-- The current runs stand in ascending order. -/
theorem Orderly.pairwise_runs (hc : c.Orderly) :
    c.runs.Pairwise fun r s => compare r s = .lt := by
  have hruns : c.runs = c.tasks.entries.map fun e => e.2.1 := List.map_map
  rw [hruns]
  refine List.pairwise_map.2 (c.tasks.ascending.imp_of_mem fun {a b} ha hb hlt => ?_)
  obtain ⟨slot, run, state⟩ := a
  obtain ⟨slot', run', state'⟩ := b
  have hseat : run.slot = slot := hc.seated ((Table.mem_entries_iff _).1 ha)
  have hseat' : run'.slot = slot' := hc.seated ((Table.mem_entries_iff _).1 hb)
  subst hseat hseat'
  exact TaskRun.lt_of_slot_lt hlt

/-- The participants of a new round are the current runs. -/
theorem Orderly.sortDistinct_runs (hc : c.Orderly) : TaskRun.sortDistinct c.runs = c.runs :=
  TaskRun.sortDistinct_of_pairwise hc.pairwise_runs

theorem Orderly.nodup_runs (hc : c.Orderly) : c.runs.Nodup := by
  rw [← hc.sortDistinct_runs]
  exact Table.nodup_keys _

end Coordinator

/-! ### How a round ends -/

/-- In this moment the round of a checkpoint leaves the table.  All participants hear that it has
its snapshot, exactly if that was stored; or all of them hear that it could not be stored; or those
who still owe an acknowledgment hear that the round was aborted. -/
inductive Moment.Dismisses (m : Moment) (id : Nat) (participants owing : List TaskRun) : Prop
  | completed (done : m.Completed id) (stored : ∃ s, m.Registers s ∧ s.id = id)
      (told : signalsOf id m.events = participants.map fun run => .complete run id)
  | failed (reason : SnapshotError)
      (asked : ∃ run state now, m.request = .acknowledge id run state now)
      (answered : m.reply = .acknowledged (.error reason))
      (unstored : ∀ s ∈ m.after.archive.snapshots, s.id ≠ id)
      (told : signalsOf id m.events = participants.map fun run => .abort run id reason)
  | aborted (reason : SnapshotError)
      (asked : ∀ run state now, m.request ≠ .acknowledge id run state now)
      (unstored : ∀ s ∈ m.after.archive.snapshots, s.id ≠ id)
      (told : signalsOf id m.events = owing.map fun run => .abort run id reason)

namespace Coordinator

section

variable {m : Moment} {id : Nat}

/-- Nobody is told anything of a round that is not there or that stays. -/
theorem signalsOf_eq_nil_of_step (hc : m.before.Orderly)
    (h : m.before.step m.request = .ok (m.after, m.events, m.reply))
    (hid : id < m.before.nextId ∨ m.after.nextId ≤ id)
    (hround : m.before.rounds.contains id = false ∨ m.after.rounds.contains id = true) :
    signalsOf id m.events = [] := by
  cases Tells.of_step hc h with
  | opened asked answered next rounds told =>
    rw [told, if_neg (by omega)]
  | dropped ids reason unopened asked rounds told =>
    rw [told]
    split
    · next hmem =>
      rcases hround with hout | hin
      · rw [owing_of_not_contains hout]
        rfl
      · rw [rounds, Table.contains_eraseAll] at hin
        exact absurd hmem hin.2
    · rfl
  | recorded answered there rounds told => exact told id
  | failed asked answered there rounds told =>
    rw [told, if_neg]
    rintro rfl
    rcases hround with hout | hin
    · exact Table.ne_of_contains_eq_false hout there rfl
    · rw [rounds, Table.contains_erase] at hin
      exact hin.2 rfl
  | finished asked answered there rounds told =>
    rename_i i run state now r
    have hne : id ≠ i := by
      rintro rfl
      rcases hround with hout | hin
      · exact Table.ne_of_contains_eq_false hout there rfl
      · rw [rounds, Table.contains_eraseAll, Table.contains_erase] at hin
        exact hin.1.2 rfl
    rw [told, if_neg hne]
    split
    · next hmem =>
      rcases hround with hout | hin
      · rw [owing_of_not_contains hout]
        rfl
      · rw [rounds, Table.contains_eraseAll] at hin
        exact absurd hmem hin.2
    · rfl

/-- A checkpoint that is under way and does not complete is not registered afterwards. -/
theorem unregistered_of_not_completed (hc : m.before.Orderly) (hs : m.before.Shelved)
    (h : m.before.step m.request = .ok (m.after, m.events, m.reply))
    (hin : m.before.rounds.contains id = true) (hno : ¬m.Completed id) :
    ∀ s ∈ m.after.archive.snapshots, s.id ≠ id := by
  have hold : ∀ s ∈ m.before.archive.snapshots, s.id ≠ id := by
    rintro s hmem rfl
    rw [(hs.isOver s hmem).2] at hin
    cases hin
  intro s hmem
  cases Provenance.of_step hc hs.ascending h hmem with
  | kept old => exact hold s old
  | completed asked answered there full gone =>
    rintro rfl
    exact hno ⟨answered, _, _, _, asked⟩
  | restored asked answered there relabeled =>
    have hne := hold _ there
    rw [relabeled]
    exact hne

/-- A round that is not acknowledged, and of which those who owe something hear that it is aborted,
has no snapshot. -/
theorem dismisses_of_abort {r : Round} {reason : SnapshotError} (hc : m.before.Orderly)
    (hs : m.before.Shelved) (h : m.before.step m.request = .ok (m.after, m.events, m.reply))
    (hfind : m.before.rounds.find? id = some r)
    (hasked : ∀ run state now, m.request ≠ .acknowledge id run state now)
    (htold : signalsOf id m.events =
      (m.before.owing id).map fun run => .abort run id reason) :
    m.Dismisses id r.expected r.owed := by
  refine .aborted reason hasked
    (unregistered_of_not_completed hc hs h (Table.contains_iff.2 ⟨r, hfind⟩) ?_) ?_
  · rintro ⟨-, run, state, now, hrequest⟩
    exact hasked run state now hrequest
  · rw [htold, owing_of_find? hfind]

/-- When a round leaves the table, the tasks hear how it ended. -/
theorem dismisses_of_step {r : Round} (hc : m.before.Orderly) (hs : m.before.Shelved)
    (h : m.before.step m.request = .ok (m.after, m.events, m.reply))
    (hfind : m.before.rounds.find? id = some r) (hgone : m.after.rounds.contains id = false) :
    m.Dismisses id r.expected r.owed := by
  have hin : m.before.rounds.contains id = true := Table.contains_iff.2 ⟨r, hfind⟩
  have hleft : ¬(m.after.rounds.contains id = true) := by simp [hgone]
  cases Tells.of_step hc h with
  | opened asked answered next rounds told =>
    refine absurd ?_ hleft
    rw [rounds, Table.contains_insert]
    exact Or.inr hin
  | dropped ids reason unopened asked rounds told =>
    have hmem : id ∈ ids := by
      by_contra hnot
      refine hleft ?_
      rw [rounds, Table.contains_eraseAll]
      exact ⟨hin, hnot⟩
    refine dismisses_of_abort hc hs h hfind ?_ ((told id).trans (if_pos hmem))
    intro run state now hrequest
    rw [asked _ _ _ _ hrequest] at hin
    cases hin
  | recorded answered there rounds told =>
    refine absurd ?_ hleft
    rw [rounds, Table.contains_insert]
    exact Or.inr hin
  | failed asked answered there rounds told =>
    rename_i i run state now r' reason
    have hid : id = i := by
      by_contra hne
      refine hleft ?_
      rw [rounds, Table.contains_erase]
      exact ⟨hin, hne⟩
    subst hid
    cases there.symm.trans hfind
    refine .failed reason ⟨_, _, _, asked⟩ answered
      (unregistered_of_not_completed hc hs h hin ?_) ?_
    · rintro ⟨hreply, -⟩
      rw [answered] at hreply
      cases hreply
    · rw [told, if_pos rfl]
  | finished asked answered there rounds told =>
    rename_i i run state now r'
    by_cases hid : id = i
    · subst hid
      cases there.symm.trans hfind
      obtain ⟨r₁, r₂, hfind', hfull, hregisters⟩ := completes_step h asked answered
      refine .completed ⟨answered, _, _, _, asked⟩ ⟨_, hregisters, ?_⟩ ?_
      · exact hc.own_of_completes hfind' hfull
      · rw [told, if_pos rfl]
    · have hmem : id ∈ m.before.overtaken i := by
        by_contra hnot
        refine hleft ?_
        rw [rounds, Table.contains_eraseAll, Table.contains_erase]
        exact ⟨⟨hin, hid⟩, hnot⟩
      refine dismisses_of_abort hc hs h hfind ?_
        ((told id).trans ((if_neg hid).trans (if_pos hmem)))
      intro run' state' now' hrequest
      rw [asked] at hrequest
      cases hrequest
      exact hid rfl

/-- Whoever takes part in a new round is asked to. -/
theorem opened_of_step (hc : m.before.Orderly)
    (h : m.before.step m.request = .ok (m.after, m.events, m.reply))
    (hreply : m.reply = .triggered (.ok id)) :
    id = m.before.nextId ∧
    (∃ policy time, m.request = .trigger policy time ∧
      signalsOf id m.events = m.before.runs.map fun run => .trigger run id time policy) ∧
    ∃ r, m.after.rounds.find? id = some r ∧ r.expected = m.before.runs := by
  cases Tells.of_step hc h with
  | opened asked answered next rounds told =>
    cases hreply.symm.trans answered
    rename_i policy now
    have hfind := Table.find?_insert_self m.before.rounds m.before.nextId
      (Round.start m.before.nextId policy now m.before.runs [Coordinator.relay]).takeFuture
    rw [← rounds] at hfind
    exact ⟨rfl, ⟨policy, now, asked, (told _).trans (if_pos rfl)⟩, _, hfind, hc.sortDistinct_runs⟩
  | dropped ids reason unopened asked rounds told => exact absurd hreply (unopened id)
  | recorded answered there rounds told =>
    rw [answered] at hreply
    cases hreply
  | failed asked answered there rounds told =>
    rw [answered] at hreply
    cases hreply
  | finished asked answered there rounds told =>
    rw [answered] at hreply
    cases hreply

end

end Coordinator

/-! ### Whole runs -/

/-- In these moments the round of a checkpoint is there after each of them, or not, and nobody is
told anything of it. -/
def Silent (there : Bool) (id : Nat) (moments : List Moment) : Prop :=
  ∀ m ∈ moments, m.after.rounds.contains id = there ∧ signalsOf id m.events = []

/-- The signals about a checkpoint in a run, from the trigger that opened it to the state `c`.  None
is sent before.  Every current run is asked to take part, once, and nobody else is.  Either the
round is still there and nothing more was sent, or it has left the table in one moment, in which the
participants were told how it ended; nothing was sent between these moments or afterwards. -/
structure Conversation (id : Nat) (past : List Moment) (trigger : Moment) (future : List Moment)
    (c : Coordinator) : Prop where
  fresh : Silent false id past
  distinct : trigger.before.runs.Nodup
  asked : ∃ policy time, trigger.request = .trigger policy time ∧
    signalsOf id trigger.events = trigger.before.runs.map fun run => .trigger run id time policy
  opened : trigger.after.rounds.contains id = true
  outcome : (c.rounds.contains id = true ∧ Silent true id future) ∨
    (c.rounds.contains id = false ∧ ∃ waiting m rest, future = waiting ++ m :: rest ∧
      Silent true id waiting ∧
      m.before.rounds.contains id = true ∧ m.after.rounds.contains id = false ∧
      m.Dismisses id trigger.before.runs
        (trigger.before.runs.filter fun run =>
          (firstHandle? (past ++ trigger :: waiting) id run).isNone) ∧
      Silent false id rest)

namespace Coordinator

variable {outside : Vault → Vault → Prop} {start c : Coordinator} {history : List Moment} {id : Nat}

/-- Nobody is told anything of an id before it is handed out. -/
theorem silent_of_nextId_le (h : Run outside start history c) (hstart : start.Orderly)
    (hid : c.nextId ≤ id) : Silent false id history := by
  intro m hm
  obtain ⟨hbefore, hafter⟩ := (Orderly.of_run h hstart).2 m hm
  have hstep := h.step_of_mem hm
  have hle := (nextId_le_of_mem h hstart hm).2.trans hid
  have hout : ∀ {d : Coordinator}, d.Orderly → d.nextId ≤ id → d.rounds.contains id = false := by
    intro d hd hid
    refine Table.contains_eq_false_iff.2 (Option.eq_none_iff_forall_ne_some.2 fun r hfind => ?_)
    have hlt := hd.numbered hfind
    omega
  exact ⟨hout hafter hle, signalsOf_eq_nil_of_step hbefore hstep (Or.inr hle)
    (Or.inl (hout hbefore ((nextId_le_step hbefore hstep).trans hle)))⟩

/-- Nobody is told anything of a round that is over. -/
theorem silent_of_isOver (h : Run outside start history c) (hstart : start.Orderly)
    (hover : start.IsOver id) : Silent false id history := by
  have hkeep := h.invariant (P := fun c => c.Orderly ∧ c.IsOver id)
    (fun _ hc => ⟨hc.1.withVault _, hc.2⟩)
    (fun hc hstep => ⟨hc.1.step hstep, IsOver.step hc.1 hstep hc.2⟩) ⟨hstart, hover⟩
  intro m hm
  obtain ⟨⟨horderly, hbefore⟩, -, hafter⟩ := hkeep.2 m hm
  exact ⟨hafter.2, signalsOf_eq_nil_of_step horderly (h.step_of_mem hm) (Or.inl hbefore.1)
    (Or.inl hbefore.2)⟩

/-- Nobody is told anything of a round that stays. -/
theorem silent_of_pends (h : Run outside start history c) (hstart : start.Orderly)
    (hid : id < start.nextId) (hpends : Pends id history) : Silent true id history := by
  intro m hm
  have horderly := ((Orderly.of_run h hstart).2 m hm).1
  have hlt := hid.trans_le (nextId_le_of_mem h hstart hm).1
  exact ⟨(hpends m hm).1, signalsOf_eq_nil_of_step horderly (h.step_of_mem hm) (Or.inl hlt)
    (Or.inr (hpends m hm).1)⟩

/-- Who still owes an acknowledgment has sent none while the round was under way. -/
theorem owed_of_traced {past : List Moment} (h : Traced past c) {r : Round}
    (hfind : c.rounds.find? id = some r) :
    r.owed = r.expected.filter fun run => (firstHandle? past id run).isNone := by
  refine List.filter_congr fun run hrun => ?_
  have hacked := (h hfind).2 run
  rw [if_pos hrun] at hacked
  rw [Round.hasAck, Table.contains, hacked]
  cases firstHandle? past id run <;> rfl

/-- The round that a trigger opened keeps its participants, and has kept count of the history. -/
theorem owed_of_moments {past waiting rest : List Moment} {trigger m : Moment} {r₀ r : Round}
    (h : Run outside start (past ++ trigger :: (waiting ++ m :: rest)) c)
    (hstart : start.Orderly) (hempty : start.rounds = ∅)
    (hfind₀ : trigger.after.rounds.find? id = some r₀) (hfind : m.before.rounds.find? id = some r) :
    r.expected = r₀.expected ∧
      r.owed = r₀.expected.filter fun run =>
        (firstHandle? (past ++ trigger :: waiting) id run).isNone := by
  have hafter := ((Orderly.of_run h hstart).2 trigger (by simp)).2
  obtain ⟨-, -, -, -, -, -, hfuture⟩ := h.moment
  obtain ⟨e, vault, hwaiting, -, hbefore, -⟩ := hfuture.moment
  have hexpected : r.expected = r₀.expected := by
    refine expected_of_run hwaiting hafter hfind₀ ?_
    rw [hbefore] at hfind
    exact hfind
  have htraced : Traced (past ++ trigger :: waiting) m.before := by
    rw [← List.cons_append, ← List.append_assoc] at h
    obtain ⟨d, vault', hall, -, hbefore', -⟩ := h.moment
    rw [hbefore']
    exact (traced_of_run hall hstart hempty).1
  exact ⟨hexpected, by rw [owed_of_traced htraced hfind, hexpected]⟩

end Coordinator

/-- The signals about every checkpoint are consistent, in every run and whatever storage refuses.
Those who are to take part hear so once; then they hear at most once how it ended: all of them that
it has its snapshot, which was stored in that moment; or those who had not acknowledged, and all if
it was storing that failed, that it has none. -/
theorem signals_are_consistent {settings : Settings} {archive : Archive} {hasHandler : Bool}
    {outside : Vault → Vault → Prop} {start c : Coordinator} {history : List Moment}
    (hascending : Retention.Ascending archive.snapshots)
    (hopen : Coordinator.open? settings archive hasHandler = .ok start)
    (hrun : Run outside start history c) :
    ∀ past trigger future id, history = past ++ trigger :: future →
      trigger.reply = .triggered (.ok id) → Conversation id past trigger future c := by
  rintro past trigger future id rfl hreply
  have hstart := Coordinator.orderly_of_open hopen
  have hempty := Coordinator.rounds_of_open hopen
  have hshelved := (Coordinator.state_of_open hascending hopen).2.2
  obtain ⟨d, vault, hpast, -, hbefore, hstep, hfuture⟩ := hrun.moment
  obtain ⟨horderly, hafter⟩ := (Coordinator.Orderly.of_run hrun hstart).2 trigger (by simp)
  obtain ⟨hid, hasked, r₀, hfind₀, hexpected₀⟩ :=
    Coordinator.opened_of_step horderly hstep hreply
  have hin : trigger.after.rounds.contains id = true := Table.contains_iff.2 ⟨r₀, hfind₀⟩
  have hlt := hafter.numbered hfind₀
  refine ⟨Coordinator.silent_of_nextId_le hpast hstart ?_, horderly.nodup_runs, hasked, hin, ?_⟩
  · rw [hid, hbefore]
    exact le_rfl
  rcases Coordinator.pending_or_settled hfuture hafter hin with ⟨hthere, hpends⟩ |
    ⟨hgone, waiting, m, rest, rfl, hpends, hsettles, -⟩
  · exact Or.inl ⟨hthere, Coordinator.silent_of_pends hfuture hafter hlt hpends⟩
  · obtain ⟨_, _, hwaiting, -, -, hstep', hrest⟩ := hfuture.moment
    have hm : m ∈ past ++ trigger :: (waiting ++ m :: rest) := by simp
    obtain ⟨hordered, hover⟩ := (Coordinator.Orderly.of_run hrun hstart).2 m hm
    have hon := ((Coordinator.Shelved.of_run hrun hstart hshelved).2 m hm).1
    obtain ⟨r, hfind⟩ := Table.contains_iff.1 hsettles.before
    obtain ⟨hexpected, howed⟩ :=
      Coordinator.owed_of_moments hrun hstart hempty hfind₀ hfind
    have hdismisses := Coordinator.dismisses_of_step hordered hon hstep' hfind hsettles.after
    rw [howed, hexpected, hexpected₀] at hdismisses
    refine Or.inr ⟨hgone, waiting, m, rest, rfl,
      Coordinator.silent_of_pends hwaiting hafter hlt hpends, hsettles.before, hsettles.after,
      hdismisses, Coordinator.silent_of_isOver hrest hover ⟨?_, hsettles.after⟩⟩
    have hlast := (Coordinator.nextId_le_of_mem hfuture hafter (m := m) (by simp)).1
    exact (hlt.trans_le hlast).trans_le (Coordinator.nextId_le_step hordered hstep')

/-- Two tasks and two checkpoints.  Both acknowledge the later one, but only one of them the earlier
one. -/
def overtakingRequests : List Request :=
  [.register ⟨1, 0, 0⟩ .running, .register ⟨2, 0, 0⟩ .running,
    .trigger (.ofRetention .onFailure) 10, .trigger (.ofRetention .onFailure) 20,
    .acknowledge 1 ⟨1, 0, 0⟩ [7] 30, .acknowledge 2 ⟨1, 0, 0⟩ [8] 40,
    .acknowledge 2 ⟨2, 0, 0⟩ [9] 50]

/-- Of the earlier checkpoint, only the task that had not acknowledged hears that it has none. -/
theorem signals_are_consistent_when_overtaken : ∃ start c past trigger future,
    Coordinator.open? (Settings.default.withMaxConcurrent 9)
      ⟨.of (.memory ∅) .none, .empty 1⟩ false = .ok start ∧
    start.perform overtakingRequests = (past ++ trigger :: future, c) ∧
    Conversation 1 past trigger future c ∧
    signalsOf 1 ((past ++ trigger :: future).flatMap (·.events)) =
      [.trigger ⟨1, 0, 0⟩ 1 10 (.ofRetention .onFailure),
        .trigger ⟨2, 0, 0⟩ 1 10 (.ofRetention .onFailure), .abort ⟨2, 0, 0⟩ 1 (.subsumed 1 2)] := by
  obtain ⟨start, c, past, trigger, future, hopen, hperform, hreply, hsignals⟩ :
      ∃ start c past trigger future,
        Coordinator.open? (Settings.default.withMaxConcurrent 9)
          ⟨.of (.memory ∅) .none, .empty 1⟩ false = .ok start ∧
        start.perform overtakingRequests = (past ++ trigger :: future, c) ∧
        trigger.reply = .triggered (.ok 1) ∧
        signalsOf 1 ((past ++ trigger :: future).flatMap (·.events)) =
          [.trigger ⟨1, 0, 0⟩ 1 10 (.ofRetention .onFailure),
            .trigger ⟨2, 0, 0⟩ 1 10 (.ofRetention .onFailure),
            .abort ⟨2, 0, 0⟩ 1 (.subsumed 1 2)] :=
    ⟨_, _, [_, _], _, _, rfl, rfl, rfl, rfl⟩
  have hrun : Run Eq start _ _ := Run.of_perform (fun _ => rfl) start overtakingRequests
  rw [hperform] at hrun
  have hascending : Retention.Ascending
      (Archive.snapshots ⟨.of (.memory ∅) .none, .empty 1⟩) := .nil
  exact ⟨start, c, past, trigger, future, hopen, hperform,
    signals_are_consistent hascending hopen hrun past trigger future 1 rfl hreply, hsignals⟩

end Checkpointing
