import Mathlib.Tactic
import Checkpointing.Proofs.Coordinator.Tending

/-!
# The ids of a coordinator

A coordinator counts its checkpoints from the first id that the archive leaves free.  Only a trigger
that is accepted moves the counter, and the counter leads everything that has an id.

* `handedOut` are the ids that triggers were answered, `Archive.seed` is the first one: the least
  above all registered ids;
* `nextId_step`: a step hands out the next id or leaves the counter alone;
* `contains_of_finalize`: a full round is refused for its id only if that is registered, which
  `Shelved` excludes;
* `handedOut_of_run` is the induction over runs, and `exists_handedOut_le_iff` says how low the ids
  reach;
* `ids_are_consecutive` is the main statement.
-/

namespace Checkpointing

/-- The id that was handed out in this moment. -/
def Moment.handedOut? (m : Moment) : Option Nat :=
  match m.reply with
  | .triggered (.ok id) => some id
  | _ => none

/-- The ids that were handed out, in order. -/
def handedOut (history : List Moment) : List Nat := history.filterMap Moment.handedOut?

/-- The first id that an archive leaves free: the one after its latest snapshot. -/
def Archive.seed (a : Archive) : Nat := (a.latest?.map fun latest => latest.id + 1).getD 1

/-- The first free id is the least positive one above all registered ids. -/
theorem Archive.seed_le_iff {a : Archive} (h : Retention.Ascending a.snapshots) {i : Nat} :
    a.seed ≤ i ↔ 0 < i ∧ ∀ s ∈ a.snapshots, s.id < i := by
  unfold seed
  cases hlatest : a.latest? with
  | none =>
    have hnone : a.snapshots = [] := List.getLast?_eq_none_iff.1 hlatest
    rw [hnone]
    simp [Nat.succ_le_iff]
  | some latest =>
    refine Nat.succ_le_iff.trans ⟨fun hlt => ⟨Nat.zero_lt_of_lt hlt, fun s hmem => ?_⟩, ?_⟩
    · exact (Retention.le_of_latest? h hlatest hmem).trans_lt hlt
    · rintro ⟨-, hall⟩
      exact hall latest (Retention.mem_of_latest? hlatest)

namespace Moment

theorem handedOut?_eq_some_iff {m : Moment} {id : Nat} :
    m.handedOut? = some id ↔ m.reply = .triggered (.ok id) := by
  unfold handedOut?
  split
  · next i hreply => simp [hreply]
  · next hno => exact iff_of_false (by simp) (hno id)

theorem handedOut?_eq_none_iff {m : Moment} :
    m.handedOut? = none ↔ ∀ id, m.reply ≠ .triggered (.ok id) := by
  simp only [Option.eq_none_iff_forall_ne_some, ne_eq, handedOut?_eq_some_iff]

end Moment

theorem handedOut_append (past : List Moment) (m : Moment) :
    handedOut (past ++ [m]) = handedOut past ++ m.handedOut?.toList := by
  rw [handedOut, List.filterMap_append, ← handedOut]
  cases hid : m.handedOut? <;> simp [hid]

namespace Coordinator

/-- The counter is ahead of the rounds under way, of the registered snapshots and of those that
still have to be thrown away. -/
structure Leads (c : Coordinator) : Prop where
  rounds : ∀ id, c.rounds.contains id = true → id < c.nextId
  registered : ∀ s ∈ c.archive.snapshots, s.id < c.nextId
  backlog : ∀ s ∈ c.archive.retention.backlog, s.id < c.nextId

variable {c c' start : Coordinator} {request : Request} {events : List Event} {reply : Reply}
  {outside : Vault → Vault → Prop} {past : List Moment}

theorem Leads.of_apart (hc : c.Orderly) (hs : c.Shelved) (ha : c.Apart) : c.Leads where
  rounds id hin := by
    obtain ⟨r, hfind⟩ := Table.contains_iff.1 hin
    exact hc.numbered hfind
  registered s hmem := (hs.isOver s hmem).1
  backlog s hmem := (ha s hmem).1.1

/-! ### The counter -/

/-- A coordinator starts to count at the first free id of its archive. -/
theorem nextId_of_open {settings : Settings} {archive : Archive} {hasHandler : Bool}
    (h : open? settings archive hasHandler = .ok c) : c.nextId = archive.seed := by
  have hfirst := (eq_of_open h).1
  unfold firstId at hfirst
  unfold Archive.seed
  cases hlatest : archive.latest? with
  | none =>
    rw [hlatest] at hfirst
    exact (Except.ok.inj hfirst).symm
  | some latest =>
    rw [hlatest] at hfirst
    exact (Word.next?_eq_ok_iff.1 hfirst).2

/-- A step hands out the next id, or leaves the counter where it is. -/
theorem nextId_step (hc : c.Orderly) (hs : c.Shelved)
    (h : c.step request = .ok (c', events, reply)) :
    (reply = .triggered (.ok c.nextId) ∧ c'.nextId = c.nextId + 1) ∨
    ((∀ id, reply ≠ .triggered (.ok id)) ∧ c'.nextId = c.nextId) := by
  rcases step_cases hc h with ⟨policy, now, -, hreply, -, hlaunch⟩ |
    ⟨id, run, state, now, r, -, rfl, -, -, -, rfl⟩ | ⟨hreduces, hno, -⟩
  · obtain ⟨rfl, -⟩ := Prod.mk.inj hlaunch
    exact Or.inl ⟨hreply, rfl⟩
  · exact Or.inr ⟨by simp, rfl⟩
  · refine Or.inr ⟨hno, ?_⟩
    rcases hreduces.nextId with hsame | ⟨latest, hlatest, hmax⟩
    · exact hsame
    · -- What was restored is registered, so the counter is past it already.
      have hlt := (hs.isOver latest (Retention.mem_of_latest? hlatest)).1
      omega

/-- Restoring leaves the counter where it is. -/
theorem nextId_restore (hc : c.Orderly) (hs : c.Shelved) {mode : ClaimMode}
    (h : c.step (.restore mode) = .ok (c', events, reply)) : c'.nextId = c.nextId := by
  rcases nextId_step hc hs h with ⟨rfl, -⟩ | ⟨-, hstays⟩
  · cases Performs.of_step h
  · exact hstays

/-! ### Registered ids -/

/-- A full round is refused for its id only if that is registered. -/
theorem contains_of_finalize {archive a : Archive} {r : Round} {now : Int} {kept : List Event}
    {i : Nat} (h : finalize archive r now = (a, kept, .error (.alreadyRegistered i))) :
    archive.retention.contains r.id = true := by
  rcases finalize_cases archive r now with ⟨vault, kept', failure, -, he⟩ |
    ⟨vault, kept', -, ⟨a', added, e, hadd, he⟩ | ⟨a', added, gone, -, he⟩⟩ <;> cases he.symm.trans h
  rcases Archive.add_cases { archive with vault := vault } (draft archive r now) with
    ⟨hin, -⟩ | ⟨-, ⟨medium, failure, -, he'⟩ | ⟨medium, -, he'⟩⟩
  · exact hin
  · cases he'.symm.trans hadd
  · cases he'.symm.trans hadd

/-- No round under way has a registered id. -/
theorem Shelved.not_registered (hs : c.Shelved) {id : Nat} {r : Round}
    (hfind : c.rounds.find? id = some r) : c.archive.retention.contains id = false := by
  by_contra hin
  obtain ⟨s, hmem, rfl⟩ := Retention.contains_iff.1 (by simpa using hin)
  exact Table.ne_of_contains_eq_false (hs.isOver s hmem).2 hfind rfl

/-- An acknowledgment is never answered that the id is registered already. -/
theorem ne_alreadyRegistered_step (hc : c.Orderly) (hs : c.Shelved)
    (h : c.step request = .ok (c', events, reply)) (i : Nat) :
    reply ≠ .acknowledged (.error (.alreadyRegistered i)) := by
  rintro rfl
  cases Performs.of_step h with
  | acknowledge hack =>
    rename_i id run state now
    rcases acknowledge_cases c id run state now with ⟨-, he⟩ | ⟨r, hfind, ⟨r', hr', he⟩ | ⟨-, he⟩⟩
    · cases he.symm.trans hack
    · rcases hfinal : finalize c.archive r' now with ⟨a, kept, reason | s⟩
      · obtain ⟨budget, breach, -, hfailed⟩ := complete_of_error hfinal
        cases hfailed.symm.trans (he.symm.trans hack)
        have hin := contains_of_finalize hfinal
        rw [hc.own_of_completes hfind hr', hs.not_registered hfind] at hin
        cases hin
      · obtain ⟨budget, hstored⟩ := complete_of_ok hfinal
        cases hstored.symm.trans (he.symm.trans hack)
    · cases he.symm.trans hack

/-! ### Whole runs -/

theorem Apart.of_run (h : Run outside start past c) (hstart : start.Orderly)
    (hshelved : start.Shelved) (hapart : start.Apart) : c.Apart := by
  have hkeep := Shelved.invariant (P := Apart) (Q := fun _ _ => True) h hstart hshelved
    (fun _ ha => ha) (fun hc hs ha _ hstep => ha.step hc hs hstep) hapart fun _ _ => trivial
  exact hkeep.1

/-- The ids that a run hands out are consecutive, and the counter is at the one that follows. -/
theorem handedOut_of_run (h : Run outside start past c) (hstart : start.Orderly)
    (hshelved : start.Shelved) :
    handedOut past = List.range' start.nextId (handedOut past).length ∧
      c.nextId = start.nextId + (handedOut past).length := by
  induction h with
  | nil => exact ⟨rfl, rfl⟩
  | @snoc past c c' vault request events reply run change step ih =>
    obtain ⟨hids, hnext⟩ := ih
    have horderly := (Orderly.of_run run hstart).1.withVault vault
    have hon := (Shelved.of_run run hstart hshelved).1.withVault vault
    replace hnext : (c.withVault vault).nextId = start.nextId + (handedOut past).length := hnext
    rw [handedOut_append]
    rcases nextId_step horderly hon step with ⟨hreply, hmoved⟩ | ⟨hno, hstays⟩
    · have hid := Moment.handedOut?_eq_some_iff.2
        (show (Moment.mk (c.withVault vault) request events reply c').reply = _ from hreply)
      rw [hid, Option.toList_some, List.length_append, List.length_singleton,
        List.range'_1_concat, ← hids, hnext]
      exact ⟨rfl, by omega⟩
    · have hid := Moment.handedOut?_eq_none_iff.2
        (show ∀ id, (Moment.mk (c.withVault vault) request events reply c').reply ≠ _ from hno)
      rw [hid, Option.toList_none, List.append_nil]
      exact ⟨hids, hstays.trans hnext⟩

/-- What a run hands out reaches down to an id exactly if its counter started there or below. -/
theorem exists_handedOut_le_iff (h : Run outside start past c) (hstart : start.Orderly)
    (hshelved : start.Shelved) {i : Nat} :
    (∃ id ∈ handedOut past, id ≤ i) ↔ handedOut past ≠ [] ∧ start.nextId ≤ i := by
  have hids := (handedOut_of_run h hstart hshelved).1
  constructor
  · rintro ⟨id, hid, hle⟩
    refine ⟨List.ne_nil_of_mem hid, ?_⟩
    rw [hids] at hid
    exact (List.mem_range'_1.1 hid).1.trans hle
  · rintro ⟨hsome, hle⟩
    refine ⟨start.nextId, ?_, hle⟩
    rw [hids]
    exact List.mem_range'_1.2 ⟨le_rfl, Nat.lt_add_of_pos_right (List.length_pos_of_ne_nil hsome)⟩

end Coordinator

/-- The ids of a coordinator are consecutive and fresh.  On an archive whose backlog is empty, the
ids that triggers are answered are the first one that the archive leaves free and those after it,
without a gap, whatever else is asked in between.  The counter leads every round under way and every
snapshot that is registered or waits in the backlog.  So restoring leaves the counter where it is,
and no full round is ever refused because its id is registered. -/
theorem ids_are_consecutive {settings : Settings} {archive : Archive} {hasHandler : Bool}
    {outside : Vault → Vault → Prop} {start c : Coordinator} {history : List Moment}
    (hascending : Retention.Ascending archive.snapshots)
    (hbacklog : archive.retention.backlog = [])
    (hopen : Coordinator.open? settings archive hasHandler = .ok start)
    (hrun : Run outside start history c) :
    (∀ k id, (handedOut history)[k]? = some id → id = archive.seed + k) ∧
    c.nextId = archive.seed + (handedOut history).length ∧ c.Leads ∧
    (∀ m ∈ history, ∀ mode, m.request = .restore mode → m.after.nextId = m.before.nextId) ∧
    ∀ m ∈ history, ∀ i, m.reply ≠ .acknowledged (.error (.alreadyRegistered i)) := by
  have hstart := Coordinator.orderly_of_open hopen
  obtain ⟨rfl, -, hshelved⟩ := Coordinator.state_of_open hascending hopen
  have hapart : start.Apart := by
    intro s hmem
    rw [hbacklog] at hmem
    cases hmem
  obtain ⟨horderly, hallOrderly⟩ := Coordinator.Orderly.of_run hrun hstart
  obtain ⟨hon, hallOn⟩ := Coordinator.Shelved.of_run hrun hstart hshelved
  obtain ⟨hids, hnext⟩ := Coordinator.handedOut_of_run hrun hstart hshelved
  rw [Coordinator.nextId_of_open hopen] at hids hnext
  refine ⟨fun k id hget => ?_, hnext,
    .of_apart horderly hon (Coordinator.Apart.of_run hrun hstart hshelved hapart),
    fun m hm mode hrequest => ?_, fun m hm => ?_⟩
  · obtain ⟨hlt, -⟩ := List.getElem?_eq_some_iff.1 hget
    rw [hids, List.getElem?_range' hlt] at hget
    simpa [eq_comm] using hget
  · have hrestore := hrun.step_of_mem hm
    rw [hrequest] at hrestore
    exact Coordinator.nextId_restore (hallOrderly m hm).1 (hallOn m hm).1 hrestore
  · exact Coordinator.ne_alreadyRegistered_step (hallOrderly m hm).1 (hallOn m hm).1
      (hrun.step_of_mem hm)

/-- An archive with the savepoint of an earlier run. -/
def savepointArchive : Archive :=
  ⟨.of (.memory ∅) .none,
    ⟨1, [⟨5, .savepoint true .canonical, 10, 20, Table.insert ∅ ⟨1, 0, 0⟩ [7], none⟩], []⟩⟩

/-- Two savepoints of which the later one completes first, with restorations, a refusal, a disposal
and a checkpoint that times out between them. -/
def countedRequests : List Request :=
  [.restore .noClaim, .trigger (.savepoint true .canonical) 30, .register ⟨1, 0, 1⟩ .running,
    .trigger (.savepoint true .canonical) 40, .trigger (.savepoint true .canonical) 50,
    .acknowledge 7 ⟨1, 0, 1⟩ [8] 60, .restore .claim, .dispose 7, .restore .claim,
    .trigger (.ofRetention .onFailure) 70, .expire 8, .acknowledge 6 ⟨1, 0, 1⟩ [9] 80,
    .trigger (.ofRetention .onFailure) 90]

/-- The ids go on from that savepoint, over everything that lies between. -/
theorem ids_are_consecutive_after_savepoint : ∃ start c history,
    Coordinator.open? (Settings.default.withMaxConcurrent 9) savepointArchive false = .ok start ∧
    start.perform countedRequests = (history, c) ∧ handedOut history = [6, 7, 8, 9] ∧
    c.nextId = savepointArchive.seed + 4 ∧ c.Leads := by
  obtain ⟨start, c, history, hopen, hperform, hids⟩ : ∃ start c history,
      Coordinator.open? (Settings.default.withMaxConcurrent 9) savepointArchive false =
        .ok start ∧
      start.perform countedRequests = (history, c) ∧ handedOut history = [6, 7, 8, 9] :=
    ⟨_, _, _, rfl, rfl, rfl⟩
  have hrun : Run Eq start _ _ := Run.of_perform (fun _ => rfl) start countedRequests
  rw [hperform] at hrun
  have hascending : Retention.Ascending savepointArchive.snapshots := List.pairwise_singleton _ _
  obtain ⟨-, hnext, hleads, -⟩ := ids_are_consecutive hascending rfl hopen hrun
  rw [hids] at hnext
  exact ⟨start, c, history, hopen, hperform, hids, hnext, hleads⟩

end Checkpointing
