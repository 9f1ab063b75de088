import Mathlib.Tactic
import Checkpointing.Proofs.Coordinator.Shelf
import Checkpointing.Proofs.Coordinator.Subsumption

/-!
# The recovery point never goes back

A job recovers from its latest snapshot.  Retention gives up older snapshots and late savepoints
come in below, but nothing takes the latest one away: only the user's wish or the end of the job
does.

* `Coordinator.recoveryPoint` is the id of the latest snapshot, `Request.removes` marks the requests
  that may take it away;
* `Retention.exists_le_subsume`: retention keeps a snapshot that is as late as any given one;
* `exists_le_step`: so does every step, and `le_recoveryPoint_of_completed`: a completed checkpoint
  is not later than what is left;
* `restored_of_step`: restoring answers the latest snapshot, which stays the latest one;
* `endures_of_run` is the induction over runs;
* `recovery_point_never_recedes` is the main statement.
-/

namespace Checkpointing

/-- Snapshots are taken away at the user's wish or at the end of the job. -/
def Request.removes : Request → Bool
  | .dispose _ | .close _ => true
  | _ => false

/-- The snapshot as it is after it was restored: one that is not claimed counts as unclaimed. -/
def Snapshot.restoredIn (s : Snapshot) (mode : ClaimMode) : Snapshot :=
  if mode = .claim ∨ s.policy.unclaimed = true then s
  else { s with policy := .unclaimedSnapshot }

/-- The id of the latest snapshot, which a job recovers from. -/
def Coordinator.recoveryPoint (c : Coordinator) : WithBot ℕ :=
  match c.archive.latest? with
  | none => ⊥
  | some latest => latest.id

/-- In these moments and in the state `c` that they lead to, the recovery point is at least `p`. -/
def Endures (p : WithBot ℕ) (moments : List Moment) (c : Coordinator) : Prop :=
  (∀ m ∈ moments, p ≤ m.before.recoveryPoint ∧ p ≤ m.after.recoveryPoint) ∧ p ≤ c.recoveryPoint

theorem Endures.mono {p q : WithBot ℕ} {moments : List Moment} {c : Coordinator}
    (h : Endures q moments c) (hle : p ≤ q) : Endures p moments c :=
  ⟨fun m hm => ⟨hle.trans (h.1 m hm).1, hle.trans (h.1 m hm).2⟩, hle.trans h.2⟩

/-! ### Retention -/

namespace Retention

variable {r : Retention} {s : Snapshot}

/-- The latest snapshot is none of those that retention gives up. -/
theorem mem_subsume_of_latest? (h : r.latest? = some s) : s ∈ r.subsume.2 := by
  rcases List.mem_append.1 (r.perm_subsume.mem_iff.2 (mem_of_latest? h)) with hgone | hkept
  · have hgo := mayGo_of_mem_divide hgone
    rw [h] at hgo
    simp [mayGo] at hgo
  · exact hkept

/-- Retention keeps a snapshot that is as late as any registered one. -/
theorem exists_le_subsume (h : Ascending r.live) (hmem : s ∈ r.live) :
    ∃ t ∈ r.subsume.2, s.id ≤ t.id := by
  cases hlatest : r.latest? with
  | none =>
    rw [latest?, List.getLast?_eq_none_iff] at hlatest
    rw [hlatest] at hmem
    cases hmem
  | some latest => exact ⟨latest, mem_subsume_of_latest? hlatest, le_of_latest? h hlatest hmem⟩

theorem latest?_relabel (r : Retention) (id : Nat) (policy : SnapshotPolicy) :
    (r.relabel id policy).latest? =
      r.latest?.map fun s => if s.id = id then { s with policy := policy } else s := by
  rw [latest?, relabel, List.getLast?_map, ← latest?]

/-- The latest snapshot is found under its id. -/
theorem find?_of_latest? (h : Ascending r.live) (hlatest : r.latest? = some s) :
    r.find? s.id = some s := by
  have hmem := mem_of_latest? hlatest
  cases hfind : r.find? s.id with
  | none => simpa using List.find?_eq_none.1 hfind s hmem
  | some t =>
    obtain ⟨ht, hid⟩ := mem_of_find? hfind
    rw [h.eq_of_id ht hmem hid]

end Retention

/-- What is left when a snapshot was registered is as late. -/
theorem Archive.exists_le_add {a b : Archive} {s : Snapshot} {events : List Event}
    {gone : List Nat} (ha : Retention.Ascending a.snapshots)
    (h : a.add s = (b, events, .ok gone)) : ∃ t ∈ b.snapshots, s.id ≤ t.id := by
  rcases add_cases a s with ⟨-, he⟩ | ⟨hnew, ⟨medium, failure, -, he⟩ | ⟨medium, -, he⟩⟩ <;>
    cases he.symm.trans h
  refine Retention.exists_le_subsume (Retention.ascending_place ha fun t ht => ?_)
    ((Retention.perm_place s _).mem_iff.2 List.mem_cons_self)
  exact Retention.ne_of_contains_eq_false hnew ht

namespace Coordinator

variable {c c' start : Coordinator} {request : Request} {events : List Event} {reply : Reply}
  {outside : Vault → Vault → Prop} {history : List Moment} {s : Snapshot}

/-- The recovery point is at least an id if some registered snapshot is as late. -/
theorem coe_le_recoveryPoint_iff (h : Retention.Ascending c.archive.snapshots) {i : ℕ} :
    (i : WithBot ℕ) ≤ c.recoveryPoint ↔ ∃ s ∈ c.archive.snapshots, i ≤ s.id := by
  unfold recoveryPoint
  cases hlatest : c.archive.latest? with
  | none =>
    have hnone : c.archive.snapshots = [] := List.getLast?_eq_none_iff.1 hlatest
    simp [hnone]
  | some latest =>
    refine WithBot.coe_le_coe.trans ?_
    constructor
    · intro hle
      exact ⟨latest, Retention.mem_of_latest? hlatest, hle⟩
    · rintro ⟨s, hmem, hle⟩
      exact hle.trans (Retention.le_of_latest? h hlatest hmem)

/-- The recovery point does not go back where every snapshot leaves one that is as late. -/
theorem recoveryPoint_mono (h : Retention.Ascending c'.archive.snapshots)
    (hkeep : ∀ s ∈ c.archive.snapshots, ∃ t ∈ c'.archive.snapshots, s.id ≤ t.id) :
    c.recoveryPoint ≤ c'.recoveryPoint := by
  unfold recoveryPoint
  split
  · exact bot_le
  · next latest hlatest =>
    exact (coe_le_recoveryPoint_iff h).2 (hkeep latest (Retention.mem_of_latest? hlatest))

/-! ### One step -/

/-- Unless a step takes snapshots away, it leaves one that is as late as any given one. -/
theorem exists_le_step (hc : c.Orderly) (hs : Retention.Ascending c.archive.snapshots)
    (h : c.step request = .ok (c', events, reply)) (hkeeps : request.removes = false)
    (hmem : s ∈ c.archive.snapshots) : ∃ t ∈ c'.archive.snapshots, s.id ≤ t.id := by
  cases Files.of_step hc h with
  | same archive silent =>
    rw [archive]
    exact ⟨s, hmem, le_rfl⟩
  | failed asked there full gone finalized archive heard requests =>
    rw [archive, Archive.snapshots, (finalize_of_error finalized).1]
    exact ⟨s, hmem, le_rfl⟩
  | finished asked there full gone finalized archive requests answered =>
    obtain ⟨-, b, htakes, rfl, -⟩ := finalize_of_ok finalized
    rw [archive]
    exact Retention.exists_le_subsume (htakes.ascending hs) (htakes.mem_live.2 (Or.inr hmem))
  | relabeled asked newest claimed archive silent answered =>
    rw [archive]
    refine ⟨_, List.mem_map_of_mem hmem, ?_⟩
    split <;> exact le_rfl
  | removed asked unregistered silent =>
    rw [asked] at hkeeps
    cases hkeeps
  | disposed asked found unregistered archive heard requests =>
    rw [asked] at hkeeps
    cases hkeeps
  | closed asked archive requests =>
    rw [asked] at hkeeps
    cases hkeeps

theorem recoveryPoint_le_step (hc : c.Orderly) (hs : Retention.Ascending c.archive.snapshots)
    (h : c.step request = .ok (c', events, reply)) (hkeeps : request.removes = false) :
    c.recoveryPoint ≤ c'.recoveryPoint :=
  recoveryPoint_mono (ascending_step hc hs h) fun _ hmem => exists_le_step hc hs h hkeeps hmem

/-- Restoring answers the latest snapshot, which is still the latest one afterwards. -/
theorem restored_of_step (hs : Retention.Ascending c.archive.snapshots) {mode : ClaimMode}
    (h : c.step (.restore mode) = .ok (c', events, reply)) :
    reply = .restored (.ok (c.archive.latest?.map fun s => s.restoredIn mode)) ∧
      c'.archive.latest? = c.archive.latest?.map fun s => s.restoredIn mode := by
  cases Performs.of_step h with
  | restore hrestore =>
    rcases restore_cases c mode with ⟨hnone, he⟩ | ⟨latest, hlatest, ⟨hmode, he⟩ | ⟨hmode, hlabel⟩⟩
    · cases he.symm.trans hrestore
      rw [hnone]
      exact ⟨rfl, rfl⟩
    · cases he.symm.trans hrestore
      have hsame : latest.restoredIn mode = latest := if_pos hmode
      rw [hlatest, Option.map_some, hsame]
      exact ⟨rfl, rfl⟩
    · have hother : latest.restoredIn mode = { latest with policy := .unclaimedSnapshot } :=
        if_neg hmode
      have hfound : (c.archive.relabel latest.id .unclaimedSnapshot).2 =
          some { latest with policy := .unclaimedSnapshot } := by
        refine (Retention.find?_relabel _ _ _).trans ?_
        rw [Retention.find?_of_latest? hs hlatest]
        rfl
      rcases hlabel with ⟨s, hsome, he⟩ | ⟨hnone, he⟩
      · cases he.symm.trans hrestore
        cases hfound.symm.trans hsome
        rw [hlatest, Option.map_some, hother]
        refine ⟨rfl, (Retention.latest?_relabel _ _ _).trans ?_⟩
        rw [show c.archive.retention.latest? = some latest from hlatest, Option.map_some,
          if_pos rfl]
      · cases hfound.symm.trans hnone

/-- A completed checkpoint is not later than the recovery point that it leaves. -/
theorem le_recoveryPoint_of_completed {m : Moment} {id : Nat} (hc : m.before.Orderly)
    (hs : Retention.Ascending m.before.archive.snapshots)
    (hstep : m.before.step m.request = .ok (m.after, m.events, m.reply))
    (hcompleted : m.Completed id) : (id : WithBot ℕ) ≤ m.after.recoveryPoint := by
  obtain ⟨hreply, run, state, now, hrequest⟩ := hcompleted
  obtain ⟨r, r', hfind, hfull, vault, added, rest, gone, -, hadd, -⟩ :=
    completes_step hstep hrequest hreply
  obtain ⟨t, ht, hle⟩ := Archive.exists_le_add
    (a := { m.before.archive with vault := vault }) hs hadd
  rw [show (draft m.before.archive r' now).id = id from hc.own_of_completes hfind hfull] at hle
  exact (coe_le_recoveryPoint_iff (ascending_step hc hs hstep)).2 ⟨t, ht, hle⟩

/-! ### Whole runs -/

/-- Unless snapshots are taken away, the recovery point stays where it was or moves on. -/
theorem endures_of_run (h : Run outside start history c) (hstart : start.Orderly)
    (hshelved : start.Shelved) (hkeeps : ∀ m ∈ history, m.request.removes = false) :
    Endures start.recoveryPoint history c := by
  have hkeep := Shelved.invariant (P := fun c => start.recoveryPoint ≤ c.recoveryPoint)
    (Q := fun _ request => request.removes = false) h hstart hshelved (fun _ hle => hle)
    (fun hc hs hle hkeeps hstep => hle.trans (recoveryPoint_le_step hc hs.ascending hstep hkeeps))
    le_rfl hkeeps
  exact ⟨hkeep.2, hkeep.1⟩

end Coordinator

/-- The recovery point never goes back in a run that neither disposes of a savepoint nor closes the
coordinator, whatever the archive holds at the start, which policies come together and what storage
refuses.  It is at least the id of every checkpoint that has completed, from that moment on, and
restoring answers the latest snapshot: as it is, or as an unclaimed one if it is not claimed. -/
theorem recovery_point_never_recedes {settings : Settings} {archive : Archive} {hasHandler : Bool}
    {outside : Vault → Vault → Prop} {start c : Coordinator} {history : List Moment}
    (hascending : Retention.Ascending archive.snapshots)
    (hopen : Coordinator.open? settings archive hasHandler = .ok start)
    (hrun : Run outside start history c)
    (hkeeps : ∀ m ∈ history, m.request.removes = false) :
    ∀ past m future, history = past ++ m :: future →
      m.before.recoveryPoint ≤ m.after.recoveryPoint ∧
      Endures m.after.recoveryPoint future c ∧
      (∀ id, m.Completed id → id ≤ m.after.recoveryPoint ∧ Endures id future c) ∧
      ∀ mode, m.request = .restore mode →
        m.reply = .restored (.ok (m.before.archive.latest?.map fun s => s.restoredIn mode)) ∧
        m.after.archive.latest? = m.before.archive.latest?.map fun s => s.restoredIn mode := by
  rintro past m future rfl
  have hstart := Coordinator.orderly_of_open hopen
  have hshelved := (Coordinator.state_of_open hascending hopen).2.2
  have hm : m ∈ past ++ m :: future := List.mem_append_right _ List.mem_cons_self
  obtain ⟨hbefore, hafter⟩ := (Coordinator.Orderly.of_run hrun hstart).2 m hm
  obtain ⟨hon, hstays⟩ := (Coordinator.Shelved.of_run hrun hstart hshelved).2 m hm
  obtain ⟨-, -, -, -, -, hstep, hfuture⟩ := hrun.moment
  have hendures := Coordinator.endures_of_run hfuture hafter hstays fun later hlater =>
    hkeeps later (List.mem_append_right _ (List.mem_cons_of_mem _ hlater))
  refine ⟨Coordinator.recoveryPoint_le_step hbefore hon.ascending hstep (hkeeps m hm), hendures,
    fun id hcompleted => ?_, fun mode hrequest => ?_⟩
  · have hle := Coordinator.le_recoveryPoint_of_completed hbefore hon.ascending hstep hcompleted
    exact ⟨hle, hendures.mono hle⟩
  · rw [hrequest] at hstep
    exact Coordinator.restored_of_step hon.ascending hstep

/-- A checkpoint that overtakes a savepoint.  The savepoint completes late, and then the job
restores without claiming what it restores. -/
def lateRequests : List Request :=
  [.register ⟨1, 0, 0⟩ .running, .trigger (.savepoint true .canonical) 10,
    .trigger (.ofRetention .onFailure) 20, .acknowledge 2 ⟨1, 0, 0⟩ [7] 30,
    .acknowledge 1 ⟨1, 0, 0⟩ [8] 40, .restore .noClaim]

/-- The checkpoint is what the job recovers from, although the savepoint completes after it. -/
theorem recovery_point_never_recedes_after_savepoint : ∃ start c past m future,
    Coordinator.open? (Settings.default.withMaxConcurrent 9)
      ⟨.of (.memory ∅) .none, .empty 1⟩ false = .ok start ∧
    start.perform lateRequests = (past ++ m :: future, c) ∧ m.Completed 2 ∧
    (∃ later ∈ future, later.Completed 1) ∧ Endures (2 : ℕ) future c ∧
    c.recoveryPoint = (2 : ℕ) := by
  obtain ⟨start, c, past, m, future, hopen, hperform, hcompleted, hlater, hkeeps, hpoint⟩ :
      ∃ start c past m future,
        Coordinator.open? (Settings.default.withMaxConcurrent 9)
          ⟨.of (.memory ∅) .none, .empty 1⟩ false = .ok start ∧
        start.perform lateRequests = (past ++ m :: future, c) ∧ m.Completed 2 ∧
        (∃ later ∈ future, later.Completed 1) ∧
        (∀ m' ∈ past ++ m :: future, m'.request.removes = false) ∧
        c.recoveryPoint = (2 : ℕ) :=
    ⟨_, _, [_, _, _], _, _, rfl, rfl, ⟨rfl, _, _, _, rfl⟩,
      ⟨_, List.mem_cons_self, rfl, _, _, _, rfl⟩, by decide, rfl⟩
  have hrun : Run Eq start _ _ := Run.of_perform (fun _ => rfl) start lateRequests
  rw [hperform] at hrun
  have hascending : Retention.Ascending
      (Archive.snapshots ⟨.of (.memory ∅) .none, .empty 1⟩) := .nil
  have hstory := recovery_point_never_recedes hascending hopen hrun hkeeps past m future rfl
  exact ⟨start, c, past, m, future, hopen, hperform, hcompleted, hlater,
    (hstory.2.2.1 2 hcompleted).2, hpoint⟩

end Checkpointing
