import Mathlib.Tactic
import Checkpointing.Proofs.Coordinator.Settlement

/-!
# A completed checkpoint subsumes the older ones

When a checkpoint completes, the older ones under way have no use any more.  They are aborted,
unless they are forced: somebody asked for just these.

* `SubsumesBelow` says what a completion does to the other rounds, `SubsumesNothing` that an
  acknowledgment leaves them alone;
* `subsumes_of_acknowledge`: an acknowledgment does the one if it completes its checkpoint and the
  other if it does not; `subsumesBelow_of_ok` and `subsumesNothing_of_error` are the cases of a full
  round;
* `Ahead.step`, `ahead_of_run`: rounds that are not forced stay ahead of whatever has completed;
* `subsumes_exactly` joins both for every run.
-/

namespace Checkpointing

/-- In this moment an acknowledgment completed a checkpoint. -/
def Moment.Completed (m : Moment) (id : Nat) : Prop :=
  m.reply = .acknowledged (.ok .completes) ∧
    ∃ run state now, m.request = .acknowledge id run state now

/-- The checkpoint is over, with all older ones that are not forced.  Of these it is heard that the
checkpoint has subsumed them; nothing is heard of the others, which stay as they are. -/
structure Moment.SubsumesBelow (m : Moment) (id : Nat) : Prop where
  present : m.before.rounds.contains id = true
  rounds : ∀ i r, m.after.rounds.find? i = some r ↔
    m.before.rounds.find? i = some r ∧ i ≠ id ∧ (i < id → r.policy.forced = true)
  subsumed : ∀ i r, m.before.rounds.find? i = some r → i < id → r.policy.forced = false →
    newsOf i m.events = verdict i (.error (.subsumed i id))
  quiet : ∀ i, i ≠ id →
    (∀ r, m.before.rounds.find? i = some r → i < id → r.policy.forced = true) →
      newsOf i m.events = []

/-- All other checkpoints are left alone, and no checkpoint is heard to be subsumed. -/
structure Moment.SubsumesNothing (m : Moment) (id : Nat) : Prop where
  rounds : ∀ i, i ≠ id → m.after.rounds.find? i = m.before.rounds.find? i
  quiet : ∀ i, i ≠ id → newsOf i m.events = []
  unheard : ∀ i j k, .notice (.aborted i (.subsumed j k)) ∉ m.events

namespace Coordinator

variable {c c' : Coordinator} {events : List Event} {id : Nat} {run : TaskRun} {state : Bytes}
  {now : Int}

/-! ### One acknowledgment -/

/-- Which rounds are left when a full one was stored. -/
theorem find?_rounds_complete_of_ok {r : Round} {a : Archive} {kept : List Event} {s : Snapshot}
    (hfinal : finalize c.archive r now = (a, kept, .ok s)) (i : Nat) (t : Round) :
    (c.complete r now).1.rounds.find? i = some t ↔
      c.rounds.find? i = some t ∧ i ≠ r.id ∧ (i < r.id → t.policy.forced = true) := by
  obtain ⟨budget, he⟩ := complete_of_ok hfinal
  rw [he, overtaken_erase, Table.find?_eraseAll, Table.find?_erase]
  by_cases hover : i ∈ c.overtaken r.id
  · obtain ⟨t', hfind, hlt, hforced⟩ := mem_overtaken.1 hover
    rw [if_pos hover, hfind]
    refine iff_of_false (by simp) ?_
    rintro ⟨hsame, -, hkeep⟩
    cases hsame
    rw [hkeep hlt] at hforced
    cases hforced
  · rw [if_neg hover]
    by_cases hid : i = r.id
    · simp [hid]
    · rw [if_neg hid, iff_self_and]
      refine fun hfind => ⟨hid, fun hlt => ?_⟩
      by_contra hforced
      exact hover (mem_overtaken.2 ⟨t, hfind, hlt, by simpa using hforced⟩)

/-- A full round fails because storage refuses something or because its id is registered. -/
theorem reason_of_finalize {archive a : Archive} {r : Round} {kept : List Event}
    {reason : SnapshotError} (h : finalize archive r now = (a, kept, .error reason)) :
    (∃ failure, reason = .storage failure) ∨ ∃ i, reason = .alreadyRegistered i := by
  rcases finalize_cases archive r now with ⟨vault, kept', failure, -, he⟩ |
    ⟨vault, kept', -, ⟨a', added, e, hadd, he⟩ | ⟨a', added, gone, -, he⟩⟩ <;> cases he.symm.trans h
  · exact Or.inl ⟨failure, rfl⟩
  · rcases Archive.add_cases { archive with vault := vault } (draft archive r now) with
      ⟨-, he'⟩ | ⟨-, ⟨medium, failure, -, he'⟩ | ⟨medium, -, he'⟩⟩ <;> cases he'.symm.trans hadd
    · exact Or.inr ⟨_, rfl⟩
    · exact Or.inl ⟨failure, rfl⟩

/-- A notice of an abort is the verdict on a round that ends in this moment. -/
theorem mem_ended_of_notice {rounds rounds' : Table Nat Round} {ended : List (Nat × Outcome)}
    (h : Ended rounds rounds' events ended) {i : Nat} {reason : SnapshotError}
    (hmem : .notice (.aborted i reason) ∈ events) : (i, .error reason) ∈ ended := by
  have hnews : .notice (.aborted i reason) ∈ verdicts ended := by
    rw [← h.news]
    exact List.mem_filter.2 ⟨hmem, rfl⟩
  obtain ⟨⟨j, outcome⟩, hend, hverdict⟩ := List.mem_flatMap.1 hnews
  cases outcome with
  | ok info => simp [verdict] at hverdict
  | error cause =>
    simp only [verdict, List.mem_cons, Event.notice.injEq, Notice.aborted.injEq, reduceCtorEq,
      List.not_mem_nil, or_false] at hverdict
    obtain ⟨rfl, rfl⟩ := hverdict
    exact hend

section

variable {m : Moment} {r : Round} {a : Archive} {kept : List Event}

/-- A full round that was stored subsumes the older ones that are not forced. -/
theorem subsumesBelow_of_ok {s : Snapshot} (hc : m.before.Orderly)
    (hin : m.before.rounds.contains id = true) (hr : r.Full id)
    (hfinal : finalize m.before.archive r now = (a, kept, .ok s))
    (hstate : (m.before.complete r now).1 = m.after)
    (hevents : (m.before.complete r now).2.1 = m.events) : m.SubsumesBelow id := by
  have hended := ended_complete_of_ok hc.underWay hin hr hfinal
  have hrounds := find?_rounds_complete_of_ok hfinal
  rw [hr.own, hstate] at hrounds
  rw [hstate, hevents] at hended
  refine ⟨hin, hrounds, fun i t ht hlt hforced => ?_, fun i hi hkeep => ?_⟩
  · refine hended.newsOf_eq_verdict (List.mem_cons_of_mem _ ?_)
    exact List.mem_map_of_mem (mem_overtaken.2 ⟨t, ht, hlt, hforced⟩)
  · refine hended.newsOf_eq_nil ?_
    simp only [List.map_cons, List.map_map, Function.comp_def, List.map_id', List.mem_cons, not_or]
    refine ⟨hi, fun hover => ?_⟩
    obtain ⟨t, ht, hlt, hforced⟩ := mem_overtaken.1 hover
    rw [hkeep t ht hlt] at hforced
    cases hforced

/-- A full round that could not be stored ends alone. -/
theorem subsumesNothing_of_error {reason : SnapshotError}
    (hin : m.before.rounds.contains id = true) (hr : r.Full id)
    (hfinal : finalize m.before.archive r now = (a, kept, .error reason))
    (hstate : (m.before.complete r now).1 = m.after)
    (hevents : (m.before.complete r now).2.1 = m.events) : m.SubsumesNothing id := by
  have hended := ended_complete_of_error hin hr hfinal
  rw [hstate, hevents] at hended
  refine ⟨fun i hi => ?_, fun i hi => hended.newsOf_eq_nil (by simpa using hi),
    fun i j k hmem => ?_⟩
  · obtain ⟨budget, breach, -, hcomplete⟩ := complete_of_error hfinal
    rw [← hstate, hcomplete]
    show (m.before.rounds.erase r.id).find? i = _
    rw [hr.own, Table.find?_erase, if_neg hi]
  · have hreason := mem_ended_of_notice hended hmem
    rcases reason_of_finalize hfinal with ⟨failure, rfl⟩ | ⟨i', rfl⟩ <;> simp at hreason

/-- An acknowledgment subsumes the older rounds that are not forced if it completes its checkpoint,
and otherwise no round at all. -/
theorem subsumes_of_acknowledge (hc : m.before.Orderly)
    (h : m.before.step m.request = .ok (m.after, m.events, m.reply))
    (hreq : m.request = .acknowledge id run state now) :
    (m.reply = .acknowledged (.ok .completes) ∧ m.SubsumesBelow id) ∨
    (m.reply ≠ .acknowledged (.ok .completes) ∧ m.SubsumesNothing id) := by
  obtain ⟨c, request, events, reply, c'⟩ := m
  dsimp only at hc h hreq
  subst hreq
  cases Performs.of_step h with
  | acknowledge hack =>
    rcases acknowledge_cases c id run state now with
      ⟨-, he⟩ | ⟨r, hfind, ⟨r', hr', he⟩ | ⟨hres, he⟩⟩
    · cases he.symm.trans hack
      exact Or.inr ⟨by simp, fun _ _ => rfl, fun _ _ => rfl, by simp⟩
    · have hin : c.rounds.contains id = true := Table.contains_iff.2 ⟨r, hfind⟩
      have hfull := (hc.underWay hfind).full_of_completes hr'
      have hcomplete := he.symm.trans hack
      have hstate := congrArg Prod.fst hcomplete
      have hevents := congrArg (·.2.1) hcomplete
      rcases hfinal : finalize c.archive r' now with ⟨a, kept, reason | s⟩
      · refine Or.inr ⟨?_, subsumesNothing_of_error hin hfull hfinal hstate hevents⟩
        obtain ⟨budget, breach, -, hfailed⟩ := complete_of_error hfinal
        cases hfailed.symm.trans hcomplete
        simp
      · refine Or.inl ⟨?_, subsumesBelow_of_ok hc hin hfull hfinal hstate hevents⟩
        obtain ⟨budget, hstored⟩ := complete_of_ok hfinal
        cases hstored.symm.trans hcomplete
        rfl
    · cases he.symm.trans hack
      refine Or.inr ⟨by simpa using hres, fun i hi => ?_, fun _ _ => rfl, by simp⟩
      exact (Table.find?_insert ..).trans (if_neg hi)

end

/-! ### Whole runs -/

/-- Rounds that are not forced have greater ids than the checkpoints that have completed. -/
def Ahead (past : List Moment) (c : Coordinator) : Prop :=
  ∀ m ∈ past, ∀ id, m.Completed id → id < c.nextId ∧
    ∀ i r, c.rounds.find? i = some r → r.policy.forced = false → id < i

/-- New rounds get ids that were not handed out before, so what has completed stays behind. -/
theorem Ahead.keep {request : Request} {reply : Reply} {past : List Moment} (hc : c.Orderly)
    (h : c.step request = .ok (c', events, reply)) (hahead : Ahead past c) : Ahead past c' := by
  intro m hm id hcompleted
  obtain ⟨hid, hrounds⟩ := hahead m hm id hcompleted
  refine ⟨hid.trans_le (nextId_le_step hc h), fun i r' hfind' hforced => ?_⟩
  rcases find?_rounds_step hc h hfind' with ⟨policy, now, -, -, hnew, -⟩ |
    ⟨r, hfind, ⟨run, state, now, -, -, rfl⟩ | ⟨-, rfl⟩⟩
  · omega
  · rw [Round.policy_acknowledge] at hforced
    exact hrounds i r hfind hforced
  · exact hrounds i r' hfind hforced

theorem Ahead.step {past : List Moment} {m : Moment} (hc : m.before.Orderly)
    (h : m.before.step m.request = .ok (m.after, m.events, m.reply))
    (hahead : Ahead past m.before) : Ahead (past ++ [m]) m.after := by
  intro m' hm' id hcompleted
  rcases List.mem_append.1 hm' with hm' | hm'
  · exact hahead.keep hc h m' hm' id hcompleted
  · obtain rfl := List.mem_singleton.1 hm'
    obtain ⟨hreply, run, state, now, hreq⟩ := hcompleted
    rcases subsumes_of_acknowledge hc h hreq with ⟨-, hbelow⟩ | ⟨hno, -⟩
    · obtain ⟨r, hfind⟩ := Table.contains_iff.1 hbelow.present
      refine ⟨(hc.numbered hfind).trans_le (nextId_le_step hc h), fun i t ht hforced => ?_⟩
      -- What is left below the completed checkpoint is forced.
      obtain ⟨-, hne, hkeep⟩ := (hbelow.rounds i t).1 ht
      by_contra hle
      rw [hkeep (by omega)] at hforced
      cases hforced
    · exact absurd hreply hno

theorem ahead_of_run {outside : Vault → Vault → Prop} {start : Coordinator} {past : List Moment}
    (h : Run outside start past c) (hstart : start.Orderly) : Ahead past c := by
  induction h with
  | nil => simp [Ahead]
  | @snoc past c c' vault request events reply hrun change step ih =>
    have horderly := (Orderly.of_run hrun hstart).1.withVault vault
    exact Ahead.step (m := ⟨c.withVault vault, request, events, reply, c'⟩) horderly step ih

end Coordinator

/-- Subsumption is exact in every run.  An acknowledgment that completes a checkpoint takes it from
the rounds, with the older ones that are not forced, each of which is heard to be subsumed; it
leaves every other round as it is.  Any other acknowledgment subsumes nothing.  So all rounds that
are not forced are ahead of every checkpoint that has completed. -/
theorem subsumes_exactly {settings : Settings} {archive : Archive} {hasHandler : Bool}
    {outside : Vault → Vault → Prop} {start c : Coordinator} {history : List Moment}
    (hopen : Coordinator.open? settings archive hasHandler = .ok start)
    (hrun : Run outside start history c) :
    (∀ m ∈ history, ∀ id run state now, m.request = .acknowledge id run state now →
      (m.reply = .acknowledged (.ok .completes) → m.SubsumesBelow id) ∧
      (m.reply ≠ .acknowledged (.ok .completes) → m.SubsumesNothing id)) ∧
    ∀ m ∈ history, ∀ id, m.Completed id →
      ∀ i r, c.rounds.find? i = some r → r.policy.forced = false → id < i := by
  have hstart := Coordinator.orderly_of_open hopen
  refine ⟨fun m hm id run state now hreq => ?_, fun m hm id hcompleted =>
    (Coordinator.ahead_of_run hrun hstart m hm id hcompleted).2⟩
  have horderly := ((Coordinator.Orderly.of_run hrun hstart).2 m hm).1
  obtain ⟨past, future, rfl⟩ := List.append_of_mem hm
  obtain ⟨d, vault, -, -, -, hstep, -⟩ := hrun.moment
  rcases Coordinator.subsumes_of_acknowledge horderly hstep hreq with ⟨hyes, hbelow⟩ |
    ⟨hno, hnothing⟩
  · exact ⟨fun _ => hbelow, fun hno => absurd hyes hno⟩
  · exact ⟨fun hyes => absurd hyes hno, fun _ => hnothing⟩

/-- Two forced savepoints with a checkpoint between them and one after them.  The second savepoint
completes before all others. -/
def crossingRequests : List Request :=
  [.register ⟨1, 0, 0⟩ .running, .trigger (.savepoint true .canonical) 10,
    .trigger (.ofRetention .onFailure) 20, .trigger (.savepoint true .canonical) 30,
    .trigger (.ofRetention .onFailure) 40, .acknowledge 3 ⟨1, 0, 0⟩ [7] 50]

/-- The first checkpoint is subsumed; the first savepoint and the last checkpoint are not. -/
theorem subsumes_exactly_of_savepoint : ∃ start c past m,
    Coordinator.open? (Settings.default.withMaxConcurrent 9)
      ⟨.of (.memory ∅) .none, .empty 1⟩ false = .ok start ∧
    start.perform crossingRequests = (past ++ [m], c) ∧
    m.request = .acknowledge 3 ⟨1, 0, 0⟩ [7] 50 ∧ m.reply = .acknowledged (.ok .completes) ∧
    m.before.rounds.keys = [1, 2, 3, 4] ∧ m.SubsumesBelow 3 ∧ c.rounds.keys = [1, 4] ∧
    newsOf 2 m.events = verdict 2 (.error (.subsumed 2 3)) ∧
    ∀ i r, c.rounds.find? i = some r → r.policy.forced = false → 3 < i := by
  obtain ⟨start, c, past, m, r, hopen, hperform, hreq, hreply, hbefore, hfind, hforced, hafter⟩ :
      ∃ start c past m r,
        Coordinator.open? (Settings.default.withMaxConcurrent 9)
          ⟨.of (.memory ∅) .none, .empty 1⟩ false = .ok start ∧
        start.perform crossingRequests = (past ++ [m], c) ∧
        m.request = .acknowledge 3 ⟨1, 0, 0⟩ [7] 50 ∧ m.reply = .acknowledged (.ok .completes) ∧
        m.before.rounds.keys = [1, 2, 3, 4] ∧ m.before.rounds.find? 2 = some r ∧
        r.policy.forced = false ∧ c.rounds.keys = [1, 4] :=
    ⟨_, _, _, _, _, rfl,
      Prod.ext (List.dropLast_append_getLast (List.cons_ne_nil _ _)).symm rfl,
      rfl, rfl, rfl, rfl, rfl, rfl⟩
  have hrun : Run Eq start _ _ := Run.of_perform (fun _ => rfl) start crossingRequests
  rw [hperform] at hrun
  obtain ⟨hexact, hahead⟩ := subsumes_exactly hopen hrun
  have hm : m ∈ past ++ [m] := List.mem_append_right _ List.mem_cons_self
  have hbelow := (hexact m hm 3 ⟨1, 0, 0⟩ [7] 50 hreq).1 hreply
  exact ⟨start, c, past, m, hopen, hperform, hreq, hreply, hbefore, hbelow, hafter,
    hbelow.subsumed 2 r hfind (by decide) hforced, hahead m hm 3 ⟨hreply, _, _, _, hreq⟩⟩

end Checkpointing
