import Mathlib.Tactic
import Checkpointing.Proofs.Coordinator.Admission

/-!
# The rounds under way

Every round in the table of rounds is in progress under its own id and waits for one of its
participants at least; no more of them than the settings allow are not forced; and once the
coordinator was closed there are none.

* `unforced` lists the rounds that count for the limit, and `mem_unforced_step` says where they
  come from in a step;
* `closed_step`, `rounds_step_of_closed`: closing is for good, and nothing is opened afterwards;
* `Occupied.step` is the step of the invariant and `rounds_are_open_and_few` the main statement.
-/

namespace Checkpointing

namespace Coordinator

variable {c c' start : Coordinator} {request : Request} {events : List Event} {reply : Reply}
  {outside : Vault → Vault → Prop} {history : List Moment}

/-! ### The limit -/

/-- The ids of the rounds under way that are not forced. -/
def unforced (c : Coordinator) : List Nat :=
  (c.rounds.entries.filter fun (_, r) => !r.policy.forced).map (·.1)

theorem mem_unforced {id : Nat} :
    id ∈ c.unforced ↔ ∃ r, c.rounds.find? id = some r ∧ r.policy.forced = false :=
  Table.mem_keys_filter_iff.trans (by simp)

theorem nodup_unforced (c : Coordinator) : c.unforced.Nodup := (nodup_keys_filter c.rounds _).1

theorem length_unforced_le (c : Coordinator) : c.unforced.length ≤ c.rounds.size := by
  unfold unforced Table.size
  rw [List.length_map]
  exact List.length_filter_le _ _

/-- A round that counts for the limit has just been admitted, or counted before. -/
theorem mem_unforced_step (hc : c.Orderly) (h : c.step request = .ok (c', events, reply)) {id : Nat}
    (hid : id ∈ c'.unforced) :
    (∃ policy now, c.Admits policy now ∧ policy.forced = false ∧
      c'.rounds.size = c.rounds.size + 1) ∨ id ∈ c.unforced := by
  obtain ⟨r', hr', hforced⟩ := mem_unforced.1 hid
  rcases find?_rounds_step hc h hr' with ⟨policy, now, hreq, hreply, -, -, -, rfl⟩ |
    ⟨r, hfind, ⟨run, state, now, -, -, rfl⟩ | ⟨-, rfl⟩⟩
  · left
    rcases lastTrigger_step hc h with ⟨policy', now', hreq', -, hadmits, -⟩ | ⟨hno, -⟩
    · cases hreq.symm.trans hreq'
      rcases news_of_step (m := ⟨c, request, events, reply, c'⟩) hc h with
        ⟨-, -, -, -, -, -, -, hsize, -⟩ | ⟨hno, -⟩
      · exact ⟨policy, now, hadmits, hforced, hsize⟩
      · exact absurd hreply (hno id)
    · exact absurd hreply (hno id)
  · right
    rw [Round.policy_acknowledge] at hforced
    exact mem_unforced.2 ⟨r, hfind, hforced⟩
  · right
    exact mem_unforced.2 ⟨r', hfind, hforced⟩

/-- A round is only admitted if there is room for it. -/
theorem length_unforced_step (hc : c.Orderly) (h : c.step request = .ok (c', events, reply))
    (hle : c.unforced.length ≤ c.settings.maxConcurrent) :
    c'.unforced.length ≤ c'.settings.maxConcurrent := by
  rw [settings_step hc h]
  by_cases hnew : ∃ policy now, c.Admits policy now ∧ policy.forced = false ∧
      c'.rounds.size = c.rounds.size + 1
  · obtain ⟨policy, now, hadmits, hforced, hsize⟩ := hnew
    have hroom := hadmits.room hforced
    have hlength := length_unforced_le c'
    omega
  · have hsub : c'.unforced ⊆ c.unforced := fun id hid =>
      (mem_unforced_step hc h hid).resolve_left hnew
    exact ((nodup_unforced c').subperm hsub).length_le.trans hle

/-! ### Closing -/

/-- Only a request to close it closes a coordinator, or opens it again. -/
theorem closed_step_of_ne (h : c.step request = .ok (c', events, reply))
    (hno : ∀ status, request ≠ .close status) : c'.closed = c.closed := by
  cases Performs.of_step h with
  | register run state =>
    rcases register_state c run state with he | he <;> rw [he]
  | trigger htrigger =>
    rcases trigger_cases htrigger with ⟨reason, -, rfl, -⟩ | ⟨-, -, hlaunch, -⟩
    · rfl
    · obtain ⟨rfl, -⟩ := Prod.mk.inj hlaunch
      rfl
  | acknowledge hack =>
    rename_i id run state now result
    rcases acknowledge_cases c id run state now with ⟨-, he⟩ | ⟨r, -, ⟨r', -, he⟩ | ⟨-, he⟩⟩
    · cases he.symm.trans hack
      rfl
    · obtain ⟨ids, archive, budget, hstate⟩ := complete_state c r' now
      rw [← he, hack] at hstate
      obtain rfl : c' = _ := hstate
      rfl
    · cases he.symm.trans hack
      rfl
  | decline hdecline =>
    rename_i id run reason any
    rcases decline_cases c id run reason with he | ⟨-, he⟩
    · cases he.symm.trans hdecline
      rfl
    · obtain ⟨budget, hstate⟩ := abortRound_state c id (.declined id run reason)
      rw [← he, hdecline] at hstate
      obtain rfl : c' = _ := hstate
      rfl
  | update hupdate =>
    rename_i run state
    obtain ⟨ids, budget, hstate⟩ := update_state c run state
    rw [hupdate] at hstate
    obtain rfl : c' = _ := hstate
    rcases register_state c run state with he | he <;> rw [he]
  | expire habort =>
    rename_i id any
    obtain ⟨budget, hstate⟩ := abortRound_state c id (.expired id)
    rw [habort] at hstate
    obtain rfl : c' = _ := hstate
    rfl
  | restore hrestore =>
    rename_i mode result
    obtain ⟨archive, nextId, -, hstate⟩ := restore_state c mode
    rw [hrestore] at hstate
    obtain rfl : c' = _ := hstate
    rfl
  | dispose hdispose =>
    rename_i id result
    obtain ⟨archive, hstate⟩ := dispose_state c id
    rw [hdispose] at hstate
    obtain rfl : c' = _ := hstate
    rfl
  | close hclose =>
    rename_i status result
    exact absurd rfl (hno status)

/-- A coordinator is closed by a request to close it and by nothing else, and for good. -/
theorem closed_step (h : c.step request = .ok (c', events, reply)) :
    c'.closed = true ↔ c.closed = true ∨ ∃ status, request = .close status := by
  by_cases hclose : ∃ status, request = .close status
  · obtain ⟨status, rfl⟩ := hclose
    apply iff_of_true ?_ (Or.inr ⟨status, rfl⟩)
    cases Performs.of_step h with
    | close hclose =>
      rcases close_cases c status with ⟨hclosed, he⟩ | ⟨-, budget, he⟩
      · cases he.symm.trans hclose
        exact hclosed
      · cases he.symm.trans hclose
        rfl
  · rw [closed_step_of_ne h fun status heq => hclose ⟨status, heq⟩]
    exact (or_iff_left hclose).symm

/-- Nothing is opened once the coordinator is closed. -/
theorem rounds_step_of_closed (hc : c.Orderly) (h : c.step request = .ok (c', events, reply))
    (hclosed : c.closed = true) (hempty : c.rounds = ∅) : c'.rounds = ∅ := by
  apply Table.eq_empty_of_find?_eq_none
  intro id
  by_contra hfound
  obtain ⟨r', hr'⟩ := Option.ne_none_iff_exists'.1 hfound
  rcases find?_rounds_step hc h hr' with ⟨policy, now, -, hreply, -⟩ | ⟨r, hfind, -⟩
  · rcases lastTrigger_step hc h with ⟨policy', now', -, -, hadmits, -⟩ | ⟨hno, -⟩
    · rw [hadmits.isOpen] at hclosed
      cases hclosed
    · exact hno id hreply
  · rw [hempty] at hfind
    cases hfind

theorem rounds_of_close {status : JobStatus} (h : c.step (.close status) = .ok (c', events, reply))
    (hempty : c.closed = true → c.rounds = ∅) : c'.rounds = ∅ := by
  cases Performs.of_step h with
  | close hclose =>
    rcases close_cases c status with ⟨hclosed, he⟩ | ⟨-, budget, he⟩
    · cases he.symm.trans hclose
      exact hempty hclosed
    · cases he.symm.trans hclose
      apply Table.eq_empty_of_find?_eq_none
      intro id
      rw [Table.find?_eraseAll]
      by_cases hid : id ∈ c.rounds.keys
      · exact if_pos hid
      · rw [if_neg hid]
        exact Table.contains_eq_false_iff.1 (by simpa [Table.mem_keys_iff] using hid)

/-! ### The invariant -/

/-- No more rounds than there is room for are not forced, and none is there after closing. -/
structure Occupied (c : Coordinator) : Prop where
  limit : c.unforced.length ≤ c.settings.maxConcurrent
  empty : c.closed = true → c.rounds = ∅

theorem Occupied.step (hoccupied : c.Occupied) (hc : c.Orderly)
    (h : c.step request = .ok (c', events, reply)) : c'.Occupied := by
  constructor
  · exact length_unforced_step hc h hoccupied.limit
  · intro hclosed
    rcases (closed_step h).1 hclosed with hbefore | ⟨status, rfl⟩
    · exact rounds_step_of_closed hc h hbefore (hoccupied.empty hbefore)
    · exact rounds_of_close h hoccupied.empty

theorem occupied_of_open {settings : Settings} {archive : Archive} {hasHandler : Bool}
    (h : open? settings archive hasHandler = .ok c) : c.Occupied := by
  have hempty := rounds_of_open h
  constructor
  · rw [unforced, hempty]
    exact Nat.zero_le _
  · intro _
    exact hempty

theorem Occupied.of_run (h : Run outside start history c) (hstart : start.Orderly)
    (hoccupied : start.Occupied) :
    c.Occupied ∧ ∀ m ∈ history, m.before.Occupied ∧ m.after.Occupied := by
  have hkeep := h.invariant (P := fun c => c.Orderly ∧ c.Occupied)
    (fun _ hc => ⟨hc.1.withVault _, hc.2.limit, hc.2.empty⟩)
    (fun hc hs => ⟨hc.1.step hs, hc.2.step hc.1 hs⟩) ⟨hstart, hoccupied⟩
  exact ⟨hkeep.1.2, fun m hm => ⟨(hkeep.2 m hm).1.2, (hkeep.2 m hm).2.2⟩⟩

/-- A coordinator is closed once it was asked to close. -/
theorem closed_of_run (h : Run outside start history c) {status : JobStatus}
    (hclose : ∃ m ∈ history, m.request = .close status) : c.closed = true := by
  induction h with
  | nil => simp at hclose
  | snoc run change step ih =>
    apply (closed_step step).2
    obtain ⟨m, hm, hreq⟩ := hclose
    rcases List.mem_append.1 hm with hold | hnew
    · exact Or.inl (ih ⟨m, hold, hreq⟩)
    · obtain rfl := List.mem_singleton.1 hnew
      exact Or.inr ⟨status, hreq⟩

end Coordinator

/-- In every state that a coordinator can reach, whatever storage refuses or the outside does to it:
each round stands under its own id, is in progress and waits for a participant; no more of them than
the settings allow are not forced; and there is none once the coordinator was asked to close,
whatever it answered. -/
theorem rounds_are_open_and_few {settings : Settings} {archive : Archive} {hasHandler : Bool}
    {outside : Vault → Vault → Prop} {start c : Coordinator} {history : List Moment}
    (hopen : Coordinator.open? settings archive hasHandler = .ok start)
    (hrun : Run outside start history c) :
    (∀ id r, c.rounds.find? id = some r → r.id = id ∧ r.phase = .inProgress ∧ r.expected ≠ [] ∧
      ∃ run ∈ r.expected, r.hasAck run = false) ∧
    c.unforced.length ≤ settings.maxConcurrent ∧
    ((∃ m ∈ history, ∃ status, m.request = .close status) → c.rounds = ∅) := by
  have hstart := Coordinator.orderly_of_open hopen
  have horderly := (Coordinator.Orderly.of_run hrun hstart).1
  have hoccupied :=
    (Coordinator.Occupied.of_run hrun hstart (Coordinator.occupied_of_open hopen)).1
  refine ⟨fun id r hfind => ?_, ?_, ?_⟩
  · have hway := horderly.underWay hfind
    have hnodup : r.expected.Nodup := by
      obtain ⟨⟨trigger, -, hopens⟩, -⟩ :=
        (traced_of_run hrun hstart (Coordinator.rounds_of_open hopen)).1 hfind
      rw [hopens.expected]
      exact TaskRun.nodup_sortDistinct _
    obtain ⟨run, hawaits⟩ := hway.exists_awaits hnodup
    obtain ⟨hmem, hack⟩ := Round.awaits_iff.1 hawaits
    exact ⟨hway.own, hway.inProgress, List.ne_nil_of_mem hmem, run, hmem, hack⟩
  · have hsame := (Coordinator.settings_of_run hrun hstart).1
    rw [(Coordinator.start_of_open hopen).1] at hsame
    rw [← hsame]
    exact hoccupied.limit
  · rintro ⟨m, hm, status, hreq⟩
    exact hoccupied.empty (Coordinator.closed_of_run hrun ⟨m, hm, hreq⟩)

/-- A checkpoint completes, another one and a savepoint are under way, and there is no room for one
more. -/
def crowdedRequests : List Request :=
  [.register ⟨1, 0, 0⟩ .running, .trigger (.ofRetention .neverAfterTermination) 10,
    .acknowledge 1 ⟨1, 0, 0⟩ [7] 11, .trigger (.ofRetention .neverAfterTermination) 20,
    .trigger (.savepoint true .canonical) 21, .trigger (.ofRetention .neverAfterTermination) 22]

theorem rounds_are_open_and_few_when_crowded :
    ∃ start c d past closing,
      Coordinator.open? .default
        ⟨.of (.memory ∅) (FaultRule.plan [⟨.discard, none, none⟩]), .empty 1⟩ false = .ok start ∧
      start.perform crowdedRequests = (past, c) ∧ c.rounds.keys = [2, 3] ∧
      (∃ r, c.rounds.find? 2 = some r ∧ r.id = 2 ∧ r.phase = .inProgress ∧ r.expected ≠ [] ∧
        ∃ run ∈ r.expected, r.hasAck run = false) ∧
      c.unforced.length ≤ 1 ∧
      c.perform [.close .finished] = ([closing], d) ∧
      (∃ failures, closing.reply = .closed (.error failures)) ∧ d.rounds = ∅ := by
  obtain ⟨start, c, d, past, closing, hopen, hperform, hkeys, hclose, hreply, hrequest⟩ :
      ∃ start c d past closing,
        Coordinator.open? .default
          ⟨.of (.memory ∅) (FaultRule.plan [⟨.discard, none, none⟩]), .empty 1⟩ false = .ok start ∧
        start.perform crowdedRequests = (past, c) ∧ c.rounds.keys = [2, 3] ∧
        c.perform [.close .finished] = ([closing], d) ∧
        (∃ failures, closing.reply = .closed (.error failures)) ∧
        closing.request = .close .finished :=
    ⟨_, _, _, _, _, rfl, rfl, rfl, rfl, ⟨_, rfl⟩, rfl⟩
  have hrun : Run Eq start _ _ := Run.of_perform (fun _ => rfl) start crowdedRequests
  have hend : Run Eq c _ _ := Run.of_perform (fun _ => rfl) c [.close .finished]
  rw [hperform] at hrun
  rw [hclose] at hend
  obtain ⟨hrounds, hlimit, -⟩ := rounds_are_open_and_few hopen hrun
  obtain ⟨-, -, hclosed⟩ := rounds_are_open_and_few hopen (hrun.append hend)
  obtain ⟨r, hfind⟩ : ∃ r, c.rounds.find? 2 = some r :=
    Table.contains_iff.1 (Table.mem_keys_iff.1 (by rw [hkeys]; decide))
  exact ⟨start, c, d, past, closing, hopen, hperform, hkeys, ⟨r, hfind, hrounds 2 r hfind⟩, hlimit,
    hclose, hreply, hclosed ⟨closing, by simp, _, hrequest⟩⟩

end Checkpointing
