import Mathlib.Tactic
import Checkpointing.Proofs.Coordinator.Shelf

/-!
# Where a snapshot comes from

Every registered snapshot was there at the start or is that of a round which was completed, and it
still has the policy of its origin unless it was restored without being claimed.

* `Registered` and `RestoredUnclaimed` are read off the history of a run;
* `Origins` is the invariant: no id has two origins, and every registered snapshot has one;
* `disposed_by_origin`: the user only disposes of what was registered as a savepoint or restored
  without being claimed;
* `disposed_of_checkpoint`: the second case occurs.
-/

namespace Checkpointing

/-- The snapshot of an id was registered under a policy: it was there at the start, or the round of
that id was completed. -/
inductive Registered (start : Coordinator) (history : List Moment) (id : Nat)
    (policy : SnapshotPolicy) : Prop
  | initial {s : Snapshot} (there : s ∈ start.archive.snapshots) (own : s.id = id)
      (labeled : s.policy = policy)
  | completed {m : Moment} {run : TaskRun} {state : Bytes} {now : Int} {r : Round}
      (heard : m ∈ history) (request : m.request = .acknowledge id run state now)
      (reply : m.reply = .acknowledged (.ok .completes))
      (round : m.before.rounds.find? id = some r) (labeled : r.policy = policy)

/-- The snapshot of an id was restored without being claimed. -/
def RestoredUnclaimed (history : List Moment) (id : Nat) : Prop :=
  ∃ m ∈ history, m.request = .restore .noClaim ∧
    ∃ s, m.reply = .restored (.ok (some s)) ∧ s.id = id

variable {start c : Coordinator} {history : List Moment} {id : Nat}
  {policy : SnapshotPolicy}

theorem RestoredUnclaimed.append (h : RestoredUnclaimed history id) (m : Moment) :
    RestoredUnclaimed (history ++ [m]) id := by
  obtain ⟨m', hm', hrestored⟩ := h
  exact ⟨m', List.mem_append_left _ hm', hrestored⟩

theorem Registered.append (h : Registered start history id policy) (m : Moment) :
    Registered start (history ++ [m]) id policy := by
  cases h with
  | initial there own labeled => exact .initial there own labeled
  | completed heard request reply round labeled =>
    exact .completed (List.mem_append_left _ heard) request reply round labeled

/-- A registration was one before, or it is that of the last moment. -/
theorem Registered.of_append {m : Moment} (h : Registered start (history ++ [m]) id policy) :
    Registered start history id policy ∨ ∃ run state now r,
      m.request = .acknowledge id run state now ∧ m.reply = .acknowledged (.ok .completes) ∧
      m.before.rounds.find? id = some r ∧ r.policy = policy := by
  cases h with
  | initial there own labeled => exact Or.inl (.initial there own labeled)
  | completed heard request reply round labeled =>
    rcases List.mem_append.1 heard with heard | heard
    · exact Or.inl (.completed heard request reply round labeled)
    · obtain rfl := List.mem_singleton.1 heard
      exact Or.inr ⟨_, _, _, _, request, reply, round, labeled⟩

/-! ### The invariant -/

namespace Coordinator

/-- No id has two origins, and every registered snapshot has one, whose policy it still has unless
it was restored without being claimed. -/
structure Origins (start : Coordinator) (history : List Moment) (c : Coordinator) : Prop where
  settled : ∀ {id : Nat} {policy : SnapshotPolicy}, Registered start history id policy → c.IsOver id
  unique : ∀ {id : Nat} {policy policy' : SnapshotPolicy}, Registered start history id policy →
    Registered start history id policy' → policy = policy'
  known : ∀ s ∈ c.archive.snapshots, ∃ policy, Registered start history s.id policy ∧
    (s.policy = policy ∨ RestoredUnclaimed history s.id)

theorem origins_start (hs : start.Shelved) : Origins start [] start where
  settled h := by
    cases h with
    | initial there own labeled => exact own ▸ hs.isOver _ there
    | completed heard => cases heard
  unique h h' := by
    cases h with
    | completed heard => cases heard
    | initial there own labeled =>
      cases h' with
      | completed heard => cases heard
      | initial there' own' labeled' =>
        rw [← labeled, ← labeled', hs.ascending.eq_of_id there there' (own.trans own'.symm)]
  known s hs := ⟨s.policy, .initial hs rfl rfl, Or.inl rfl⟩

variable {c' : Coordinator} {request : Request} {events : List Event} {reply : Reply}

/-- A round is over when its last acknowledgment was taken. -/
theorem isOver_of_completes (hc : c.Orderly) {run : TaskRun} {state : Bytes} {now : Int} {r : Round}
    (hstep : c.step (.acknowledge id run state now) =
      .ok (c', events, .acknowledged (.ok .completes)))
    (hfind : c.rounds.find? id = some r) : c'.IsOver id := by
  refine isOver_of_gone hc hstep hfind ?_
  rcases step_cases hc hstep with ⟨_, _, hrequest, -⟩ | ⟨_, _, _, _, _, -, hreply, -, hne, -⟩ |
    ⟨-, -, hgone⟩
  · cases hrequest
  · obtain hresult := Except.ok.inj (Reply.acknowledged.inj hreply)
    exact absurd hresult.symm hne
  · exact hgone id run state now rfl

/-- A round that is completed had no snapshot before, so a step gives no id a second origin. -/
theorem Origins.step (h : Origins start history c) (hc : c.Orderly) (hs : c.Shelved)
    (hstep : c.step request = .ok (c', events, reply)) :
    Origins start (history ++ [⟨c, request, events, reply, c'⟩]) c' := by
  have hfresh : ∀ {id policy r}, c.rounds.find? id = some r →
      ¬Registered start history id policy := by
    intro id policy r hfind hregistered
    exact Table.ne_of_contains_eq_false (h.settled hregistered).2 hfind rfl
  refine ⟨fun {id policy} hregistered => ?_, fun {id policy policy'} hp hp' => ?_, fun s hmem => ?_⟩
  · rcases hregistered.of_append with hold | ⟨run, state, now, r, rfl, rfl, hfind, -⟩
    · exact IsOver.step hc hstep (h.settled hold)
    · exact isOver_of_completes hc hstep hfind
  · rcases hp.of_append with hp | ⟨_, _, _, r, -, -, hfind, rfl⟩ <;>
      rcases hp'.of_append with hp' | ⟨_, _, _, r', -, -, hfind', rfl⟩
    · exact h.unique hp hp'
    · exact absurd hp (hfresh hfind')
    · exact absurd hp' (hfresh hfind)
    · cases hfind.symm.trans hfind'
      rfl
  · cases Provenance.of_step hc hs.ascending hstep hmem with
    | kept old =>
      obtain ⟨policy, hregistered, hlabel⟩ := h.known s old
      exact ⟨policy, hregistered.append _, hlabel.imp_right fun hrestored => hrestored.append _⟩
    | completed asked answered there full gone drafted =>
      refine ⟨_, .completed (List.mem_append_right _ List.mem_cons_self) asked answered there rfl,
        Or.inl ?_⟩
      rw [drafted]
      exact policy_draft full
    | restored asked answered there relabeled =>
      obtain ⟨policy, hregistered, -⟩ := h.known _ there
      refine ⟨policy, ?_, Or.inr ⟨_, List.mem_append_right _ List.mem_cons_self, asked, s, answered,
        rfl⟩⟩
      rw [relabeled]
      exact hregistered.append _

theorem Origins.withVault (h : Origins start history c) (vault : Vault) :
    Origins start history (c.withVault vault) :=
  ⟨h.settled, h.unique, h.known⟩

theorem Origins.of_run {outside : Vault → Vault → Prop} (h : Run outside start history c)
    (hstart : start.Orderly) (hs : start.Shelved) : Origins start history c := by
  induction h with
  | nil => exact origins_start hs
  | snoc run change step ih =>
    exact (ih.withVault _).step ((Orderly.of_run run hstart).1.withVault _)
      ((Shelved.of_run run hstart hs).1.withVault _) step

end Coordinator

/-! ### The main statement -/

/-- Of which snapshots the user can dispose.  In every run from any archive, a disposal succeeds
only for a snapshot that was registered as a savepoint or restored without being claimed; and as
long as a snapshot that was registered as a checkpoint is not restored in that way, a disposal is
refused and changes nothing. -/
theorem disposed_by_origin {settings : Settings} {archive : Archive} {hasHandler : Bool}
    {outside : Vault → Vault → Prop} (hascending : Retention.Ascending archive.snapshots)
    (hopen : Coordinator.open? settings archive hasHandler = .ok start)
    (hrun : Run outside start history c) {c' : Coordinator} {events : List Event}
    {result : Except SnapshotError Snapshot} (hdispose : c.dispose id = (c', events, result)) :
    (∀ s, result = .ok s → s.id = id ∧ ∃ policy, Registered start history id policy ∧
      (policy.isSavepoint = true ∨ RestoredUnclaimed history id)) ∧
    ((∃ s ∈ c.archive.snapshots, s.id = id) → Registered start history id policy →
      policy.isSavepoint = false → ¬RestoredUnclaimed history id →
        result = .error (.notSavepoint id) ∧ c' = c ∧ events = []) := by
  have horderly := Coordinator.orderly_of_open hopen
  have hshelved := (Coordinator.state_of_open hascending hopen).2.2
  have horigins := Coordinator.Origins.of_run hrun horderly hshelved
  have hs := (hshelved.of_run hrun horderly).1.ascending
  constructor
  · rintro s rfl
    obtain ⟨hmem, hid, hkind⟩ : s ∈ c.archive.snapshots ∧ s.id = id ∧ s.isSavepoint = true := by
      rcases Coordinator.dispose_cases c id with ⟨-, he⟩ | ⟨t, hfind, ⟨-, he⟩ |
        ⟨hkind, ⟨a, e, -, he⟩ | ⟨a, removed, vault, event, failure | failure, -, -, he⟩⟩⟩ <;>
        cases he.symm.trans hdispose
      obtain ⟨hmem, hid⟩ := Retention.mem_of_find? hfind
      exact ⟨hmem, hid, hkind⟩
    subst hid
    obtain ⟨origin, horigin, hlabel⟩ := horigins.known s hmem
    refine ⟨rfl, origin, horigin, hlabel.imp_left fun hpolicy => ?_⟩
    rw [← hpolicy]
    exact hkind
  · rintro ⟨s, hmem, rfl⟩ hregistered hkind hclaimed
    -- The snapshot has kept the policy of its only origin.
    obtain ⟨origin, horigin, hlabel⟩ := horigins.known s hmem
    have hpolicy : s.policy = policy :=
      (hlabel.resolve_right hclaimed).trans (horigins.unique horigin hregistered)
    rcases Coordinator.dispose_cases c s.id with ⟨hnone, -⟩ | ⟨t, hfind, hcases⟩
    · simpa using List.find?_eq_none.1 hnone s hmem
    · obtain ⟨ht, hid⟩ := Retention.mem_of_find? hfind
      obtain rfl := hs.eq_of_id ht hmem hid
      rcases hcases with ⟨-, he⟩ | ⟨hsave, -⟩
      · cases he.symm.trans hdispose
        exact ⟨rfl, rfl, rfl⟩
      · rw [Snapshot.isSavepoint, hpolicy, hkind] at hsave
        cases hsave

/-- A checkpoint of one task that is restored, claimed or not. -/
def checkpointRequests (mode : ClaimMode) : List Request :=
  [.register ⟨1, 0, 0⟩ .running, .trigger (.ofRetention .onFailure) 10,
    .acknowledge 1 ⟨1, 0, 0⟩ [7] 20, .restore mode]

/-- A checkpoint that was claimed cannot be disposed of. -/
theorem disposed_by_origin_of_claimed : ∃ start history c,
    Coordinator.open? .default ⟨.of (.memory ∅) .none, .empty 1⟩ false = .ok start ∧
    start.perform (checkpointRequests .claim) = (history, c) ∧
    c.archive.snapshots.map (·.id) = [1] ∧
    Registered start history 1 (.ofRetention .onFailure) ∧ ¬RestoredUnclaimed history 1 ∧
    (c.dispose 1).2.2 = .error (.notSavepoint 1) ∧ (c.dispose 1).1 = c := by
  obtain ⟨start, history, c, hopen, hperform, hids, hregistered, hrequests⟩ : ∃ start history c,
      Coordinator.open? .default ⟨.of (.memory ∅) .none, .empty 1⟩ false = .ok start ∧
      start.perform (checkpointRequests .claim) = (history, c) ∧
      c.archive.snapshots.map (·.id) = [1] ∧
      Registered start history 1 (.ofRetention .onFailure) ∧
      history.map (·.request) = checkpointRequests .claim :=
    ⟨_, _, _, rfl, rfl, rfl, .completed (List.mem_of_getElem? (i := 2) rfl) rfl rfl rfl rfl, rfl⟩
  have hclaimed : ¬RestoredUnclaimed history 1 := by
    rintro ⟨m, hm, hrequest, -⟩
    have hmem := List.mem_map_of_mem (f := (·.request)) hm
    rw [hrequests, hrequest] at hmem
    simp [checkpointRequests] at hmem
  have hrun : Run SameMedium start _ _ :=
    Run.of_perform SameMedium.refl start (checkpointRequests .claim)
  rw [hperform] at hrun
  have hlisted : ∃ s ∈ c.archive.snapshots, s.id = 1 := by
    rw [← List.mem_map, hids]
    exact List.mem_singleton.2 rfl
  have hascending : Retention.Ascending
      (Archive.snapshots ⟨.of (.memory ∅) .none, .empty 1⟩) := .nil
  obtain ⟨hresult, hsame, -⟩ := (disposed_by_origin hascending hopen hrun
    (Eq.refl (c.dispose 1))).2 hlisted hregistered rfl hclaimed
  exact ⟨start, history, c, hopen, hperform, hids, hregistered, hclaimed, hresult, hsame⟩

/-- A checkpoint that was restored without being claimed can be disposed of, which throws its state
away. -/
theorem disposed_of_checkpoint : ∃ start history c s,
    Coordinator.open? .default ⟨.of (.memory ∅) .none, .empty 1⟩ false = .ok start ∧
    start.perform (checkpointRequests .noClaim) = (history, c) ∧
    Registered start history 1 (.ofRetention .onFailure) ∧ (c.dispose 1).2.2 = .ok s ∧
    (c.dispose 1).1.archive.snapshots = [] ∧
    c.archive.vault.medium.load 1 ⟨1, 0, 0⟩ = .ok [7] ∧
    ∀ state, (c.dispose 1).1.archive.vault.medium.load 1 ⟨1, 0, 0⟩ ≠ .ok state := by
  refine ⟨_, _, _, _, rfl, rfl, ?_, rfl, rfl, rfl, fun state hload => ?_⟩
  · exact .completed (List.mem_of_getElem? (i := 2) rfl) rfl rfl rfl rfl
  · cases hload

end Checkpointing
