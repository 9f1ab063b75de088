import Mathlib.Tactic
import Checkpointing.Proofs.Coordinator.Filing
import Checkpointing.Proofs.Storage.Archive
import Checkpointing.Proofs.Storage.Sparing

/-!
# The registered snapshots of a coordinator

What a full round adds to the archive, and what holds of the registered snapshots of every
coordinator that can be reached.

* `finalize_of_ok`, `finalize_of_error`: a full round is registered or leaves the registered
  snapshots as they were, and only its own data is touched before retention is enforced;
* `Provenance` lists how a snapshot comes to be registered after a step;
* `Shelved`: the registered snapshots ascend and are of rounds that are over; `Shelved.step` and
  `Shelved.of_run` keep it, `state_of_open` starts it, `Shelved.invariant` builds on it;
* `spares_step`: what a step leaves alone, `housed_step`: it keeps the base directory in order.
-/

namespace Checkpointing

open Medium

/-! ### Full rounds -/

/-- The archive `b` has taken the snapshot `s` to what `a` has; retention is not enforced yet. -/
structure Archive.Takes (a : Archive) (s : Snapshot) (b : Archive) : Prop where
  new : ∀ t ∈ a.snapshots, t.id ≠ s.id
  retention : b.retention = { a.retention with live := Retention.place s a.retention.live }
  spares : a.vault.medium.Housed → ∀ i ≠ s.id, Spares i a.vault.medium b.vault.medium
  record : a.vault.medium.Housed → b.vault.medium.HasRecord s

namespace Archive

variable {a b : Archive} {s t : Snapshot}

theorem Takes.housed (h : a.Takes s b) (ha : a.vault.medium.Housed) : b.vault.medium.Housed :=
  (h.spares ha (s.id + 1) (by omega)).housed ha

theorem Takes.mem_live (h : a.Takes s b) : t ∈ b.snapshots ↔ t = s ∨ t ∈ a.snapshots := by
  rw [snapshots, h.retention]
  exact (Retention.perm_place s a.retention.live).mem_iff.trans List.mem_cons

theorem Takes.ascending (h : a.Takes s b) (ha : Retention.Ascending a.snapshots) :
    Retention.Ascending b.snapshots := by
  rw [snapshots, h.retention]
  exact Retention.ascending_place ha h.new

end Archive

namespace Coordinator

variable {a a' : Archive} {r : Round} {now : Int} {kept : List Event}

/-- Keeping the states of a full round only touches its own data. -/
theorem spares_persisted {vault : Vault} {persisted : List Event} {outcome : Option StorageFailure}
    (h : (a.vault.addressed r.id r.policy).persistAll r.id r.acked.entries =
      (vault, persisted, outcome)) (ha : a.vault.medium.Housed) {i : Nat} (hi : i ≠ r.id) :
    Spares i a.vault.medium vault.medium := by
  have haddress : Spares i a.vault.medium (a.vault.addressed r.id r.policy).medium :=
    spares_address ha r.policy hi
  have hpersist := Vault.spares_persistAll (haddress.housed ha) r.acked.entries hi.symm
  rw [h] at hpersist
  exact haddress.trans hpersist

/-- A full round that is stored is taken by the archive, and then retention is enforced. -/
theorem finalize_of_ok {s : Snapshot} (h : finalize a r now = (a', kept, .ok s)) :
    s = draft a r now ∧ ∃ b, a.Takes s b ∧ a' = b.subsume.1 ∧
      ∀ i ∈ requestIds kept, i = s.id ∨ i ∈ b.retention.subsume.1.map (·.id) := by
  obtain rfl := eq_draft_of_finalize h
  refine ⟨rfl, ?_⟩
  rcases finalize_cases a r now with ⟨_, _, _, -, hf⟩ |
    ⟨vault, persisted, hkeep, ⟨_, _, _, -, hf⟩ | ⟨a₁, added, gone, hadd, hf⟩⟩ <;>
    cases hf.symm.trans h
  rcases Archive.add_cases { a with vault := vault } (draft a r now) with
    ⟨-, he⟩ | ⟨hnew, ⟨medium, failure, -, he⟩ | ⟨medium, hsave, he⟩⟩ <;>
    cases he.symm.trans hadd
  refine ⟨_, ⟨fun t ht => Retention.ne_of_contains_eq_false hnew ht, rfl, fun ha i hi => ?_,
    fun ha => ?_⟩, rfl, fun i hi => ?_⟩
  · have hpersist := spares_persisted hkeep ha hi
    have hsaved := spares_saveRecord (s := draft a r now) (hpersist.housed ha) hi
    rw [hsave] at hsaved
    exact hpersist.trans hsaved
  · have hpersist := spares_persisted hkeep ha (i := r.id + 1) (by omega)
    exact hasRecord_of_saveRecord (hpersist.housed ha) hsave
  · rw [requestIds_append, Archive.requestIds_subsume] at hi
    have hpersist := Vault.requestIds_persistAll (a.vault.addressed r.id r.policy) r.id
      r.acked.entries
    rw [hkeep] at hpersist
    exact (List.mem_append.1 hi).imp_left (hpersist i)

/-- A full round that could not be stored leaves what is registered, and only touches its own
data. -/
theorem finalize_of_error {reason : SnapshotError}
    (h : finalize a r now = (a', kept, .error reason)) :
    a'.retention = a.retention ∧ (∀ i ∈ requestIds kept, i = r.id) ∧
      (a.vault.medium.Housed → ∀ i ≠ r.id, Spares i a.vault.medium a'.vault.medium) := by
  have hids := Vault.requestIds_persistAll (a.vault.addressed r.id r.policy) r.id r.acked.entries
  rcases finalize_cases a r now with ⟨vault, persisted, failure, hkeep, hf⟩ |
    ⟨vault, persisted, hkeep, ⟨a₁, added, e, hadd, hf⟩ | ⟨_, _, _, -, hf⟩⟩ <;>
    cases hf.symm.trans h <;> rw [hkeep] at hids
  · exact ⟨rfl, hids, fun ha i hi => spares_persisted hkeep ha hi⟩
  · rcases Archive.add_cases { a with vault := vault } (draft a r now) with
      ⟨-, he⟩ | ⟨-, ⟨medium, failure, hsave, he⟩ | ⟨medium, -, he⟩⟩ <;>
      cases he.symm.trans hadd
    · rw [List.append_nil]
      exact ⟨rfl, hids, fun ha i hi => spares_persisted hkeep ha hi⟩
    · rw [List.append_nil]
      refine ⟨rfl, hids, fun ha i hi => ?_⟩
      have hpersist := spares_persisted hkeep ha hi
      have hsaved := spares_saveRecord (s := draft a r now) (hpersist.housed ha) hi
      rw [hsave] at hsaved
      exact hpersist.trans hsaved

/-! ### The registered snapshots -/

/-- The registered snapshots ascend and are of rounds that are over. -/
structure Shelved (c : Coordinator) : Prop where
  ascending : Retention.Ascending c.archive.snapshots
  isOver : ∀ s ∈ c.archive.snapshots, c.IsOver s.id

variable {c c' : Coordinator} {request : Request} {events : List Event} {reply : Reply}

theorem ascending_step (hc : c.Orderly) (hs : Retention.Ascending c.archive.snapshots)
    (h : c.step request = .ok (c', events, reply)) : Retention.Ascending c'.archive.snapshots := by
  cases Files.of_step hc h with
  | same archive silent =>
    rw [archive]
    exact hs
  | failed asked there full gone finalized archive heard requests =>
    rw [archive, Archive.snapshots, (finalize_of_error finalized).1]
    exact hs
  | finished asked there full gone finalized archive requests answered =>
    obtain ⟨-, b, htakes, rfl, -⟩ := finalize_of_ok finalized
    rw [archive]
    exact (htakes.ascending hs).sublist b.sublist_subsume
  | relabeled asked newest claimed archive silent answered =>
    rw [archive]
    exact Retention.ascending_relabel hs _ _
  | removed asked unregistered silent =>
    rename_i id e
    have hsnapshots := Archive.snapshots_remove hs id
    rw [unregistered] at hsnapshots
    rw [hsnapshots]
    exact hs.sublist List.filter_sublist
  | disposed asked found unregistered archive heard requests =>
    rename_i id a s removed
    have hsnapshots := Archive.snapshots_remove hs id
    rw [unregistered] at hsnapshots
    rw [archive]
    exact hsnapshots ▸ hs.sublist List.filter_sublist
  | closed asked archive requests =>
    rw [archive]
    exact hs.sublist (Archive.sublist_close _ _)

/-- How a snapshot comes to be registered after a step. -/
inductive Provenance (c : Coordinator) (request : Request) (c' : Coordinator) (reply : Reply)
    (s : Snapshot) : Prop
  | kept (old : s ∈ c.archive.snapshots)
  /-- It is that of the round which the step has completed. -/
  | completed {run : TaskRun} {state : Bytes} {now : Int} {r r' : Round}
      (asked : request = .acknowledge s.id run state now)
      (answered : reply = .acknowledged (.ok .completes)) (there : c.rounds.find? s.id = some r)
      (full : r.acknowledge run state = (r', .completes)) (gone : c'.rounds.find? s.id = none)
      (drafted : s = draft c.archive r' now)
      (record : c.archive.vault.medium.Housed → c'.archive.vault.medium.HasRecord s)
  /-- The step has restored it without claiming it. -/
  | restored {latest : Snapshot} (asked : request = .restore .noClaim)
      (answered : reply = .restored (.ok (some s))) (there : latest ∈ c.archive.snapshots)
      (relabeled : s = { latest with policy := .unclaimedSnapshot })

/-- The snapshot of a round has the policy of the round. -/
theorem policy_draft {a : Archive} {r r' : Round} {run : TaskRun} {state : Bytes} {now : Int}
    (full : r.acknowledge run state = (r', .completes)) :
    (draft a r' now).policy = r.policy := by
  obtain ⟨-, -, -, rfl, -⟩ := Round.acknowledge_eq_completes full
  rfl

theorem Provenance.of_step (hc : c.Orderly) (hs : Retention.Ascending c.archive.snapshots)
    (h : c.step request = .ok (c', events, reply)) {s : Snapshot}
    (hmem : s ∈ c'.archive.snapshots) : Provenance c request c' reply s := by
  cases Files.of_step hc h with
  | same archive silent =>
    rw [archive] at hmem
    exact .kept hmem
  | failed asked there full gone finalized archive heard requests =>
    rw [archive, Archive.snapshots, (finalize_of_error finalized).1] at hmem
    exact .kept hmem
  | finished asked there full gone finalized archive requests answered =>
    obtain ⟨rfl, b, htakes, rfl, -⟩ := finalize_of_ok finalized
    rw [archive] at hmem
    rcases htakes.mem_live.1 (b.sublist_subsume.subset hmem) with rfl | hold
    · have hid := hc.own_of_completes there full
      rw [← hid] at asked there gone
      refine .completed asked answered there full gone rfl fun hhoused => ?_
      -- The record is there, and what is given up is not this snapshot.
      have hb := htakes.housed hhoused
      rw [archive]
      refine (Archive.spares_subsume hb fun t ht => ?_).hasRecord (htakes.record hhoused)
      exact (htakes.ascending hs).ne_of_perm b.retention.perm_subsume
        (Vault.mem_discarded_sweep ht).1 hmem
    · exact .kept hold
  | relabeled asked newest claimed archive silent answered =>
    rename_i latest
    rw [archive] at hmem
    obtain ⟨t, ht, rfl⟩ := List.mem_map.1 hmem
    by_cases hid : t.id = latest.id
    · obtain ⟨found, hfind, hreply⟩ := answered
      obtain ⟨hfound, hown⟩ := Retention.mem_of_find? hfind
      rw [if_pos hid] at hmem ⊢
      rw [hs.eq_of_id hfound ht (hown.trans hid.symm)] at hreply
      exact .restored asked hreply ht rfl
    · rw [if_neg hid]
      exact .kept ht
  | removed asked unregistered silent =>
    rename_i id e
    have hsnapshots := Archive.snapshots_remove hs id
    rw [unregistered] at hsnapshots
    rw [hsnapshots] at hmem
    exact .kept (List.mem_of_mem_filter hmem)
  | disposed asked found unregistered archive heard requests =>
    rename_i id a s removed
    have hsnapshots := Archive.snapshots_remove hs id
    rw [unregistered] at hsnapshots
    rw [archive] at hmem
    exact .kept (List.mem_of_mem_filter (hsnapshots ▸ hmem))
  | closed asked archive requests =>
    rw [archive] at hmem
    exact .kept ((Archive.sublist_close _ _).subset hmem)

theorem Shelved.step (hs : c.Shelved) (hc : c.Orderly)
    (h : c.step request = .ok (c', events, reply)) : c'.Shelved where
  ascending := ascending_step hc hs.ascending h
  isOver s hmem := by
    cases Provenance.of_step hc hs.ascending h hmem with
    | kept old => exact IsOver.step hc h (hs.isOver s old)
    | completed asked answered there full gone =>
      exact isOver_of_gone hc h there gone
    | restored asked answered there relabeled =>
      have hover := IsOver.step hc h (hs.isOver _ there)
      rw [relabeled]
      exact hover

theorem Shelved.withVault (hs : c.Shelved) (vault : Vault) : (c.withVault vault).Shelved :=
  ⟨hs.ascending, hs.isOver⟩

variable {outside : Vault → Vault → Prop} {start : Coordinator} {past : List Moment}

theorem Shelved.of_run (h : Run outside start past c) (hstart : start.Orderly)
    (hshelved : start.Shelved) : c.Shelved ∧ ∀ m ∈ past, m.before.Shelved ∧ m.after.Shelved := by
  have hkeep := h.invariant (P := fun c => c.Orderly ∧ c.Shelved)
    (fun _ hc => ⟨hc.1.withVault _, hc.2.withVault _⟩)
    (fun hc hs => ⟨hc.1.step hs, hc.2.step hc.1 hs⟩) ⟨hstart, hshelved⟩
  exact ⟨hkeep.1.2, fun m hm => ⟨(hkeep.2 m hm).1.2, (hkeep.2 m hm).2.2⟩⟩

/-- What a step from a state in order keeps holds throughout a run that starts in order. -/
theorem Shelved.invariant {P : Coordinator → Prop} {Q : Coordinator → Request → Prop}
    (h : Run outside start past c) (hstart : start.Orderly) (hshelved : start.Shelved)
    (hchange : ∀ {c : Coordinator} {vault : Vault}, outside c.archive.vault vault → P c →
      P (c.withVault vault))
    (hstep : ∀ {c c' : Coordinator} {request : Request} {events : List Event} {reply : Reply},
      c.Orderly → c.Shelved → P c → Q c request → c.step request = .ok (c', events, reply) → P c')
    (hP : P start) (hall : ∀ m ∈ past, Q m.before m.request) :
    P c ∧ ∀ m ∈ past, P m.before ∧ P m.after := by
  have hkeep := h.invariant_of (P := fun c => (c.Orderly ∧ c.Shelved) ∧ P c)
    (fun hsame hc => ⟨⟨hc.1.1.withVault _, hc.1.2.withVault _⟩, hchange hsame hc.2⟩)
    (fun hc hq hs => ⟨⟨hc.1.1.step hs, hc.1.2.step hc.1.1 hs⟩, hstep hc.1.1 hc.1.2 hc.2 hq hs⟩)
    ⟨⟨hstart, hshelved⟩, hP⟩ hall
  exact ⟨hkeep.1.2, fun m hm => ⟨(hkeep.2 m hm).1.2, (hkeep.2 m hm).2.2⟩⟩

/-! ### What a step leaves alone -/

/-- A step spares an id whose round is not under way and whose snapshot, if there is one, stays
registered. -/
theorem spares_step (hc : c.Orderly) (hs : Retention.Ascending c.archive.snapshots)
    (hm : c.archive.vault.medium.Housed) (h : c.step request = .ok (c', events, reply)) {i : Nat}
    (hround : c.rounds.contains i = false)
    (hstays : (∀ s ∈ c.archive.snapshots, s.id ≠ i) ∨ ∃ s ∈ c'.archive.snapshots, s.id = i)
    (hbacklog : ∀ s ∈ c.archive.retention.backlog, s.id ≠ i) :
    Spares i c.archive.vault.medium c'.archive.vault.medium := by
  -- Of two sides that are divided, what stays registered is on the second one.
  have hdivided : ∀ {l gone kept : List Snapshot}, Retention.Ascending l → (gone ++ kept).Perm l →
      (∀ s ∈ l, s.id = i → s ∈ c.archive.snapshots) → c'.archive.snapshots = kept →
      ∀ s ∈ gone, s.id ≠ i := by
    rintro l gone kept hl hperm hold hkept s hmem hid
    rcases hstays with hnone | ⟨t, ht, htid⟩
    · exact hnone s (hold s (hperm.subset (List.mem_append_left _ hmem)) hid) hid
    · exact hl.ne_of_perm hperm hmem (hkept ▸ ht) (hid.trans htid.symm)
  -- Whatever is unregistered was registered before and is not any more.
  have hremoved : ∀ {id a}, (c.archive.remove id).1 = a → a.snapshots = c'.archive.snapshots →
      (∃ s, c.archive.retention.find? id = some s) → id ≠ i := by
    rintro id a hremove hsame ⟨s, hfind⟩ rfl
    obtain ⟨hmem, hid⟩ := Retention.mem_of_find? hfind
    have hsnapshots := Archive.snapshots_remove hs id
    rw [hremove, hsame] at hsnapshots
    rcases hstays with hnone | ⟨t, ht, htid⟩
    · exact hnone s hmem hid
    · rw [hsnapshots] at ht
      exact absurd htid (of_decide_eq_true (List.mem_filter.1 ht).2)
  cases Files.of_step hc h with
  | same archive silent =>
    rw [archive]
    exact .refl _ _
  | failed asked there full gone finalized archive heard requests =>
    have hne := hc.ne_of_completes hround there full
    have hfinal := (finalize_of_error finalized).2.2 hm i hne.symm
    rw [archive]
    exact hfinal.trans (Vault.spares_request (hfinal.housed hm) _ hne)
  | finished asked there full gone finalized archive requests answered =>
    obtain ⟨rfl, b, htakes, rfl, -⟩ := finalize_of_ok finalized
    have hne := hc.ne_of_completes hround there full
    have hfinal := htakes.spares hm i hne.symm
    have hkept : c'.archive.snapshots = b.retention.subsume.2 := by
      rw [archive]
      rfl
    have hgone := hdivided (htakes.ascending hs) b.retention.perm_subsume (fun t ht hid =>
      (htakes.mem_live.1 ht).resolve_left fun heq => hne (by rw [← hid, heq]; rfl)) hkept
    rw [archive]
    exact hfinal.trans (Archive.spares_subsume (hfinal.housed hm) fun t ht =>
      hgone t (Vault.mem_discarded_sweep ht).1)
  | relabeled asked newest claimed archive silent answered =>
    rw [archive]
    exact .refl _ _
  | removed asked unregistered silent =>
    rename_i id e
    have hfind : ∃ s, c.archive.retention.find? id = some s := by
      rcases Archive.remove_cases c.archive id with ⟨-, he⟩ | ⟨s, -, -, hfind, -⟩
      · cases (Prod.mk.inj (he.symm.trans unregistered)).2
      · exact ⟨s, hfind⟩
    have hremove := Archive.spares_remove c.archive
      (hremoved (by rw [unregistered]) (Eq.refl c'.archive.snapshots) hfind)
    rw [unregistered] at hremove
    exact hremove
  | disposed asked found unregistered archive heard requests =>
    rename_i id a s removed
    have hsame : a.snapshots = c'.archive.snapshots := by
      rw [archive]
      rfl
    have hne := hremoved (by rw [unregistered]) hsame ⟨s, found⟩
    have hremove := Archive.spares_remove c.archive hne
    rw [unregistered] at hremove
    rw [archive]
    exact hremove.trans (Vault.spares_request (hremove.housed hm) _ hne)
  | closed asked archive requests =>
    rename_i status
    have hkept : c'.archive.snapshots = (c.archive.closure status).kept := by
      rw [archive]
      rfl
    have hgone := hdivided hs (Vault.perm_sweep _ _ _) (fun t ht _ => ht) hkept
    rw [archive]
    refine Archive.spares_close hm (List.forall_mem_append.2 ⟨fun t ht => ?_, hgone⟩)
    exact hbacklog t (Vault.mem_discarded_sweep ht).1

/-- Whatever a step does, the base directory stays in order. -/
theorem housed_step (hc : c.Orderly) (hs : Retention.Ascending c.archive.snapshots)
    (hm : c.archive.vault.medium.Housed) (h : c.step request = .ok (c', events, reply)) :
    c'.archive.vault.medium.Housed := by
  -- There is an id of which the coordinator does not know.
  obtain ⟨i, hi⟩ := Infinite.exists_notMem_finset (c.rounds.keys ++
    (c.archive.snapshots ++ c.archive.retention.backlog).map (·.id)).toFinset
  simp only [List.mem_toFinset, List.mem_append, List.mem_map, Table.mem_keys_iff, not_or,
    not_exists, not_and] at hi
  obtain ⟨hround, hlisted⟩ := hi
  exact (spares_step hc hs hm h (by simpa using hround)
    (Or.inl fun s hs => hlisted s (Or.inl hs)) fun s hs => hlisted s (Or.inr hs)).housed hm

theorem housed_of_run (h : Run SameMedium start past c) (hstart : start.Orderly)
    (hs : start.Shelved) (hm : start.archive.vault.medium.Housed) :
    c.archive.vault.medium.Housed ∧ ∀ m ∈ past, m.before.archive.vault.medium.Housed := by
  have hchange : ∀ {c : Coordinator} {vault : Vault}, SameMedium c.archive.vault vault →
      c.archive.vault.medium.Housed → (c.withVault vault).archive.vault.medium.Housed := by
    intro c vault hsame hhoused
    show vault.medium.Housed
    rw [hsame]
    exact hhoused
  have hkeep := Shelved.invariant (P := fun c => c.archive.vault.medium.Housed)
    (Q := fun _ _ => True) h hstart hs hchange
    (fun hc hs hhoused _ hstep => housed_step hc hs.ascending hhoused hstep) hm fun _ _ => trivial
  exact ⟨hkeep.1, fun m hpast => (hkeep.2 m hpast).1⟩

/-! ### The start -/

/-- The first id of a coordinator is greater than those of all registered snapshots. -/
theorem firstId_eq_ok {archive : Archive} {nextId : Nat}
    (hascending : Retention.Ascending archive.snapshots) (h : firstId archive = .ok nextId) :
    nextId ≤ Word.max64 ∧ ∀ s ∈ archive.snapshots, s.id < nextId := by
  unfold firstId at h
  cases hlatest : archive.latest? with
  | none =>
    rw [hlatest] at h
    cases h
    rw [Archive.latest?, Retention.latest?, List.getLast?_eq_none_iff] at hlatest
    rw [Archive.snapshots, hlatest]
    exact ⟨by decide, by simp⟩
  | some latest =>
    rw [hlatest] at h
    obtain ⟨hlt, rfl⟩ := Word.next?_eq_ok_iff.1 h
    refine ⟨hlt, fun s hs => ?_⟩
    have hle := Retention.le_of_latest? hascending hlatest hs
    omega

/-- A coordinator starts with the archive that it is given, whose snapshots are of rounds that are
over. -/
theorem state_of_open {settings : Settings} {archive : Archive} {hasHandler : Bool}
    (hascending : Retention.Ascending archive.snapshots)
    (h : open? settings archive hasHandler = .ok c) :
    c.archive = archive ∧ c.nextId ≤ Word.max64 ∧ c.Shelved := by
  obtain ⟨hfirst, rfl, hrounds, -⟩ := eq_of_open h
  obtain ⟨hmax, hlt⟩ := firstId_eq_ok hascending hfirst
  refine ⟨rfl, hmax, hascending, fun s hs => ⟨hlt s hs, ?_⟩⟩
  rw [hrounds]
  rfl

end Coordinator
end Checkpointing
