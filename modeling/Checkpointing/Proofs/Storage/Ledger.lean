import Mathlib.Tactic
import Checkpointing.Proofs.Storage.Memory

/-!
# The ledger of an archive

An archive over storage in memory accounts for every snapshot that it has ever taken: the snapshot
is live, waits in the backlog, was handed back to a caller, or was thrown away.

* `Archive.serve` answers calls one after the other, `Deed` is what the archive does to let go of a
  snapshot;
* `Turnover` is what one call does to the ids for which the archive answers; `turnover_add`,
  `turnover_remove`, `turnover_relabel` and `turnover_close` for the calls;
* `Ledger` is the invariant, kept by every turnover;
* `accounts_for_every_snapshot` is the main statement.
-/

namespace Checkpointing
namespace Archive

/-! ### Calls -/

/-- What an archive can be asked for. -/
inductive Call where
  | add (s : Snapshot)
  | relabel (id : Nat) (policy : SnapshotPolicy)
  | remove (id : Nat)
  | close (status : JobStatus)
deriving Repr

/-- What an archive answers. -/
inductive Answer where
  | added (gone : Except SnapshotError (List Nat))
  | relabeled (snapshot : Option Snapshot)
  | removed (snapshot : Except SnapshotError (Option Snapshot))
  | closed (result : Except SnapshotError Unit)
deriving Repr

/-- One call, with what was heard of it. -/
structure Turn where
  call : Call
  events : List Event
  answer : Answer
deriving Repr

/-- Answers a call. -/
def answer (a : Archive) : Call → Archive × List Event × Answer
  | .add s =>
    let (a, events, gone) := a.add s
    (a, events, .added gone)
  | .relabel id policy =>
    let (a, snapshot) := a.relabel id policy
    (a, [], .relabeled snapshot)
  | .remove id =>
    let (a, snapshot) := a.remove id
    (a, [], .removed snapshot)
  | .close status =>
    let (a, events, result) := a.close status
    (a, events, .closed result)

/-- Answers calls one after the other. -/
def serve (a : Archive) : List Call → List Turn × Archive
  | [] => ([], a)
  | call :: rest =>
    let (a, events, answer) := a.answer call
    let (turns, a) := a.serve rest
    (⟨call, events, answer⟩ :: turns, a)

/-- The ids under which a call adds a snapshot. -/
def Call.taken : Call → List Nat
  | add s => [s.id]
  | _ => []

/-- What an archive does to let go of a snapshot: it asks for its data to be thrown away, or hands
the snapshot back. -/
inductive Deed where
  | discard (id : Nat) (refused : Bool)
  | handBack (id : Nat)
deriving Repr, DecidableEq

namespace Deed

/-- The snapshot that it is done to. -/
def id : Deed → Nat
  | discard i _ | handBack i => i

/-- Whether the archive no longer has the snapshot afterwards. -/
def isFinal : Deed → Bool
  | discard _ refused => !refused
  | handBack _ => true

/-- The deed that an event tells of. -/
def ofEvent? : Event → Option Deed
  | .storage (.discard id) refused => some (discard id refused)
  | _ => none

/-- The deed in an answer. -/
def ofAnswer? : Answer → Option Deed
  | .removed (.ok (some s)) => some (handBack s.id)
  | _ => none

end Deed

/-- The deeds that events tell of. -/
def deedsIn (events : List Event) : List Deed := events.filterMap Deed.ofEvent?

/-- What an archive did in one turn. -/
def Turn.deeds (t : Turn) : List Deed := deedsIn t.events ++ (Deed.ofAnswer? t.answer).toList

/-- What an archive did in a series of turns. -/
def deeds (turns : List Turn) : List Deed := turns.flatMap Turn.deeds

/-- The ids of the snapshots that are finally gone. -/
def gone (deeds : List Deed) : List Nat := (deeds.filter Deed.isFinal).map Deed.id

/-- The ids for which an archive answers. -/
def held (a : Archive) : List Nat := (a.retention.live ++ a.retention.backlog).map (·.id)

theorem held_eq (a : Archive) : a.held = a.retention.holdings.map Prod.fst := by
  rw [Retention.holdings, List.map_map]
  rfl

theorem held_relabel (a : Archive) (id : Nat) (policy : SnapshotPolicy) :
    (a.relabel id policy).1.held = a.held := by
  rw [held_eq, held_eq]
  exact congrArg (List.map Prod.fst) (a.retention.holdings_relabel id policy)

@[simp]
theorem gone_append (l l' : List Deed) : gone (l ++ l') = gone l ++ gone l' := by
  simp [gone]

theorem count_gone (l : List Deed) (id : Nat) :
    (gone l).count id = l.count (.handBack id) + l.count (.discard id false) := by
  induction l with
  | nil => rfl
  | cons d l ih =>
    rw [List.count_cons, List.count_cons]
    rcases d with ⟨i, refused | refused⟩ | i
    · show (i :: gone l).count id = _
      rw [List.count_cons, ih]
      simp [Nat.add_assoc]
    · show (gone l).count id = _
      simpa using ih
    · show (i :: gone l).count id = _
      rw [List.count_cons, ih]
      simp only [beq_iff_eq, Deed.handBack.injEq, reduceCtorEq, if_false]
      omega

/-! ### What a call does -/

/-- In memory a sweep asks for every snapshot that meets the condition to be thrown away, and those
that it reports are the ones for which it was not refused. -/
theorem deeds_sweep {v : Vault} (h : v.medium.InMemory) (condition : Snapshot → Bool)
    (l : List Snapshot) :
    (deedsIn (v.sweep condition l).events).map Deed.id = (l.filter condition).map (·.id) ∧
      gone (deedsIn (v.sweep condition l).events) =
        (v.sweep condition l).discarded.map (·.id) := by
  induction l generalizing v with
  | nil => exact ⟨rfl, rfl⟩
  | cons s l ih =>
    rw [Vault.sweep]
    split
    · next hcond =>
      rw [List.filter_cons_of_pos hcond, List.map_cons]
      obtain ⟨hmemory, ⟨failure, he⟩ | he⟩ := Vault.request_inMemory h (.discard s.id)
      · rw [he]
        obtain ⟨hasked, hgone⟩ := ih (v := { v with calls := v.calls + 1 }) h
        exact ⟨congrArg (s.id :: ·) hasked, hgone⟩
      · rw [he] at hmemory ⊢
        obtain ⟨hasked, hgone⟩ := ih hmemory
        exact ⟨congrArg (s.id :: ·) hasked, congrArg (s.id :: ·) hgone⟩
    · next hcond =>
      rw [List.filter_cons_of_neg hcond]
      exact ih h

/-- What one call does to the ids for which an archive answers: it may take some, it may let some
go, and whatever it lets go was among them. -/
structure Turnover (a a' : Archive) (taken : List Nat) (deeds : List Deed) : Prop where
  memory : a'.vault.medium.InMemory
  ascending : Retention.Ascending a'.snapshots
  balance : (a'.held ++ gone deeds).Perm (a.held ++ taken)
  asked : ∃ rest, (deeds.map Deed.id ++ rest).Perm (a.held ++ taken)

variable {a a' : Archive}

/-- A call that changes none of the ids and does nothing. -/
theorem Turnover.of_same (hmemory : a'.vault.medium.InMemory)
    (hascending : Retention.Ascending a'.snapshots) (hheld : a'.held = a.held) :
    Turnover a a' [] [] := by
  have hperm : (a'.held ++ []).Perm (a.held ++ []) := by rw [hheld]
  exact ⟨hmemory, hascending, hperm, _, hperm⟩

theorem turnover_subsume (hmemory : a.vault.medium.InMemory)
    (hascending : Retention.Ascending a.snapshots) :
    Turnover a a.subsume.1 [] (deedsIn a.subsume.2.1) := by
  have hswept : a.subsumption.vault.medium.InMemory :=
    (Vault.load_sweep hmemory (fun _ => true) a.retention.subsume.1).1
  obtain ⟨hasked, hgone⟩ : (deedsIn a.subsumption.events).map Deed.id = _ ∧
      gone (deedsIn a.subsumption.events) = _ :=
    deeds_sweep hmemory (fun _ => true) a.retention.subsume.1
  refine ⟨?_, Retention.ascending_subsume hascending, ?_, ?_⟩
  · rw [subsume_state, hswept.dropRecords]
    exact hswept
  · have hperm := a.perm_subsume.map (·.id)
    rw [List.map_append] at hperm
    rw [List.append_nil]
    exact hgone ▸ hperm
  · -- What is given up was live.
    have hperm := (a.retention.perm_subsume.append_right a.retention.backlog).map (·.id)
    rw [List.append_assoc, List.map_append] at hperm
    rw [List.filter_true] at hasked
    rw [List.append_nil]
    exact ⟨_, hasked ▸ hperm⟩

/-- A snapshot under an id for which the archive does not answer yet is taken. -/
theorem turnover_add {s : Snapshot} (hmemory : a.vault.medium.InMemory)
    (hascending : Retention.Ascending a.snapshots) (hnew : s.id ∉ a.held) :
    Turnover a (a.add s).1 [s.id] (deedsIn (a.add s).2.1) := by
  have hlive : ∀ t ∈ a.retention.live, t.id ≠ s.id := fun t ht heq =>
    hnew (heq ▸ List.mem_map_of_mem (List.mem_append_left _ ht))
  rcases add_cases a s with ⟨hthere, -⟩ | ⟨-, ⟨medium, failure, hsave, -⟩ | ⟨medium, hsave, he⟩⟩
  · obtain ⟨t, ht, hid⟩ := Retention.contains_iff.1 hthere
    exact absurd hid (hlive t ht)
  · rw [hmemory.saveRecord] at hsave
    cases hsave
  · rw [hmemory.saveRecord] at hsave
    cases hsave
    rw [he]
    have hentered : (entered (a.withMedium a.vault.medium) s).held.Perm (a.held ++ [s.id]) :=
      ((perm_entered (a.withMedium a.vault.medium) s).map Snapshot.id).trans
        (List.perm_append_singleton _ _).symm
    obtain ⟨hlast, hsorted, hbalance, rest, hasked⟩ := turnover_subsume
      (a := entered (a.withMedium a.vault.medium) s) hmemory
      (Retention.ascending_place hascending hlive)
    rw [List.append_nil] at hbalance hasked
    exact ⟨hlast, hsorted, hbalance.trans hentered, rest, hasked.trans hentered⟩

theorem turnover_relabel (hmemory : a.vault.medium.InMemory)
    (hascending : Retention.Ascending a.snapshots) (id : Nat) (policy : SnapshotPolicy) :
    Turnover a (a.relabel id policy).1 [] [] :=
  .of_same hmemory (Retention.ascending_relabel hascending id policy) (a.held_relabel id policy)

/-- A snapshot that is found is handed back. -/
theorem turnover_remove (hmemory : a.vault.medium.InMemory)
    (hascending : Retention.Ascending a.snapshots) (id : Nat) :
    Turnover a (a.remove id).1 [] (Deed.ofAnswer? (.removed (a.remove id).2)).toList := by
  cases hfind : a.retention.find? id with
  | none =>
    have he : a.remove id = (a, .ok none) := by simp [remove, hfind]
    rw [he]
    exact .of_same hmemory hascending rfl
  | some s =>
    rw [remove_inMemory hmemory hfind]
    have hperm := ((Retention.holdings_perm_remove hfind).map Prod.fst).symm
    rw [List.map_append, ← held_eq,
      ← held_eq { a with retention := a.retention.remove id }] at hperm
    obtain ⟨-, rfl⟩ := Retention.mem_of_find? hfind
    refine ⟨hmemory, Retention.ascending_remove hascending _, ?_,
      held { a with retention := a.retention.remove s.id }, ?_⟩
    · rw [List.append_nil]
      exact hperm
    · rw [List.append_nil]
      exact List.perm_append_comm.trans hperm

theorem turnover_close (hmemory : a.vault.medium.InMemory)
    (hascending : Retention.Ascending a.snapshots) (status : JobStatus) :
    Turnover a (a.close status).1 [] (deedsIn (a.close status).2.1) := by
  have hcleared : a.clearance.vault.medium.InMemory :=
    (Vault.load_sweep hmemory (fun _ => true) a.retention.backlog).1
  have hclosed : (a.closure status).vault.medium.InMemory :=
    (Vault.load_sweep hcleared (fun s => s.policy.discard.onStatus status) a.retention.live).1
  obtain ⟨haskedOld, hgoneOld⟩ : (deedsIn a.clearance.events).map Deed.id = _ ∧
      gone (deedsIn a.clearance.events) = _ :=
    deeds_sweep hmemory (fun _ => true) a.retention.backlog
  obtain ⟨haskedNew, hgoneNew⟩ : (deedsIn (a.closure status).events).map Deed.id = _ ∧
      gone (deedsIn (a.closure status).events) = _ :=
    deeds_sweep hcleared (fun s => s.policy.discard.onStatus status) a.retention.live
  have hdeeds : deedsIn (a.close status).2.1 =
      deedsIn a.clearance.events ++ deedsIn (a.closure status).events := List.filterMap_append ..
  refine ⟨?_, hascending.sublist (Vault.sublist_sweep _ _ _), ?_,
    (a.retention.live.filter fun s => !s.policy.discard.onStatus status).map (·.id), ?_⟩
  · rw [close_state, hclosed.dropRecords]
    exact hclosed
  · have hperm := (a.perm_close status).map (·.id)
    rw [List.map_append] at hperm
    rw [hdeeds, gone_append, hgoneOld, hgoneNew, List.append_nil, ← List.map_append]
    exact hperm
  · -- What goes with the job was live.
    have hperm := ((List.filter_append_perm (fun s : Snapshot => s.policy.discard.onStatus status)
      a.retention.live).append_left a.retention.backlog).map (·.id)
    rw [hdeeds, List.map_append, haskedOld, haskedNew, List.filter_true, List.append_nil,
      List.append_assoc, ← List.map_append, ← List.map_append]
    exact hperm.trans (List.perm_append_comm.map _)

theorem turnover_answer {call : Call} {events : List Event} {reply : Answer}
    (hmemory : a.vault.medium.InMemory) (hascending : Retention.Ascending a.snapshots)
    (hnew : ∀ id ∈ call.taken, id ∉ a.held) (h : a.answer call = (a', events, reply)) :
    Turnover a a' call.taken (Turn.mk call events reply).deeds := by
  cases call with
  | add s =>
    have hturn := turnover_add hmemory hascending (hnew s.id List.mem_cons_self)
    rcases hadd : a.add s with ⟨b, heard, result⟩
    rw [hadd] at hturn
    simp only [answer, hadd] at h
    cases h
    simpa [Turn.deeds, Deed.ofAnswer?, Call.taken] using hturn
  | relabel id policy =>
    cases h
    exact turnover_relabel hmemory hascending id policy
  | remove id =>
    cases h
    exact turnover_remove hmemory hascending id
  | close status =>
    have hturn := turnover_close hmemory hascending status
    rcases hclose : a.close status with ⟨b, heard, result⟩
    rw [hclose] at hturn
    simp only [answer, hclose] at h
    cases h
    simpa [Turn.deeds, Deed.ofAnswer?, Call.taken] using hturn

/-! ### The invariant -/

/-- Nothing is done to a snapshot that is finally gone. -/
def Quiet (deeds : List Deed) : Prop :=
  deeds.Pairwise fun earlier later => earlier.isFinal = true → later.id ≠ earlier.id

/-- Every id that was taken is accounted for once, as held or as finally gone. -/
structure Ledger (a : Archive) (taken : List Nat) (deeds : List Deed) : Prop where
  memory : a.vault.medium.InMemory
  ascending : Retention.Ascending a.snapshots
  balance : (a.held ++ gone deeds).Perm taken
  quiet : Quiet deeds

variable {taken new : List Nat} {done more : List Deed}

theorem Ledger.turn (h : Ledger a taken done) (hturn : Turnover a a' new more)
    (hnodup : (taken ++ new).Nodup) : Ledger a' (taken ++ new) (done ++ more) := by
  -- What was held before and what is new are together what is held or gone afterwards.
  have hbefore : ((a.held ++ new) ++ gone done).Perm (taken ++ new) := by
    refine List.perm_iff_count.2 fun id => ?_
    have hcount := h.balance.count_eq id
    simp only [List.count_append] at hcount ⊢
    omega
  have hdistinct := hbefore.nodup_iff.2 hnodup
  obtain ⟨rest, hasked⟩ := hturn.asked
  refine ⟨hturn.memory, hturn.ascending, ?_, ?_⟩
  · rw [gone_append]
    refine List.Perm.trans (List.perm_iff_count.2 fun id => ?_) hbefore
    have hcount := hturn.balance.count_eq id
    simp only [List.count_append] at hcount ⊢
    omega
  · refine List.pairwise_append.2 ⟨h.quiet, ?_, ?_⟩
    · have hmore := (hasked.nodup_iff.2 hdistinct.of_append_left).of_append_left
      exact (List.pairwise_map.1 hmore).imp fun hne _ heq => hne heq.symm
    · intro d hd e he hfinal heq
      have hgone : d.id ∈ gone done := List.mem_map_of_mem (List.mem_filter.2 ⟨hd, hfinal⟩)
      have hheld : e.id ∈ a.held ++ new :=
        hasked.subset (List.mem_append_left _ (List.mem_map_of_mem he))
      exact List.disjoint_of_nodup_append hdistinct hheld (heq ▸ hgone)

/-- A call is answered before the others. -/
theorem serve_cons {call : Call} {calls : List Call} {turns : List Turn}
    (h : a.serve (call :: calls) = (turns, a')) :
    ∃ b events reply later, a.answer call = (b, events, reply) ∧ b.serve calls = (later, a') ∧
      turns = ⟨call, events, reply⟩ :: later := by
  rw [serve] at h
  rcases hanswer : a.answer call with ⟨b, events, reply⟩
  rcases hrest : b.serve calls with ⟨later, c⟩
  simp only [hanswer, hrest] at h
  cases h
  exact ⟨b, events, reply, later, rfl, hrest, rfl⟩

/-- The ledger is kept while calls are answered that take different ids. -/
theorem Ledger.serve {calls : List Call} {turns : List Turn} (h : Ledger a taken done)
    (hnodup : (taken ++ calls.flatMap Call.taken).Nodup) (hserve : a.serve calls = (turns, a')) :
    Ledger a' (taken ++ calls.flatMap Call.taken) (done ++ deeds turns) := by
  induction calls generalizing a taken done turns with
  | nil =>
    cases hserve
    simpa [deeds] using h
  | cons call calls ih =>
    obtain ⟨b, events, reply, later, hanswer, hrest, rfl⟩ := serve_cons hserve
    rw [List.flatMap_cons, ← List.append_assoc] at hnodup
    have hfirst := hnodup.of_append_left
    have hnew : ∀ id ∈ call.taken, id ∉ a.held := fun id hid hheld =>
      List.disjoint_of_nodup_append hfirst
        (h.balance.subset (List.mem_append_left _ hheld)) hid
    have hturn := h.turn (turnover_answer h.memory h.ascending hnew hanswer) hfirst
    have hlast := ih hturn hnodup hrest
    rw [List.flatMap_cons, ← List.append_assoc, deeds, List.flatMap_cons, ← List.append_assoc]
    exact hlast

/-! ### The main statement -/

/-- No snapshot is lost, doubled or thrown away twice.  Whatever an archive over storage in memory
is asked for, as long as it takes no id twice, and whatever storage refuses: its snapshots ascend,
so that the latest one is that with the greatest id; no id is both live and in the backlog; every
id that it has taken is in exactly one place, which is live, the backlog, handed back by one call or
thrown away by one request that was not refused; and after either of these nothing more is done to
it. -/
theorem accounts_for_every_snapshot {states : Table Nat Handles} {faults : FaultPlan}
    {maxRetained : Nat} {calls : List Call} {turns : List Turn} {a : Archive}
    (hcalls : (calls.flatMap Call.taken).Nodup)
    (hserve : serve ⟨.of (.memory states) faults, .empty maxRetained⟩ calls = (turns, a)) :
    Retention.Ascending a.snapshots ∧
    (∀ newest, a.latest? = some newest ↔
      newest ∈ a.snapshots ∧ ∀ s ∈ a.snapshots, s.id ≤ newest.id) ∧
    (∀ s ∈ a.snapshots, ∀ t ∈ a.retention.backlog, s.id ≠ t.id) ∧
    (∀ id ∈ calls.flatMap Call.taken,
      (a.snapshots.map (·.id)).count id + (a.retention.backlog.map (·.id)).count id +
        (deeds turns).count (.handBack id) + (deeds turns).count (.discard id false) = 1) ∧
    (deeds turns).Pairwise fun earlier later =>
      earlier.isFinal = true → later.id ≠ earlier.id := by
  have hstart : Ledger ⟨.of (.memory states) faults, .empty maxRetained⟩ [] [] :=
    ⟨⟨states, rfl⟩, .nil, .refl _, .nil⟩
  have hledger := hstart.serve hcalls hserve
  rw [List.nil_append, List.nil_append] at hledger
  have hdistinct := (hledger.balance.nodup_iff.2 hcalls).of_append_left
  rw [held, List.map_append] at hdistinct
  refine ⟨hledger.ascending, fun newest => Retention.latest?_eq_some_iff hledger.ascending, ?_, ?_,
    hledger.quiet⟩
  · intro s hs t ht heq
    exact List.disjoint_of_nodup_append hdistinct (List.mem_map_of_mem hs)
      (heq ▸ List.mem_map_of_mem ht)
  · intro id hid
    have hcount := hledger.balance.count_eq id
    rw [List.count_append, count_gone, held, List.map_append, List.count_append,
      List.count_eq_one_of_mem hcalls hid] at hcount
    show (a.retention.live.map (·.id)).count id + _ + _ + _ = 1
    omega

/-- Calls after which one snapshot is live, one waits in the backlog, one was handed back and one
was thrown away. -/
def storeCalls : List Call :=
  [.add ⟨3, .ofRetention .onFailure, 30, 31, ∅, none⟩,
    .add ⟨1, .ofRetention .onFailure, 10, 11, ∅, none⟩,
    .add ⟨2, .savepoint true .canonical, 20, 21, ∅, none⟩, .relabel 2 .unclaimedSnapshot, .remove 2,
    .add ⟨4, .ofRetention .onFailure, 40, 41, ∅, none⟩, .close .failed]

theorem accounts_for_every_snapshot_of_store : ∃ turns a,
    serve ⟨.of (.memory ∅) (FaultRule.plan [⟨.discard, some 1, none⟩]), .empty 1⟩ storeCalls =
      (turns, a) ∧
    a.snapshots.map (·.id) = [4] ∧ a.retention.backlog.map (·.id) = [1] ∧
    deeds turns = [.discard 1 true, .handBack 2, .discard 3 false, .discard 1 true] ∧
    ∀ id ∈ [3, 1, 2, 4],
      (a.snapshots.map (·.id)).count id + (a.retention.backlog.map (·.id)).count id +
        (deeds turns).count (.handBack id) + (deeds turns).count (.discard id false) = 1 := by
  refine ⟨_, _, Prod.mk.eta.symm, by decide, by decide, by decide, ?_⟩
  have hcalls : (storeCalls.flatMap Call.taken).Nodup := by decide
  exact (accounts_for_every_snapshot hcalls Prod.mk.eta.symm).2.2.2.1

end Archive
end Checkpointing
