import Mathlib.Tactic
import Checkpointing.Proofs.Storage.Ledger

/-!
# What retention gives up

Whenever a snapshot is added, an archive gives up the oldest snapshots that it can do without, until
the cap holds or none is left that may go.

* `Retention.dispensable` are the snapshots of a list that may go; `subsume_fst` and `subsume_snd`:
  retention gives up the first of them, and keeps all others in their order;
* `Retention.countedIn_or_dispensable`: then the cap holds, or no other one may go;
* `Vault.attempts` are requests made one after the other; `events_sweep` and `kept_sweep`: a sweep
  makes one for each snapshot that has to go, and those for which it fails are `staying`, with all
  that need not go;
* `Archive.Shelves` holds of every archive that was opened and used, `Archive.serve_invariant` packs
  the induction;
* `gives_up_the_oldest` is the main statement.
-/

namespace Checkpointing
namespace Retention

/-- Whether a snapshot of a list may go: it is no savepoint, its policy lets it go when newer ones
are retained, and there is a newer one. -/
def Dispensable (l : List Snapshot) (s : Snapshot) : Prop :=
  s.isSavepoint = false ∧ s.policy.discard.subsumed = true ∧ ∃ t ∈ l, s.id < t.id

instance (l : List Snapshot) (s : Snapshot) : Decidable (Dispensable l s) :=
  inferInstanceAs (Decidable (_ ∧ _ ∧ ∃ t ∈ l, s.id < t.id))

/-- The snapshots of a list that may go, in its order. -/
def dispensable (l : List Snapshot) : List Snapshot := l.filter fun s => Dispensable l s

/-- How many snapshots of a list count against the cap. -/
def countedIn (l : List Snapshot) : Nat := l.countP fun s => !s.isSavepoint

/-- What retention gives up: the oldest snapshots that may go, as many as there are too many. -/
def victims (r : Retention) : List Snapshot :=
  (dispensable r.live).take (countedIn r.live - r.cap)

variable {r : Retention} {s : Snapshot} {l gone kept : List Snapshot}

theorem mem_dispensable : s ∈ dispensable l ↔ s ∈ l ∧ Dispensable l s := by
  rw [dispensable, List.mem_filter, decide_eq_true_iff]

theorem mem_of_mem_victims (h : s ∈ r.victims) : s ∈ r.live ∧ Dispensable r.live s :=
  mem_dispensable.1 (List.mem_of_mem_take h)

theorem divide_zero (newest : Option Nat) (l : List Snapshot) : divide newest 0 l = ([], l) := by
  cases l <;> rfl

theorem divide_cons_of_mayGo {newest : Option Nat} (h : mayGo newest s = true) (excess : Nat) :
    divide newest (excess + 1) (s :: l) =
      (s :: (divide newest excess l).1, (divide newest excess l).2) := by
  rw [divide, if_pos h]

theorem divide_cons_of_not_mayGo {newest : Option Nat} (h : mayGo newest s = false)
    (excess : Nat) : divide newest excess (s :: l) =
      ((divide newest excess l).1, s :: (divide newest excess l).2) := by
  cases excess with
  | zero => rw [divide_zero, divide_zero]
  | succ excess => rw [divide, if_neg (Bool.eq_false_iff.1 h)]

theorem divide_fst (newest : Option Nat) (excess : Nat) (l : List Snapshot) :
    (divide newest excess l).1 = (l.filter (mayGo newest)).take excess := by
  induction l generalizing excess with
  | nil => cases excess <;> rfl
  | cons s l ih =>
    cases hgo : mayGo newest s with
    | true =>
      rw [List.filter_cons_of_pos hgo]
      cases excess with
      | zero => rfl
      | succ excess => rw [divide_cons_of_mayGo hgo, List.take_succ_cons, ih]
    | false => rw [List.filter_cons_of_neg (by simp [hgo]), divide_cons_of_not_mayGo hgo, ih]

/-- Not to be the newest is to have a newer one. -/
theorem mayGo_iff (h : Ascending r.live) (hs : s ∈ r.live) :
    mayGo (r.latest?.map (·.id)) s = true ↔ Dispensable r.live s := by
  cases hlatest : r.latest? with
  | none =>
    rw [latest?, List.getLast?_eq_none_iff] at hlatest
    rw [hlatest] at hs
    cases hs
  | some newest =>
    have hle := le_of_latest? h hlatest hs
    have hnewer : s.id ≠ newest.id ↔ ∃ t ∈ r.live, s.id < t.id := by
      constructor
      · exact fun hne => ⟨newest, mem_of_latest? hlatest, by omega⟩
      · rintro ⟨t, ht, hlt⟩
        have := le_of_latest? h hlatest ht
        omega
    simp only [mayGo, Option.map_some, Bool.and_eq_true, Bool.not_eq_true', bne_iff_ne, ne_eq,
      Option.some.injEq, and_assoc, Dispensable]
    rw [← hnewer]

/-- Retention gives up the oldest snapshots that may go. -/
theorem subsume_fst (h : Ascending r.live) : r.subsume.1 = r.victims := by
  have hgo : r.live.filter (mayGo (r.latest?.map (·.id))) = dispensable r.live := by
    refine List.filter_congr fun s hs => Bool.eq_iff_iff.2 ?_
    rw [mayGo_iff h hs, decide_eq_true_iff]
  rw [subsume, divide_fst, hgo]
  rfl

/-- When snapshots are divided, those that stay in their order are all that did not go. -/
theorem Ascending.eq_filter (h : Ascending l) (hperm : (gone ++ kept).Perm l)
    (hsublist : kept.Sublist l) : kept = l.filter fun s => s ∉ gone := by
  have hapart : ∀ s ∈ kept, s ∉ gone := fun s hs hgone => h.ne_of_perm hperm hgone hs rfl
  have hgone : gone.filter (fun s => s ∉ gone) = [] :=
    List.filter_eq_nil_iff.2 fun s hs => by simpa using hs
  have hkept : kept.filter (fun s => s ∉ gone) = kept :=
    List.filter_eq_self.2 fun s hs => decide_eq_true (hapart s hs)
  have hlength := (hperm.filter fun s => s ∉ gone).length_eq
  rw [List.filter_append, hgone, hkept, List.nil_append] at hlength
  refine List.Sublist.eq_of_length ?_ hlength
  have hfiltered := hsublist.filter fun s => s ∉ gone
  rwa [hkept] at hfiltered

/-- All others stay, in their order. -/
theorem subsume_snd (h : Ascending r.live) :
    r.subsume.2 = r.live.filter fun s => s ∉ r.victims := by
  rw [← subsume_fst h]
  exact h.eq_filter r.perm_subsume (sublist_divide _ _ _)

/-- What goes and what stays are counted together. -/
theorem countedIn_subsume (h : Ascending r.live) :
    r.victims.length + countedIn r.subsume.2 = countedIn r.live := by
  have hcount := r.perm_subsume.countP_eq fun s => !s.isSavepoint
  rw [List.countP_append, subsume_fst h] at hcount
  -- What goes is no savepoint.
  have hvictims : r.victims.countP (fun s => !s.isSavepoint) = r.victims.length := by
    refine List.countP_eq_length.2 fun s hs => ?_
    rw [(mem_of_mem_victims hs).2.1]
    rfl
  rwa [hvictims] at hcount

/-- Afterwards the cap holds, or there is no other snapshot that may go. -/
theorem countedIn_or_dispensable (h : Ascending r.live) :
    countedIn r.subsume.2 ≤ r.cap ∨ dispensable r.subsume.2 = [] := by
  rcases Nat.lt_or_ge (dispensable r.live).length (countedIn r.live - r.cap) with hfew | hmany
  · right
    have hall : r.victims = dispensable r.live := List.take_of_length_le hfew.le
    refine List.eq_nil_iff_forall_not_mem.2 fun s hs => ?_
    obtain ⟨hmem, hkind, hrule, t, ht, hlt⟩ := mem_dispensable.1 hs
    rw [subsume_snd h, hall] at hmem ht
    obtain ⟨hlive, hstays⟩ := List.mem_filter.1 hmem
    have hgo : s ∈ dispensable r.live :=
      mem_dispensable.2 ⟨hlive, hkind, hrule, t, List.mem_of_mem_filter ht, hlt⟩
    exact of_decide_eq_true hstays hgo
  · left
    have hlength : r.victims.length = countedIn r.live - r.cap := List.length_take_of_le hmany
    have hcount := countedIn_subsume h
    omega

/-- Snapshots that were registered one after the other ascend. -/
theorem ascending_insertAll? {r r' : Retention} {l : List Snapshot} (h : Ascending r.live)
    (hinsert : r.insertAll? l = .ok r') : Ascending r'.live ∧ r'.cap = r.cap := by
  induction l generalizing r with
  | nil =>
    cases hinsert
    exact ⟨h, rfl⟩
  | cons s l ih =>
    rw [insertAll?, insert?] at hinsert
    split at hinsert
    · cases hinsert
    · next hnew =>
      refine ih (r := { r with live := place s r.live }) (ascending_place h ?_) hinsert
      exact fun t ht heq => hnew (contains_iff.2 ⟨t, ht, heq⟩)

end Retention

/-! ### Requests one after the other -/

namespace Vault

/-- What comes of requests that are made one after the other: what is heard of each, and why it
fails, if it does. -/
def attempts (v : Vault) : List StorageCall → List (Event × Option StorageFailure)
  | [] => []
  | call :: rest => (v.request call).2 :: (v.request call).1.attempts rest

/-- The snapshots for which the attempt failed. -/
def failed (l : List Snapshot) (tries : List (Event × Option StorageFailure)) : List Snapshot :=
  ((l.zip tries).filter fun e => e.2.2.isSome).map (·.1)

/-- What stays of a list when those of its snapshots that have to go are thrown away, and this comes
of the requests: all others, and those for which the attempt failed. -/
def staying (goes : Snapshot → Bool) : List Snapshot → List (Event × Option StorageFailure) →
    List Snapshot
  | [], _ => []
  | s :: rest, tries =>
    if goes s then failed [s] tries ++ staying goes rest tries.tail
    else s :: staying goes rest tries

theorem failed_nil (l : List Snapshot) : failed l [] = [] := by
  rw [failed, List.zip_nil_right]
  rfl

theorem failed_cons (s : Snapshot) (l : List Snapshot)
    (tries : List (Event × Option StorageFailure)) :
    failed (s :: l) tries = failed [s] tries ++ failed l tries.tail := by
  cases tries with
  | nil => rw [List.tail_nil, failed_nil, failed_nil, failed_nil, List.append_nil]
  | cons t tries =>
    obtain ⟨event, failure | failure⟩ := t <;> rfl

/-- When all have to go, those stay for which the attempt failed. -/
theorem staying_true (l : List Snapshot) (tries : List (Event × Option StorageFailure)) :
    staying (fun _ => true) l tries = failed l tries := by
  induction l generalizing tries with
  | nil => rfl
  | cons s l ih => rw [staying, if_pos rfl, ih, ← failed_cons]

/-- A sweep makes one request for each snapshot that meets the condition, in order. -/
theorem events_sweep (v : Vault) (condition : Snapshot → Bool) (l : List Snapshot) :
    (v.sweep condition l).events =
      (v.attempts ((l.filter condition).map fun s => .discard s.id)).map (·.1) := by
  induction l generalizing v with
  | nil => rfl
  | cons s l ih =>
    rw [sweep]
    split
    · next hgoes =>
      rw [List.filter_cons_of_pos hgoes, List.map_cons, attempts]
      rcases v.request (.discard s.id) with ⟨w, event, failure | failure⟩ <;>
        exact congrArg (event :: ·) (ih w)
    · next hstays =>
      rw [List.filter_cons_of_neg hstays]
      exact ih v

/-- A sweep keeps what does not meet the condition and what cannot be thrown away, in order. -/
theorem kept_sweep (v : Vault) (condition : Snapshot → Bool) (l : List Snapshot) :
    (v.sweep condition l).kept =
      staying condition l (v.attempts ((l.filter condition).map fun s => .discard s.id)) := by
  induction l generalizing v with
  | nil => rfl
  | cons s l ih =>
    rw [sweep, staying]
    split
    · next hgoes =>
      rw [List.filter_cons_of_pos hgoes, List.map_cons, attempts]
      rcases v.request (.discard s.id) with ⟨w, event, failure | failure⟩
      · exact ih w
      · exact congrArg (s :: ·) (ih w)
    · next hstays =>
      rw [List.filter_cons_of_neg hstays]
      exact congrArg (s :: ·) (ih v)

end Vault

namespace Archive

variable {a a' start : Archive} {s : Snapshot}

/-! ### Archives in use -/

/-- What every call keeps holds after any calls. -/
theorem serve_invariant {P : Archive → Prop} (hanswer : ∀ {a} (call), P a → P (a.answer call).1)
    {calls : List Call} {turns : List Turn} (h : P a) (hserve : a.serve calls = (turns, a')) :
    P a' := by
  induction calls generalizing a turns with
  | nil =>
    cases hserve
    exact h
  | cons call calls ih =>
    obtain ⟨b, events, reply, later, hcall, hrest, -⟩ := serve_cons hserve
    have hfirst := hanswer call h
    rw [hcall] at hfirst
    exact ih hfirst hrest

/-- The registered snapshots ascend, and retention has the given cap. -/
structure Shelves (cap : Nat) (a : Archive) : Prop where
  ascending : Retention.Ascending a.snapshots
  cap : a.retention.cap = cap

/-- Only snapshots of new ids are entered. -/
theorem ascending_entered (h : Retention.Ascending a.snapshots)
    (hnew : a.retention.contains s.id = false) : Retention.Ascending (a.entered s).snapshots :=
  Retention.ascending_place h fun _ ht => Retention.ne_of_contains_eq_false hnew ht

theorem Shelves.answer {cap : Nat} (h : Shelves cap a) (call : Call) :
    Shelves cap (a.answer call).1 := by
  cases call with
  | add s =>
    show Shelves cap (a.add s).1
    rcases add_cases a s with ⟨-, he⟩ | ⟨hnew, ⟨medium, failure, -, he⟩ | ⟨medium, -, he⟩⟩ <;>
      rw [he]
    · exact h
    · exact ⟨h.ascending, h.cap⟩
    · have hentered : Retention.Ascending ((a.withMedium medium).entered s).snapshots :=
        ascending_entered h.ascending hnew
      exact ⟨hentered.sublist (sublist_subsume _), h.cap⟩
  | relabel id policy => exact ⟨Retention.ascending_relabel h.ascending id policy, h.cap⟩
  | remove id =>
    show Shelves cap (a.remove id).1
    rcases remove_cases a id with ⟨-, he⟩ | ⟨t, medium, failure, -, -, he⟩ <;> rw [he]
    · exact h
    · exact ⟨Retention.ascending_remove h.ascending id, h.cap⟩
  | close status => exact ⟨h.ascending.sublist (sublist_close a status), h.cap⟩

/-- An archive retains at least one snapshot. -/
theorem shelves_of_open {vault : Vault} {maxRetained : Nat} (h : open? vault maxRetained = .ok a) :
    Shelves (max maxRetained 1) a := by
  obtain ⟨-, found, -, hinsert⟩ := open?_eq_ok h
  obtain ⟨hascending, hcap⟩ :=
    Retention.ascending_insertAll? (r := .empty maxRetained) .nil hinsert
  exact ⟨hascending, hcap⟩

/-! ### What enforcing retention does -/

/-- The requests that are made when retention is enforced. -/
def dismissals (a : Archive) : List (Event × Option StorageFailure) :=
  a.vault.attempts (a.retention.victims.map fun s => .discard s.id)

theorem gone_subsume (h : Retention.Ascending a.snapshots) :
    a.subsume.2.2 = a.retention.victims.map (·.id) := by
  rw [← Retention.subsume_fst h]
  rfl

theorem events_subsume (h : Retention.Ascending a.snapshots) :
    a.subsume.2.1 = a.dismissals.map (·.1) := by
  have hevents : a.subsume.2.1 = a.subsumption.events := rfl
  rw [hevents, subsumption, Retention.subsume_fst h, Vault.events_sweep, List.filter_true]
  rfl

theorem backlog_subsume (h : Retention.Ascending a.snapshots) :
    a.subsume.1.retention.backlog =
      a.retention.backlog ++ Vault.failed a.retention.victims a.dismissals := by
  have hbacklog : a.subsume.1.retention.backlog =
      a.retention.backlog ++ a.subsumption.kept := rfl
  rw [hbacklog, subsumption, Retention.subsume_fst h, Vault.kept_sweep, Vault.staying_true,
    List.filter_true]
  rfl

/-! ### The main statement -/

/-- Retention gives up exactly what it has to.  Whenever an archive, after any calls, accepts a
snapshot: among all registered snapshots, the new one included, those that may go are given up
oldest first, as many as the cap is exceeded by, or all if they are fewer; storage is asked to throw
away exactly these, in this order; all others stay as they are and in their order; and those for
which storage fails come to the end of the backlog.  Afterwards the cap holds, or there is no other
snapshot that may go. -/
theorem gives_up_the_oldest {vault : Vault} {maxRetained : Nat} {calls : List Call}
    {turns : List Turn} {events : List Event} {gone : List Nat}
    (hopen : open? vault maxRetained = .ok start) (hserve : start.serve calls = (turns, a))
    (hadd : a.add s = (a', events, .ok gone)) :
    ∃ entered victims tries medium, entered.Perm (s :: a.snapshots) ∧
      Retention.Ascending entered ∧
      victims = (Retention.dispensable entered).take
        (Retention.countedIn entered - max maxRetained 1) ∧
      a.vault.medium.saveRecord s = (medium, none) ∧
      tries = (a.withMedium medium).vault.attempts (victims.map fun t => .discard t.id) ∧
      gone = victims.map (·.id) ∧ events = tries.map (·.1) ∧
      a'.snapshots = entered.filter (fun t => t ∉ victims) ∧
      a'.retention.backlog = a.retention.backlog ++ Vault.failed victims tries ∧
      (Retention.countedIn a'.snapshots ≤ max maxRetained 1 ∨
        Retention.dispensable a'.snapshots = []) := by
  have hshelves := serve_invariant (fun call h => h.answer call) (shelves_of_open hopen) hserve
  rcases add_cases a s with ⟨-, he⟩ | ⟨hnew, ⟨medium, failure, -, he⟩ | ⟨medium, hsave, he⟩⟩ <;>
    cases he.symm.trans hadd
  have hascending : Retention.Ascending ((a.withMedium medium).entered s).snapshots :=
    ascending_entered hshelves.ascending hnew
  have hcap : ((a.withMedium medium).entered s).retention.cap = max maxRetained 1 := hshelves.cap
  have hlast := Retention.countedIn_or_dispensable hascending
  rw [hcap] at hlast
  refine ⟨_, ((a.withMedium medium).entered s).retention.victims, _, medium,
    Retention.perm_place s a.snapshots, hascending, ?_, hsave, rfl, gone_subsume hascending,
    events_subsume hascending, Retention.subsume_snd hascending, backlog_subsume hascending, hlast⟩
  rw [Retention.victims, hcap]
  rfl

/-- A checkpoint whose data is never thrown away for newer ones. -/
def keptCheckpoint : Snapshot :=
  ⟨3, ⟨.checkpoint, false, { DiscardRules.always with subsumed := false }, false⟩, 30, 31, ∅, none⟩

/-- Two savepoints that are then taken for checkpoints, one of the checkpoints that stay, and
another savepoint. -/
def mixedCalls : List Call :=
  [.add ⟨2, .savepoint true .canonical, 20, 21, ∅, none⟩, .add keptCheckpoint,
    .add ⟨1, .savepoint true .canonical, 10, 11, ∅, none⟩,
    .add ⟨4, .savepoint true .canonical, 40, 41, ∅, none⟩,
    .relabel 1 (.ofRetention .onFailure), .relabel 2 (.ofRetention .onFailure)]

/-- Four snapshots count then, and two of them may go, of which one cannot be thrown away.  The cap
does not hold afterwards, but there is no other one that may go. -/
theorem gives_up_the_oldest_of_four : ∃ start turns a a' events gone,
    open? (.of (.memory ∅) (FaultRule.plan [⟨.discard, some 2, none⟩])) 1 = .ok start ∧
    start.serve mixedCalls = (turns, a) ∧ a.snapshots.map (·.id) = [1, 2, 3, 4] ∧
    a.add ⟨5, .ofRetention .onFailure, 50, 51, ∅, none⟩ = (a', events, .ok gone) ∧
    gone = [1, 2] ∧ requestIds events = [1, 2] ∧ a'.snapshots.map (·.id) = [3, 4, 5] ∧
    a'.retention.backlog.map (·.id) = [2] ∧ Retention.countedIn a'.snapshots = 2 ∧
    Retention.dispensable a'.snapshots = [] := by
  obtain ⟨start, turns, a, a', events, gone, hopen, hserve, hbefore, hadd, hgone, hevents, hafter,
      hbacklog, hcount⟩ : ∃ start turns a a' events gone,
        open? (.of (.memory ∅) (FaultRule.plan [⟨.discard, some 2, none⟩])) 1 = .ok start ∧
        start.serve mixedCalls = (turns, a) ∧ a.snapshots.map (·.id) = [1, 2, 3, 4] ∧
        a.add ⟨5, .ofRetention .onFailure, 50, 51, ∅, none⟩ = (a', events, .ok gone) ∧
        gone = [1, 2] ∧ requestIds events = [1, 2] ∧ a'.snapshots.map (·.id) = [3, 4, 5] ∧
        a'.retention.backlog.map (·.id) = [2] ∧ Retention.countedIn a'.snapshots = 2 :=
    ⟨_, _, _, _, _, _, rfl, rfl, by decide, rfl, by decide, by decide, by decide, by decide,
      by decide⟩
  obtain ⟨-, -, -, -, -, -, -, -, -, -, -, -, -, hlast⟩ :=
    gives_up_the_oldest hopen hserve hadd
  refine ⟨start, turns, a, a', events, gone, hopen, hserve, hbefore, hadd, hgone, hevents, hafter,
    hbacklog, hcount, hlast.resolve_left ?_⟩
  rw [hcount]
  decide

end Archive
end Checkpointing
