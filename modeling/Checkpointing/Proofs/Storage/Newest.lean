import Mathlib.Tactic
import Checkpointing.Proofs.Storage.Eviction

/-!
# The newest snapshots

In whatever order snapshots are added, the newest stay.

* `Retention.newest` are the snapshots of a list that stay when only so many may: all savepoints and
  the newest of the others; `newest_cons` takes them in ascending order, `countedFrom_newest` says
  how many there are;
* `newest_cons_newest`: it makes no difference whether a snapshot is added to all that there were or
  to the newest of them;
* `divide_eq_newest`: these are what retention keeps, if it may give up everything but savepoints;
* `Archive.Newest` is the invariant, `Newest.add` the step and `Newest.serve` the run;
* `retains_the_newest` is the main statement.
-/

namespace Checkpointing
namespace Retention

/-- How many snapshots of a list that count against the cap have this id or a greater one. -/
def countedFrom (l : List Snapshot) (id : Nat) : Nat :=
  l.countP fun s => !s.isSavepoint && decide (id ≤ s.id)

/-- Whether a snapshot of a list stays when only `cap` may count: it is a savepoint, or fewer than
`cap` of those that count are newer. -/
def stays (cap : Nat) (l : List Snapshot) (s : Snapshot) : Bool :=
  s.isSavepoint || decide (countedFrom l (s.id + 1) < cap)

/-- The snapshots of a list that stay, in its order. -/
def newest (cap : Nat) (l : List Snapshot) : List Snapshot := l.filter (stays cap l)

/-- Retention may give up all snapshots of a list but the savepoints. -/
def Expendable (l : List Snapshot) : Prop :=
  ∀ s ∈ l, s.isSavepoint = true ∨ s.policy.discard.subsumed = true

instance (l : List Snapshot) : Decidable (Expendable l) :=
  inferInstanceAs (Decidable (∀ s ∈ l, _ ∨ _))

variable {s : Snapshot} {l l' : List Snapshot} {cap id : Nat}

theorem countedIn_cons :
    countedIn (s :: l) = countedIn l + if s.isSavepoint = false then 1 else 0 := by
  rw [countedIn, List.countP_cons, ← countedIn]
  simp only [Bool.not_eq_true']

theorem countedFrom_cons : countedFrom (s :: l) id =
    countedFrom l id + if s.isSavepoint = false ∧ id ≤ s.id then 1 else 0 := by
  rw [countedFrom, List.countP_cons, ← countedFrom]
  simp only [Bool.and_eq_true, Bool.not_eq_true', decide_eq_true_eq]

theorem countedFrom_zero (l : List Snapshot) : countedFrom l 0 = countedIn l := by
  simp only [countedFrom, countedIn, Nat.zero_le, decide_true, Bool.and_true]

/-- All snapshots that count are counted if none is older. -/
theorem countedFrom_of_le (h : ∀ s ∈ l, id ≤ s.id) : countedFrom l id = countedIn l := by
  refine List.countP_congr fun s hs => ?_
  rw [decide_eq_true (h s hs), Bool.and_true]

theorem stays_iff :
    stays cap l s = true ↔ s.isSavepoint = true ∨ countedFrom l (s.id + 1) < cap := by
  rw [stays, Bool.or_eq_true, decide_eq_true_iff]

theorem perm_newest (h : l.Perm l') : (newest cap l).Perm (newest cap l') := by
  have hsame : stays cap l = stays cap l' := by
    funext t
    have hcount : countedFrom l (t.id + 1) = countedFrom l' (t.id + 1) := h.countP_eq _
    rw [stays, stays, hcount]
  rw [newest, newest, hsame]
  exact h.filter _

/-! ### Ascending lists -/

/-- Whether the oldest snapshot stays is a matter of how many others count; to the others it makes
no difference. -/
theorem newest_cons (h : ∀ t ∈ l, s.id < t.id) : newest cap (s :: l) =
    if s.isSavepoint = true ∨ countedIn l < cap then s :: newest cap l else newest cap l := by
  have hself : stays cap (s :: l) s = true ↔ s.isSavepoint = true ∨ countedIn l < cap := by
    rw [stays_iff, countedFrom_cons, if_neg (by omega), countedFrom_of_le h, Nat.add_zero]
  have hothers : l.filter (stays cap (s :: l)) = newest cap l := by
    refine List.filter_congr fun t ht => ?_
    have hlt := h t ht
    rw [stays, countedFrom_cons, if_neg (by omega), Nat.add_zero, stays]
  rw [newest, List.filter_cons, hothers]
  simp only [hself]

theorem countedFrom_newest_of_ascending (h : Ascending l) :
    countedFrom (newest cap l) id = min (countedFrom l id) cap := by
  induction l with
  | nil => exact (Nat.zero_min cap).symm
  | cons s l ih =>
    obtain ⟨hfirst, hrest⟩ := List.pairwise_cons.1 h
    have ih := ih hrest
    rw [newest_cons hfirst, countedFrom_cons]
    by_cases hfrom : s.isSavepoint = false ∧ id ≤ s.id
    · -- All the others are newer and counted too.
      have hall : countedFrom l id = countedIn l :=
        countedFrom_of_le fun t ht => hfrom.2.trans (hfirst t ht).le
      have hkind : ¬s.isSavepoint = true := by simp [hfrom.1]
      rw [if_pos hfrom]
      split
      · next hstays =>
        have hroom := hstays.resolve_left hkind
        rw [countedFrom_cons, if_pos hfrom]
        omega
      · next hgoes =>
        have hfull : ¬countedIn l < cap := fun hroom => hgoes (Or.inr hroom)
        omega
    · rw [if_neg hfrom, Nat.add_zero]
      split
      · rw [countedFrom_cons, if_neg hfrom, Nat.add_zero]
        exact ih
      · exact ih

/-- An ascending list is divided into the newest and the others. -/
theorem divide_eq_newest (h : Ascending l) (hcap : 1 ≤ cap) (hkinds : Expendable l) :
    (divide (l.getLast?.map (·.id)) (countedIn l - cap) l).2 = newest cap l := by
  induction l with
  | nil => rfl
  | cons s l ih =>
    obtain ⟨hfirst, hrest⟩ := List.pairwise_cons.1 h
    obtain ⟨hkind, hkinds⟩ := List.forall_mem_cons.1 hkinds
    have ih := ih hrest hkinds
    rw [newest_cons hfirst, countedIn_cons]
    by_cases hroom : countedIn l < cap
    · -- Nothing is given up, neither here nor among the others.
      have hexcess : countedIn l + (if s.isSavepoint = false then 1 else 0) - cap = 0 := by
        split <;> omega
      rw [Nat.sub_eq_zero_of_le hroom.le, divide_zero] at ih
      rw [hexcess, divide_zero, if_pos (Or.inr hroom), ← ih]
    · obtain ⟨t, hlast⟩ : ∃ t, l.getLast? = some t := by
        refine Option.isSome_iff_exists.1 (List.getLast?_isSome.2 ?_)
        rintro rfl
        exact hroom hcap
      have hnewer := hfirst t (List.mem_of_getLast? hlast)
      have hsame : (s :: l).getLast? = some t := by
        rw [List.getLast?_cons, hlast]
        rfl
      rw [hlast] at ih
      rw [hsame]
      cases hsavepoint : s.isSavepoint with
      | true =>
        have hgo : mayGo (some t.id) s = false := by simp [mayGo, hsavepoint]
        rw [if_neg (by simp), if_pos (Or.inl rfl), Nat.add_zero, ← ih, Option.map_some,
          divide_cons_of_not_mayGo hgo]
      | false =>
        have hrule := hkind.resolve_left (by simp [hsavepoint])
        have hgo : mayGo (some t.id) s = true := by simp [mayGo, hsavepoint, hrule, hnewer.ne]
        have hexcess : countedIn l + 1 - cap = countedIn l - cap + 1 := by omega
        rw [if_pos rfl, if_neg (by simp [hroom]), hexcess, ← ih, Option.map_some,
          divide_cons_of_mayGo hgo]

/-! ### Any lists -/

/-- In any order the newest are as many as may stay, if there are enough. -/
theorem countedFrom_newest (h : (l.map (·.id)).Nodup) :
    countedFrom (newest cap l) id = min (countedFrom l id) cap := by
  obtain ⟨r, -, hperm, hascending⟩ := insertAll?_eq_ok (.empty cap) l .nil h
  have hall : countedFrom r.live id = countedFrom l id := hperm.countP_eq _
  have hnewest : countedFrom (newest cap r.live) id = countedFrom (newest cap l) id :=
    (perm_newest hperm).countP_eq _
  rw [← hnewest, ← hall]
  exact countedFrom_newest_of_ascending hascending

/-- To find the newest it is enough to add to the newest. -/
theorem newest_cons_newest (h : (l.map (·.id)).Nodup) :
    newest cap (s :: newest cap l) = newest cap (s :: l) := by
  have hsame : stays cap (s :: newest cap l) = stays cap (s :: l) := by
    funext t
    refine Bool.eq_iff_iff.2 ?_
    rw [stays_iff, stays_iff, countedFrom_cons, countedFrom_cons, countedFrom_newest h]
    refine or_congr_right ?_
    split <;> omega
  -- What is left out at first would be left out at last.
  have hless : ∀ t, stays cap (s :: l) t = true → stays cap l t = true := by
    intro t ht
    rw [stays_iff, countedFrom_cons] at ht
    exact stays_iff.2 (ht.imp_right (by omega))
  have hrest : (newest cap l).filter (stays cap (s :: l)) = l.filter (stays cap (s :: l)) := by
    rw [newest, List.filter_filter]
    refine List.filter_congr fun t _ => Bool.eq_iff_iff.2 ?_
    rw [Bool.and_eq_true]
    exact and_iff_left_of_imp (hless t)
  rw [newest, hsame, List.filter_cons, hrest, newest, List.filter_cons]

end Retention

namespace Archive

open Retention

variable {a a' start : Archive} {s : Snapshot} {l taken : List Snapshot} {cap : Nat}

/-- The snapshots that an archive took in a turn. -/
def Turn.accepted : Turn → List Snapshot
  | ⟨.add s, _, .added (.ok _)⟩ => [s]
  | _ => []

/-- What is taken when a snapshot is added is that snapshot or nothing. -/
theorem Turn.sublist_accepted (s : Snapshot) (events : List Event)
    (reply : Except SnapshotError (List Nat)) :
    (Turn.accepted ⟨.add s, events, .added reply⟩).Sublist [s] := by
  cases reply with
  | error e => exact List.nil_sublist _
  | ok gone => exact .refl _

/-- The snapshots that an archive took in a series of turns. -/
def accepted (turns : List Turn) : List Snapshot := turns.flatMap Turn.accepted

/-- An archive that retains just the newest of the snapshots that it has taken. -/
structure Newest (cap : Nat) (taken : List Snapshot) (a : Archive) : Prop where
  shelves : Shelves cap a
  live : a.snapshots.Perm (newest cap taken)

theorem newest_of_empty {maxRetained : Nat} (h : a.retention = .empty maxRetained) :
    Newest (max maxRetained 1) [] a := by
  have hlive : a.snapshots = [] := by rw [snapshots, h]; rfl
  refine ⟨⟨?_, by rw [h]; rfl⟩, ?_⟩ <;> rw [hlive]
  · exact .nil
  · exact .refl _

namespace Newest

/-- An id that was not taken is not registered. -/
theorem not_contains (h : Newest cap taken a) (hnew : s.id ∉ taken.map (·.id)) :
    a.retention.contains s.id = false := by
  refine Bool.eq_false_iff.2 fun hthere => ?_
  obtain ⟨t, ht, hid⟩ := contains_iff.1 hthere
  exact hnew (hid ▸ List.mem_map_of_mem (List.mem_of_mem_filter (h.live.subset ht)))

/-- When one more snapshot is entered and retention is enforced, the newest of all stay. -/
theorem subsume (h : Newest cap taken a) (hcap : 1 ≤ cap)
    (hdistinct : ((s :: taken).map (·.id)).Nodup) (hkinds : Expendable (s :: taken)) :
    (a.entered s).subsume.1.snapshots.Perm (newest cap (s :: taken)) := by
  obtain ⟨hnew, hold⟩ := List.nodup_cons.1 hdistinct
  have hascending : Ascending (place s a.snapshots) :=
    ascending_entered h.shelves.ascending (h.not_contains hnew)
  have hplaced : (place s a.snapshots).Perm (s :: newest cap taken) :=
    (perm_place s a.snapshots).trans (h.live.cons s)
  have hexpendable : Expendable (place s a.snapshots) := fun t ht =>
    hkinds t (List.cons_subset_cons s (List.filter_subset_self _) (hplaced.subset ht))
  have hdivided : (a.entered s).subsume.1.snapshots = newest cap (place s a.snapshots) := by
    have hdivided := divide_eq_newest hascending hcap hexpendable
    rw [← h.shelves.cap] at hdivided ⊢
    exact hdivided
  rw [hdivided, ← newest_cons_newest hold]
  exact perm_newest hplaced

/-- A snapshot of a new id is taken, or the archive still retains the same. -/
theorem add {events : List Event} {reply : Except SnapshotError (List Nat)}
    (h : Newest cap taken a) (hcap : 1 ≤ cap)
    (hdistinct : ((taken ++ [s]).map (·.id)).Nodup) (hkinds : Expendable (taken ++ [s]))
    (hadd : a.add s = (a', events, reply)) :
    Newest cap (taken ++ Turn.accepted ⟨.add s, events, .added reply⟩) a' := by
  have hshelves : Shelves cap a' := by
    have hanswer := h.shelves.answer (.add s)
    rw [answer, hadd] at hanswer
    exact hanswer
  have hnone : Newest cap (taken ++ []) a := by rwa [List.append_nil]
  refine ⟨hshelves, ?_⟩
  rcases add_cases a s with ⟨-, he⟩ | ⟨-, ⟨medium, failure, -, he⟩ | ⟨medium, -, he⟩⟩ <;>
    cases he.symm.trans hadd
  · exact hnone.live
  · exact hnone.live
  · have hperm : (taken ++ [s]).Perm (s :: taken) := List.perm_append_singleton s taken
    have hmedium : Newest cap taken (a.withMedium medium) :=
      ⟨⟨h.shelves.ascending, h.shelves.cap⟩, h.live⟩
    refine (hmedium.subsume hcap ?_ fun t ht => hkinds t (hperm.symm.subset ht)).trans
      (perm_newest hperm.symm)
    exact (hperm.map _).nodup_iff.1 hdistinct

/-- In memory a snapshot of a new id is always taken. -/
theorem accepted_of_inMemory {events : List Event} {reply : Except SnapshotError (List Nat)}
    (h : Newest cap taken a) (hnew : s.id ∉ taken.map (·.id)) (hmemory : a.vault.medium.InMemory)
    (hadd : a.add s = (a', events, reply)) :
    Turn.accepted ⟨.add s, events, .added reply⟩ = [s] ∧ a'.vault.medium.InMemory := by
  rcases add_cases a s with ⟨hthere, -⟩ | ⟨hcontains, ⟨medium, failure, hsave, -⟩ |
    ⟨medium, hsave, he⟩⟩
  · rw [h.not_contains hnew] at hthere
    cases hthere
  · rw [hmemory.saveRecord] at hsave
    cases hsave
  · rw [hmemory.saveRecord] at hsave
    cases hsave
    cases he.symm.trans hadd
    have hascending : Ascending ((a.withMedium a.vault.medium).entered s).snapshots :=
      ascending_entered h.shelves.ascending hcontains
    exact ⟨rfl, (turnover_subsume (a := (a.withMedium a.vault.medium).entered s) hmemory
      hascending).memory⟩

/-- Whatever snapshots are added, the newest of those that are taken are retained, and in memory all
are taken. -/
theorem serve {turns : List Turn} (h : Newest cap taken a) (hcap : 1 ≤ cap)
    (hdistinct : ((taken ++ l).map (·.id)).Nodup) (hkinds : Expendable (taken ++ l))
    (hserve : a.serve (l.map .add) = (turns, a')) :
    Newest cap (taken ++ accepted turns) a' ∧ (a.vault.medium.InMemory → accepted turns = l) := by
  induction l generalizing a taken turns with
  | nil =>
    cases hserve
    rw [accepted, List.flatMap_nil, List.append_nil]
    exact ⟨h, fun _ => rfl⟩
  | cons s l ih =>
    rcases hadd : a.add s with ⟨b, events, reply⟩
    have hanswer : a.answer (.add s) = (b, events, .added reply) := by rw [answer, hadd]
    obtain ⟨_, _, _, later, hfirst, hrest, rfl⟩ := serve_cons hserve
    cases hanswer.symm.trans hfirst
    have hbefore : (taken ++ [s]).Sublist (taken ++ s :: l) :=
      (List.sublist_append_left [s] l).append_left taken
    have hafter : ((taken ++ Turn.accepted ⟨.add s, events, .added reply⟩) ++ l).Sublist
        (taken ++ s :: l) := by
      rw [List.append_assoc]
      exact ((Turn.sublist_accepted s events reply).append_right l).append_left taken
    have hnew : s.id ∉ taken.map (·.id) := by
      have hperm : (taken ++ s :: l).Perm (s :: (taken ++ l)) := List.perm_middle
      obtain ⟨hnew, -⟩ := List.nodup_cons.1 ((hperm.map _).nodup_iff.1 hdistinct)
      rw [List.map_append, List.mem_append, not_or] at hnew
      exact hnew.1
    have hadded := h.add hcap (hdistinct.sublist (hbefore.map _))
      (fun t ht => hkinds t (hbefore.subset ht)) hadd
    obtain ⟨hlast, hall⟩ := ih hadded (hdistinct.sublist (hafter.map _))
      (fun t ht => hkinds t (hafter.subset ht)) hrest
    rw [List.append_assoc] at hlast
    refine ⟨hlast, fun hmemory => ?_⟩
    obtain ⟨htaken, hmemory⟩ := h.accepted_of_inMemory hnew hmemory hadd
    rw [accepted, List.flatMap_cons, htaken]
    exact congrArg (s :: ·) (hall hmemory)

end Newest

/-- An empty archive to which snapshots are added retains the newest of them. -/
theorem newest_of_serve {maxRetained : Nat} {turns : List Turn}
    (hstart : start.retention = .empty maxRetained) (hdistinct : (l.map (·.id)).Nodup)
    (hkinds : Expendable l) (hserve : start.serve (l.map .add) = (turns, a))
    (hall : start.vault.medium.InMemory ∨ accepted turns = l) :
    accepted turns = l ∧ Newest (max maxRetained 1) l a := by
  obtain ⟨hlast, htaken⟩ := (newest_of_empty hstart).serve (Nat.le_max_right _ _) hdistinct hkinds
    hserve
  have hall : accepted turns = l := hall.elim htaken id
  rw [hall] at hlast
  exact ⟨hall, hlast⟩

/-- Retention keeps the newest snapshots, whatever the order in which they come.  Let snapshots with
different ids, all of them savepoints or such as may be given up, be added to an empty archive,
whatever requests storage refuses; in memory all are taken, and in a directory all that can be
written.  Then the archive holds, in ascending order, all savepoints and of the others the newest,
as many as it is to retain, or all if there are fewer.  Any other empty archive to which the same
snapshots are added in another order holds the same in the end. -/
theorem retains_the_newest {maxRetained : Nat} {turns : List Turn}
    (hstart : start.retention = .empty maxRetained) (hdistinct : (l.map (·.id)).Nodup)
    (hkinds : Expendable l) (hserve : start.serve (l.map .add) = (turns, a))
    (hall : start.vault.medium.InMemory ∨ accepted turns = l) :
    accepted turns = l ∧ Ascending a.snapshots ∧
      a.snapshots.Perm (newest (max maxRetained 1) l) ∧
      countedIn a.snapshots = min (countedIn l) (max maxRetained 1) ∧
      ∀ {start' a' : Archive} {l' : List Snapshot} {turns' : List Turn},
        start'.retention = .empty maxRetained → l'.Perm l →
        start'.serve (l'.map .add) = (turns', a') →
        start'.vault.medium.InMemory ∨ accepted turns' = l' →
        a'.snapshots = a.snapshots ∧ a'.latest? = a.latest? := by
  obtain ⟨hall, hlast⟩ := newest_of_serve hstart hdistinct hkinds hserve hall
  have hcount : countedIn a.snapshots = min (countedIn l) (max maxRetained 1) := by
    have hsame : countedIn a.snapshots = countedIn (newest (max maxRetained 1) l) :=
      hlast.live.countP_eq _
    rw [hsame, ← countedFrom_zero, ← countedFrom_zero]
    exact countedFrom_newest hdistinct
  refine ⟨hall, hlast.shelves.ascending, hlast.live, hcount, ?_⟩
  intro start' a' l' turns' hstart' hperm hserve' hall'
  obtain ⟨-, hlast'⟩ := newest_of_serve hstart' ((hperm.map _).nodup_iff.2 hdistinct)
    (fun s hs => hkinds s (hperm.subset hs)) hserve' hall'
  have hsame : a'.snapshots = a.snapshots := by
    refine List.Perm.eq_of_pairwise (fun s t _ _ hst hts => absurd hst hts.asymm)
      hlast'.shelves.ascending hlast.shelves.ascending ?_
    exact hlast'.live.trans ((perm_newest hperm).trans hlast.live.symm)
  exact ⟨hsame, congrArg List.getLast? hsame⟩

/-- Two savepoints and four checkpoints, not in order. -/
def shuffled : List Snapshot :=
  [⟨4, .ofRetention .onFailure, 40, 41, ∅, none⟩, ⟨1, .savepoint true .canonical, 10, 11, ∅, none⟩,
    ⟨6, .ofRetention .onFailure, 60, 61, ∅, none⟩, ⟨2, .ofRetention .onFailure, 20, 21, ∅, none⟩,
    ⟨5, .savepoint true .canonical, 50, 51, ∅, none⟩, ⟨3, .ofRetention .onFailure, 30, 31, ∅, none⟩]

/-- The two newest checkpoints stay beside the savepoints, although one that is given up cannot be
thrown away, and they also stay when all come the other way round. -/
theorem retains_the_newest_of_four : ∃ turns a turns' a',
    serve ⟨.of (.memory ∅) (FaultRule.plan [⟨.discard, some 2, none⟩]), .empty 2⟩
      (shuffled.map .add) = (turns, a) ∧
    accepted turns = shuffled ∧ a.snapshots.map (·.id) = [1, 4, 5, 6] ∧
    a.retention.backlog.map (·.id) = [2] ∧
    serve ⟨.of (.memory ∅) .none, .empty 2⟩ (shuffled.reverse.map .add) = (turns', a') ∧
    a'.snapshots = a.snapshots := by
  obtain ⟨turns, a, turns', a', hserve, hafter, hbacklog, hserve'⟩ : ∃ turns a turns' a',
      serve ⟨.of (.memory ∅) (FaultRule.plan [⟨.discard, some 2, none⟩]), .empty 2⟩
        (shuffled.map .add) = (turns, a) ∧
      a.snapshots.map (·.id) = [1, 4, 5, 6] ∧ a.retention.backlog.map (·.id) = [2] ∧
      serve ⟨.of (.memory ∅) .none, .empty 2⟩ (shuffled.reverse.map .add) = (turns', a') :=
    ⟨_, _, _, _, rfl, by decide, by decide, rfl⟩
  obtain ⟨hall, -, -, -, hagain⟩ :=
    retains_the_newest rfl (by decide) (by decide) hserve (Or.inl ⟨∅, rfl⟩)
  obtain ⟨hsame, -⟩ := hagain rfl (List.reverse_perm shuffled) hserve' (Or.inl ⟨∅, rfl⟩)
  exact ⟨turns, a, turns', a', hserve, hall, hafter, hbacklog, hserve', hsame⟩

end Archive
end Checkpointing
