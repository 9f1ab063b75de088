import Mathlib.Tactic
import Checkpointing.Storage.Retention

/-!
# Laws of retention

Retention only moves snapshots about: nothing is lost or doubled when a snapshot is placed, when
the live ones are divided, or when one is removed.

* `perm_place`, `perm_subsume`, `perm_remove` say so, as permutations;
* `insertAll?_eq_ok`: snapshots with different ids can be registered one after the other, and are
  then in ascending order;
* `holdings` are the ids and handles that retention answers for, live or in the backlog; a new
  policy does not change them.
-/

namespace Checkpointing
namespace Retention

theorem perm_place (s : Snapshot) (l : List Snapshot) : (place s l).Perm (s :: l) := by
  induction l with
  | nil => exact .refl _
  | cons t rest ih =>
    simp only [place]
    split
    · exact .refl _
    · exact (ih.cons t).trans (.swap s t rest)

theorem perm_divide (newest : Option Nat) (excess : Nat) (l : List Snapshot) :
    ((divide newest excess l).1 ++ (divide newest excess l).2).Perm l := by
  induction l generalizing excess with
  | nil => cases excess <;> exact .refl _
  | cons s rest ih =>
    cases excess with
    | zero => exact .refl _
    | succ excess =>
      simp only [divide]
      split
      · exact (ih excess).cons s
      · exact List.perm_middle.trans ((ih (excess + 1)).cons s)

theorem mayGo_of_mem_divide {newest : Option Nat} {excess : Nat} {l : List Snapshot} {s : Snapshot}
    (h : s ∈ (divide newest excess l).1) : mayGo newest s = true := by
  induction l generalizing excess with
  | nil => cases excess <;> cases h
  | cons t rest ih =>
    cases excess with
    | zero => cases h
    | succ excess =>
      simp only [divide] at h
      split at h
      · next hgo =>
        rcases List.mem_cons.1 h with rfl | h
        · exact hgo
        · exact ih h
      · exact ih h

/-- What is given up and what is kept are all the live snapshots. -/
theorem perm_subsume (r : Retention) : (r.subsume.1 ++ r.subsume.2).Perm r.live :=
  perm_divide _ _ _

theorem perm_remove {r : Retention} {id : Nat} {s : Snapshot} (h : r.find? id = some s) :
    r.live.Perm (s :: (r.remove id).live) := by
  obtain ⟨cap, live, backlog⟩ := r
  simp only [find?] at h
  simp only [remove]
  induction live with
  | nil => cases h
  | cons t rest ih =>
    rw [List.find?_cons] at h
    rw [List.eraseP_cons]
    cases hid : t.id == id with
    | true =>
      rw [hid] at h
      cases h
      exact .refl _
    | false =>
      rw [hid] at h
      exact ((ih h).cons t).trans (.swap s t _)

theorem mem_of_find? {r : Retention} {id : Nat} {s : Snapshot} (h : r.find? id = some s) :
    s ∈ r.live ∧ s.id = id := by
  constructor
  · exact List.mem_of_find?_eq_some h
  · simpa using List.find?_some h

theorem contains_iff {r : Retention} {id : Nat} :
    r.contains id = true ↔ ∃ s ∈ r.live, s.id = id := by
  simp [contains]

theorem ne_of_contains_eq_false {r : Retention} {id : Nat} {s : Snapshot}
    (h : r.contains id = false) (hs : s ∈ r.live) : s.id ≠ id := by
  intro heq
  rw [contains_iff.2 ⟨s, hs, heq⟩] at h
  cases h

theorem find?_relabel (r : Retention) (id : Nat) (policy : SnapshotPolicy) :
    (r.relabel id policy).find? id = (r.find? id).map fun s => { s with policy := policy } := by
  obtain ⟨cap, live, backlog⟩ := r
  simp only [relabel, find?]
  induction live with
  | nil => rfl
  | cons s rest ih =>
    by_cases hid : s.id = id
    · simp [hid]
    · simpa [hid] using ih

theorem mem_of_latest? {r : Retention} {s : Snapshot} (h : r.latest? = some s) : s ∈ r.live :=
  List.mem_of_getLast? h

/-! ### Order -/

/-- The ids of the snapshots ascend. -/
def Ascending (l : List Snapshot) : Prop := l.Pairwise fun s t => s.id < t.id

theorem Ascending.nodup {l : List Snapshot} (h : Ascending l) : (l.map (·.id)).Nodup :=
  List.pairwise_map.2 (h.imp fun hlt => hlt.ne)

/-- No two snapshots have one id. -/
theorem Ascending.eq_of_id {l : List Snapshot} (h : Ascending l) {s t : Snapshot} (hs : s ∈ l)
    (ht : t ∈ l) (hid : s.id = t.id) : s = t :=
  List.inj_on_of_nodup_map h.nodup hs ht hid

/-- When snapshots are divided no id comes to both sides. -/
theorem Ascending.ne_of_perm {l l₁ l₂ : List Snapshot} (h : Ascending l) (hperm : (l₁ ++ l₂).Perm l)
    {s t : Snapshot} (hs : s ∈ l₁) (ht : t ∈ l₂) : s.id ≠ t.id := by
  have hnodup := (hperm.map (·.id)).nodup_iff.2 h.nodup
  rw [List.map_append] at hnodup
  intro heq
  exact List.disjoint_of_nodup_append hnodup (List.mem_map_of_mem hs) (heq ▸ List.mem_map_of_mem ht)

theorem ascending_place {s : Snapshot} {l : List Snapshot} (h : Ascending l)
    (hnew : ∀ t ∈ l, t.id ≠ s.id) : Ascending (place s l) := by
  induction l with
  | nil => exact List.pairwise_singleton _ _
  | cons t rest ih =>
    obtain ⟨hfirst, hrest⟩ := List.pairwise_cons.1 h
    obtain ⟨hne, hnew⟩ := List.forall_mem_cons.1 hnew
    rw [place]
    split
    · next hlt =>
      refine List.pairwise_cons.2 ⟨?_, h⟩
      intro u hu
      rcases List.mem_cons.1 hu with rfl | hu
      · exact hlt
      · exact hlt.trans (hfirst u hu)
    · next hle =>
      refine List.pairwise_cons.2 ⟨?_, ih hrest hnew⟩
      intro u hu
      rcases List.mem_cons.1 ((perm_place s rest).mem_iff.1 hu) with rfl | hu
      · omega
      · exact hfirst u hu

/-- Snapshots with different ids can be registered one after the other. -/
theorem insertAll?_eq_ok (r : Retention) (l : List Snapshot) (h : Ascending r.live)
    (hnodup : ((r.live ++ l).map (·.id)).Nodup) :
    ∃ r', r.insertAll? l = .ok r' ∧ r'.live.Perm (r.live ++ l) ∧ Ascending r'.live := by
  induction l generalizing r with
  | nil => exact ⟨r, rfl, by simp, h⟩
  | cons s l ih =>
    have hnew : ∀ t ∈ r.live, t.id ≠ s.id := by
      rw [List.map_append, List.nodup_append] at hnodup
      exact fun t ht => hnodup.2.2 t.id (List.mem_map_of_mem ht) s.id List.mem_cons_self
    have hcontains : r.contains s.id = false := by
      rw [Bool.eq_false_iff]
      intro hin
      obtain ⟨t, ht, heq⟩ := contains_iff.1 hin
      exact hnew t ht heq
    have hperm : (place s r.live ++ l).Perm (r.live ++ s :: l) :=
      ((perm_place s r.live).append_right l).trans List.perm_middle.symm
    obtain ⟨r', hr', hperm', hasc⟩ := ih { r with live := place s r.live }
      (ascending_place h hnew) ((hperm.map _).nodup_iff.2 hnodup)
    refine ⟨r', ?_, hperm'.trans hperm, hasc⟩
    simp only [insertAll?, insert?, hcontains, Bool.false_eq_true, if_false]
    exact hr'

/-- Registering snapshots leaves none of them out. -/
theorem perm_insertAll? {r r' : Retention} {l : List Snapshot} (h : r.insertAll? l = .ok r') :
    r'.live.Perm (r.live ++ l) := by
  induction l generalizing r with
  | nil =>
    cases h
    rw [List.append_nil]
  | cons s l ih =>
    rw [insertAll?, insert?] at h
    split at h
    · cases h
    · exact (ih (r := { r with live := place s r.live }) h).trans
        (((perm_place s r.live).append_right l).trans List.perm_middle.symm)

/-- Nothing is given up while snapshots are registered. -/
theorem backlog_insertAll? {r r' : Retention} {l : List Snapshot} (h : r.insertAll? l = .ok r') :
    r'.backlog = r.backlog := by
  induction l generalizing r with
  | nil =>
    cases h
    rfl
  | cons s l ih =>
    rw [insertAll?, insert?] at h
    split at h
    · cases h
    · exact ih (r := { r with live := place s r.live }) h

theorem le_of_latest? {r : Retention} (h : Ascending r.live) {s latest : Snapshot}
    (hlatest : r.latest? = some latest) (hs : s ∈ r.live) : s.id ≤ latest.id := by
  obtain ⟨front, hfront⟩ := List.getLast?_eq_some_iff.1 hlatest
  rw [hfront] at h hs
  rcases List.mem_append.1 hs with hs | hs
  · exact ((List.pairwise_append.1 h).2.2 s hs latest (List.mem_singleton.2 rfl)).le
  · rw [List.mem_singleton.1 hs]

/-- The newest snapshot is the one with the greatest id. -/
theorem latest?_eq_some_iff {r : Retention} (h : Ascending r.live) {newest : Snapshot} :
    r.latest? = some newest ↔ newest ∈ r.live ∧ ∀ s ∈ r.live, s.id ≤ newest.id := by
  constructor
  · intro hlatest
    exact ⟨mem_of_latest? hlatest, fun s hs => le_of_latest? h hlatest hs⟩
  · rintro ⟨hmem, hgreatest⟩
    cases hlast : r.latest? with
    | none =>
      rw [latest?, List.getLast?_eq_none_iff] at hlast
      rw [hlast] at hmem
      cases hmem
    | some last =>
      have hin := mem_of_latest? hlast
      have hid := (le_of_latest? h hlast hmem).antisymm (hgreatest last hin)
      rw [h.eq_of_id hmem hin hid]

/-- What is kept stays in its order. -/
theorem sublist_divide (newest : Option Nat) (excess : Nat) (l : List Snapshot) :
    (divide newest excess l).2.Sublist l := by
  induction l generalizing excess with
  | nil => cases excess <;> exact .slnil
  | cons s rest ih =>
    cases excess with
    | zero => exact .refl _
    | succ excess =>
      simp only [divide]
      split
      · exact (ih excess).cons s
      · exact (ih (excess + 1)).cons_cons s

theorem ascending_subsume {r : Retention} (h : Ascending r.live) : Ascending r.subsume.2 :=
  h.sublist (sublist_divide _ _ _)

theorem ascending_remove {r : Retention} (h : Ascending r.live) (id : Nat) :
    Ascending (r.remove id).live :=
  h.sublist List.eraseP_sublist

theorem ascending_relabel {r : Retention} (h : Ascending r.live) (id : Nat)
    (policy : SnapshotPolicy) : Ascending (r.relabel id policy).live := by
  refine List.pairwise_map.2 (h.imp ?_)
  intro s t hlt
  split <;> split <;> exact hlt

/-- Unregistering takes the snapshot of that id and no other. -/
theorem live_remove {r : Retention} (h : Ascending r.live) (id : Nat) :
    (r.remove id).live = r.live.filter fun s => s.id ≠ id := by
  obtain ⟨cap, live, backlog⟩ := r
  simp only [remove]
  induction live with
  | nil => rfl
  | cons s rest ih =>
    obtain ⟨hfirst, hrest⟩ := List.pairwise_cons.1 h
    by_cases hid : s.id = id
    · -- All the others have greater ids.
      have hothers : rest.filter (fun t => t.id ≠ id) = rest := by
        refine List.filter_eq_self.2 fun t ht => ?_
        have hlt := hfirst t ht
        exact decide_eq_true (by omega)
      rw [List.eraseP_cons_of_pos (by simpa using hid),
        List.filter_cons_of_neg (by simpa using hid), hothers]
    · rw [List.eraseP_cons_of_neg (by simpa using hid),
        List.filter_cons_of_pos (by simpa using hid), ih hrest]

/-! ### Holdings -/

/-- The id and the handles of a snapshot. -/
def holding (s : Snapshot) : Nat × Handles := (s.id, s.handles)

/-- The ids and handles of the snapshots that are live or wait in the backlog. -/
def holdings (r : Retention) : List (Nat × Handles) := (r.live ++ r.backlog).map holding

theorem mem_holdings {r : Retention} {id : Nat} {handles : Handles} :
    (id, handles) ∈ r.holdings ↔
      ∃ s ∈ r.live ++ r.backlog, s.id = id ∧ s.handles = handles := by
  simp only [holdings, holding, List.mem_map, Prod.mk.injEq]

theorem holdings_relabel (r : Retention) (id : Nat) (policy : SnapshotPolicy) :
    (r.relabel id policy).holdings = r.holdings := by
  simp only [holdings, relabel, List.map_append, List.map_map]
  congr 1
  refine List.map_congr_left ?_
  intro s _
  by_cases hid : s.id = id <;> simp [hid, holding]

theorem holdings_perm_remove {r : Retention} {id : Nat} {s : Snapshot} (h : r.find? id = some s) :
    r.holdings.Perm ((r.remove id).holdings ++ [(id, s.handles)]) := by
  obtain ⟨-, rfl⟩ := mem_of_find? h
  have hperm := ((perm_remove h).append_right r.backlog).map holding
  exact hperm.trans (List.perm_append_singleton _ _).symm

end Retention
end Checkpointing
