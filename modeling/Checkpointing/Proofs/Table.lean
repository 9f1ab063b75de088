import Mathlib.Data.List.Nodup
import Mathlib.Tactic
import Checkpointing.Task

/-!
# Laws of tables

What the operations on tables do to the view `find?`, to the keys and to the size.

* `mem_entries_iff`, `mem_keys_iff`, `mem_values_iff` read the lists of a table through `find?`;
  `eq_of_find?_eq`: there is nothing else to a table;
* `find?_insert`, `find?_erase`, `find?_eraseAll` are the equations of the view, `contains_insert`,
  `contains_erase`, `contains_eraseAll` those of the keys;
* `size_insert_of_find?_eq_none` counts the bindings;
* `ofList_entries` says that a table is the table of its entries, `mem_of_mem_entries_ofList` and
  `size_ofList_le` what the table of any list has of it;
* `TaskRun.mem_sortDistinct`, `TaskRun.sortDistinct_of_pairwise` say what sorting does to runs.
-/

namespace Checkpointing
namespace Table

variable {κ ν : Type} [Ord κ] [DecidableEq κ] [Std.TransOrd κ] [Std.LawfulEqOrd κ]

/-! ### Entries, keys and values -/

omit [DecidableEq κ] [Std.LawfulEqOrd κ] in
/-- Keys that stand in ascending order are distinct. -/
theorem nodup_keys (t : Table κ ν) : t.keys.Nodup := by
  refine List.pairwise_map.2 (t.ascending.imp fun {a b} hlt heq => ?_)
  simp [heq, Std.ReflCmp.compare_self] at hlt

theorem mem_entries_iff (t : Table κ ν) {k : κ} {v : ν} :
    (k, v) ∈ t.entries ↔ t.find? k = some v := by
  obtain ⟨l, hl⟩ := t
  show (k, v) ∈ l ↔ l.lookup k = some v
  induction l with
  | nil => simp
  | cons head rest ih =>
    obtain ⟨a, b⟩ := head
    rw [List.pairwise_cons] at hl
    rw [List.mem_cons, ih hl.2, List.lookup_cons]
    by_cases hka : k = a
    · subst hka
      have hnone : rest.lookup k = none := by
        refine List.lookup_eq_none_iff.2 fun p hp => ?_
        have hne : k ≠ p.1 := fun heq => by
          have hlt := hl.1 p hp
          simp [heq, Std.ReflCmp.compare_self] at hlt
        simpa using hne
      simp [hnone, eq_comm]
    · simp [beq_eq_false_iff_ne.2 hka, hka]

omit [Std.TransOrd κ] [Std.LawfulEqOrd κ] in
theorem contains_iff {t : Table κ ν} {k : κ} :
    t.contains k = true ↔ ∃ v, t.find? k = some v := Option.isSome_iff_exists

omit [Std.TransOrd κ] [Std.LawfulEqOrd κ] in
theorem contains_eq_false_iff {t : Table κ ν} {k : κ} :
    t.contains k = false ↔ t.find? k = none := by
  simp [contains]

omit [Std.TransOrd κ] [Std.LawfulEqOrd κ] in
/-- A key that is bound is none of those that are not. -/
theorem ne_of_contains_eq_false {t : Table κ ν} {j k : κ} {v : ν} (h : t.contains k = false)
    (hfind : t.find? j = some v) : j ≠ k := by
  rintro rfl
  rw [contains_eq_false_iff.1 h] at hfind
  cases hfind

theorem mem_keys_iff {t : Table κ ν} {k : κ} : k ∈ t.keys ↔ t.contains k = true := by
  simp only [keys, List.mem_map, contains_iff, ← mem_entries_iff]
  constructor
  · rintro ⟨⟨a, v⟩, hmem, rfl⟩
    exact ⟨v, hmem⟩
  · rintro ⟨v, hmem⟩
    exact ⟨(k, v), hmem, rfl⟩

theorem mem_values_iff {t : Table κ ν} {v : ν} : v ∈ t.values ↔ ∃ k, t.find? k = some v := by
  simp only [values, List.mem_map, ← mem_entries_iff]
  constructor
  · rintro ⟨⟨k, w⟩, hmem, rfl⟩
    exact ⟨k, hmem⟩
  · rintro ⟨k, hmem⟩
    exact ⟨(k, v), hmem, rfl⟩

/-- The keys of the entries that meet a condition. -/
theorem mem_keys_filter_iff {t : Table κ ν} {p : κ × ν → Bool} {k : κ} :
    k ∈ (t.entries.filter p).map (·.1) ↔ ∃ v, t.find? k = some v ∧ p (k, v) = true := by
  simp only [List.mem_map, List.mem_filter, ← mem_entries_iff]
  constructor
  · rintro ⟨⟨a, v⟩, hmem, rfl⟩
    exact ⟨v, hmem⟩
  · rintro ⟨v, hmem⟩
    exact ⟨(k, v), hmem, rfl⟩

omit [DecidableEq κ] [Std.TransOrd κ] [Std.LawfulEqOrd κ] in
theorem length_keys (t : Table κ ν) : t.keys.length = t.size := List.length_map _

/-! ### The view of insertion and erasure -/

omit [Std.TransOrd κ] [Std.LawfulEqOrd κ] in
@[simp]
theorem find?_emptyCollection (k : κ) : (∅ : Table κ ν).find? k = none := rfl

/-- Tables in which the same is found are the same. -/
theorem eq_of_find?_eq {s t : Table κ ν} (h : ∀ k, s.find? k = t.find? k) : s = t := by
  have hmem : ∀ e, e ∈ s.entries ↔ e ∈ t.entries := fun ⟨k, v⟩ => by
    rw [mem_entries_iff, mem_entries_iff, h]
  refine ext (List.Perm.eq_of_pairwise (fun a b _ _ hlt hgt => ?_) s.ascending t.ascending ?_)
  · rw [Std.OrientedCmp.gt_of_lt hgt] at hlt
    cases hlt
  · exact (List.perm_ext_iff_of_nodup (.of_map _ s.nodup_keys) (.of_map _ t.nodup_keys)).2 hmem

/-- A table in which nothing is found is the empty one. -/
theorem eq_empty_of_find?_eq_none {t : Table κ ν} (h : ∀ k, t.find? k = none) : t = ∅ :=
  eq_of_find?_eq h

theorem find?_insert (t : Table κ ν) (k j : κ) (v : ν) :
    (t.insert k v).find? j = if j = k then some v else t.find? j := by
  split
  · next h => rw [h, find?_insert_self]
  · next h => rw [find?_insert_of_ne t v h]

omit [Std.TransOrd κ] [Std.LawfulEqOrd κ] in
theorem find?_erase (t : Table κ ν) (k j : κ) :
    (t.erase k).find? j = if j = k then none else t.find? j := by
  split
  · next h => rw [h, find?_erase_self]
  · next h => rw [find?_erase_of_ne t h]

omit [Std.TransOrd κ] [Std.LawfulEqOrd κ] in
/-- What is still bound after a key was erased was bound before. -/
theorem find?_of_find?_erase {t : Table κ ν} {k j : κ} {v : ν} (h : (t.erase k).find? j = some v) :
    t.find? j = some v := by
  rw [find?_erase] at h
  split at h
  · cases h
  · exact h

/-- Erasing a key without a binding changes nothing. -/
theorem erase_of_find?_eq_none {t : Table κ ν} {k : κ} (h : t.find? k = none) :
    t.erase k = t := by
  refine ext (List.filter_eq_self.2 fun e he => ?_)
  have hne : e.1 ≠ k := by
    rintro rfl
    rw [(mem_entries_iff t).1 he] at h
    cases h
  simp [hne]

/-- Leaves all of the given keys without a binding. -/
def eraseAll (t : Table κ ν) (ks : List κ) : Table κ ν := ks.foldl erase t

omit [Std.TransOrd κ] [Std.LawfulEqOrd κ] in
@[simp]
theorem eraseAll_nil (t : Table κ ν) : t.eraseAll [] = t := rfl

omit [Std.TransOrd κ] [Std.LawfulEqOrd κ] in
@[simp]
theorem eraseAll_cons (t : Table κ ν) (k : κ) (ks : List κ) :
    t.eraseAll (k :: ks) = (t.erase k).eraseAll ks := rfl

omit [Std.TransOrd κ] [Std.LawfulEqOrd κ] in
theorem find?_eraseAll (t : Table κ ν) (ks : List κ) (j : κ) :
    (t.eraseAll ks).find? j = if j ∈ ks then none else t.find? j := by
  induction ks generalizing t with
  | nil => simp
  | cons k ks ih =>
    rw [eraseAll_cons, ih, find?_erase]
    by_cases hjk : j = k <;> simp [hjk]

theorem contains_insert {t : Table κ ν} {k j : κ} {v : ν} :
    (t.insert k v).contains j = true ↔ j = k ∨ t.contains j = true := by
  by_cases h : j = k <;> simp [contains, find?_insert, h]

omit [Std.TransOrd κ] [Std.LawfulEqOrd κ] in
theorem contains_erase {t : Table κ ν} {k j : κ} :
    (t.erase k).contains j = true ↔ t.contains j = true ∧ j ≠ k := by
  by_cases h : j = k <;> simp [contains, find?_erase, h]

omit [Std.TransOrd κ] [Std.LawfulEqOrd κ] in
theorem contains_eraseAll {t : Table κ ν} {ks : List κ} {j : κ} :
    (t.eraseAll ks).contains j = true ↔ t.contains j = true ∧ j ∉ ks := by
  by_cases h : j ∈ ks <;> simp [contains, find?_eraseAll, h]

/-! ### Sizes -/

theorem size_insert_of_find?_eq_none {t : Table κ ν} {k : κ} (v : ν) (h : t.find? k = none) :
    (t.insert k v).size = t.size + 1 := by
  obtain ⟨l, hl⟩ := t
  simp only [find?] at h
  simp only [size, insert]
  induction l with
  | nil => rfl
  | cons head rest ih =>
    obtain ⟨a, b⟩ := head
    rw [List.pairwise_cons] at hl
    rw [List.lookup_cons] at h
    simp only [insertEntry]
    split at h
    · cases h
    · next hne =>
      split
      · rfl
      · next heq => simp [Std.LawfulEqOrd.eq_of_compare heq] at hne
      · simpa using ih hl.2 h

/-! ### Tables of lists -/

omit [DecidableEq κ] [Std.LawfulEqOrd κ] in
/-- Insertion of a key above all others puts the binding at the end. -/
theorem insertEntry_of_forall_lt {k : κ} {v : ν} {l : List (κ × ν)}
    (h : ∀ e ∈ l, compare e.1 k = .lt) : insertEntry k v l = l ++ [(k, v)] := by
  induction l with
  | nil => rfl
  | cons head rest ih =>
    obtain ⟨a, b⟩ := head
    have hgt : compare k a = .gt := Std.OrientedCmp.gt_of_lt (h (a, b) List.mem_cons_self)
    simp only [insertEntry, hgt, List.cons_append]
    rw [ih fun e he => h e (List.mem_cons_of_mem _ he)]

omit [DecidableEq κ] [Std.LawfulEqOrd κ] in
theorem entries_foldl_insert (l : List (κ × ν)) (t : Table κ ν)
    (h : (t.entries ++ l).Pairwise fun a b => compare a.1 b.1 = .lt) :
    (l.foldl (fun t e => t.insert e.1 e.2) t).entries = t.entries ++ l := by
  induction l generalizing t with
  | nil => simp
  | cons e l ih =>
    have hins : (t.insert e.1 e.2).entries = t.entries ++ [e] :=
      insertEntry_of_forall_lt fun a ha => (List.pairwise_append.1 h).2.2 a ha e List.mem_cons_self
    rw [List.foldl_cons, ih _ (by rw [hins]; simpa using h), hins]
    simp

omit [DecidableEq κ] [Std.LawfulEqOrd κ] in
/-- A table is the table of its entries. -/
@[simp]
theorem ofList_entries (t : Table κ ν) : ofList t.entries = t :=
  ext (by simpa [ofList, empty] using entries_foldl_insert t.entries empty t.ascending)

theorem contains_foldl_insert (l : List (κ × ν)) (t : Table κ ν) (k : κ) :
    (l.foldl (fun t e => t.insert e.1 e.2) t).contains k = true ↔
      t.contains k = true ∨ k ∈ l.map (·.1) := by
  induction l generalizing t with
  | nil => simp
  | cons e l ih =>
    rw [List.foldl_cons, ih, contains_insert, List.map_cons, List.mem_cons, ← or_assoc,
      or_comm (a := k = e.1)]

omit [DecidableEq κ] [Std.TransOrd κ] [Std.LawfulEqOrd κ] in
theorem length_insertEntry_le (k : κ) (v : ν) (l : List (κ × ν)) :
    (insertEntry k v l).length ≤ l.length + 1 := by
  induction l with
  | nil => exact le_rfl
  | cons head rest ih =>
    obtain ⟨a, b⟩ := head
    simp only [insertEntry]
    split <;> simp only [List.length_cons] <;> omega

omit [DecidableEq κ] [Std.LawfulEqOrd κ] in
theorem size_foldl_insert_le (l : List (κ × ν)) (t : Table κ ν) :
    (l.foldl (fun t e => t.insert e.1 e.2) t).size ≤ t.size + l.length := by
  induction l generalizing t with
  | nil => exact le_rfl
  | cons e l ih =>
    have hinsert : (t.insert e.1 e.2).size ≤ t.size + 1 := length_insertEntry_le ..
    have hrest := ih (t.insert e.1 e.2)
    rw [List.foldl_cons, List.length_cons]
    omega

omit [DecidableEq κ] [Std.LawfulEqOrd κ] in
/-- The table of a list has at most as many bindings as the list. -/
theorem size_ofList_le (l : List (κ × ν)) : (ofList l).size ≤ l.length := by
  simpa [ofList, empty, size] using size_foldl_insert_le l empty

omit [DecidableEq κ] [Std.LawfulEqOrd κ] in
theorem mem_of_mem_foldl_insert {l : List (κ × ν)} {t : Table κ ν} {e : κ × ν}
    (h : e ∈ (l.foldl (fun t e => t.insert e.1 e.2) t).entries) : e ∈ t.entries ∨ e ∈ l := by
  induction l generalizing t with
  | nil => exact Or.inl h
  | cons first l ih =>
    rcases ih h with hmem | hmem
    · rcases mem_insertEntry hmem with rfl | hold
      · exact Or.inr List.mem_cons_self
      · exact Or.inl hold
    · exact Or.inr (List.mem_cons_of_mem _ hmem)

omit [DecidableEq κ] [Std.LawfulEqOrd κ] in
/-- The bindings of the table of a list stand in the list. -/
theorem mem_of_mem_entries_ofList {l : List (κ × ν)} {e : κ × ν} (h : e ∈ (ofList l).entries) :
    e ∈ l :=
  (mem_of_mem_foldl_insert h).resolve_left List.not_mem_nil

/-- The table of a list binds the keys that stand in the list. -/
theorem contains_ofList (l : List (κ × ν)) (k : κ) :
    (ofList l).contains k = true ↔ k ∈ l.map (·.1) := by
  rw [ofList, contains_foldl_insert]
  simp [contains]

end Table

namespace TaskRun

/-- Sorting keeps the runs that there are. -/
theorem mem_sortDistinct {r : TaskRun} {runs : List TaskRun} :
    r ∈ sortDistinct runs ↔ r ∈ runs := by
  rw [sortDistinct, Table.mem_keys_iff, Table.contains_ofList]
  simp

theorem nodup_sortDistinct (runs : List TaskRun) : (sortDistinct runs).Nodup := Table.nodup_keys _

/-- Runs that ascend are left as they are when they are sorted. -/
theorem sortDistinct_of_pairwise {runs : List TaskRun}
    (h : runs.Pairwise fun r s => compare r s = .lt) : sortDistinct runs = runs := by
  have hentries := Table.entries_foldl_insert (runs.map fun r => (r, ())) Table.empty
    (List.pairwise_map.2 h)
  rw [sortDistinct, Table.keys, Table.ofList, hentries]
  simp [Table.empty, Function.comp_def]

/-- Runs are ordered by their subtasks first. -/
theorem lt_of_slot_lt {r s : TaskRun} (h : compare r.slot s.slot = .lt) : compare r s = .lt := by
  have h : (compare r.vertex s.vertex).then (compare r.subtask s.subtask) = .lt := h
  show (compare r.vertex s.vertex).then
    ((compare r.subtask s.subtask).then (compare r.attempt s.attempt)) = .lt
  rw [← Ordering.then_assoc, h]
  rfl

end TaskRun

end Checkpointing
