/-!
# Ordered tables

A table maps keys to values and keeps its entries in ascending key order, so two tables with the
same bindings are equal as values.

## Main definitions

* `Table.insert` binds a key, replacing an earlier binding; `Table.erase` unbinds it.
* `Table.find?` is the view in which the laws of both are stated.
-/

namespace Checkpointing

/-- Finite maps whose entries are listed in ascending key order. -/
structure Table (κ ν : Type) [Ord κ] where
  entries : List (κ × ν)
  ascending : entries.Pairwise (fun a b => compare a.1 b.1 = .lt)

namespace Table

variable {κ ν : Type} [Ord κ]

/-- Puts a binding at its place among ascending entries. -/
def insertEntry (k : κ) (v : ν) : List (κ × ν) → List (κ × ν)
  | [] => [(k, v)]
  | (a, b) :: rest =>
    match compare k a with
    | .lt => (k, v) :: (a, b) :: rest
    | .eq => (k, v) :: rest
    | .gt => (a, b) :: insertEntry k v rest

/-- Every entry after an insertion is the new one or an old one. -/
theorem mem_insertEntry {k : κ} {v : ν} {e : κ × ν} {l : List (κ × ν)}
    (h : e ∈ insertEntry k v l) : e = (k, v) ∨ e ∈ l := by
  induction l with
  | nil => simpa [insertEntry] using h
  | cons head rest ih =>
    obtain ⟨a, b⟩ := head
    simp only [insertEntry] at h
    split at h <;> grind

/-- The table without bindings. -/
def empty : Table κ ν := ⟨[], .nil⟩

instance : EmptyCollection (Table κ ν) := ⟨empty⟩

instance : Inhabited (Table κ ν) := ⟨empty⟩

/-- Leaves `k` without a binding. -/
def erase [BEq κ] (t : Table κ ν) (k : κ) : Table κ ν :=
  ⟨t.entries.filter fun e => !(e.1 == k), t.ascending.filter _⟩

section Laws

variable [Std.TransOrd κ]

/-- Insertion keeps the entries ascending. -/
theorem pairwise_insertEntry (k : κ) (v : ν) {l : List (κ × ν)}
    (h : l.Pairwise (fun a b => compare a.1 b.1 = .lt)) :
    (insertEntry k v l).Pairwise (fun a b => compare a.1 b.1 = .lt) := by
  induction l with
  | nil => simp [insertEntry]
  | cons head rest ih =>
    obtain ⟨a, b⟩ := head
    rw [List.pairwise_cons] at h
    simp only [insertEntry]
    split
    · next hlt =>
      refine List.pairwise_cons.2 ⟨fun e he => ?_, List.pairwise_cons.2 h⟩
      rcases List.mem_cons.1 he with rfl | he
      · exact hlt
      · exact Std.TransCmp.lt_trans hlt (h.1 e he)
    · next heq =>
      exact List.pairwise_cons.2 ⟨fun e he => Std.TransCmp.lt_of_eq_of_lt heq (h.1 e he), h.2⟩
    · next hgt =>
      refine List.pairwise_cons.2 ⟨fun e he => ?_, ih h.2⟩
      rcases mem_insertEntry he with rfl | he
      · exact Std.OrientedCmp.lt_of_gt hgt
      · exact h.1 e he

/-- Binds `k` to `v`; an earlier binding of `k` is replaced. -/
def insert (t : Table κ ν) (k : κ) (v : ν) : Table κ ν :=
  ⟨insertEntry k v t.entries, pairwise_insertEntry k v t.ascending⟩

/-- The table of a list of bindings; a later binding of a key replaces an earlier one. -/
def ofList (l : List (κ × ν)) : Table κ ν :=
  l.foldl (fun t e => t.insert e.1 e.2) empty

end Laws

/-- How many keys are bound. -/
def size (t : Table κ ν) : Nat := t.entries.length

/-- The keys in ascending order. -/
def keys (t : Table κ ν) : List κ := t.entries.map (·.1)

/-- The values in ascending order of their keys. -/
def values (t : Table κ ν) : List ν := t.entries.map (·.2)

/-- The value bound to `k`. -/
def find? [BEq κ] (t : Table κ ν) (k : κ) : Option ν := t.entries.lookup k

/-- Whether `k` is bound. -/
def contains [BEq κ] (t : Table κ ν) (k : κ) : Bool := (t.find? k).isSome

@[ext]
theorem ext {s t : Table κ ν} (h : s.entries = t.entries) : s = t := by
  cases s; cases t; cases h; rfl

instance [DecidableEq κ] [DecidableEq ν] : DecidableEq (Table κ ν) := fun s t =>
  decidable_of_iff (s.entries = t.entries) ⟨ext, fun h => h ▸ rfl⟩

instance [Repr κ] [Repr ν] : Repr (Table κ ν) := ⟨fun t => reprPrec t.entries⟩

@[simp]
theorem find?_empty [BEq κ] (k : κ) : (empty : Table κ ν).find? k = none := rfl

section View

variable [DecidableEq κ] [Std.TransOrd κ] [Std.LawfulEqOrd κ]

theorem find?_insert_self (t : Table κ ν) (k : κ) (v : ν) : (t.insert k v).find? k = some v := by
  obtain ⟨l, h⟩ := t
  simp only [insert, find?]
  clear h
  induction l with
  | nil => simp [insertEntry]
  | cons head rest ih =>
    obtain ⟨a, b⟩ := head
    simp only [insertEntry]
    split
    · simp
    · simp
    · next hgt =>
      have hne : k ≠ a := fun h => by simp [h, Std.ReflCmp.compare_self] at hgt
      simp [List.lookup_cons, beq_eq_false_iff_ne.2 hne, ih]

theorem find?_insert_of_ne (t : Table κ ν) {k j : κ} (v : ν) (hne : j ≠ k) :
    (t.insert k v).find? j = t.find? j := by
  obtain ⟨l, h⟩ := t
  simp only [insert, find?]
  clear h
  induction l with
  | nil => simp [insertEntry, List.lookup_cons, beq_eq_false_iff_ne.2 hne]
  | cons head rest ih =>
    obtain ⟨a, b⟩ := head
    simp only [insertEntry]
    split
    · simp [List.lookup_cons, beq_eq_false_iff_ne.2 hne]
    · next heq =>
      have hka : k = a := Std.LawfulEqOrd.eq_of_compare heq
      subst hka
      simp [List.lookup_cons, beq_eq_false_iff_ne.2 hne]
    · simp only [List.lookup_cons]
      split <;> simp_all

omit [Std.TransOrd κ] [Std.LawfulEqOrd κ] in
theorem find?_erase_self (t : Table κ ν) (k : κ) : (t.erase k).find? k = none := by
  obtain ⟨l, h⟩ := t
  simp only [erase, find?, List.lookup_eq_none_iff]
  intro p hp
  simp only [List.mem_filter, Bool.not_eq_true', beq_eq_false_iff_ne] at hp
  simpa using fun he => hp.2 he.symm

omit [Std.TransOrd κ] [Std.LawfulEqOrd κ] in
theorem find?_erase_of_ne (t : Table κ ν) {k j : κ} (hne : j ≠ k) :
    (t.erase k).find? j = t.find? j := by
  obtain ⟨l, h⟩ := t
  simp only [erase, find?]
  clear h
  induction l with
  | nil => rfl
  | cons head rest ih =>
    obtain ⟨a, b⟩ := head
    by_cases hak : a = k
    · subst hak
      simp [List.lookup_cons, beq_eq_false_iff_ne.2 hne, ih]
    · simp only [List.filter, beq_eq_false_iff_ne.2 hak, Bool.not_false, List.lookup_cons]
      split <;> simp_all

end View

end Table

end Checkpointing
