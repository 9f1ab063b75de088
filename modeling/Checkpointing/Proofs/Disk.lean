import Mathlib.Data.List.Nodup
import Mathlib.Tactic
import Checkpointing.Disk.Route

/-!
# Laws of disks

What each operation of a disk does to the view `node?`, and which part of the disk it leaves alone.

* `node?_put_self`, `node?_put_of_ne`, `node?_erase_self`, `node?_erase_of_ne`, `node?_removeTree`
  are the equations of the view; `node?_createFrom`: creating directories only fills gaps;
* `writeFile_eq_ok`, `rename_eq_ok`, `removeFile_eq_ok`, `mem_names`: what it means that an
  operation succeeds;
* `Within` bounds what may have changed: only certain entries of one directory, and no directory
  elsewhere is gone.  Every operation below such an entry stays within it.
-/

namespace Checkpointing
namespace Disk

/-- No name is listed twice in a directory. -/
def Distinct (d : Disk) (p : Path) : Prop := (d.nodes.filterMap fun e => entryName? p e.1).Nodup

/-! ### The view -/

variable {d d' d'' : Disk} {p q : Path} {n : Node}

theorem lookup_filter_fst (f : Path → Bool) (q : Path) (l : List (Path × Node)) :
    (l.filter fun e => f e.1).lookup q = if f q = true then l.lookup q else none := by
  induction l with
  | nil => simp
  | cons e l ih =>
    obtain ⟨k, v⟩ := e
    by_cases hqk : q = k
    · subst hqk
      by_cases hf : f q = true <;> simp [hf, ih]
    · have hne : (q == k) = false := beq_eq_false_iff_ne.2 hqk
      by_cases hf : f k = true <;> simp [hf, ih, List.lookup_cons, hne]

theorem node?_of_isAbove (h : p.isAbove = true) : d.node? p = some .directory := if_pos h

theorem node?_put_of_ne (n : Node) (h : q ≠ p) : (d.put p n).node? q = d.node? q := by
  have hne : (q == p) = false := beq_eq_false_iff_ne.2 h
  have hlookup := lookup_filter_fst (fun k => k ≠ p) q d.nodes
  simp only [node?, put, List.lookup_cons, hne]
  rw [hlookup]
  simp [h]

theorem node?_put_self (n : Node) (h : p.isAbove = false) : (d.put p n).node? p = some n := by
  simp [node?, put, h]

theorem node?_erase_of_ne (h : q ≠ p) : (d.erase p).node? q = d.node? q := by
  have hlookup := lookup_filter_fst (fun k => k ≠ p) q d.nodes
  simp only [node?, erase]
  rw [hlookup]
  simp [h]

theorem node?_erase_self (h : p.isAbove = false) : (d.erase p).node? p = none := by
  have hlookup := lookup_filter_fst (fun k => k ≠ p) p d.nodes
  simp only [node?, erase, h]
  rw [hlookup]
  simp

/-- A file does not lie above the working directory. -/
theorem isAbove_of_node? {content : Bytes} (h : d.node? p = some (.file content)) :
    p.isAbove = false := by
  by_contra habove
  rw [node?_of_isAbove (by simpa using habove)] at h
  cases h

theorem isAbove_of_node?_none (h : d.node? p = none) : p.isAbove = false := by
  by_contra habove
  rw [node?_of_isAbove (by simpa using habove)] at h
  cases h

theorem isThere_iff : d.isThere p = true ↔ ∃ n, d.node? p = some n := Option.isSome_iff_exists

theorem isAbove_of_append {rest : List String} (h : Path.isAbove (p ++ rest) = true) :
    p.isAbove = true := by
  simp only [Path.isAbove, List.all_append, Bool.and_eq_true] at h ⊢
  exact h.1

/-! ### Creating directories -/

/-- Creating directories on the way only puts directories where there was nothing. -/
theorem node?_createFrom {done rest : List String} (h : d.createFrom done rest = .ok d')
    (q : Path) :
    d'.node? q = d.node? q ∨ (d.node? q = none ∧ d'.node? q = some .directory ∧
      ∃ k, k ≠ [] ∧ k <+: rest ∧ q = done ++ k) := by
  induction rest generalizing d done with
  | nil =>
    cases h
    exact Or.inl rfl
  | cons name rest ih =>
    rw [createFrom] at h
    have hstep : ∀ k : List String, k <+: rest → name :: k <+: name :: rest := by
      intro k hk
      exact (List.prefix_cons_inj name).2 hk
    split at h
    · next hnone =>
      have habove := isAbove_of_node?_none hnone
      -- The path in question is either the one that was just made a directory or not.
      by_cases hq : q = done ++ [name]
      · have hself := node?_put_self (d := d) .directory habove
        rcases ih h with he | ⟨hgap, -⟩
        · refine Or.inr ⟨by rw [hq]; exact hnone, ?_, [name], by simp, hstep [] (by simp), hq⟩
          rw [he, hq]
          exact hself
        · rw [hq, hself] at hgap
          cases hgap
      · have hother := node?_put_of_ne (d := d) .directory hq
        rcases ih h with he | ⟨hgap, hdir, k, hk, hwithin, rfl⟩
        · exact Or.inl (he.trans hother)
        · exact Or.inr ⟨hother.symm.trans hgap, hdir, name :: k, by simp, hstep k hwithin,
            List.append_assoc ..⟩
    · rcases ih h with he | ⟨hgap, hdir, k, hk, hwithin, rfl⟩
      · exact Or.inl he
      · exact Or.inr ⟨hgap, hdir, name :: k, by simp, hstep k hwithin, List.append_assoc ..⟩
    · cases h

/-- Afterwards the path that was asked for is a directory. -/
theorem node?_createFrom_self {done rest : List String} (h : d.createFrom done rest = .ok d')
    (hdone : d.node? done = some .directory) : d'.node? (done ++ rest) = some .directory := by
  induction rest generalizing d done with
  | nil =>
    cases h
    rw [List.append_nil]
    exact hdone
  | cons name rest ih =>
    rw [createFrom] at h
    rw [List.append_cons]
    split at h
    · next hnone => exact ih h (node?_put_self _ (isAbove_of_node?_none hnone))
    · next hdir => exact ih h hdir
    · cases h

theorem node?_createDirectories_self (h : d.createDirectories p = .ok d') :
    d'.node? p = some .directory :=
  node?_createFrom_self h rfl

theorem node?_createDirectoriesAt_self {l : Location} (h : d.createDirectoriesAt l = .ok d') :
    d'.node? l.path = some .directory := by
  unfold createDirectoriesAt at h
  split at h
  · exact node?_createDirectories_self h
  · split at h
    · cases h
    · next detours _ _ =>
      cases hdetours : detours.foldlM createDirectories d with
      | error e =>
        rw [hdetours] at h
        cases h
      | ok d₁ =>
        rw [hdetours] at h
        exact node?_createDirectories_self h

/-! ### What success means -/

theorem readFile_eq_ok {content : Bytes} :
    d.readFile p = .ok content ↔ d.node? p = some (.file content) := by
  unfold readFile
  split <;> simp_all

theorem writeFile_eq_ok {content : Bytes} (h : d.writeFile p content = .ok d') :
    d' = d.put p (.file content) ∧ p.isAbove = false := by
  unfold writeFile at h
  split at h
  · cases h
  · next hfile =>
    cases h
    exact ⟨rfl, isAbove_of_node? hfile⟩
  · next hnone =>
    split at h
    · cases h
    · cases h
      exact ⟨rfl, isAbove_of_node?_none hnone⟩

/-- A path can be walked only if all on the way to it are directories. -/
theorem directory_of_walk {done names : List String} {name : String} (hnames : names ≠ [])
    (h : d.walk done (names ++ [name]) = .ok ()) :
    d.node? (done ++ names) = some .directory := by
  induction names generalizing done with
  | nil => exact absurd rfl hnames
  | cons first names ih =>
    obtain ⟨second, rest, hrest⟩ : ∃ second rest, names ++ [name] = second :: rest :=
      List.exists_cons_of_ne_nil (by simp)
    rw [List.cons_append, hrest, walk.eq_def] at h
    dsimp only at h
    split at h
    · cases h
    · cases h
    · next hdir =>
      cases names with
      | nil => exact hdir
      | cons third names =>
        rw [← hrest] at h
        rw [List.append_cons]
        exact ih (by simp) h

/-- A file can be written where there is one, or in a directory. -/
theorem directory_of_writeFile {content : Bytes} {names : List String} {name : String}
    (hnames : names ≠ []) (h : d.writeFile (names ++ [name]) content = .ok d') :
    (∃ n, d.node? (names ++ [name]) = some n) ∨ d.node? names = some .directory := by
  unfold writeFile at h
  split at h
  · cases h
  · next hfile => exact Or.inl ⟨_, hfile⟩
  · split at h
    · cases h
    · next hwalk => exact Or.inr (directory_of_walk hnames hwalk)

theorem rename_eq_ok (h : d.rename p q = .ok d') : ∃ content,
    d.node? p = some (.file content) ∧ q.isAbove = false ∧
      d' = (d.put q (.file content)).erase p := by
  unfold rename at h
  split at h
  · cases h
  · next content hread =>
    split at h
    · cases h
    · next d₁ hwrite =>
      cases h
      obtain ⟨rfl, habove⟩ := writeFile_eq_ok hwrite
      exact ⟨content, readFile_eq_ok.1 hread, habove, rfl⟩

theorem removeFile_eq_ok (h : d.removeFile p = .ok d') :
    p.isAbove = false ∧ d' = d.erase p := by
  unfold removeFile at h
  split at h
  · cases h
  · next content hread =>
    cases h
    exact ⟨isAbove_of_node? (readFile_eq_ok.1 hread), rfl⟩

theorem removeDirectory_eq_ok (h : d.removeDirectory p = .ok d') : d' = d.erase p := by
  unfold removeDirectory at h
  split at h
  · cases h
  · cases h
    rfl
  · cases h

theorem removeTree_eq_ok (h : d.removeTree p = .ok d') :
    d' = ⟨d.nodes.filter fun e => !p.isPrefixOf e.1⟩ := by
  unfold removeTree at h
  split at h
  · cases h
    rfl
  · cases h
  · cases h

/-- After a tree is removed there is nothing at or below its path, and all else is as before. -/
theorem node?_removeTree (h : d.removeTree p = .ok d') (q : Path) :
    d'.node? q = if q.isAbove = false ∧ p <+: q then none else d.node? q := by
  have hlookup := lookup_filter_fst (fun k => !p.isPrefixOf k) q d.nodes
  rw [removeTree_eq_ok h]
  simp only [node?]
  rw [hlookup]
  cases habove : q.isAbove with
  | true => simp
  | false =>
    by_cases hwithin : p <+: q
    · simp [hwithin, List.isPrefixOf_iff_prefix.2 hwithin]
    · have hfalse : p.isPrefixOf q = false := by
        rw [Bool.eq_false_iff]
        exact fun htrue => hwithin <| List.isPrefixOf_iff_prefix.1 htrue
      simp [hwithin, hfalse]

/-! ### Names in a directory -/

theorem entryName?_eq_some {name : String} : entryName? p q = some name ↔ q = p ++ [name] := by
  induction p generalizing q with
  | nil =>
    match q with
    | [] => simp [entryName?]
    | [a] => simp [entryName?]
    | a :: b :: q => simp [entryName?]
  | cons a p ih =>
    match q with
    | [] => simp [entryName?]
    | b :: q =>
      rw [entryName?]
      split
      · next heq => rw [ih, heq, List.cons_append, List.cons.injEq, and_iff_right rfl]
      · next hne => simp [Ne.symm hne]

/-- The names in a directory are those of the paths that are listed one name below it. -/
theorem mem_names {found : List String} (h : d.names p = .ok found) {name : String} :
    name ∈ found ↔ p ++ [name] ∈ d.nodes.map (·.1) := by
  unfold names at h
  split at h
  · cases h
    rw [List.mem_mergeSort, List.mem_filterMap, List.mem_map]
    simp only [entryName?_eq_some]
  · cases h
  · cases h

/-- The names in a directory are listed in another order. -/
theorem perm_names {found : List String} (h : d.names p = .ok found) :
    found.Perm (d.nodes.filterMap fun e => entryName? p e.1) := by
  unfold names at h
  split at h
  · cases h
    exact List.mergeSort_perm _ _
  · cases h
  · cases h

theorem nodup_names {found : List String} (h : d.names p = .ok found) (hd : d.Distinct p) :
    found.Nodup :=
  (perm_names h).nodup_iff.2 hd

theorem names_eq_ok (h : d.node? p = some .directory) : ∃ found, d.names p = .ok found := by
  unfold names
  rw [h]
  exact ⟨_, rfl⟩

theorem mem_nodes_of_node? (habove : p.isAbove = false) (h : d.node? p = some n) :
    p ∈ d.nodes.map (·.1) := by
  simp only [node?, habove, Bool.false_eq_true, if_false] at h
  by_contra hout
  rw [List.lookup_eq_none_iff.2 ?_] at h
  · cases h
  · intro e he
    refine bne_iff_ne.2 ?_
    rintro rfl
    exact hout (List.mem_map_of_mem he)

/-- Only an empty directory is removed. -/
theorem node?_child_of_removeDirectory (h : d.removeDirectory p = .ok d') {name : String}
    (habove : Path.isAbove (p ++ [name]) = false) : d.node? (p ++ [name]) = none := by
  unfold removeDirectory at h
  split at h
  · cases h
  · next hnames =>
    cases hnode : d.node? (p ++ [name]) with
    | none => rfl
    | some n => cases (mem_names hnames).2 (mem_nodes_of_node? habove hnode)
  · cases h

/-- Nothing is listed below a directory whose listing is empty. -/
theorem not_listed_of_listing (hempty : d.listing p = []) {e : Path × Node} (he : e ∈ d.nodes)
    (name : String) (rest : List String) : e.1 ≠ p ++ name :: rest := by
  have hlen := congrArg List.length hempty
  rw [listing, List.length_mergeSort, List.length_map, List.length_nil, List.length_eq_zero_iff,
    List.filter_eq_nil_iff] at hlen
  intro heq
  have hout := hlen e he
  rw [heq] at hout
  simp at hout

theorem not_below_of_listing (hempty : d.listing p = []) {q : Path} (habove : q.isAbove = false)
    (h : d.node? q = some n) (name : String) (rest : List String) : q ≠ p ++ name :: rest := by
  obtain ⟨e, he, rfl⟩ := List.mem_map.1 (mem_nodes_of_node? habove h)
  exact not_listed_of_listing hempty he name rest

/-- An empty directory lists no name twice. -/
theorem distinct_of_listing (hempty : d.listing p = []) : d.Distinct p := by
  have hnone : d.nodes.filterMap (fun e => entryName? p e.1) = [] := by
    refine List.filterMap_eq_nil_iff.2 fun e he => ?_
    by_contra hsome
    obtain ⟨name, hname⟩ := Option.ne_none_iff_exists'.1 hsome
    exact not_listed_of_listing hempty he name [] (entryName?_eq_some.1 hname)
  unfold Distinct
  rw [hnone]
  exact List.nodup_nil

theorem distinct_filter (f : Path × Node → Bool) (h : d.Distinct p) :
    Distinct ⟨d.nodes.filter f⟩ p :=
  h.sublist (List.filter_sublist.filterMap _)

theorem distinct_put (h : d.Distinct p) (q : Path) (n : Node) : (d.put q n).Distinct p := by
  have hrest := distinct_filter (fun e => e.1 ≠ q) h
  unfold Distinct put
  rw [List.filterMap_cons]
  cases hname : entryName? p q with
  | none => exact hrest
  | some name =>
    refine List.nodup_cons.2 ⟨?_, hrest⟩
    -- Whatever else has this name in the directory has the same path.
    intro hmem
    obtain ⟨e, he, hsame⟩ := List.mem_filterMap.1 hmem
    have hne : e.1 ≠ q := by simpa using (List.mem_filter.1 he).2
    exact hne ((entryName?_eq_some.1 hsame).trans (entryName?_eq_some.1 hname).symm)

theorem distinct_createFrom {done rest : List String} (h : d.createFrom done rest = .ok d')
    (hd : d.Distinct p) : d'.Distinct p := by
  induction rest generalizing d done with
  | nil =>
    cases h
    exact hd
  | cons name rest ih =>
    rw [createFrom] at h
    split at h
    · exact ih h (distinct_put hd _ _)
    · exact ih h hd
    · cases h

/-! ### What stays -/

/-- The paths at and below the entries of a directory that have the given names. -/
def Beneath (b : Path) (names : List String) (p : Path) : Prop :=
  ∃ name ∈ names, ∃ rest, p = b ++ name :: rest

/-- In the directory `b` nothing but the entries with the given names has changed, and no directory
elsewhere is gone. -/
structure Within (b : Path) (names : List String) (d d' : Disk) : Prop where
  others : ∀ {name : String} (rest : List String), name ∉ names →
    d'.node? (b ++ name :: rest) = d.node? (b ++ name :: rest)
  directories : ∀ {p : Path}, ¬Beneath b names p → d.node? p = some .directory →
    d'.node? p = some .directory
  distinct : d.Distinct b → d'.Distinct b

variable {b : Path} {names : List String} {name : String} {rest : List String}

theorem Within.refl (b : Path) (names : List String) (d : Disk) : Within b names d d :=
  ⟨fun _ _ => rfl, fun _ h => h, fun h => h⟩

theorem Within.trans (h : Within b names d d') (h' : Within b names d' d'') :
    Within b names d d'' where
  others rest hname := (h'.others rest hname).trans (h.others rest hname)
  directories hp hdir := h'.directories hp (h.directories hp hdir)
  distinct hd := h'.distinct (h.distinct hd)

theorem Within.mono {names' : List String} (h : Within b names d d')
    (hsub : ∀ name ∈ names, name ∈ names') : Within b names' d d' where
  others rest hname := h.others rest fun hin => hname (hsub _ hin)
  directories hp hdir := by
    refine h.directories ?_ hdir
    rintro ⟨name, hname, rest, rfl⟩
    exact hp ⟨name, hsub name hname, rest, rfl⟩
  distinct := h.distinct

theorem heads_agree {name' : String} {rest' : List String}
    (h : b ++ name :: rest <+: b ++ name' :: rest') : name = name' :=
  (List.cons_prefix_cons.1 ((List.prefix_append_right_inj b).1 h)).1

theorem ne_of_not_mem {name' : String} {rest' : List String} (hname : name ∈ names)
    (hother : name' ∉ names) : b ++ name' :: rest' ≠ b ++ name :: rest := by
  intro heq
  cases List.append_cancel_left heq
  exact hother hname

theorem ne_of_not_beneath (hname : name ∈ names) (hp : ¬Beneath b names p) :
    p ≠ b ++ name :: rest := by
  rintro rfl
  exact hp ⟨name, hname, rest, rfl⟩

theorem within_put (hname : name ∈ names) (rest : List String) (n : Node) :
    Within b names d (d.put (b ++ name :: rest) n) where
  others _ hother := node?_put_of_ne n (ne_of_not_mem hname hother)
  directories hp hdir := (node?_put_of_ne n (ne_of_not_beneath hname hp)).trans hdir
  distinct hd := distinct_put hd _ _

theorem within_erase (hname : name ∈ names) (rest : List String) :
    Within b names d (d.erase (b ++ name :: rest)) where
  others _ hother := node?_erase_of_ne (ne_of_not_mem hname hother)
  directories hp hdir := (node?_erase_of_ne (ne_of_not_beneath hname hp)).trans hdir
  distinct hd := distinct_filter _ hd

theorem within_removeTree (h : d.removeTree (b ++ name :: rest) = .ok d') (hname : name ∈ names) :
    Within b names d d' where
  others {name'} rest' hother := by
    rw [node?_removeTree h, if_neg]
    rintro ⟨-, hwithin⟩
    rw [← heads_agree hwithin] at hother
    exact hother hname
  directories {p} hp hdir := by
    rw [node?_removeTree h, if_neg]
    · exact hdir
    · rintro ⟨-, t, rfl⟩
      exact hp ⟨name, hname, rest ++ t, by simp⟩
  distinct hd := by
    rw [removeTree_eq_ok h]
    exact distinct_filter _ hd

/-- Making a path a directory stays within `b` if that path does. -/
theorem within_createDirectories (h : d.createDirectories p = .ok d')
    (hp : ∀ name rest, p = b ++ name :: rest → name ∈ names) : Within b names d d' where
  others {name} rest hother := by
    rcases node?_createFrom h (b ++ name :: rest) with heq | ⟨-, -, k, -, ⟨t, rfl⟩, hk⟩
    · exact heq
    · rw [List.nil_append] at hk
      exact absurd (hp name (rest ++ t) (by simp [← hk])) hother
  directories {q} _ hdir := by
    rcases node?_createFrom h q with heq | ⟨hgap, -⟩
    · exact heq.trans hdir
    · rw [hgap] at hdir
      cases hdir
  distinct hd := distinct_createFrom h hd

end Disk
end Checkpointing
