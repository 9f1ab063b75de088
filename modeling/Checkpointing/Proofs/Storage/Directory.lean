import Mathlib.Tactic
import Checkpointing.Proofs.Storage.Layout

/-!
# What the operations of snapshot directories do

One lemma for each operation says which files it may have touched and what it leaves if it succeeds.
None of them assumes that it does.

* `Touches` is the frame of operations that write, `Fills` that of operations that only create
  directories, `Shrinks` that of operations that remove;
* `touches_persist`, `fills_address`, `touches_saveRecord`, `shrinks_discard` and
  `shrinks_dropRecord` are the lemmas of the operations;
* `node?_discard`, `node?_dropRecord`: what is there to be removed is gone afterwards;
* `Tidy` is kept by all of them, and `discard_of_tidy`: then nothing stands in the way of removing a
  snapshot.
-/

namespace Checkpointing

theorem Disk.node?_erase (d : Disk) (p q : Path) :
    (d.erase p).node? q = d.node? q ∨ (d.erase p).node? q = none := by
  by_cases hq : q = p
  · subst hq
    cases habove : q.isAbove with
    | true => exact Or.inl ((node?_of_isAbove habove).trans (node?_of_isAbove habove).symm)
    | false => exact Or.inr (node?_erase_self habove)
  · exact Or.inl (node?_erase_of_ne hq)

/-- A list of steps stops at its first one, or that one is done and the others follow. -/
theorem Disk.carryOut_cons {d d' : Disk} {step : DiskStep} {rest : List DiskStep}
    {outcome : Option StorageFailure} (h : d.carryOut (step :: rest) = (d', outcome)) :
    (∃ e, step.run d = .error e ∧ d' = d ∧ outcome = some (step.failure e)) ∨
    (∃ d₁, step.run d = .ok d₁ ∧ d₁.carryOut rest = (d', outcome)) := by
  rw [carryOut] at h
  split at h
  · next e hrun =>
    cases h
    exact Or.inl ⟨e, hrun, rfl, rfl⟩
  · next d₁ hrun => exact Or.inr ⟨d₁, hrun, h⟩

namespace Directory

open Disk

variable {d d' d'' : Disk} {base : Location} {b : Path} {id : Nat} {name file : String}

/-- The names of the directories of a snapshot. -/
def entries (id : Nat) : List String := [snapshotName id, savepointName id]

theorem snapshotName_mem (id : Nat) : snapshotName id ∈ entries id := by simp [entries]

theorem savepointName_mem (id : Nat) : savepointName id ∈ entries id := by simp [entries]

theorem statesName_mem (d : Disk) (base : Location) (id : Nat) :
    statesName d base id ∈ entries id := by
  unfold statesName
  split
  · exact savepointName_mem id
  · exact snapshotName_mem id

/-- Snapshots share no directories. -/
theorem not_mem_entries {id' : Nat} (hne : id' ≠ id) (hname : name ∈ entries id') :
    name ∉ entries id := by
  intro hmem
  simp only [entries, List.mem_cons, List.not_mem_nil, or_false] at hname hmem
  rcases hname with rfl | rfl <;> rcases hmem with h | h
  · exact hne (snapshotName_injective h)
  · exact snapshotName_ne_savepointName _ _ h
  · exact snapshotName_ne_savepointName _ _ h.symm
  · exact hne (savepointName_injective h)

theorem statesName_congr (h : d'.isThere (base.path ++ [savepointName id]) =
    d.isThere (base.path ++ [savepointName id])) :
    statesName d' base id = statesName d base id := by
  unfold statesName
  rw [h]

/-! ### Frames -/

/-- Everything in the directory `b` is a directory, and nothing is in one that is not there. -/
structure Tidy (d : Disk) (b : Path) : Prop where
  folders : ∀ {name : String} {n : Node}, d.node? (b ++ [name]) = some n → n = .directory
  nested : ∀ {name file : String} {n : Node}, d.node? (b ++ [name, file]) = some n →
    d.node? (b ++ [name]) = some .directory

/-- Nothing but the directories of a snapshot has changed and no file but the touched ones; no
directory is gone, and the states lie where they did. -/
structure Touches (base : Location) (id : Nat) (touched : String → String → Prop) (d d' : Disk) :
    Prop where
  within : Within base.path (entries id) d d'
  files : ∀ {name file : String}, ¬touched name file →
    d'.node? (base.path ++ [name, file]) = d.node? (base.path ++ [name, file])
  directories : ∀ {name : String}, d.node? (base.path ++ [name]) = some .directory →
    d'.node? (base.path ++ [name]) = some .directory
  states : statesName d' base id = statesName d base id
  tidy : Tidy d base.path → Tidy d' base.path

variable {touched touched' : String → String → Prop}

theorem Touches.refl (base : Location) (id : Nat) (touched : String → String → Prop) (d : Disk) :
    Touches base id touched d d :=
  ⟨.refl _ _ _, fun _ => rfl, fun hdir => hdir, rfl, fun h => h⟩

theorem Touches.trans (h : Touches base id touched d d') (h' : Touches base id touched d' d'') :
    Touches base id touched d d'' where
  within := h.within.trans h'.within
  files hout := (h'.files hout).trans (h.files hout)
  directories hdir := h'.directories (h.directories hdir)
  states := h'.states.trans h.states
  tidy ht := h'.tidy (h.tidy ht)

theorem Touches.mono (h : Touches base id touched d d')
    (hsub : ∀ name file, touched name file → touched' name file) :
    Touches base id touched' d d' where
  within := h.within
  files hout := h.files fun hin => hout (hsub _ _ hin)
  directories := h.directories
  states := h.states
  tidy := h.tidy

/-- Only directories of a snapshot have changed, and whatever has changed is gone. -/
structure Shrinks (b : Path) (id : Nat) (d d' : Disk) : Prop where
  within : Within b (entries id) d d'
  nodes : ∀ q, d'.node? q = d.node? q ∨ d'.node? q = none
  tidy : Tidy d b → Tidy d' b

theorem Shrinks.refl (b : Path) (id : Nat) (d : Disk) : Shrinks b id d d :=
  ⟨.refl _ _ _, fun _ => Or.inl rfl, fun h => h⟩

theorem Shrinks.trans (h : Shrinks b id d d') (h' : Shrinks b id d' d'') :
    Shrinks b id d d'' where
  within := h.within.trans h'.within
  nodes q := by
    rcases h'.nodes q with heq | hnone
    · rw [heq]
      exact h.nodes q
    · exact Or.inr hnone
  tidy ht := h'.tidy (h.tidy ht)

theorem Shrinks.absent (h : Shrinks b id d d') {q : Path} (hq : d.node? q = none) :
    d'.node? q = none := by
  rcases h.nodes q with heq | hnone
  · exact heq.trans hq
  · exact hnone

/-- What there is in the directories of a snapshot is as before. -/
def Spares (base : Location) (id : Nat) (d d' : Disk) : Prop :=
  ∀ name ∈ entries id, ∀ rest : List String,
    d'.node? (base.path ++ name :: rest) = d.node? (base.path ++ name :: rest)

theorem Spares.trans (h : Spares base id d d') (h' : Spares base id d' d'') :
    Spares base id d d'' :=
  fun name hname rest => (h' name hname rest).trans (h name hname rest)

/-- What happens in the directories of one snapshot does not matter to the others. -/
theorem spares_of_within {id' : Nat} (h : Within base.path (entries id) d d') (hne : id' ≠ id) :
    Spares base id' d d' :=
  fun _ hname rest => h.others rest (not_mem_entries hne hname)

/-! ### Writing -/

theorem ne_file (n name file : String) : b ++ [n] ≠ b ++ [name, file] := by
  intro heq
  simpa using List.append_cancel_left heq

theorem tidy_erase_file (h : Tidy d b) : Tidy (d.erase (b ++ [name, file])) b := by
  refine ⟨fun hn => h.folders ((node?_erase_of_ne (ne_file _ name file)).symm.trans hn),
    fun {m f n} hn => (node?_erase_of_ne (ne_file _ name file)).trans ?_⟩
  rcases node?_erase d (b ++ [name, file]) (b ++ [m, f]) with heq | hnone
  · exact h.nested (heq.symm.trans hn)
  · rw [hnone] at hn
    cases hn

theorem touches_put (hname : name ∈ entries id) (n : Node)
    (hplace : Tidy d base.path → d.node? (base.path ++ [name]) = some .directory) :
    Touches base id (fun m f => m = name ∧ f = file) d (d.put (base.path ++ [name, file]) n) where
  within := within_put hname [file] n
  files {m f} hout := by
    refine node?_put_of_ne n fun heq => hout ?_
    simpa using List.append_cancel_left heq
  directories hdir := (node?_put_of_ne n (ne_file _ name file)).trans hdir
  states := by
    refine statesName_congr ?_
    rw [isThere, isThere, node?_put_of_ne n (ne_file _ name file)]
  tidy ht := by
    refine ⟨fun hn => ht.folders ((node?_put_of_ne n (ne_file _ name file)).symm.trans hn),
      fun {m f n'} hn => (node?_put_of_ne n (ne_file _ name file)).trans ?_⟩
    by_cases hm : m = name
    · rw [hm]
      exact hplace ht
    · rw [node?_put_of_ne n (by simp [hm])] at hn
      exact ht.nested hn

theorem touches_erase (hname : name ∈ entries id) :
    Touches base id (fun m f => m = name ∧ f = file) d (d.erase (base.path ++ [name, file])) where
  within := within_erase hname [file]
  files {m f} hout := by
    refine node?_erase_of_ne fun heq => hout ?_
    simpa using List.append_cancel_left heq
  directories hdir := (node?_erase_of_ne (ne_file _ name file)).trans hdir
  states := by
    refine statesName_congr ?_
    rw [isThere, isThere, node?_erase_of_ne (ne_file _ name file)]
  tidy := tidy_erase_file

theorem touches_writeFile {content : Bytes} (hname : name ∈ entries id)
    (h : d.writeFile (base.path ++ [name, file]) content = .ok d') :
    Touches base id (fun m f => m = name ∧ f = file) d d' ∧
      d'.node? (base.path ++ [name, file]) = some (.file content) := by
  obtain ⟨rfl, habove⟩ := writeFile_eq_ok h
  refine ⟨touches_put hname _ fun ht => ?_, node?_put_self _ habove⟩
  rw [List.append_cons] at h
  rcases directory_of_writeFile (by simp) h with ⟨n, hn⟩ | hdir
  · rw [← List.append_cons] at hn
    exact ht.nested hn
  · exact hdir

theorem touches_rename {file' : String} (hname : name ∈ entries id) (hne : file' ≠ file)
    (h : d.rename (base.path ++ [name, file]) (base.path ++ [name, file']) = .ok d') :
    Touches base id (fun m f => m = name ∧ (f = file ∨ f = file')) d d' ∧
      d'.node? (base.path ++ [name, file']) = d.node? (base.path ++ [name, file]) := by
  obtain ⟨content, hread, habove, rfl⟩ := rename_eq_ok h
  have hput : Touches base id (fun m f => m = name ∧ f = file') d
      (d.put (base.path ++ [name, file']) (.file content)) :=
    touches_put hname _ fun ht => ht.nested hread
  constructor
  · exact (hput.mono fun _ _ hin => ⟨hin.1, Or.inr hin.2⟩).trans
      ((touches_erase hname).mono fun _ _ hin => ⟨hin.1, Or.inl hin.2⟩)
  · rw [hread, node?_erase_of_ne (by simpa using hne), node?_put_self _ habove]

/-- Directories on the way to an entry were created, and no file below the base has changed. -/
structure Fills (b : Path) (name : String) (d d' : Disk) : Prop where
  within : Within b [name] d d'
  files : ∀ n f : String, d'.node? (b ++ [n, f]) = d.node? (b ++ [n, f])
  tidy : Tidy d b → Tidy d' b

theorem Fills.refl (b : Path) (name : String) (d : Disk) : Fills b name d d :=
  ⟨.refl _ _ _, fun _ _ => rfl, fun h => h⟩

theorem Fills.trans (h : Fills b name d d') (h' : Fills b name d' d'') : Fills b name d d'' where
  within := h.within.trans h'.within
  files n f := (h'.files n f).trans (h.files n f)
  tidy ht := h'.tidy (h.tidy ht)

theorem Fills.within_entries (h : Fills b name d d') (hname : name ∈ entries id) :
    Within b (entries id) d d' := by
  refine h.within.mono fun n hn => ?_
  rw [List.mem_singleton.1 hn]
  exact hname

theorem fills_createDirectories {p : Path} (h : d.createDirectories p = .ok d')
    (hp : ∀ n rest, p = b ++ n :: rest → n = name ∧ rest = []) : Fills b name d d' := by
  have hfiles : ∀ n f : String, d'.node? (b ++ [n, f]) = d.node? (b ++ [n, f]) := by
    intro n f
    rcases node?_createFrom h (b ++ [n, f]) with heq | ⟨-, -, k, -, ⟨t, rfl⟩, hk⟩
    · exact heq
    · rw [List.nil_append] at hk
      have hdeep := hp n (f :: t) (by simp [← hk])
      simp at hdeep
  refine ⟨within_createDirectories h fun n rest heq => List.mem_singleton.2 (hp n rest heq).1,
    hfiles, fun ht => ⟨fun {m n} hn => ?_, fun {m f n} hn => ?_⟩⟩
  · rcases node?_createFrom h (b ++ [m]) with heq | ⟨-, hdir, -⟩
    · exact ht.folders (heq.symm.trans hn)
    · exact Option.some.inj (hn.symm.trans hdir)
  · rw [hfiles] at hn
    rcases node?_createFrom h (b ++ [m]) with heq | ⟨-, hdir, -⟩
    · exact heq.trans (ht.nested hn)
    · exact hdir

theorem fills_detours {ds : List Path} (h : ds.foldlM createDirectories d = .ok d')
    (hout : ∀ p ∈ ds, ∀ n rest, p ≠ b ++ n :: rest) : Fills b name d d' := by
  induction ds generalizing d with
  | nil =>
    cases h
    exact .refl _ _ _
  | cons p ds ih =>
    rw [List.foldlM_cons] at h
    cases hfirst : d.createDirectories p with
    | error e =>
      rw [hfirst] at h
      cases h
    | ok d₁ =>
      rw [hfirst] at h
      have hnot := hout p List.mem_cons_self
      have hfills : Fills b name d d₁ :=
        fills_createDirectories hfirst fun n rest heq => absurd heq (hnot n rest)
      exact hfills.trans (ih h fun q hq => hout q (List.mem_cons_of_mem _ hq))

/-- Making an entry of the base a directory changes nothing else there. -/
theorem fills_createDirectoriesAt (h : d.Hosts base)
    (hc : d.createDirectoriesAt (base.child name) = .ok d') :
    Fills base.path name d d' ∧ d'.node? (base.path ++ [name]) = some .directory := by
  have hself : ∀ n rest, base.path ++ [name] = base.path ++ n :: rest → n = name ∧ rest = [] := by
    intro n rest heq
    cases List.append_cancel_left heq
    exact ⟨rfl, rfl⟩
  refine ⟨?_, node?_createDirectoriesAt_self hc⟩
  unfold createDirectoriesAt at hc
  split at hc
  · exact fills_createDirectories hc hself
  · next ds hds =>
    split at hc
    · cases hc
    · cases hdetours : ds.foldlM createDirectories d with
      | error e =>
        rw [hdetours] at hc
        cases hc
      | ok d₁ =>
        rw [hdetours] at hc
        have hfirst : Fills base.path name d d₁ := fills_detours hdetours (h.outside hds)
        exact hfirst.trans (fills_createDirectories hc hself)

theorem Fills.touches (h : Fills base.path name d d') (hname : name ∈ entries id)
    (hdir : d'.node? (base.path ++ [name]) = some .directory)
    (hstates : name = savepointName id → statesName d base id = savepointName id) :
    Touches base id (fun _ _ => False) d d' where
  within := h.within_entries hname
  files _ := h.files _ _
  directories {n} hn := by
    by_cases hself : n = name
    · rw [hself]
      exact hdir
    · rw [h.within.others [] (by simpa using hself)]
      exact hn
  states := by
    -- Creating the directory of a savepoint would move the states unless they are in it already.
    by_cases hsave : name = savepointName id
    · have hbefore := hstates hsave
      subst hsave
      rw [hbefore]
      unfold statesName at hbefore ⊢
      split at hbefore
      · next hboth => rw [if_pos ⟨hboth.1, isThere_iff.2 ⟨_, hdir⟩⟩]
      · exact absurd hbefore (snapshotName_ne_savepointName _ _)
    · refine statesName_congr ?_
      rw [isThere, isThere, h.within.others [] (by simpa using Ne.symm hsave)]
  tidy := h.tidy

/-- Keeping a state writes one file, the one in which the state is looked for. -/
theorem touches_persist (h : d.Hosts base) {run : TaskRun} {state : Bytes}
    {outcome : Option StorageFailure} (hp : persist d base id run state = (d', outcome)) :
    Touches base id (fun _ f => f = stateName run) d d' ∧
      (outcome = none → HasState d' base id run state) := by
  unfold persist at hp
  rw [states_eq h] at hp
  have hmem := statesName_mem d base id
  rcases carryOut_cons hp with ⟨e, -, rfl, rfl⟩ | ⟨d₁, hcreate, hp⟩
  · exact ⟨.refl _ _ _ _, by simp⟩
  obtain ⟨hfills, hdir⟩ := fills_createDirectoriesAt h hcreate
  have hfirst : Touches base id (fun _ f => f = stateName run) d d₁ :=
    (hfills.touches hmem hdir fun hsave => hsave).mono fun _ _ => False.elim
  rcases carryOut_cons hp with ⟨e, -, rfl, rfl⟩ | ⟨d₂, hwrite, hp⟩
  · exact ⟨hfirst, by simp⟩
  cases hp
  obtain ⟨hu, hwrite⟩ := bind_reach_eq_ok hwrite
  rw [Location.path_grandchild] at hwrite
  obtain ⟨htouch, hfile⟩ := touches_writeFile hmem hwrite
  have hall := hfirst.trans (htouch.mono fun _ _ hf => hf.2)
  refine ⟨hall, fun _ => ⟨?_, ?_⟩⟩
  · rw [stateFile, hall.states]
    exact hu
  · rw [hall.states]
    exact hfile

/-- Giving a savepoint an address creates its directory; the address is the directory's text. -/
theorem fills_address (h : d.Hosts base) {policy : SnapshotPolicy} {pointer : Option String}
    (ha : address d base id policy = (d', pointer)) :
    Fills base.path (savepointName id) d d' ∧
      ∀ text, pointer = some text → text = (base.child (savepointName id)).shown := by
  have hrefl : Fills base.path (savepointName id) d d := .refl _ _ _
  unfold address at ha
  split at ha
  · split at ha
    · next d₁ hcreate =>
      cases ha
      refine ⟨(fills_createDirectoriesAt h hcreate).1, ?_⟩
      rintro _ ⟨⟩
      rfl
    · cases ha
      exact ⟨hrefl, by simp⟩
  · cases ha
    exact ⟨hrefl, by simp⟩

/-- A record comes into its place as a whole or not at all: only its draft is touched before. -/
theorem touches_saveRecord (h : d.Hosts base) {s : Snapshot} {outcome : Option StorageFailure}
    (hs : saveRecord d base s = (d', outcome)) :
    (∃ failure, outcome = some failure ∧
      Touches base s.id (fun n f => n = snapshotName s.id ∧ f = "_metadata.tmp") d d') ∨
    (outcome = none ∧ (record base s.id).Usable ∧
      Touches base s.id
        (fun n f => n = snapshotName s.id ∧ (f = "_metadata.tmp" ∨ f = "_metadata")) d d' ∧
      d'.node? (base.path ++ [snapshotName s.id]) = some .directory ∧
      d'.node? (base.path ++ [snapshotName s.id, "_metadata"]) =
        some (.file (Record.snapshot.encode s))) := by
  have hmem := snapshotName_mem s.id
  unfold saveRecord at hs
  rw [snapshot_eq, record_eq] at hs
  rcases carryOut_cons hs with ⟨e, -, rfl, rfl⟩ | ⟨d₁, hcreate, hs⟩
  · exact Or.inl ⟨_, rfl, .refl _ _ _ _⟩
  obtain ⟨hfills, hdir⟩ := fills_createDirectoriesAt h hcreate
  have hfirst := hfills.touches hmem hdir
    fun hsame => absurd hsame (snapshotName_ne_savepointName _ _)
  rcases carryOut_cons hs with ⟨e, -, rfl, rfl⟩ | ⟨d₂, hwrite, hs⟩
  · exact Or.inl ⟨_, rfl, hfirst.mono fun _ _ => False.elim⟩
  obtain ⟨-, hwrite⟩ := bind_reach_eq_ok hwrite
  rw [Location.path_grandchild] at hwrite
  obtain ⟨htouch, hdraft⟩ := touches_writeFile hmem hwrite
  have hsecond := (hfirst.mono fun _ _ => False.elim).trans htouch
  -- Up to here only the draft was written; the record appears with the renaming.
  rcases carryOut_cons hs with ⟨e, -, rfl, rfl⟩ | ⟨d₃, hrename, hs⟩
  · exact Or.inl ⟨_, rfl, hsecond⟩
  cases hs
  obtain ⟨-, hrename⟩ := bind_reach_eq_ok hrename
  obtain ⟨hu, hrename⟩ := bind_reach_eq_ok hrename
  rw [Location.path_grandchild, Location.path_grandchild] at hrename
  obtain ⟨hmove, hrecord⟩ := touches_rename hmem (by decide) hrename
  refine Or.inr ⟨rfl, hu, ?_, ?_, hrecord.trans hdraft⟩
  · exact (hsecond.mono fun _ _ hin => ⟨hin.1, Or.inl hin.2⟩).trans hmove
  · exact hmove.directories (htouch.directories hdir)

/-! ### Removing -/

theorem shrinks_erase_file (hname : name ∈ entries id) :
    Shrinks b id d (d.erase (b ++ [name, file])) :=
  ⟨within_erase hname [file], node?_erase d _, tidy_erase_file⟩

theorem shrinks_removeDirectory (hname : name ∈ entries id)
    (h : d.removeDirectory (b ++ [name]) = .ok d') : Shrinks b id d d' := by
  have heq := removeDirectory_eq_ok h
  subst heq
  refine ⟨within_erase hname [], node?_erase d _,
    fun ht => ⟨fun {m n} hn => ?_, fun {m f n} hn => ?_⟩⟩
  · rcases node?_erase d (b ++ [name]) (b ++ [m]) with heq | hnone
    · exact ht.folders (heq.symm.trans hn)
    · rw [hnone] at hn
      cases hn
  · rw [node?_erase_of_ne (ne_file name m f).symm] at hn
    by_cases hm : m = name
    · -- The directory was empty, so what is there lies above the working directory.
      subst hm
      cases habove : Path.isAbove (b ++ [m, f]) with
      | true =>
        rw [List.append_cons] at habove
        exact node?_of_isAbove (isAbove_of_append habove)
      | false =>
        rw [List.append_cons] at habove hn
        rw [node?_child_of_removeDirectory h habove] at hn
        cases hn
    · rw [node?_erase_of_ne (by simp [hm])]
      exact ht.nested hn

theorem shrinks_removeTree (hname : name ∈ entries id)
    (h : d.removeTree (b ++ [name]) = .ok d') : Shrinks b id d d' where
  within := within_removeTree h hname
  nodes q := by
    rw [node?_removeTree h]
    split
    · exact Or.inr rfl
    · exact Or.inl rfl
  tidy ht := by
    have hstays : ∀ {q n}, d'.node? q = some n →
        ¬(q.isAbove = false ∧ b ++ [name] <+: q) ∧ d.node? q = some n := by
      intro q n hn
      rw [node?_removeTree h] at hn
      split at hn
      · cases hn
      · next hout => exact ⟨hout, hn⟩
    refine ⟨fun hn => ht.folders (hstays hn).2, fun {m f n} hn => ?_⟩
    obtain ⟨hout, hn⟩ := hstays hn
    rw [node?_removeTree h, if_neg]
    · exact ht.nested hn
    · rintro ⟨habove, hwithin⟩
      rw [List.append_cons] at hout
      refine hout ⟨?_, hwithin.trans (List.prefix_append _ _)⟩
      rw [Bool.eq_false_iff]
      intro htrue
      rw [isAbove_of_append htrue] at habove
      cases habove

theorem shrinks_removeIfThere (hname : name ∈ entries id)
    (h : (removeIfThere (base.child name)).run d = .ok d') : Shrinks base.path id d d' := by
  dsimp only [removeIfThere] at h
  split at h
  · exact shrinks_removeTree hname (bind_reach_eq_ok h).2
  · cases h
    exact .refl _ _ _

theorem shrinks_discard (d : Disk) (base : Location) (id : Nat) :
    Shrinks base.path id d (discard d base id).1 := by
  rcases hdiscard : discard d base id with ⟨d', outcome⟩
  unfold discard at hdiscard
  rcases carryOut_cons hdiscard with ⟨e, -, rfl, -⟩ | ⟨d₁, hfirst, hdiscard⟩
  · exact .refl _ _ _
  have hshrinks := shrinks_removeIfThere (snapshotName_mem id) hfirst
  rcases carryOut_cons hdiscard with ⟨e, -, rfl, -⟩ | ⟨d₂, hsecond, hdiscard⟩
  · exact hshrinks
  · cases hdiscard
    exact hshrinks.trans (shrinks_removeIfThere (savepointName_mem id) hsecond)

/-- In a tidy directory whatever can be reached can be removed. -/
theorem removeIfThere_of_tidy (h : d.Hosts base) (ht : Tidy d base.path)
    (habove : Path.isAbove (base.path ++ [name]) = false) :
    ∃ d', (removeIfThere (base.child name)).run d = .ok d' ∧
      ((base.child name).Usable → d'.node? (base.path ++ [name]) = none) := by
  have hthere := isThereAt_iff (l := base.child name) h rfl
  dsimp only [removeIfThere]
  split
  · next hyes =>
    obtain ⟨hu, hnode⟩ := hthere.1 hyes
    obtain ⟨n, hn⟩ := isThere_iff.1 hnode
    have hn : d.node? (base.path ++ [name]) = some n := hn
    cases ht.folders hn
    have hremove : d.removeTree (base.path ++ [name]) =
        .ok ⟨d.nodes.filter fun e => !(base.path ++ [name]).isPrefixOf e.1⟩ := by
      unfold removeTree
      rw [hn]
    rw [reach_of_hosts (l := base.child name) h rfl hu]
    refine ⟨_, hremove, fun _ => ?_⟩
    rw [node?_removeTree hremove, if_pos ⟨habove, List.prefix_refl _⟩]
  · next hno =>
    refine ⟨d, rfl, fun hu => ?_⟩
    by_contra hsome
    obtain ⟨n, hn⟩ := Option.ne_none_iff_exists'.1 hsome
    exact hno (hthere.2 ⟨hu, isThere_iff.2 ⟨n, hn⟩⟩)

/-- In a tidy directory discarding succeeds, and afterwards no state of the snapshot is there. -/
theorem discard_of_tidy (h : d.Hosts base) (ht : Tidy d base.path) (id : Nat) :
    ∃ d', discard d base id = (d', none) ∧
      ∀ (run : TaskRun) (state : Bytes), ¬HasState d' base id run state := by
  obtain ⟨d₁, hfirst, hsnapshot⟩ :=
    removeIfThere_of_tidy h ht (isAbove_snapshot base.path id [])
  have hshrinks₁ := shrinks_removeIfThere (snapshotName_mem id) hfirst
  have ht₁ := hshrinks₁.tidy ht
  obtain ⟨d₂, hsecond, hsavepoint⟩ :=
    removeIfThere_of_tidy (h.within hshrinks₁.within) ht₁ (isAbove_savepoint base.path id [])
  have hshrinks₂ := shrinks_removeIfThere (savepointName_mem id) hsecond
  refine ⟨d₂, ?_, fun run state hstate => ?_⟩
  · simp only [discard, carryOut, snapshot_eq, savepoint_eq, hfirst, hsecond]
  · -- Without its own directory a savepoint would have its states where a checkpoint has them.
    have hname : statesName d₂ base id = snapshotName id := by
      unfold statesName
      rw [if_neg]
      rintro ⟨hu, hthere⟩
      rw [isThere, hsavepoint hu] at hthere
      cases hthere
    obtain ⟨hu, hfile⟩ := hstate
    rw [stateFile, hname] at hu
    rw [hname] at hfile
    have hdir := (hshrinks₂.tidy ht₁).nested hfile
    rw [hshrinks₂.absent (hsnapshot hu.of_child)] at hdir
    cases hdir

/-- Discarding takes the record first, with all that lies beside it. -/
theorem node?_discard (h : d.Hosts base) (hu : (snapshot base id).Usable)
    (hdir : d.node? (base.path ++ [snapshotName id]) = some .directory) (file : String) :
    (discard d base id).1.node? (base.path ++ [snapshotName id, file]) = none := by
  rcases hdiscard : discard d base id with ⟨d', outcome⟩
  have hremove : ∃ d₁, d.removeTree (base.path ++ [snapshotName id]) = .ok d₁ := by
    unfold removeTree
    rw [hdir]
    exact ⟨_, rfl⟩
  obtain ⟨d₁, hremove⟩ := hremove
  have hrun : (removeIfThere (snapshot base id)).run d = .ok d₁ := by
    have hthere : d.isThereAt (snapshot base id) = true :=
      (isThereAt_iff (l := snapshot base id) h rfl).2 ⟨hu, isThere_iff.2 ⟨_, hdir⟩⟩
    dsimp only [removeIfThere]
    rw [if_pos hthere, reach_of_hosts (l := snapshot base id) h rfl hu]
    exact hremove
  have hnone : d₁.node? (base.path ++ [snapshotName id, file]) = none := by
    have hwithin : base.path ++ [snapshotName id] <+: base.path ++ [snapshotName id, file] :=
      ⟨[file], List.append_assoc ..⟩
    rw [node?_removeTree hremove, if_pos ⟨isAbove_snapshot _ _ _, hwithin⟩]
  unfold discard at hdiscard
  rcases carryOut_cons hdiscard with ⟨e, hfail, -, -⟩ | ⟨d₁', hfirst, hdiscard⟩
  · rw [hrun] at hfail
    cases hfail
  · cases hrun.symm.trans hfirst
    rcases carryOut_cons hdiscard with ⟨e, -, rfl, -⟩ | ⟨d₂, hsecond, hdiscard⟩
    · exact hnone
    · cases hdiscard
      exact (shrinks_removeIfThere (savepointName_mem id) hsecond).absent hnone

theorem shrinks_removeIfEmpty (hname : name ∈ entries id)
    (h : removeIfEmpty d (b ++ [name]) = .ok d') : Shrinks b id d d' := by
  unfold removeIfEmpty at h
  split at h
  · cases h
  · exact shrinks_removeDirectory hname h
  · cases h
    exact .refl _ _ _

theorem shrinks_dropRecord (d : Disk) (base : Location) (id : Nat) :
    Shrinks base.path id d (dropRecord d base id).1 := by
  have hmem := snapshotName_mem id
  rcases hdrop : dropRecord d base id with ⟨d', outcome⟩
  unfold dropRecord at hdrop
  rw [snapshot_eq, record_eq] at hdrop
  rcases carryOut_cons hdrop with ⟨e, -, rfl, -⟩ | ⟨d₁, hfirst, hdrop⟩
  · exact .refl _ _ _
  have hshrinks : Shrinks base.path id d d₁ := by
    dsimp only at hfirst
    split at hfirst
    · obtain ⟨-, rfl⟩ := removeFile_eq_ok (bind_reach_eq_ok hfirst).2
      rw [Location.path_grandchild]
      exact shrinks_erase_file hmem
    · cases hfirst
      exact .refl _ _ _
  rcases carryOut_cons hdrop with ⟨e, -, rfl, -⟩ | ⟨d₂, hsecond, hdrop⟩
  · exact hshrinks
  · cases hdrop
    refine hshrinks.trans ?_
    dsimp only at hsecond
    split at hsecond
    · exact shrinks_removeIfEmpty hmem (bind_reach_eq_ok hsecond).2
    · cases hsecond
      exact .refl _ _ _

/-- A record that can be read can be dropped. -/
theorem node?_dropRecord (h : d.Hosts base) (hu : (record base id).Usable) {content : Bytes}
    (hrecord : d.node? (base.path ++ [snapshotName id, "_metadata"]) = some (.file content)) :
    (dropRecord d base id).1.node? (base.path ++ [snapshotName id, "_metadata"]) = none := by
  rw [← Location.path_grandchild, ← record_eq] at hrecord ⊢
  have hthere : d.isThereAt (record base id) = true :=
    (isThereAt_iff (l := record base id) h rfl).2 ⟨hu, isThere_iff.2 ⟨_, hrecord⟩⟩
  rcases hdrop : dropRecord d base id with ⟨d', outcome⟩
  unfold dropRecord at hdrop
  -- The first step succeeds and takes the record; what comes then only removes more.
  rcases carryOut_cons hdrop with ⟨e, hfail, -, -⟩ | ⟨d₁, hfirst, hdrop⟩
  · dsimp only at hfail
    rw [if_pos hthere, reach_of_hosts (l := record base id) h rfl hu, Except.bind, removeFile,
      readFile_eq_ok.2 hrecord] at hfail
    cases hfail
  · dsimp only at hfirst
    rw [if_pos hthere] at hfirst
    obtain ⟨habove, rfl⟩ := removeFile_eq_ok (bind_reach_eq_ok hfirst).2
    have hnone := node?_erase_self (d := d) habove
    rcases carryOut_cons hdrop with ⟨e, -, rfl, -⟩ | ⟨d₂, hsecond, hdrop⟩
    · exact hnone
    · cases hdrop
      dsimp only at hsecond
      split at hsecond
      · have hempty := (bind_reach_eq_ok hsecond).2
        exact (shrinks_removeIfEmpty (snapshotName_mem id) hempty).absent hnone
      · cases hsecond
        exact hnone

end Directory
end Checkpointing
