import Mathlib.Data.List.Basic
import Mathlib.Data.String.Basic
import Mathlib.Tactic
import Checkpointing.Proofs.Disk
import Checkpointing.Proofs.Format.Record
import Checkpointing.Storage.Directory

/-!
# The layout of snapshot directories

Names of directories and files below a base directory, and when they can be reached.

* `snapshotName`, `savepointName` and `stateName` tell ids and runs apart, and never meet;
* `idOfName?_snapshotName`: the id can be read from the name of a snapshot's directory;
* `Location.Usable` says that a location is not too long to be reached in the way it is written;
* `Disk.Hosts` says that a base directory is there, so that whatever is usable in it can be reached;
* `HasState`, `load_eq_ok`: the state of a participant can be loaded if and only if it is there.
-/

namespace Checkpointing

/-! ### Digits -/

theorem isDigit_ne_of_mem_toDigits {n : Nat} {c : Char} (hc : c.isDigit = false) :
    c ∉ Nat.toDigits 10 n := by
  intro hmem
  rw [Nat.isDigit_of_mem_toDigits (by decide) (by decide) hmem] at hc
  cases hc

theorem toDigits_injective {m n : Nat} (h : Nat.toDigits 10 m = Nat.toDigits 10 n) : m = n := by
  rw [← Nat.ofDigitChars_ten_toDigits (n := m), h, Nat.ofDigitChars_ten_toDigits]

theorem utf8Len_toDigits_le {n k : Nat} (hk : 0 < k) (h : n < 10 ^ k) :
    String.utf8Len (Nat.toDigits 10 n) ≤ k := by
  -- A digit takes one byte.
  have hlen : ∀ l : List Char, (∀ c ∈ l, c.isDigit = true) → String.utf8Len l = l.length := by
    intro l
    induction l with
    | nil => intro _; rfl
    | cons c l ih =>
      intro hall
      obtain ⟨hc, hl⟩ := List.forall_mem_cons.1 hall
      have hsize : c.utf8Size = 1 := by
        have hle := (Char.isDigit_iff_toNat.1 hc).2
        refine Char.utf8Size_eq_one_iff.2 (UInt32.le_iff_toNat_le.2 ?_)
        exact hle.trans (by decide)
      rw [String.utf8Len_cons, ih hl, hsize, List.length_cons]
  rw [hlen _ fun c hc => Nat.isDigit_of_mem_toDigits (by decide) (by decide) hc]
  exact (Nat.length_toDigits_le_iff (by decide) hk).2 h

/-- Two texts that agree also agree up to the first place of a character. -/
theorem append_cons_inj_of_not_mem {c : Char} {l m r r' : List Char} (hl : c ∉ l) (hm : c ∉ m)
    (h : l ++ c :: r = m ++ c :: r') : l = m ∧ r = r' := by
  induction l generalizing m with
  | nil =>
    cases m with
    | nil => exact ⟨rfl, (List.cons.inj h).2⟩
    | cons a m =>
      rw [(List.cons.inj h).1] at hm
      exact absurd List.mem_cons_self hm
  | cons a l ih =>
    cases m with
    | nil =>
      rw [← (List.cons.inj h).1] at hl
      exact absurd List.mem_cons_self hl
    | cons b m =>
      obtain ⟨rfl, htail⟩ := List.cons.inj h
      obtain ⟨rfl, rfl⟩ := ih (fun hc => hl (List.mem_cons_of_mem _ hc))
        (fun hc => hm (List.mem_cons_of_mem _ hc)) htail
      exact ⟨rfl, rfl⟩

namespace Directory

/-! ### Names -/

/-- The name of a snapshot's directory. -/
def snapshotName (id : Nat) : String := s!"chk-{id}"

/-- The name of the directory of a savepoint's states. -/
def savepointName (id : Nat) : String := s!"savepoint-{id}"

theorem snapshot_eq (base : Location) (id : Nat) :
    snapshot base id = base.child (snapshotName id) := rfl

theorem savepoint_eq (base : Location) (id : Nat) :
    savepoint base id = base.child (savepointName id) := rfl

theorem record_eq (base : Location) (id : Nat) :
    record base id = (base.child (snapshotName id)).child "_metadata" := rfl

theorem toList_snapshotName (id : Nat) :
    (snapshotName id).toList = ['c', 'h', 'k', '-'] ++ Nat.toDigits 10 id := by
  simp [snapshotName, toString]

theorem toList_savepointName (id : Nat) :
    (savepointName id).toList = "savepoint-".toList ++ Nat.toDigits 10 id := by
  simp [savepointName, toString]

theorem toList_stateName (run : TaskRun) : (stateName run).toList = "task-".toList ++
    (Nat.toDigits 10 run.vertex ++ '-' :: (Nat.toDigits 10 run.subtask ++
      '-' :: (Nat.toDigits 10 run.attempt ++ ".bin".toList))) := by
  simp [stateName, toString]

theorem snapshotName_injective {id id' : Nat} (h : snapshotName id = snapshotName id') :
    id = id' := by
  have hlist := congrArg String.toList h
  rw [toList_snapshotName, toList_snapshotName] at hlist
  exact toDigits_injective (List.append_cancel_left hlist)

theorem savepointName_injective {id id' : Nat} (h : savepointName id = savepointName id') :
    id = id' := by
  have hlist := congrArg String.toList h
  rw [toList_savepointName, toList_savepointName] at hlist
  exact toDigits_injective (List.append_cancel_left hlist)

theorem snapshotName_ne_savepointName (id id' : Nat) : snapshotName id ≠ savepointName id' := by
  intro h
  have hlist := congrArg String.toList h
  rw [toList_snapshotName, toList_savepointName] at hlist
  simp at hlist

theorem stateName_injective {run run' : TaskRun} (h : stateName run = stateName run') :
    run = run' := by
  -- There is no dash among digits, so every dash ends a number.
  have hdash : ∀ n, '-' ∉ Nat.toDigits 10 n := fun n => isDigit_ne_of_mem_toDigits (by decide)
  have hlist := congrArg String.toList h
  rw [toList_stateName, toList_stateName] at hlist
  obtain ⟨hvertex, hrest⟩ :=
    append_cons_inj_of_not_mem (hdash _) (hdash _) (List.append_cancel_left hlist)
  obtain ⟨hsubtask, hattempt⟩ := append_cons_inj_of_not_mem (hdash _) (hdash _) hrest
  obtain ⟨vertex, subtask, attempt⟩ := run
  obtain ⟨vertex', subtask', attempt'⟩ := run'
  rw [TaskRun.mk.injEq]
  exact ⟨toDigits_injective hvertex, toDigits_injective hsubtask,
    toDigits_injective (List.append_cancel_right hattempt)⟩

/-- The name of a state's file is not one that a record or its draft has. -/
theorem stateName_ne (run : TaskRun) {name : String} (h : name.toList.head? = some '_') :
    stateName run ≠ name := by
  rintro rfl
  rw [toList_stateName] at h
  simp at h

/-- The id of a snapshot can be read from the name of its directory. -/
theorem idOfName?_snapshotName {id : Nat} (h : id ≤ Word.max64) :
    idOfName? (snapshotName id) = some id := by
  have hdigits : Decimal.ofDigits? (Nat.toDigits 10 id) = some id := by
    unfold Decimal.ofDigits?
    have hempty : (Nat.toDigits 10 id).isEmpty = false := by
      rw [List.isEmpty_eq_false_iff]
      exact Nat.toDigits_ne_nil
    have hall : (Nat.toDigits 10 id).all Char.isDigit = true :=
      List.all_eq_true.2 fun c hc => Nat.isDigit_of_mem_toDigits (by decide) (by decide) hc
    simp [hempty, hall]
  unfold idOfName?
  rw [toList_snapshotName]
  show Decimal.count? Word.max64 (Nat.toDigits 10 id) = some id
  unfold Decimal.count?
  split
  · next rest heq =>
    -- Digits do not start with a sign.
    exact absurd (heq ▸ List.mem_cons_self) (isDigit_ne_of_mem_toDigits (c := '+') (by decide))
  · dsimp only
    rw [hdigits]
    simp [h]

/-- The directories of a snapshot lie below the working directory, wherever their base is. -/
theorem isAbove_snapshot (b : Path) (id : Nat) (rest : List String) :
    Path.isAbove (b ++ snapshotName id :: rest) = false := by
  have hne : ∀ name : String, name.toList.head? ≠ some 'c' → snapshotName id ≠ name := by
    rintro _ h rfl
    exact h (by rw [toList_snapshotName]; rfl)
  simp [Path.isAbove, hne ".." (by decide), hne "/" (by decide)]

theorem isAbove_savepoint (b : Path) (id : Nat) (rest : List String) :
    Path.isAbove (b ++ savepointName id :: rest) = false := by
  have hne : ∀ name : String, name.toList.head? ≠ some 's' → savepointName id ≠ name := by
    rintro _ h rfl
    exact h (by rw [toList_savepointName]; rfl)
  simp [Path.isAbove, hne ".." (by decide), hne "/" (by decide)]

/-! ### Lengths -/

theorem size_savepointName {id : Nat} (h : id ≤ Word.max64) :
    (savepointName id).utf8ByteSize ≤ 30 := by
  have hid := utf8Len_toDigits_le (k := 20) (by decide) (lt_of_le_of_lt h (by decide))
  rw [← String.utf8Len_toList, toList_savepointName, String.utf8Len_append]
  have hstart : String.utf8Len "savepoint-".toList = 10 := by decide
  omega

theorem size_child (l : Location) (name : String) :
    l.shown.utf8ByteSize ≤ (l.child name).shown.utf8ByteSize ∧
      (l.child name).shown.utf8ByteSize ≤ l.shown.utf8ByteSize + 1 + name.utf8ByteSize := by
  unfold Location.child
  dsimp only
  have hslash : "/".utf8ByteSize = 1 := by decide
  split <;> simp only [String.utf8ByteSize_append] <;> omega

end Directory

/-! ### Reaching what is there -/

namespace Location

/-- The location is not too long to be reached in the way it is written. -/
def Usable (l : Location) : Prop :=
  l.detours = none ∨ l.shown.utf8ByteSize ≤ Route.maxText

instance (l : Location) : Decidable l.Usable := inferInstanceAs (Decidable (_ ∨ _))

theorem Usable.of_child {l : Location} {name : String} (h : (l.child name).Usable) : l.Usable := by
  rcases h with hdirect | hshort
  · exact Or.inl hdirect
  · exact Or.inr ((Directory.size_child l name).1.trans hshort)

theorem path_grandchild (l : Location) (name file : String) :
    ((l.child name).child file).path = l.path ++ [name, file] :=
  List.append_assoc ..

end Location

/-- A base directory and all those on the way to it are there, and so are the directories that its
path enters and leaves again, which do not lie in it. -/
structure Disk.Hosts (d : Disk) (base : Location) : Prop where
  short : base.shown.utf8ByteSize ≤ Route.maxText
  root : ∀ q, q <+: base.path → d.node? q = some .directory
  detours : ∀ {ds : List Path}, base.detours = some ds →
    ∀ p ∈ ds, ∀ q, q <+: p → d.node? q = some .directory
  outside : ∀ {ds : List Path}, base.detours = some ds →
    ∀ p ∈ ds, ∀ name rest, p ≠ base.path ++ name :: rest

namespace Disk

variable {d d' : Disk} {base l : Location}

/-- What stays within the base directory leaves it where it is. -/
theorem Hosts.within (h : d.Hosts base) {names : List String}
    (hw : Within base.path names d d') : d'.Hosts base where
  short := h.short
  root q hq := by
    refine hw.directories ?_ (h.root q hq)
    rintro ⟨name, -, rest, rfl⟩
    obtain ⟨t, ht⟩ := hq
    have hlen := congrArg List.length ht
    simp at hlen
  detours hds p hp q hq := by
    refine hw.directories ?_ (h.detours hds p hp q hq)
    rintro ⟨name, -, rest, rfl⟩
    obtain ⟨t, rfl⟩ := hq
    exact h.outside hds _ hp name (rest ++ t) (by simp)
  outside := h.outside

/-- Only what is usable can be reached, under its path. -/
theorem usable_of_reach {p : Path} (h : d.reach l = .ok p) : l.Usable ∧ p = l.path := by
  unfold reach at h
  split at h
  · next hdirect =>
    cases h
    exact ⟨Or.inl hdirect, rfl⟩
  · split at h
    · cases h
    · next hshort =>
      split at h
      · cases h
        exact ⟨Or.inr (Nat.not_lt.1 hshort), rfl⟩
      · cases h

/-- What is usable can be reached below a base directory. -/
theorem reach_of_hosts (h : d.Hosts base) (hl : l.detours = base.detours) (hu : l.Usable) :
    d.reach l = .ok l.path := by
  unfold reach
  split
  · rfl
  · next ds hds =>
    have hsize : l.shown.utf8ByteSize ≤ Route.maxText :=
      hu.resolve_left (by rw [hds]; exact Option.some_ne_none _)
    have hclear : ds.findSome? d.barrier? = none := by
      refine List.findSome?_eq_none_iff.2 ?_
      intro p hp
      unfold barrier?
      rw [h.detours (hl.symm.trans hds) p hp p (List.prefix_refl p)]
    rw [if_neg (Nat.not_lt.2 hsize), hclear]

theorem reach_base (h : d.Hosts base) : d.reach base = .ok base.path :=
  reach_of_hosts h rfl (Or.inr h.short)

/-- What is done where a location leads, is done at its path. -/
theorem bind_reach_eq_ok {α : Type} {f : Path → Except DiskError α} {a : α}
    (h : (d.reach l).bind f = .ok a) : l.Usable ∧ f l.path = .ok a := by
  cases hreach : d.reach l with
  | error e =>
    rw [hreach] at h
    cases h
  | ok p =>
    obtain ⟨hu, rfl⟩ := usable_of_reach hreach
    rw [hreach] at h
    exact ⟨hu, h⟩

theorem isThereAt_iff (h : d.Hosts base) (hl : l.detours = base.detours) :
    d.isThereAt l = true ↔ l.Usable ∧ d.isThere l.path = true := by
  unfold isThereAt
  constructor
  · intro hthere
    split at hthere
    · next p hreach =>
      obtain ⟨hu, rfl⟩ := usable_of_reach hreach
      exact ⟨hu, hthere⟩
    · cases hthere
  · rintro ⟨hu, hthere⟩
    rw [reach_of_hosts h hl hu]
    exact hthere

end Disk

/-! ### States -/

namespace Directory

open Disk

variable {d : Disk} {base : Location} {id : Nat} {run : TaskRun} {state : Bytes}

/-- The name of the directory in which the states of a snapshot lie. -/
def statesName (d : Disk) (base : Location) (id : Nat) : String :=
  if (savepoint base id).Usable ∧ d.isThere (base.path ++ [savepointName id]) = true then
    savepointName id
  else snapshotName id

/-- The file in which the state of a participant is looked for. -/
def stateFile (d : Disk) (base : Location) (id : Nat) (run : TaskRun) : Location :=
  (base.child (statesName d base id)).child (stateName run)

/-- The state of a participant is where it is looked for. -/
structure HasState (d : Disk) (base : Location) (id : Nat) (run : TaskRun) (state : Bytes) :
    Prop where
  usable : (stateFile d base id run).Usable
  file : d.node? (base.path ++ [statesName d base id, stateName run]) = some (.file state)

theorem states_eq (h : d.Hosts base) (id : Nat) :
    states d base id = base.child (statesName d base id) := by
  unfold states statesName
  have hthere := isThereAt_iff (l := savepoint base id) h rfl
  rw [savepoint_eq, Location.path_child] at hthere
  rw [savepoint_eq]
  split
  · next hyes => rw [if_pos (hthere.1 hyes)]
  · next hno => rw [if_neg fun hboth => hno (hthere.2 hboth), snapshot_eq]

/-- A state can be loaded if and only if it is where it is looked for. -/
theorem load_eq_ok (h : d.Hosts base) :
    load d base id run = .ok state ↔ HasState d base id run state := by
  unfold load
  dsimp only
  rw [states_eq h id]
  constructor
  · intro hload
    split at hload
    · next found hread =>
      cases hload
      obtain ⟨hu, hfile⟩ := bind_reach_eq_ok hread
      rw [Location.path_grandchild] at hfile
      exact ⟨hu, readFile_eq_ok.1 hfile⟩
    · cases hload
  · intro hstate
    rw [reach_of_hosts (l := (base.child _).child _) h rfl hstate.usable,
      Location.path_grandchild]
    simp only [Except.bind, readFile_eq_ok.2 hstate.file]

end Directory
end Checkpointing
