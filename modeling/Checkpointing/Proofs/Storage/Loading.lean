import Mathlib
import Checkpointing.Proofs.Storage.Catalog
import Checkpointing.Proofs.Storage.Sparing

/-!
# What can be loaded

A medium is asked to keep, load and throw away states, and for the addresses of savepoints.  What
can be loaded from it is told by the calls alone: the state that was kept last, unless its snapshot
was thrown away since.  So it makes no difference whether the medium is a directory or memory.

* `Medium.Call` is what a medium can be asked, `Medium.serve` answers calls one after the other;
* `Medium.kept` reads off the calls what is kept;
* `Medium.addressesFirst`: a savepoint is given its address before states are kept for it;
* `Medium.Loads` says that what can be loaded is what was kept, `Loads.answer` and `Loads.serve`
  keep it;
* `directory_loads_like_memory` is the main statement.
-/

namespace Checkpointing

open Directory

namespace Directory

open Disk

variable {d d' : Disk} {base : Location} {id : Nat} {run : TaskRun} {state : Bytes}

/-- A state whose file is not touched is there if and only if it was. -/
theorem hasState_iff_of_touches {touched : String → String → Prop}
    (ht : Touches base id touched d d') (hout : ∀ name, ¬touched name (stateName run)) :
    HasState d' base id run state ↔ HasState d base id run state := by
  refine ⟨fun h => ?_, fun h => h.touches ht hout⟩
  obtain ⟨hu, hfile⟩ := h
  rw [stateFile, ht.states] at hu
  rw [ht.states, ht.files (hout _)] at hfile
  exact ⟨hu, hfile⟩

/-- Giving a savepoint an address brings no states to light. -/
theorem hasState_of_address (h : d.Hosts base) (ht : Tidy d base.path) {policy : SnapshotPolicy}
    {pointer : Option String} (ha : address d base id policy = (d', pointer))
    (hs : HasState d' base id run state) : HasState d base id run state := by
  have hfiles := (fills_address h ha).1.files
  obtain ⟨hu, hfile⟩ := hs
  rw [hfiles] at hfile
  -- The states lie where they lay before, or there are none where they are looked for now.
  have hsame : statesName d base id = statesName d' base id := by
    unfold address at ha
    split at ha
    · split at ha
      · next hcreate =>
        cases ha
        have hdir := node?_createDirectoriesAt_self hcreate
        unfold statesName at hfile ⊢
        split at hfile
        · next hthere =>
          rw [if_pos hthere, if_pos ⟨hthere.1, isThere_iff.2 ⟨_, ht.nested hfile⟩⟩]
        · next hout =>
          have hlong : ¬(savepoint base id).Usable :=
            fun hshort => hout ⟨hshort, isThere_iff.2 ⟨_, hdir⟩⟩
          rw [if_neg hout, if_neg fun hthere => hlong hthere.1]
      · cases ha
        rfl
    · cases ha
      rfl
  rw [stateFile, ← hsame] at hu
  rw [← hsame] at hfile
  exact ⟨hu, hfile⟩

end Directory

namespace Medium

/-- What a medium can be asked about states. -/
inductive Call where
  | persist (id : Nat) (run : TaskRun) (state : Bytes)
  | load (id : Nat) (run : TaskRun)
  | discard (id : Nat)
  | address (id : Nat) (policy : SnapshotPolicy)
deriving Repr, DecidableEq

/-- What a medium answers. -/
inductive Answer where
  /-- It was done, unless something failed. -/
  | done (failure : Option StorageFailure)
  | loaded (found : Except StorageFailure Bytes)
  | address (text : Option String)

/-- Answers a call. -/
def answer (m : Medium) : Call → Medium × Answer
  | .persist id run state => ((m.persist id run state).1, .done (m.persist id run state).2)
  | .load id run => (m, .loaded (m.load id run))
  | .discard id => ((m.discard id).1, .done (m.discard id).2)
  | .address id policy => ((m.address id policy).1, .address (m.address id policy).2)

/-- Answers calls one after the other. -/
def serve (m : Medium) : List Call → List Answer × Medium
  | [] => ([], m)
  | call :: rest =>
    let (m, answer) := m.answer call
    let (answers, m) := m.serve rest
    (answer :: answers, m)

/-- Something that was to be kept or thrown away was not. -/
def Answer.isFailure : Answer → Bool
  | .done failure => failure.isSome
  | _ => false

/-- What came of an attempt to load a state: the state, or nothing. -/
def Answer.found? : Answer → Option (Option Bytes)
  | .loaded found => some found.toOption
  | _ => none

/-! ### What the calls tell -/

/-- What is kept of a participant's state after a call that is about it. -/
def Call.effect? (id : Nat) (run : TaskRun) : Call → Option (Option Bytes)
  | .persist i r state => if i = id ∧ r = run then some (some state) else none
  | .discard i => if i = id then some none else none
  | _ => none

/-- What is kept of a participant's state after calls: the last one that is about it decides. -/
def kept (id : Nat) (run : TaskRun) (calls : List Call) : Option Bytes :=
  (calls.filterMap (Call.effect? id run)).getLast?.join

/-- The call throws a snapshot away. -/
def Call.discards (id : Nat) : Call → Bool
  | .discard i => i == id
  | _ => false

/-- The call asks for the address of a savepoint. -/
def Call.addresses (id : Nat) : Call → Bool
  | .address i policy => i == id && policy.isSavepoint
  | _ => false

/-- The snapshot is thrown away before the address of a savepoint with its id is asked for. -/
def isClear (id : Nat) (calls : List Call) : Bool :=
  (calls.takeWhile fun call => !call.discards id).all fun call => !call.addresses id

/-- No address of a savepoint is asked for once a state was kept for it and not thrown away
since. -/
def addressesFirst : List Call → Bool
  | [] => true
  | .persist id _ _ :: rest => isClear id rest && addressesFirst rest
  | _ :: rest => addressesFirst rest

variable {m m' : Medium} {calls past : List Call} {call : Call} {id i : Nat} {run r : TaskRun}
  {state b : Bytes} {policy : SnapshotPolicy}

theorem serve_cons (m : Medium) (call : Call) (rest : List Call) :
    m.serve (call :: rest) =
      ((m.answer call).2 :: ((m.answer call).1.serve rest).1,
        ((m.answer call).1.serve rest).2) := rfl

theorem kept_concat (id : Nat) (run : TaskRun) (calls : List Call) (call : Call) :
    kept id run (calls ++ [call]) = (call.effect? id run).getD (kept id run calls) := by
  rw [kept, List.filterMap_append]
  cases heffect : call.effect? id run <;> simp [heffect, kept]

theorem isClear_of_cons (h : isClear id (call :: calls) = true) (hcall : call.discards id = false) :
    call.addresses id = false ∧ isClear id calls = true := by
  simpa [isClear, List.takeWhile_cons, hcall] using h

theorem addressesFirst_of_cons (h : addressesFirst (call :: calls) = true) :
    addressesFirst calls = true := by
  cases call with
  | persist id run state =>
    rw [addressesFirst, Bool.and_eq_true] at h
    exact h.2
  | _ => exact h

/-! ### One call -/

/-- A state that was kept without a failure can be loaded, and those of the others as before. -/
theorem persist_of_housed (h : m.Housed) (hdone : (m.persist id run state).2 = none) :
    (m.persist id run state).1.Housed ∧ ∀ r b, (m.persist id run state).1.load id r = .ok b ↔
      if r = run then b = state else m.load id r = .ok b := by
  cases h with
  | memory states =>
    refine ⟨.memory _, fun r b => ?_⟩
    rw [load_persist ⟨states, rfl⟩]
    simp only [true_and]
  | directory hosts tidy =>
    rename_i base d
    rcases hpersist : Directory.persist d base id run state with ⟨d', outcome⟩
    obtain ⟨htouches, hstate⟩ := touches_persist hosts hpersist
    have he : (directory base d).persist id run state = (directory base d', outcome) := by
      simp only [persist, hpersist]
    rw [he] at hdone ⊢
    have hhosts := hosts.within htouches.within
    refine ⟨.directory hhosts (htouches.tidy tidy), fun r b => ?_⟩
    refine (load_eq_ok hhosts).trans ?_
    by_cases hrun : r = run
    · subst hrun
      rw [if_pos rfl]
      have hkept := hstate hdone
      constructor
      · intro hother
        cases hkept.file.symm.trans hother.file
        rfl
      · rintro rfl
        exact hkept
    · rw [if_neg hrun]
      refine Iff.trans ?_ (load_eq_ok hosts).symm
      exact hasState_iff_of_touches htouches fun _ hname => hrun (stateName_injective hname)

/-- A savepoint of which nothing is kept can be given an address, and nothing is kept of it then. -/
theorem address_of_housed (h : m.Housed)
    (hnone : policy.isSavepoint = true → ∀ r b, m.load id r ≠ .ok b) :
    (m.address id policy).1.Housed ∧
      ∀ r b, (m.address id policy).1.load id r = .ok b ↔ m.load id r = .ok b := by
  cases h with
  | memory states => exact ⟨.memory _, fun r b => Iff.rfl⟩
  | directory hosts tidy =>
    rename_i base d
    rcases haddress : Directory.address d base id policy with ⟨d', pointer⟩
    have hfills := (fills_address hosts haddress).1
    have hhosts := hosts.within hfills.within
    have he : (directory base d).address id policy = (directory base d', pointer) := by
      simp only [address, haddress]
    rw [he]
    refine ⟨.directory hhosts (hfills.tidy tidy), fun r b => ?_⟩
    cases hsavepoint : policy.isSavepoint with
    | false =>
      rw [Directory.address, hsavepoint] at haddress
      cases haddress
      exact Iff.rfl
    | true =>
      have hbefore : (directory base d).load id r ≠ .ok b := hnone hsavepoint r b
      refine iff_of_false (fun hload => hbefore ?_) hbefore
      refine (load_eq_ok hosts).2 ?_
      exact hasState_of_address hosts tidy haddress ((load_eq_ok hhosts).1 hload)

/-- What can be loaded from the medium is what calls have kept. -/
structure Loads (m : Medium) (past : List Call) : Prop where
  housed : m.Housed
  load_iff : ∀ id run state, m.load id run = .ok state ↔ kept id run past = some state

namespace Loads

theorem toOption_load (h : Loads m past) (id : Nat) (run : TaskRun) :
    (m.load id run).toOption = kept id run past := by
  refine Option.ext fun state => ?_
  rw [← h.load_iff]
  cases m.load id run <;> simp [Except.toOption]

/-- A call about one snapshot leaves what can be loaded of the others. -/
theorem of_spares (h : Loads m past) (hspares : ∀ i, i ≠ id → Spares i m m') (hm : m'.Housed)
    (heffect : ∀ i run, i ≠ id → call.effect? i run = none)
    (hown : ∀ run state, m'.load id run = .ok state ↔ kept id run (past ++ [call]) = some state) :
    Loads m' (past ++ [call]) := by
  refine ⟨hm, fun i run state => ?_⟩
  by_cases hid : i = id
  · rw [hid]
    exact hown run state
  · rw [kept_concat, heffect i run hid, Option.getD_none, (hspares i hid).load h.housed]
    exact h.load_iff i run state

/-- A call that does not fail keeps, throws away or finds what it should, in whatever medium. -/
theorem answer (h : Loads m past) (hfine : (m.answer call).2.isFailure = false)
    (hclear : ∀ id run, call.addresses id = true → kept id run past = none) :
    Loads (m.answer call).1 (past ++ [call]) := by
  cases call with
  | persist id run state =>
    have hdone : (m.persist id run state).2 = none := by
      simpa [Medium.answer, Answer.isFailure] using hfine
    obtain ⟨hhoused, hload⟩ := persist_of_housed h.housed hdone
    refine h.of_spares (fun i hne => spares_persist h.housed run state hne) hhoused
      (fun i r hne => by simp [Call.effect?, Ne.symm hne]) fun r b => ?_
    refine (hload r b).trans ?_
    rw [kept_concat, h.load_iff]
    by_cases hrun : r = run
    · simp [Call.effect?, hrun, eq_comm]
    · simp [Call.effect?, hrun, Ne.symm hrun]
  | load id run =>
    refine ⟨h.housed, fun i r b => ?_⟩
    rw [kept_concat]
    exact h.load_iff i r b
  | discard id =>
    have hspares : ∀ i, i ≠ id → Spares i m (m.discard id).1 := fun i hne => spares_discard m hne
    have hnone := (discard_of_housed h.housed id).2
    refine h.of_spares hspares ((hspares (id + 1) (Nat.succ_ne_self id)).housed h.housed)
      (fun i r hne => by simp [Call.effect?, Ne.symm hne]) fun r b => ?_
    rw [kept_concat]
    exact iff_of_false (hnone r b) (by simp [Call.effect?])
  | address id policy =>
    have hnone : policy.isSavepoint = true → ∀ r b, m.load id r ≠ .ok b := by
      intro hsavepoint r b hload
      rw [h.load_iff, hclear id r (by simp [Call.addresses, hsavepoint])] at hload
      cases hload
    obtain ⟨hhoused, hload⟩ := address_of_housed h.housed hnone
    refine h.of_spares (fun i hne => spares_address h.housed policy hne) hhoused
      (fun _ _ _ => rfl) fun r b => ?_
    rw [kept_concat]
    exact (hload r b).trans (h.load_iff id r b)

/-- Media from which the same can be loaded answer alike. -/
theorem found?_answer (h : Loads m past) (h' : Loads m' past) (call : Call) :
    (m.answer call).2.found? = (m'.answer call).2.found? := by
  cases call with
  | load id run =>
    have hsame := (h.toOption_load id run).trans (h'.toOption_load id run).symm
    exact congrArg some hsame
  | _ => rfl

/-! ### Many calls -/

/-- An address is asked for before anything is kept if the calls that are still to come are clear of
what is kept. -/
theorem clear_of_cons (hfirst : addressesFirst (call :: calls) = true)
    (hclear : ∀ id run, kept id run past ≠ none → isClear id (call :: calls) = true) :
    (∀ id run, call.addresses id = true → kept id run past = none) ∧
      ∀ id run, kept id run (past ++ [call]) ≠ none → isClear id calls = true := by
  constructor
  · intro id run haddress
    by_contra hkept
    have hdiscard : call.discards id = false := by
      cases call with
      | address => rfl
      | _ => cases haddress
    rw [(isClear_of_cons (hclear id run hkept) hdiscard).1] at haddress
    cases haddress
  · intro id run hkept
    rw [kept_concat] at hkept
    cases heffect : call.effect? id run with
    | none =>
      -- The call is not about the state, so it was kept before.
      rw [heffect] at hkept
      refine (isClear_of_cons (hclear id run hkept) ?_).2
      cases call with
      | discard i =>
        by_contra hdiscard
        simp_all [Call.discards, Call.effect?]
      | _ => rfl
    | some now =>
      cases call with
      | persist i r state =>
        have hid : i = id := by
          by_contra hne
          simp [Call.effect?, hne] at heffect
        rw [addressesFirst, Bool.and_eq_true, hid] at hfirst
        exact hfirst.1
      | discard i =>
        have hgone : now = none := by
          simp only [Call.effect?] at heffect
          split at heffect <;> cases heffect
          rfl
        rw [heffect, hgone] at hkept
        exact absurd rfl hkept
      | _ => cases heffect

/-- Calls that do not fail are answered alike by media from which the same can be loaded. -/
theorem serve (h : Loads m past) (h' : Loads m' past) (hfirst : addressesFirst calls = true)
    (hclear : ∀ id run, kept id run past ≠ none → isClear id calls = true)
    (hfine : ∀ answer ∈ (m.serve calls).1, answer.isFailure = false)
    (hfine' : ∀ answer ∈ (m'.serve calls).1, answer.isFailure = false) :
    (m.serve calls).1.map Answer.found? = (m'.serve calls).1.map Answer.found? ∧
      Loads (m.serve calls).2 (past ++ calls) ∧ Loads (m'.serve calls).2 (past ++ calls) := by
  induction calls generalizing m m' past with
  | nil =>
    rw [List.append_nil]
    exact ⟨rfl, h, h'⟩
  | cons call calls ih =>
    obtain ⟨haddress, hrest⟩ := clear_of_cons hfirst hclear
    rw [serve_cons, List.forall_mem_cons] at hfine hfine'
    have hnext := h.answer hfine.1 haddress
    have hnext' := h'.answer hfine'.1 haddress
    obtain ⟨hsame, hlast, hlast'⟩ :=
      ih hnext hnext' (addressesFirst_of_cons hfirst) hrest hfine.2 hfine'.2
    rw [List.append_assoc] at hlast hlast'
    refine ⟨?_, hlast, hlast'⟩
    rw [serve_cons, serve_cons, List.map_cons, List.map_cons, h.found?_answer h', hsame]

end Loads

/-- In memory nothing fails. -/
theorem serve_inMemory (h : m.InMemory) (calls : List Call) :
    ∀ answer ∈ (m.serve calls).1, answer.isFailure = false := by
  induction calls generalizing m with
  | nil => simp [serve]
  | cons call calls ih =>
    have hone : (m.answer call).1.InMemory ∧ (m.answer call).2.isFailure = false := by
      cases call with
      | persist id run state =>
        obtain ⟨hmemory, hdone⟩ := h.persist id run state
        exact ⟨hmemory, by simp [answer, hdone, Answer.isFailure]⟩
      | load id run => exact ⟨h, rfl⟩
      | discard id =>
        obtain ⟨hmemory, hdone⟩ := h.discard id
        exact ⟨hmemory, by simp [answer, hdone, Answer.isFailure]⟩
      | address id policy =>
        refine ⟨?_, rfl⟩
        rw [answer, h.address]
        exact h
    rw [serve_cons]
    exact List.forall_mem_cons.2 ⟨hone.2, ih hone.1⟩

/-- A directory is as good as memory.  Let calls be made on a directory that is empty, with none
failing that keeps or throws away, and let no savepoint be given its address once states are kept
for it.  Then every attempt to load a state finds the same as if the calls were made on memory.
What is found is what the calls about this very state say: the state that was kept last, unless its
snapshot was thrown away since; calls about other snapshots or other participants make no
difference. -/
theorem directory_loads_like_memory {start : Disk} {base : Location} {text : String}
    (hlocate : start.locate text = .ok base) (hbase : start.node? base.path = some .directory)
    (hempty : start.listing base.path = []) (hfirst : addressesFirst calls = true)
    (hfine : ∀ answer ∈ ((directory base start).serve calls).1, answer.isFailure = false) :
    ((directory base start).serve calls).1.map Answer.found? =
      ((memory ∅).serve calls).1.map Answer.found? ∧
    ∀ id run, (((directory base start).serve calls).2.load id run).toOption = kept id run calls ∧
      (((memory ∅).serve calls).2.load id run).toOption = kept id run calls := by
  have htidy := tidy_of_empty hempty
  have hhosts := Disk.hosts_of_locate hlocate hbase hempty
  have hdirectory : Loads (directory base start) [] := by
    refine ⟨.directory hhosts htidy, fun id run state => ?_⟩
    refine iff_of_false (fun hload => ?_) (by simp [kept])
    have hstate := (load_eq_ok hhosts).1 hload
    refine absurd rfl (Disk.not_below_of_listing hempty ?_ hstate.file _ _)
    unfold statesName
    split
    · exact isAbove_savepoint _ _ _
    · exact isAbove_snapshot _ _ _
  have hmemory : Loads (memory ∅) [] := by
    refine ⟨.memory _, fun id run state => ?_⟩
    rw [load_memory]
    simp [kept]
  obtain ⟨hsame, hlast, hlast'⟩ := hdirectory.serve hmemory hfirst
    (fun id run hkept => absurd rfl hkept) hfine (serve_inMemory ⟨∅, rfl⟩ calls)
  exact ⟨hsame, fun id run => ⟨hlast.toOption_load id run, hlast'.toOption_load id run⟩⟩

/-- A checkpoint's state is written over; a savepoint is given its address, keeps a state, is thrown
away, and keeps another one in the directory of a checkpoint. -/
def mixedCalls : List Call :=
  [.persist 1 ⟨1, 0, 0⟩ [7], .address 2 (.savepoint true .canonical), .persist 2 ⟨1, 0, 0⟩ [8],
    .persist 1 ⟨1, 0, 0⟩ [9], .load 1 ⟨1, 0, 0⟩, .load 2 ⟨1, 0, 0⟩, .load 2 ⟨1, 0, 1⟩, .discard 2,
    .load 2 ⟨1, 0, 0⟩, .persist 2 ⟨1, 0, 1⟩ [], .load 2 ⟨1, 0, 1⟩, .load 1 ⟨1, 0, 0⟩]

/-- The same is found in a directory and in memory, whether it lies in the directory of a checkpoint
or of a savepoint. -/
theorem directory_loads_like_memory_of_savepoint :
    ((directory ⟨"d", ["d"], none⟩ ⟨[(["d"], .directory)]⟩).serve mixedCalls).1.map Answer.found? =
      ((memory ∅).serve mixedCalls).1.map Answer.found? ∧
    ((memory ∅).serve mixedCalls).1.filterMap Answer.found? =
      [some [9], some [8], none, none, some [], some [9]] ∧
    (((directory ⟨"d", ["d"], none⟩ ⟨[(["d"], .directory)]⟩).serve mixedCalls).2.load
      2 ⟨1, 0, 1⟩).toOption = some [] := by
  have hlocate : (⟨[(["d"], .directory)]⟩ : Disk).locate "d" = .ok ⟨"d", ["d"], none⟩ := by cbv
  have hempty : (⟨[(["d"], .directory)]⟩ : Disk).listing ["d"] = [] := by cbv
  have hfirst : addressesFirst mixedCalls = true := by decide
  have hfine : ∀ answer ∈
      ((directory ⟨"d", ["d"], none⟩ ⟨[(["d"], .directory)]⟩).serve mixedCalls).1,
      answer.isFailure = false := by decide +kernel
  obtain ⟨hsame, hload⟩ := directory_loads_like_memory hlocate rfl hempty hfirst hfine
  exact ⟨hsame, by decide +kernel, (hload 2 ⟨1, 0, 1⟩).1⟩

end Medium
end Checkpointing
