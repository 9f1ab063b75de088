import Mathlib.Tactic
import Checkpointing.Proofs.Coordinator.Numbering
import Checkpointing.Proofs.Coordinator.RecoveryPoint
import Checkpointing.Proofs.Coordinator.Unclaimed

/-!
# Coordinators that follow each other on a directory

A coordinator that opens a directory knows of the ids of earlier runs only what is on record there.
It counts from above all records, and so from above the recovery point that was left behind.  That
is as late as every checkpoint that has completed, unless the user or the end of the job took
snapshots away: then ids are handed out once more.

* `Coordinator.OpenedOn`: a coordinator that starts on a directory, and `OpenedOn.nextId_le_iff`:
  it counts from the least id above the records;
* `Moment.Recedes`: the recovery point goes back, and `exists_recedes`: it does so only in such a
  moment;
* `ids_go_on_above_records` is the main statement, `ids_start_again_after_closing` the run in which
  an id comes back.
-/

namespace Checkpointing

open Medium Directory

/-- The coordinator starts on the directory of a path, with whatever settings. -/
inductive Coordinator.OpenedOn (text : String) (disk : Disk) (c : Coordinator) : Prop
  | intro {medium : Medium} {faults : FaultPlan} {maxRetained : Nat} {archive : Archive}
      {settings : Settings} {hasHandler : Bool}
      (opened : Medium.openDirectory text disk = .ok medium)
      (stored : Archive.open? (.of medium faults) maxRetained = .ok archive)
      (begun : Coordinator.open? settings archive hasHandler = .ok c)

/-- In this moment snapshots are taken away, and the recovery point goes back below `p`. -/
structure Moment.Recedes (m : Moment) (p : WithBot ℕ) : Prop where
  removes : m.request.removes = true
  before : p ≤ m.before.recoveryPoint
  after : m.after.recoveryPoint < p

namespace Coordinator

variable {text : String} {start disk : Disk} {base : Location} {c second : Coordinator}
  {outside : Vault → Vault → Prop} {history : List Moment}

/-! ### The end of a run -/

/-- The recovery point only goes back in a moment in which snapshots are taken away. -/
theorem exists_recedes {first : Coordinator} (h : Run outside first history c)
    (hfirst : first.Orderly) (hshelved : first.Shelved) {p : WithBot ℕ}
    (hle : p ≤ first.recoveryPoint) (hlt : c.recoveryPoint < p) : ∃ m ∈ history, m.Recedes p := by
  induction h with
  | nil => exact absurd (hle.trans_lt hlt) (lt_irrefl _)
  | @snoc past c c' vault request events reply run change step ih =>
    rcases lt_or_ge c.recoveryPoint p with hgone | hthere
    · obtain ⟨m, hm, hrecedes⟩ := ih hgone
      exact ⟨m, List.mem_append_left _ hm, hrecedes⟩
    · -- It was still there before the last step, which therefore has taken it away.
      have hc := (Orderly.of_run run hfirst).1.withVault vault
      have hs := ((Shelved.of_run run hfirst hshelved).1.withVault vault).ascending
      refine ⟨_, List.mem_append_right _ List.mem_cons_self, ?_, hthere, hlt⟩
      by_contra hkeeps
      have hstays := recoveryPoint_le_step hc hs step (by simpa using hkeeps)
      exact absurd ((hthere.trans hstays).trans_lt hlt) (lt_irrefl _)

/-! ### The start of the next one -/

section

variable (hlocate : start.locate text = .ok base) (hbase : start.node? base.path = some .directory)
  (hempty : start.listing base.path = [])

include hlocate hbase hempty

theorem OpenedOn.tended (hd : Catalog start base disk) (h : c.OpenedOn text disk) :
    c.Tended start base ∧ c.nextId = c.archive.seed ∧
      ∀ s, s ∈ c.archive.snapshots ↔ Filed disk base s := by
  obtain ⟨opened, stored, begun⟩ := h
  cases (openDirectory_of_since hlocate hbase hempty hd.since).symm.trans opened
  obtain ⟨a, hopen, -, -, -, hlive⟩ := hd.toLegible.open? _ _
  cases hopen.symm.trans stored
  obtain ⟨htended, rfl⟩ := tended_of_open hd stored begun
  exact ⟨htended, nextId_of_open begun, hlive⟩

/-- A coordinator counts from the least id above the records in its directory. -/
theorem OpenedOn.nextId_le_iff (hd : Catalog start base disk) (h : c.OpenedOn text disk) {i : Nat} :
    c.nextId ≤ i ↔ 0 < i ∧ ∀ s, Filed disk base s → s.id < i := by
  obtain ⟨htended, hnext, hlive⟩ := h.tended hlocate hbase hempty hd
  rw [hnext, Archive.seed_le_iff htended.shelved.ascending]
  simp only [hlive]

/-- A coordinator counts from above the recovery point of the one before it. -/
theorem OpenedOn.recoveryPoint_lt (hd : Catalog start base disk) (h : second.OpenedOn text disk)
    (hc : c.Tended start base) (hleft : c.archive.vault.medium = .directory base disk) :
    c.recoveryPoint < (second.nextId : WithBot ℕ) := by
  unfold recoveryPoint
  cases hlatest : c.archive.latest? with
  | none => exact WithBot.bot_lt_coe _
  | some latest =>
    obtain ⟨t, hfiled, hid⟩ := hc.filed hleft (Retention.mem_of_latest? hlatest)
    have hlt := ((h.nextId_le_iff hlocate hbase hempty hd).1 le_rfl).2 t hfiled
    rw [hid] at hlt
    exact WithBot.coe_lt_coe.2 hlt

end

end Coordinator

/-- The ids of a coordinator go on above the records that it finds.  On a directory that archives
have written, a coordinator runs in any way, also until it is closed, and another one opens what it
leaves behind.  This one hands out ids as low as a given one exactly if it hands out any, and no
record as late is left.  So its ids are above the recovery point of the first run, and above every
checkpoint that had completed there, unless the recovery point went back below that checkpoint
later, when a savepoint was disposed of or the coordinator was closed. -/
theorem ids_go_on_above_records {text : String} {start disk disk' : Disk} {base : Location}
    {first c second c' : Coordinator} {history later : List Moment}
    {outside : Vault → Vault → Prop} (hlocate : start.locate text = .ok base)
    (hbase : start.node? base.path = some .directory) (hempty : start.listing base.path = [])
    (hwritten : Written text start disk) (hfirst : first.OpenedOn text disk)
    (hrun : Run SameMedium first history c)
    (hfits : ∀ m ∈ history, m.request.Fits ∧ m.before.tasks.size ≤ Word.max64)
    (hleft : c.archive.vault.medium = .directory base disk') (hsecond : second.OpenedOn text disk')
    (hlater : Run outside second later c') :
    (∀ i, (∃ id ∈ handedOut later, id ≤ i) ↔
      handedOut later ≠ [] ∧ 0 < i ∧ ∀ s, Filed disk' base s → s.id < i) ∧
    (∀ id ∈ handedOut later, c.recoveryPoint < id) ∧
    ∀ past m future, history = past ++ m :: future → ∀ i, m.Completed i →
      (∀ id ∈ handedOut later, i < id) ∨ ∃ m' ∈ future, m'.Recedes i := by
  have hd := catalog_of_written hlocate hbase hempty hwritten
  obtain ⟨hstart, -⟩ := hfirst.tended hlocate hbase hempty hd
  obtain ⟨htended, hall⟩ := Coordinator.tended_of_run hrun hstart hfits
  -- The first run leaves a directory that can be opened again,
  obtain ⟨d, hm, hd'⟩ := htended.cataloged
  cases hm.symm.trans hleft
  -- and the second one counts from above what is on record there.
  obtain ⟨hnext, -⟩ := hsecond.tended hlocate hbase hempty hd'
  have hreach : ∀ i, (∃ id ∈ handedOut later, id ≤ i) ↔
      handedOut later ≠ [] ∧ second.nextId ≤ i := fun i =>
    Coordinator.exists_handedOut_le_iff hlater hnext.orderly hnext.shelved
  have hpoint : ∀ id ∈ handedOut later, c.recoveryPoint < id := fun id hid =>
    (hsecond.recoveryPoint_lt hlocate hbase hempty hd' htended hleft).trans_le
      (WithBot.coe_le_coe.2 ((hreach id).1 ⟨id, hid, le_rfl⟩).2)
  refine ⟨fun i => ?_, hpoint, ?_⟩
  · rw [hreach, hsecond.nextId_le_iff hlocate hbase hempty hd']
  · rintro past m future rfl i hcompleted
    have hin : m ∈ past ++ m :: future := List.mem_append_right _ List.mem_cons_self
    obtain ⟨hbefore, hafter⟩ := hall m hin
    obtain ⟨-, -, -, -, -, hstep, hfuture⟩ := hrun.moment
    have hconsumed := Coordinator.le_recoveryPoint_of_completed hbefore.orderly
      hbefore.shelved.ascending hstep hcompleted
    rcases lt_or_ge c.recoveryPoint i with hgone | hthere
    · exact Or.inr
        (Coordinator.exists_recedes hfuture hafter.orderly hafter.shelved hconsumed hgone)
    · exact Or.inl fun id hid => WithBot.coe_lt_coe.1 (hthere.trans_lt (hpoint id hid))

/-- An archive that keeps one snapshot in the empty directory of `workDisk`. -/
def workArchive : Archive := ⟨.of (.directory workBase workDisk) .none, .empty 1⟩

theorem openedOn_workDisk {c : Coordinator}
    (h : Coordinator.open? .default workArchive false = .ok c) : c.OpenedOn "d" workDisk := by
  have hopened : Medium.openDirectory "d" workDisk = .ok (.directory workBase workDisk) :=
    openDirectory_of_since (by cbv) rfl (by cbv) fun _ hdir => hdir
  exact .intro hopened (by cbv : Archive.open? (.of _ .none) 1 = .ok workArchive) h

/-- The requests of a run that claims a checkpoint and triggers the next one. -/
def nextRequests : List Request :=
  [.restore .claim, .register ⟨1, 0, 1⟩ .running, .trigger (.ofRetention .neverAfterTermination) 30]

/-- The run that follows on one which was dropped hands out ids above its checkpoint. -/
theorem ids_go_on_above_records_after_drop : ∃ (first : Coordinator) (past : List Moment)
    (m : Moment) (c second : Coordinator) (later : List Moment) (c' : Coordinator),
    first.OpenedOn "d" workDisk ∧ first.perform earlierRequests = (past ++ [m], c) ∧
    m.Completed 1 ∧ second.OpenedOn "d" recordedDisk ∧
    second.perform nextRequests = (later, c') ∧ handedOut later = [2] ∧
    ∀ id ∈ handedOut later, 1 < id := by
  have hlocate : workDisk.locate "d" = .ok workBase := by cbv
  have hempty : workDisk.listing ["d"] = [] := by cbv
  obtain ⟨first, past, m, c, hbegun, hperform, hcompleted, hfits, hleft⟩ :
      ∃ first past m c, Coordinator.open? .default workArchive false = .ok first ∧
        first.perform earlierRequests = (past ++ [m], c) ∧ m.Completed 1 ∧
        (∀ m' ∈ (first.perform earlierRequests).1,
          m'.request.Fits ∧ m'.before.tasks.size ≤ Word.max64) ∧
        c.archive.vault.medium = .directory workBase recordedDisk :=
    ⟨_, [_, _], _, _, rfl, rfl, ⟨rfl, _, _, _, rfl⟩, by decide +kernel, rfl⟩
  have hfirst := openedOn_workDisk hbegun
  have hrun := Run.of_perform SameMedium.refl first earlierRequests
  rw [hperform] at hfits hrun
  obtain ⟨second, later, c', hbegun', hperform', hids⟩ : ∃ second later c',
      Coordinator.open? .default recordedArchive false = .ok second ∧
      second.perform nextRequests = (later, c') ∧ handedOut later = [2] :=
    ⟨_, _, _, rfl, rfl, rfl⟩
  have hsecond : second.OpenedOn "d" recordedDisk := by
    have hstart := (hfirst.tended hlocate rfl hempty (catalog_of_empty hlocate rfl hempty)).1
    obtain ⟨d, hm, hd⟩ := (Coordinator.tended_of_run hrun hstart hfits).1.cataloged
    cases hm.symm.trans hleft
    exact .intro (openDirectory_of_since hlocate rfl hempty hd.since) open?_recordedDisk hbegun'
  have hlater := Run.of_perform SameMedium.refl second nextRequests
  rw [hperform'] at hlater
  obtain ⟨-, -, hall⟩ :=
    ids_go_on_above_records hlocate rfl hempty .start hfirst hrun hfits hleft hsecond hlater
  refine ⟨first, past, m, c, second, later, c', hfirst, hperform, hcompleted, hsecond, hperform',
    hids, ?_⟩
  rcases hall past m [] rfl 1 hcompleted with habove | ⟨m', hm', -⟩
  · exact habove
  · cases hm'

/-- When the end of the job takes its only checkpoint away, the next coordinator hands out the id of
that checkpoint once more. -/
theorem ids_start_again_after_closing : ∃ (first : Coordinator) (history : List Moment)
    (c second : Coordinator) (later : List Moment) (c' : Coordinator),
    first.OpenedOn "d" workDisk ∧ Run SameMedium first history c ∧
    (∃ m ∈ history, m.Completed 1) ∧ c.archive.vault.medium = .directory workBase workDisk ∧
    second.OpenedOn "d" workDisk ∧ Run SameMedium second later c' ∧ handedOut later = [1] := by
  obtain ⟨c, hbegun, hcompleted, hleft, hids⟩ : ∃ c,
      Coordinator.open? .default workArchive false = .ok c ∧
      (∃ m ∈ (c.perform (earlierRequests ++ [.close .finished])).1, m.Completed 1) ∧
      (c.perform (earlierRequests ++ [.close .finished])).2.archive.vault.medium =
        .directory workBase workDisk ∧
      handedOut (c.perform nextRequests).1 = [1] :=
    ⟨_, rfl, ⟨_, List.mem_of_getElem? (i := 2) rfl, rfl, _, _, _, rfl⟩, rfl, rfl⟩
  have hopened := openedOn_workDisk hbegun
  exact ⟨c, _, _, c, _, _, hopened, .of_perform SameMedium.refl c _, hcompleted, hleft, hopened,
    .of_perform SameMedium.refl c nextRequests, hids⟩

end Checkpointing
