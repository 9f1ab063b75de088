import Mathlib
import Checkpointing.Proofs.Coordinator.Shelf
import Checkpointing.Proofs.Storage.Reopening

/-!
# Recoverability across restarts

Runs on one base directory follow each other: each one opens the directory, performs any requests
in which storage refuses whatever it likes, and is dropped at any point.  Whatever they leave behind
can be opened again, and all states of the snapshots found there can be loaded.

* `Round.Fits`, `recordable_draft`: what the words of a record can hold, from the requests to the
  snapshot;
* `Coordinator.Fitting`: everything that may come into a record fits it, so that
  `Fitting.recordable`: the snapshot of a full round has a record;
* `Coordinator.Recoverable` is the invariant of a coordinator: the records on its disk can be
  recovered, and they are only of ids whose rounds are over;
* `Recoverable.step` keeps it, `recoverable_of_open` starts it over in the next run;
* `recoverable_after_restarts` is the main statement.
-/

namespace Checkpointing

open Directory

/-! ### What fits -/

/-- The numbers that come with a request fit their words. -/
def Request.Fits : Request → Prop
  | .register run _ | .update run _ => run.Fits
  | .trigger _ now => Word.IsSigned now
  | .acknowledge _ _ state now => state.length ≤ Word.max64 ∧ Word.IsSigned now
  | _ => True

instance : DecidablePred Request.Fits
  | .register run _ => inferInstanceAs (Decidable run.Fits)
  | .update run _ => inferInstanceAs (Decidable run.Fits)
  | .trigger _ now => inferInstanceAs (Decidable (Word.IsSigned now))
  | .acknowledge .. => inferInstanceAs (Decidable (_ ∧ _))
  | .decline .. => inferInstanceAs (Decidable True)
  | .expire _ => inferInstanceAs (Decidable True)
  | .restore _ => inferInstanceAs (Decidable True)
  | .dispose _ => inferInstanceAs (Decidable True)
  | .close _ => inferInstanceAs (Decidable True)

namespace Round

/-- The numbers of a round fit the words of a record. -/
structure Fits (r : Round) : Prop where
  triggeredAt : Word.IsSigned r.triggeredAt
  participants : ∀ run ∈ r.expected, run.Fits
  count : r.expected.length ≤ Word.max64
  handles : ∀ e ∈ r.acked.entries, e.2.length ≤ Word.max64

variable {r r' : Round} {run : TaskRun} {state : Bytes}

theorem fits_start {id : Nat} {policy : SnapshotPolicy} {now : Int} {participants : List TaskRun}
    {listeners : List Listener} (hnow : Word.IsSigned now) (hruns : ∀ run ∈ participants, run.Fits)
    (hcount : participants.length ≤ Word.max64) :
    (start id policy now participants listeners).takeFuture.Fits where
  triggeredAt := hnow
  participants run hrun := hruns run (TaskRun.mem_sortDistinct.1 hrun)
  count := by
    have hnodup : (TaskRun.sortDistinct participants).Nodup := Table.nodup_keys _
    have hsub : TaskRun.sortDistinct participants ⊆ participants :=
      fun run hrun => TaskRun.mem_sortDistinct.1 hrun
    exact (List.subperm_of_subset hnodup hsub).length_le.trans hcount
  handles := by simp [start, takeFuture, EmptyCollection.emptyCollection, Table.empty]

theorem Fits.record (h : r.Fits) (hstate : state.length ≤ Word.max64) :
    (r.record run state).Fits where
  triggeredAt := h.triggeredAt
  participants := h.participants
  count := h.count
  handles := by
    rintro ⟨other, bytes⟩ he
    have hfind := (Table.mem_entries_iff _).1 he
    simp only [Round.record, Table.find?_insert] at hfind
    split at hfind
    · cases hfind
      exact hstate
    · exact h.handles (other, bytes) ((Table.mem_entries_iff _).2 hfind)

theorem Fits.acknowledge (h : r.Fits) (hstate : state.length ≤ Word.max64) :
    (r.acknowledge run state).1.Fits := by
  rcases acknowledge_cases r run state with ⟨-, he⟩ | ⟨-, -, he⟩ | ⟨-, -, -, he⟩ <;> rw [he]
  · exact h
  · exact h
  · exact h.record hstate

end Round

namespace Coordinator

variable {start d : Disk} {base : Location} {known known' : Nat → Prop}

/-- The snapshot of a full round has a record. -/
theorem recordable_draft {a : Archive} {r : Round} {now : Int}
    (hm : a.vault.medium = .directory base d) (hbase : d.Hosts base) (hid : r.id ≤ Word.max64)
    (hr : r.Fits) (hfull : r.isFull = true)
    (hacked : ∀ run, r.hasAck run = true → run ∈ r.expected) (hnow : Word.IsSigned now) :
    (draft a r now).Recordable where
  id := hid
  triggeredAt := hr.triggeredAt
  completedAt := hnow
  size := (beq_iff_eq.1 hfull).le.trans hr.count
  handles e he := by
    refine ⟨hr.participants _ (hacked _ ?_), hr.handles e he⟩
    exact Table.contains_iff.2 ⟨e.2, (Table.mem_entries_iff r.acked).1 he⟩
  pointer text htext := by
    have hpointer : (Directory.address d base r.id r.policy).2 = some text := by
      rw [← htext, draft, hm]
      rfl
    rw [(fills_address hbase (Prod.mk.eta).symm).2 text hpointer]
    have hsize := (size_child base (savepointName r.id)).2
    have hname := size_savepointName hid
    have hshort : base.shown.utf8ByteSize ≤ 4095 := hbase.short
    show _ ≤ 18446744073709551615
    omega

/-- Finalizing a round keeps the records recoverable, whatever fails on the way. -/
theorem recorded_finalize {a a' : Archive} {r : Round} {now : Int} {events : List Event}
    {result : Except SnapshotError Snapshot} (h : a.Recorded start base known)
    (hid : ¬known r.id) (hdraft : (draft a r now).Recordable) (hknown : ∀ i, known i → known' i)
    (hnew : known' r.id) (hfinal : finalize a r now = (a', events, result)) :
    a'.Recorded start base known' := by
  obtain ⟨d, hm, hd⟩ := h.medium
  -- First the savepoint gets its address,
  rcases haddress : Directory.address d base r.id r.policy with ⟨d₁, pointer⟩
  have hm₁ : (a.vault.addressed r.id r.policy).medium = .directory base d₁ := by
    show (a.vault.medium.address r.id r.policy).1 = _
    rw [hm]
    show Medium.directory base (Directory.address d base r.id r.policy).1 = _
    rw [haddress]
  have hfills := (fills_address hd.hosts haddress).1
  have hd₁ := hd.quiet hid (hfills.within_entries (savepointName_mem _))
    fun name => hfills.files name _
  -- then the states are kept, and then the snapshot is registered.
  rcases hpersist : (a.vault.addressed r.id r.policy).persistAll r.id r.acked.entries with
    ⟨vault, kept, outcome⟩
  obtain ⟨d₂, hm₂, htouches, hstates⟩ :=
    Vault.touches_persistAll hm₁ hd₁.hosts r.acked.nodup_keys hpersist
  have hd₂ : Records start base known d₂ := by
    refine hd₁.touches hid htouches ?_
    rintro name ⟨e, -, hname⟩
    exact stateName_ne e.1 (by decide) hname.symm
  have hadd : outcome = none →
      (Archive.add { a with vault := vault } (draft a r now)).1.Recorded start base known' := by
    intro hnone
    refine Archive.recorded_add hm₂ hd₂ h.live hid hdraft ?_ hknown hnew
    intro run state hfind
    exact hstates hnone _ ((Table.mem_entries_iff r.acked).2 hfind)
  rcases finalize_cases a r now with ⟨vault', kept', failure, he, hresult⟩ |
    ⟨vault', kept', he, ⟨a'', added, e, hentered, hresult⟩ |
      ⟨a'', added, gone, hentered, hresult⟩⟩ <;>
    cases he.symm.trans hpersist <;> cases hresult.symm.trans hfinal
  · exact ⟨⟨d₂, hm₂, hd₂.mono hknown⟩, fun s hs => hknown _ (h.live s hs)⟩
  · have hdone := hadd rfl
    rw [hentered] at hdone
    exact hdone
  · have hdone := hadd rfl
    rw [hentered] at hdone
    exact hdone

/-! ### The invariant -/

/-- Everything in a coordinator that may come into a record fits it. -/
structure Fitting (c : Coordinator) : Prop where
  rounds : ∀ {id : Nat} {r : Round}, c.rounds.find? id = some r → r.Fits
  tasks : ∀ {slot : Slot} {run : TaskRun} {state : TaskState},
    c.tasks.find? slot = some (run, state) → run.Fits
  nextId : c.nextId ≤ Word.max64

/-- What holds of a coordinator on the base directory of a disk: the records can be recovered, they
are of rounds that are over, and everything that may come into a record fits it. -/
structure Recoverable (start : Disk) (base : Location) (c : Coordinator) : Prop
    extends Fitting c where
  archive : c.archive.Recorded start base c.IsOver

variable {c c' : Coordinator} {request : Request} {events : List Event} {reply : Reply}

/-- The snapshot of a round that got its last acknowledgment has a record. -/
theorem Fitting.recordable (h : c.Fitting) (hc : c.Orderly)
    (hm : c.archive.vault.medium = .directory base d) (hbase : d.Hosts base)
    (hfits : request.Fits) {id : Nat} {run : TaskRun} {state : Bytes} {now : Int} {r r' : Round}
    (asked : request = .acknowledge id run state now) (there : c.rounds.find? id = some r)
    (full : r.acknowledge run state = (r', .completes)) :
    (draft c.archive r' now).Recordable := by
  obtain ⟨-, -, -, rfl, hfull⟩ := Round.acknowledge_eq_completes full
  obtain ⟨hstate, hnow⟩ : state.length ≤ Word.max64 ∧ Word.IsSigned now := by
    rw [asked] at hfits
    exact hfits
  have hway := hc.underWay there
  have hid : (r.record run state).id ≤ Word.max64 := by
    have hlt : id < c.nextId := hc.numbered there
    rw [show (r.record run state).id = id from hway.own]
    exact hlt.le.trans h.nextId
  exact recordable_draft hm hbase hid ((h.rounds there).record hstate) hfull
    (fun other hack => (hway.hasAck_iff_of_completes full other).1 hack) hnow

theorem Fitting.rounds_step (h : c.Fitting) (hc : c.Orderly) (hfits : request.Fits)
    (hroom : c.tasks.size ≤ Word.max64) (hstep : c.step request = .ok (c', events, reply))
    {id : Nat} {r' : Round} (hr' : c'.rounds.find? id = some r') : r'.Fits := by
  rcases find?_rounds_step hc hstep hr' with ⟨policy, now, rfl, -, -, -, -, rfl⟩ |
    ⟨r, hr, ⟨run, state, now, rfl, -, rfl⟩ | ⟨-, rfl⟩⟩
  · refine Round.fits_start hfits ?_ ?_
    · intro run hrun
      obtain ⟨state, hfind⟩ := hc.mem_runs_iff.1 hrun
      exact h.tasks hfind
    · rw [runs, Table.values, List.length_map, List.length_map]
      exact hroom
  · exact (h.rounds hr).acknowledge hfits.1
  · exact h.rounds hr

theorem Fitting.nextId_step (h : c.Fitting) (hc : c.Orderly)
    (hover : ∀ s ∈ c.archive.snapshots, c.IsOver s.id)
    (hstep : c.step request = .ok (c', events, reply)) : c'.nextId ≤ Word.max64 := by
  rcases step_cases hc hstep with ⟨policy, now, rfl, rfl, -, hlaunch⟩ |
    ⟨_, _, _, _, _, -, -, -, -, -, rfl⟩ | ⟨hreduces, -⟩
  · cases Performs.of_step hstep with
    | trigger htrigger =>
      rcases trigger_cases htrigger with ⟨reason, -, -, -, hanswer⟩ | ⟨-, hlt, -, -⟩
      · cases hanswer
      · obtain ⟨rfl, -⟩ := Prod.mk.inj hlaunch
        exact hlt
  · exact h.nextId
  · rcases hreduces.nextId with hsame | ⟨latest, hlatest, hmax⟩
    · exact hsame.le.trans h.nextId
    · -- The latest snapshot is of a round that is over, so its id is no news.
      rw [hmax, max_eq_left (hover latest (Retention.mem_of_latest? hlatest)).1]
      exact h.nextId

theorem Fitting.step (h : c.Fitting) (hc : c.Orderly)
    (hover : ∀ s ∈ c.archive.snapshots, c.IsOver s.id) (hfits : request.Fits)
    (hroom : c.tasks.size ≤ Word.max64) (hstep : c.step request = .ok (c', events, reply)) :
    c'.Fitting where
  rounds := h.rounds_step hc hfits hroom hstep
  tasks {slot run state} hfind := by
    rcases tasks_step hc hstep with he | ⟨run', state', hrequest, he⟩
    · exact h.tasks (he ▸ hfind)
    · have hrun : run'.Fits := by
        rcases hrequest with rfl | rfl <;> exact hfits
      rw [he, Table.find?_insert] at hfind
      split at hfind
      · cases hfind
        exact hrun
      · exact h.tasks hfind
  nextId := h.nextId_step hc hover hstep

theorem Fitting.withVault (h : c.Fitting) (vault : Vault) : (c.withVault vault).Fitting :=
  ⟨h.rounds, h.tasks, h.nextId⟩

theorem fitting_of_open {settings : Settings} {archive : Archive} {hasHandler : Bool}
    (hascending : Retention.Ascending archive.snapshots)
    (h : open? settings archive hasHandler = .ok c) : c.Fitting := by
  obtain ⟨-, -, hrounds, htasks⟩ := eq_of_open h
  exact ⟨by simp [hrounds], by simp [htasks], (state_of_open hascending h).2.1⟩

/-- After the last acknowledgment of a round its records can be recovered, stored or not. -/
theorem Recoverable.finalize (h : c.Recoverable start base) (hc : c.Orderly)
    (hfits : request.Fits) (hstep : c.step request = .ok (c', events, reply)) {id : Nat}
    {run : TaskRun} {state : Bytes} {now : Int} {r r' : Round} {a : Archive} {kept : List Event}
    {result : Except SnapshotError Snapshot} (asked : request = .acknowledge id run state now)
    (there : c.rounds.find? id = some r) (full : r.acknowledge run state = (r', .completes))
    (gone : c'.rounds.find? id = none)
    (finalized : Coordinator.finalize c.archive r' now = (a, kept, result)) :
    a.Recorded start base c'.IsOver := by
  have hid : r'.id = id := hc.own_of_completes there full
  obtain ⟨d, hm, hd⟩ := h.archive.medium
  have hdraft := h.toFitting.recordable hc hm hd.hosts hfits asked there full
  refine recorded_finalize h.archive ?_ hdraft (fun i => IsOver.step hc hstep) ?_ finalized
  · rw [hid]
    rintro ⟨-, hout⟩
    exact Table.ne_of_contains_eq_false hout there rfl
  · rw [hid]
    exact isOver_of_gone hc hstep there gone

theorem Recoverable.archive_step (h : c.Recoverable start base) (hc : c.Orderly)
    (hfits : request.Fits) (hstep : c.step request = .ok (c', events, reply)) :
    c'.archive.Recorded start base c'.IsOver := by
  have hover : ∀ i, c.IsOver i → c'.IsOver i := fun i => IsOver.step hc hstep
  cases Files.of_step hc hstep with
  | same archive silent =>
    rw [archive]
    exact h.archive.mono hover
  | failed asked there full gone finalized archive heard requests =>
    rw [archive]
    exact (h.finalize hc hfits hstep asked there full gone finalized).request (Or.inr rfl)
  | finished asked there full gone finalized archive requests answered =>
    rw [archive]
    exact h.finalize hc hfits hstep asked there full gone finalized
  | relabeled asked newest claimed archive silent answered =>
    rw [archive]
    exact (Archive.recorded_relabel h.archive _ _).mono hover
  | removed asked unregistered silent =>
    rename_i id e
    have hremoved := Archive.recorded_remove h.archive id
    rw [unregistered] at hremoved
    exact hremoved.mono hover
  | disposed asked found unregistered archive heard requests =>
    rename_i id a s removed
    have hremoved := Archive.recorded_remove h.archive id
    rw [unregistered] at hremoved
    rw [archive]
    exact (hremoved.mono hover).request (Or.inr rfl)
  | closed asked archive requests =>
    rw [archive]
    exact (Archive.recorded_close h.archive _).mono hover

theorem Recoverable.step (h : c.Recoverable start base) (hc : c.Orderly) (hfits : request.Fits)
    (hroom : c.tasks.size ≤ Word.max64) (hstep : c.step request = .ok (c', events, reply)) :
    c'.Recoverable start base where
  toFitting := h.toFitting.step hc h.archive.live hfits hroom hstep
  archive := h.archive_step hc hfits hstep

theorem Recoverable.withVault (h : c.Recoverable start base) {vault : Vault}
    (hvault : vault.medium = c.archive.vault.medium) :
    (c.withVault vault).Recoverable start base where
  toFitting := h.toFitting.withVault vault
  archive := by
    refine ⟨?_, h.archive.live⟩
    show vault.medium.Recorded start base c.IsOver
    rw [hvault]
    exact h.archive.medium

/-- A run keeps the invariant, whatever storage refuses. -/
theorem Recoverable.of_run {past : List Moment} (h : Run SameMedium c past c')
    (hc : c.Orderly) (hstart : c.Recoverable start base)
    (hfits : ∀ m ∈ past, m.request.Fits ∧ m.before.tasks.size ≤ Word.max64) :
    c'.Recoverable start base := by
  induction h with
  | nil => exact hstart
  | snoc run change step ih =>
    have hpast := ih fun m hm => hfits m (List.mem_append_left _ hm)
    obtain ⟨hrequest, hroom⟩ := hfits _ (List.mem_append_right _ List.mem_cons_self)
    exact (hpast.withVault change).step ((Orderly.of_run run hc).1.withVault _) hrequest hroom step

/-- The next run starts over: the ids of all records are below its first one. -/
theorem recoverable_of_open {settings : Settings} {archive : Archive} {hasHandler : Bool}
    (hd : Records start base known d) (harchive : archive.Reopened base d)
    (h : open? settings archive hasHandler = .ok c) : c.Recoverable start base := by
  obtain ⟨rfl, -, hshelved⟩ := state_of_open harchive.ascending h
  refine ⟨fitting_of_open harchive.ascending h, ⟨d, harchive.medium, ?_⟩, hshelved.isOver⟩
  exact hd.restrict fun s hs => hshelved.isOver s ((harchive.live s).2 hs)

end Coordinator

/-! ### The main statement -/

/-- The disks that may be left behind by runs on the directory of a written path, one after the
other.  Each run opens the directory, performs any requests in which storage refuses whatever it
likes, and is dropped. -/
inductive LeftBehind (text : String) (start : Disk) : Disk → Prop
  | start : LeftBehind text start start
  | run {disk disk' : Disk} {base : Location} {medium : Medium} {faults : FaultPlan}
      {maxRetained : Nat} {archive : Archive} {settings : Settings} {hasHandler : Bool}
      {c c' : Coordinator} {history : List Moment} (before : LeftBehind text start disk)
      (opened : Medium.openDirectory text disk = .ok medium)
      (stored : Archive.open? (.of medium faults) maxRetained = .ok archive)
      (begun : Coordinator.open? settings archive hasHandler = .ok c)
      (ran : Run SameMedium c history c')
      (fits : ∀ m ∈ history, m.request.Fits ∧ m.before.tasks.size ≤ Word.max64)
      (left : c'.archive.vault.medium = .directory base disk') : LeftBehind text start disk'

section

variable {text : String} {start disk : Disk} {base : Location} {known : Nat → Prop}

/-- An empty base directory has no records that could be lost. -/
theorem records_of_empty (hlocate : start.locate text = .ok base)
    (hbase : start.node? base.path = some .directory) (hempty : start.listing base.path = []) :
    Records start base known start where
  hosts := Disk.hosts_of_locate hlocate hbase hempty
  since _ hdir := hdir
  distinct := Disk.distinct_of_listing hempty
  sound {name n} hthere := by
    refine absurd rfl (Disk.not_below_of_listing hempty ?_ hthere name ["_metadata"])
    simp [Path.isAbove]

/-- What was left behind is the same base directory to whoever opens it by the same path. -/
theorem openDirectory_of_records (hlocate : start.locate text = .ok base)
    (hbase : start.node? base.path = some .directory) (hempty : start.listing base.path = [])
    (h : Records start base known disk) :
    Medium.openDirectory text disk = .ok (.directory base disk) :=
  openDirectory_of_since hlocate hbase hempty h.since

theorem records_of_leftBehind (hlocate : start.locate text = .ok base)
    (hbase : start.node? base.path = some .directory) (hempty : start.listing base.path = [])
    (h : LeftBehind text start disk) : ∃ known, Records start base known disk := by
  induction h with
  | start => exact ⟨fun _ => True, records_of_empty hlocate hbase hempty⟩
  | @run disk disk' base' _ faults maxRetained _ _ _ _ c' _ before opened stored begun ran fits left
      ih =>
    obtain ⟨known, hd⟩ := ih
    cases (openDirectory_of_records hlocate hbase hempty hd).symm.trans opened
    obtain ⟨archive, hopen, hreopened⟩ := hd.open? faults maxRetained
    cases hopen.symm.trans stored
    have hfirst := Coordinator.recoverable_of_open hd hreopened begun
    have hlast := hfirst.of_run ran (Coordinator.orderly_of_open begun) fits
    obtain ⟨d, hm, hrecords⟩ := hlast.archive.medium
    cases hm.symm.trans left
    exact ⟨c'.IsOver, hrecords⟩

/-- Opening the directory again succeeds, and what is registered then is what is kept there. -/
theorem openDirectory_of_leftBehind (hlocate : start.locate text = .ok base)
    (hbase : start.node? base.path = some .directory) (hempty : start.listing base.path = [])
    (h : LeftBehind text start disk) (maxRetained : Nat) :
    ∃ archive, Archive.openDirectory text maxRetained disk = .ok archive ∧ disk.Hosts base ∧
      archive.Reopened base disk ∧ ∀ s, Filed disk base s ↔ Kept disk base s := by
  obtain ⟨known, hd⟩ := records_of_leftBehind hlocate hbase hempty h
  obtain ⟨archive, hopen, hreopened⟩ := hd.open? .none maxRetained
  refine ⟨archive, ?_, hd.hosts, hreopened, fun _ => hd.kept_iff⟩
  unfold Archive.openDirectory
  rw [openDirectory_of_records hlocate hbase hempty hd]
  dsimp only
  rw [hopen]

/-- Recoverability across restarts.  Whatever runs on an initially empty base directory leave
behind, opening it again succeeds, and every state of every snapshot that is found there is loaded
as it was handed over. -/
theorem recoverable_after_restarts (hlocate : start.locate text = .ok base)
    (hbase : start.node? base.path = some .directory) (hempty : start.listing base.path = [])
    (h : LeftBehind text start disk) (maxRetained : Nat) :
    ∃ archive, Archive.openDirectory text maxRetained disk = .ok archive ∧
      ∀ s ∈ archive.snapshots, ∀ run state, s.handles.find? run = some state →
        archive.vault.medium.load s.id run = .ok state := by
  obtain ⟨archive, hopen, hhosts, hreopened, -⟩ :=
    openDirectory_of_leftBehind hlocate hbase hempty h maxRetained
  exact ⟨archive, hopen, fun s hs run state hfind => hreopened.load hhosts hs hfind⟩

end

/-- A disk with an empty directory. -/
def workDisk : Disk := ⟨[(["d"], .directory)]⟩

/-- The requests for a savepoint of one task. -/
def savepointRequests : List Request :=
  [.register ⟨1, 0, 0⟩ .running, .trigger (.savepoint true .canonical) 10,
    .acknowledge 1 ⟨1, 0, 0⟩ [7] 20]

/-- The savepoint that they complete. -/
def workSavepoint : Snapshot :=
  ⟨1, .savepoint true .canonical, 10, 20, (∅ : Handles).insert ⟨1, 0, 0⟩ [7], some "d/savepoint-1"⟩

/-- When the directory is opened again, the savepoint is found there with the state of its task. -/
theorem recoverable_after_savepoint : ∃ base disk, workDisk.locate "d" = .ok base ∧
    LeftBehind "d" workDisk disk ∧ ∃ archive, Archive.openDirectory "d" 1 disk = .ok archive ∧
      workSavepoint ∈ archive.snapshots ∧ archive.vault.medium.load 1 ⟨1, 0, 0⟩ = .ok [7] ∧
      ∀ s ∈ archive.snapshots, ∀ run state, s.handles.find? run = some state →
        archive.vault.medium.load s.id run = .ok state := by
  have hlocate : workDisk.locate "d" = .ok ⟨"d", ["d"], none⟩ := by cbv
  have hempty : workDisk.listing ["d"] = [] := by cbv
  have hopened := openDirectory_of_records hlocate rfl hempty
    (records_of_empty hlocate rfl hempty : Records _ _ (fun _ => True) _)
  obtain ⟨archive, start, hstored, hbegun, hfits, disk, hleft, hplace, hrecord⟩ :
      ∃ archive start,
      Archive.open? (.of (.directory ⟨"d", ["d"], none⟩ workDisk) .none) 1 = .ok archive ∧
      Coordinator.open? .default archive false = .ok start ∧
      (∀ m ∈ (start.perform savepointRequests).1,
        m.request.Fits ∧ m.before.tasks.size ≤ Word.max64) ∧
      ∃ disk, (start.perform savepointRequests).2.archive.vault.medium =
          .directory ⟨"d", ["d"], none⟩ disk ∧
        disk.node? ["d", "chk-1"] = some .directory ∧
        disk.node? ["d", "chk-1", "_metadata"] =
          some (.file (Record.snapshot.encode workSavepoint)) :=
    ⟨⟨.of (.directory ⟨"d", ["d"], none⟩ workDisk) .none, .empty 1⟩, _, by cbv, rfl,
      by decide +kernel, _, rfl, by decide +kernel, by decide +kernel⟩
  have hrun := LeftBehind.run .start hopened hstored hbegun
    (Run.of_perform SameMedium.refl start savepointRequests) hfits hleft
  have hfiled : Filed disk ⟨"d", ["d"], none⟩ workSavepoint :=
    ⟨⟨by decide, by decide, by decide, by decide, by decide, by decide⟩, by decide, hplace, hrecord⟩
  obtain ⟨archive, hopen, hload⟩ := recoverable_after_restarts hlocate rfl hempty hrun 1
  obtain ⟨again, hagain, -, hreopened, hkept⟩ :=
    openDirectory_of_leftBehind hlocate rfl hempty hrun 1
  cases hopen.symm.trans hagain
  have hlisted := (hreopened.live workSavepoint).2 ((hkept workSavepoint).1 hfiled)
  exact ⟨_, disk, hlocate, hrun, archive, hopen, hlisted,
    hload workSavepoint hlisted ⟨1, 0, 0⟩ [7] (by decide), hload⟩

end Checkpointing
