import Mathlib.Tactic
import Checkpointing.Proofs.Coordinator.Filing
import Checkpointing.Proofs.Storage.Memory
import Checkpointing.Proofs.Storage.Retention

/-!
# Garbage collection

Over storage in memory a coordinator neither loses a state that a registered snapshot needs nor
keeps one that none needs.

* `Archive.Sound`: every state of a snapshot that is live or waits in the backlog can be loaded;
  `Archive.Tight`: no other state can be loaded;
* `Sound.forget`, `Sound.enter`: both ways in which an archive changes keep the invariant, and
  likewise for `Tight`;
* `Collects` adds that ids are never shared by rounds and snapshots; `Carries` is what a step makes
  of the archive, `Collects.step` the induction step;
* `collects_exactly` is the main statement.
-/

namespace Checkpointing
namespace Archive

/-- What an archive is to keep lies in memory, under ids that are all different. -/
structure Sound (a : Archive) : Prop where
  memory : a.vault.medium.InMemory
  distinct : (a.retention.holdings.map (·.1)).Nodup
  holds : ∀ {id : Nat} {handles : Handles}, (id, handles) ∈ a.retention.holdings →
    ∀ {run : TaskRun} {state : Bytes}, handles.find? run = some state →
      a.vault.medium.load id run = .ok state

/-- Nothing lies in storage but what the archive is to keep. -/
def Tight (a : Archive) : Prop :=
  ∀ (id : Nat) (run : TaskRun) (state : Bytes), a.vault.medium.load id run = .ok state →
    ∃ handles, (id, handles) ∈ a.retention.holdings ∧ handles.find? run = some state

/-! ### Two ways to change -/

/-- The archive `a'` no longer keeps what is `gone`; what it still keeps can be loaded as before. -/
structure Forgets (a a' : Archive) (gone : List (Nat × Handles)) : Prop where
  memory : a'.vault.medium.InMemory
  holdings : a.retention.holdings.Perm (a'.retention.holdings ++ gone)
  keeps : ∀ {i : Nat} {handles : Handles} {r : TaskRun} {b : Bytes},
    (i, handles) ∈ a'.retention.holdings → a.vault.medium.load i r = .ok b →
      a'.vault.medium.load i r = .ok b

/-- Nothing of what is `gone` can be loaded from the archive `a'`, and nothing new. -/
def Frees (a a' : Archive) (gone : List (Nat × Handles)) : Prop :=
  ∀ {i : Nat} {r : TaskRun} {b : Bytes}, a'.vault.medium.load i r = .ok b →
    i ∉ gone.map (·.1) ∧ a.vault.medium.load i r = .ok b

variable {a a' : Archive} {gone : List (Nat × Handles)}

/-- The ids that stay are different from those that go. -/
theorem disjoint_of_perm {l l' gone : List (Nat × Handles)} (h : l.Perm (l' ++ gone))
    (hnodup : (l.map (·.1)).Nodup) {id : Nat} {handles : Handles} (hmem : (id, handles) ∈ l') :
    id ∉ gone.map (·.1) := by
  have hall := (h.map (·.1)).nodup_iff.1 hnodup
  rw [List.map_append] at hall
  exact fun hgone => List.disjoint_of_nodup_append hall (List.mem_map_of_mem hmem) hgone

theorem Sound.forget (h : a.Sound) (hforget : Forgets a a' gone) : a'.Sound where
  memory := hforget.memory
  distinct := by
    have hall := (hforget.holdings.map (·.1)).nodup_iff.1 h.distinct
    rw [List.map_append] at hall
    exact hall.of_append_left
  holds := by
    intro id handles hmem run state hfind
    refine hforget.keeps hmem (h.holds ?_ hfind)
    exact hforget.holdings.symm.subset (List.mem_append_left _ hmem)

theorem Tight.free (h : a.Tight) (hforget : Forgets a a' gone) (hfree : Frees a a' gone) :
    a'.Tight := by
  intro id run state hload
  obtain ⟨hstays, hload⟩ := hfree hload
  obtain ⟨handles, hmem, hfind⟩ := h id run state hload
  rcases List.mem_append.1 (hforget.holdings.subset hmem) with hmem | hmem
  · exact ⟨handles, hmem, hfind⟩
  · exact absurd (List.mem_map_of_mem hmem) hstays

/-- What is gone was thrown away, and nothing else. -/
theorem forgets_of_load (hnodup : (a.retention.holdings.map (·.1)).Nodup)
    (hmemory : a'.vault.medium.InMemory)
    (hperm : a.retention.holdings.Perm (a'.retention.holdings ++ gone))
    (hload : ∀ {i : Nat} {r : TaskRun} {b : Bytes}, a'.vault.medium.load i r = .ok b ↔
      i ∉ gone.map (·.1) ∧ a.vault.medium.load i r = .ok b) :
    Forgets a a' gone ∧ Frees a a' gone := by
  refine ⟨⟨hmemory, hperm, ?_⟩, hload.1⟩
  intro i handles r b hmem hb
  exact hload.2 ⟨disjoint_of_perm hperm hnodup hmem, hb⟩

/-- The archive `a'` also keeps the handles of `id`, and storage has them. -/
structure Enters (a a' : Archive) (id : Nat) (handles : Handles) : Prop where
  memory : a'.vault.medium.InMemory
  holdings : a'.retention.holdings.Perm ((id, handles) :: a.retention.holdings)
  load : ∀ {i : Nat} {r : TaskRun} {b : Bytes}, a'.vault.medium.load i r = .ok b ↔
    if i = id ∧ handles.contains r = true then handles.find? r = some b
    else a.vault.medium.load i r = .ok b

variable {id : Nat} {handles : Handles}

theorem Sound.enter (h : a.Sound) (henter : Enters a a' id handles)
    (hnew : id ∉ a.retention.holdings.map (·.1)) : a'.Sound where
  memory := henter.memory
  distinct := by
    refine (henter.holdings.map (·.1)).nodup_iff.2 ?_
    exact List.nodup_cons.2 ⟨hnew, h.distinct⟩
  holds := by
    intro i handles' hmem run state hfind
    rw [henter.load]
    rcases List.mem_cons.1 (henter.holdings.subset hmem) with heq | hmem
    · cases heq
      rw [if_pos ⟨rfl, Table.contains_iff.2 ⟨state, hfind⟩⟩]
      exact hfind
    · have hne : i ≠ id := fun heq => hnew (heq ▸ List.mem_map_of_mem hmem)
      rw [if_neg fun hcond => hne hcond.1]
      exact h.holds hmem hfind

theorem Tight.enter (h : a.Tight) (henter : Enters a a' id handles) : a'.Tight := by
  intro i run state hload
  rw [henter.load] at hload
  split at hload
  · next hcond =>
    rw [hcond.1]
    exact ⟨handles, henter.holdings.symm.subset List.mem_cons_self, hload⟩
  · obtain ⟨handles', hmem, hfind⟩ := h i run state hload
    exact ⟨handles', henter.holdings.symm.subset (List.mem_cons_of_mem _ hmem), hfind⟩

/-! ### The operations of an archive -/

/-- Enforcing retention forgets the snapshots that were thrown away. -/
theorem forgets_subsume (h : a.Sound) :
    ∃ gone, Forgets a a.subsume.1 gone ∧ Frees a a.subsume.1 gone := by
  obtain ⟨hmemory, hload⟩ := Vault.load_sweep h.memory (fun _ => true) a.retention.subsume.1
  change a.subsumption.vault.medium.InMemory at hmemory
  -- What is given up was discarded or is kept in the backlog; the rest stays live.
  refine ⟨a.subsumption.discarded.map Retention.holding, forgets_of_load h.distinct ?_ ?_ ?_⟩
  · rw [subsume_state, hmemory.dropRecords]
    exact hmemory
  · have hperm := a.perm_subsume.map Retention.holding
    rw [List.map_append] at hperm
    exact hperm.symm
  · intro i r b
    rw [subsume_state, hmemory.dropRecords, List.map_map]
    exact hload

/-- Closing forgets the snapshots that were thrown away. -/
theorem forgets_close (h : a.Sound) (status : JobStatus) :
    ∃ gone, Forgets a (a.close status).1 gone ∧ Frees a (a.close status).1 gone := by
  obtain ⟨hcleared, hloadOld⟩ := Vault.load_sweep h.memory (fun _ => true) a.retention.backlog
  obtain ⟨hclosed, hloadNew⟩ := Vault.load_sweep hcleared
    (fun s => s.policy.discard.onStatus status) a.retention.live
  change (a.closure status).vault.medium.InMemory at hclosed
  refine ⟨(a.clearance.discarded ++ (a.closure status).discarded).map Retention.holding,
    forgets_of_load h.distinct ?_ ?_ ?_⟩
  · rw [close_state, hclosed.dropRecords]
    exact hclosed
  · have hperm := (a.perm_close status).map Retention.holding
    rw [List.map_append] at hperm
    exact hperm.symm
  · intro i r b
    rw [close_state, hclosed.dropRecords]
    refine hloadNew.trans ((and_congr_right fun _ => hloadOld).trans ?_)
    simp only [List.map_append, List.map_map, List.mem_append, not_or]
    constructor
    · rintro ⟨hnew, hold, hb⟩
      exact ⟨⟨hold, hnew⟩, hb⟩
    · rintro ⟨⟨hold, hnew⟩, hb⟩
      exact ⟨hnew, hold, hb⟩

/-- Cleaning up after a snapshot that was unregistered: the snapshot is forgotten, and freed unless
the request was refused. -/
theorem forgets_dispose {s : Snapshot} (h : a.Sound) (hfind : a.retention.find? id = some s)
    {vault : Vault} (hvault : vault = (a.vault.request (.cleanup id)).1) :
    Forgets a ⟨vault, a.retention.remove id⟩ [(id, s.handles)] ∧
      ((a.vault.request (.cleanup id)).2.1 ≠ .storage (.cleanup id) true →
        Frees a ⟨vault, a.retention.remove id⟩ [(id, s.handles)]) := by
  subst hvault
  have hperm := Retention.holdings_perm_remove hfind
  obtain ⟨hmemory, ⟨failure, he⟩ | he⟩ := Vault.request_inMemory h.memory (.cleanup id)
  · rw [he]
    exact ⟨⟨h.memory, hperm, fun _ hb => hb⟩, fun hne => absurd rfl hne⟩
  · rw [he] at hmemory ⊢
    obtain ⟨hforgets, hfrees⟩ : Forgets a ⟨_, a.retention.remove id⟩ [(id, s.handles)] ∧
        Frees a ⟨_, a.retention.remove id⟩ [(id, s.handles)] :=
      forgets_of_load h.distinct hmemory hperm (by
        intro i r b
        refine (Medium.load_discard h.memory).trans ?_
        simp)
    exact ⟨hforgets, fun _ => hfrees⟩

/-! ### Finalizing a round -/

variable {r : Round} {now : Int} {kept : List Event}

theorem addressed_inMemory (h : a.vault.medium.InMemory) (policy : SnapshotPolicy) :
    (a.vault.addressed id policy).medium = a.vault.medium := h.address id policy

/-- The archive that keeps the handles of a full round and, as far as retention allows, everything
that it kept before. -/
theorem enters_of_finalize {s : Snapshot} (h : a.Sound)
    (hnew : r.id ∉ a.retention.holdings.map (·.1))
    (hfinal : Coordinator.finalize a r now = (a', kept, .ok s)) :
    ∃ b gone, Enters a b r.id r.acked ∧ Forgets b a' gone ∧ Frees b a' gone := by
  rcases Coordinator.finalize_cases a r now with ⟨vault, _, _, -, hf⟩ |
    ⟨vault, kept', hkeep, ⟨_, _, _, -, hf⟩ | ⟨a₁, added, ids, hadd, hf⟩⟩ <;>
    cases hf.symm.trans hfinal
  have haddress : (a.vault.addressed r.id r.policy).medium.InMemory := by
    rw [addressed_inMemory h.memory]
    exact h.memory
  obtain ⟨hmemory, hload⟩ := Vault.load_persistAll haddress r.acked.nodup_keys hkeep
  rw [addressed_inMemory h.memory] at hload
  have henter : Enters a (entered { a with vault := vault } (Coordinator.draft a r now))
      r.id r.acked := by
    refine ⟨hmemory, ?_, ?_⟩
    · exact ((Retention.perm_place _ _).append_right _).map _
    · intro i run b
      refine hload.trans ?_
      have hmem : (run, b) ∈ r.acked.entries ↔ r.acked.find? run = some b :=
        Table.mem_entries_iff _
      have hkeys : run ∈ r.acked.entries.map (·.1) ↔ r.acked.contains run = true :=
        Table.mem_keys_iff
      simp only [hmem, hkeys]
  rcases add_cases { a with vault := vault } (Coordinator.draft a r now) with
    ⟨-, he⟩ | ⟨-, ⟨medium, failure, -, he⟩ | ⟨medium, hsave, he⟩⟩
  · cases he.symm.trans hadd
  · cases he.symm.trans hadd
  · rw [hmemory.saveRecord] at hsave
    cases hsave
    cases he.symm.trans hadd
    obtain ⟨gone, hforget, hfree⟩ := forgets_subsume (h.enter henter hnew)
    exact ⟨_, gone, henter, hforget, hfree⟩

/-- A full round that could not be stored leaves everything as it was, and nothing of itself unless
the request to clean up is refused. -/
theorem forgets_of_finalize {reason : SnapshotError} (h : a.Sound)
    (hnew : r.id ∉ a.retention.holdings.map (·.1))
    (hfinal : Coordinator.finalize a r now = (a', kept, .error reason)) :
    Forgets a { a' with vault := (a'.vault.request (.cleanup r.id)).1 } [] ∧
      ((a'.vault.request (.cleanup r.id)).2.1 ≠ .storage (.cleanup r.id) true →
        Frees a { a' with vault := (a'.vault.request (.cleanup r.id)).1 } []) := by
  have haddress : (a.vault.addressed r.id r.policy).medium.InMemory := by
    rw [addressed_inMemory h.memory]
    exact h.memory
  -- However the round failed, only states of its own can have been added.
  obtain ⟨hretention, hmemory, hload⟩ : a'.retention = a.retention ∧ a'.vault.medium.InMemory ∧
      ∀ {i run b}, i ≠ r.id →
        (a'.vault.medium.load i run = .ok b ↔ a.vault.medium.load i run = .ok b) := by
    have hothers := fun {i} {run} {b} (hid : i ≠ r.id) =>
      Vault.load_persistAll_of_ne (r := run) (b := b) haddress r.acked.entries hid
    rw [addressed_inMemory h.memory] at hothers
    have hmemory := (Vault.inMemory_persistAll haddress r.id r.acked.entries)
    rcases Coordinator.finalize_cases a r now with ⟨vault, _, _, hkeep, hf⟩ |
      ⟨vault, kept', hkeep, ⟨a₁, added, e, hadd, hf⟩ | ⟨_, _, _, -, hf⟩⟩ <;>
      cases hf.symm.trans hfinal <;> rw [hkeep] at hothers hmemory
    · exact ⟨rfl, hmemory, hothers⟩
    · rcases add_cases { a with vault := vault } (Coordinator.draft a r now) with
        ⟨-, he⟩ | ⟨-, ⟨medium, failure, hsave, he⟩ | ⟨medium, hsave, he⟩⟩
      · cases he.symm.trans hadd
        exact ⟨rfl, hmemory, hothers⟩
      · rw [hmemory.saveRecord] at hsave
        cases hsave
      · cases he.symm.trans hadd
  have hothers : ∀ {i : Nat} {handles : Handles}, (i, handles) ∈ a'.retention.holdings →
      i ≠ r.id := by
    intro i handles hmem heq
    rw [hretention] at hmem
    exact hnew (heq ▸ List.mem_map_of_mem hmem)
  have hperm : a.retention.holdings.Perm (a'.retention.holdings ++ []) := by
    rw [hretention, List.append_nil]
  obtain ⟨hmemory', ⟨failure, he⟩ | he⟩ := Vault.request_inMemory hmemory (.cleanup r.id)
  · rw [he]
    exact ⟨⟨hmemory, hperm, fun hmem hb => (hload (hothers hmem)).2 hb⟩,
      fun hne => absurd rfl hne⟩
  · rw [he] at hmemory' ⊢
    refine ⟨⟨hmemory', hperm, ?_⟩, fun _ => ?_⟩
    · intro i handles run b hmem hb
      refine (Medium.load_discard hmemory).2 ⟨hothers hmem, ?_⟩
      exact (hload (hothers hmem)).2 hb
    · intro i run b hb
      obtain ⟨hid, hb⟩ := (Medium.load_discard hmemory).1 hb
      exact ⟨by simp, (hload hid).1 hb⟩

end Archive

/-- The event is a request to clean up that was refused. -/
def Event.isRefusedCleanup : Event → Bool
  | .storage (.cleanup _) true => true
  | _ => false

/-- No request to clean up was refused. -/
def CleanedUp (events : List Event) : Prop := ∀ e ∈ events, e.isRefusedCleanup = false

instance (events : List Event) : Decidable (CleanedUp events) :=
  inferInstanceAs (Decidable (∀ e ∈ events, e.isRefusedCleanup = false))

theorem CleanedUp.ne {events : List Event} (h : CleanedUp events) {e : Event} (he : e ∈ events)
    (id : Nat) : e ≠ .storage (.cleanup id) true := by
  rintro rfl
  cases h _ he

namespace Coordinator

/-! ### The invariant -/

/-- Over storage in memory: the archive is sound, and what it keeps was handed out under ids that
no round under way has. -/
structure Collects (c : Coordinator) : Prop where
  sound : c.archive.Sound
  numbered : ∀ {id : Nat} {handles : Handles}, (id, handles) ∈ c.archive.retention.holdings →
    id < c.nextId ∧ c.rounds.contains id = false

variable {c c' : Coordinator} {request : Request} {events : List Event} {reply : Reply}

/-- A full round has an id that the archive does not keep. -/
theorem Collects.fresh (h : c.Collects) (hc : c.Orderly) {id : Nat} {r r' : Round} {run : TaskRun}
    {state : Bytes} (hfind : c.rounds.find? id = some r)
    (hfull : r.acknowledge run state = (r', .completes)) :
    r'.id = id ∧ r'.id ∉ c.archive.retention.holdings.map (·.1) := by
  have hid := hc.own_of_completes hfind hfull
  refine ⟨hid, fun hmem => ?_⟩
  obtain ⟨⟨i, handles⟩, hmem, heq⟩ := List.mem_map.1 hmem
  obtain rfl : i = r'.id := heq
  have hout := (h.numbered hmem).2
  rw [hid, Table.contains, hfind] at hout
  cases hout

/-- What a step makes of the archive: it stays sound, and tight unless a request to clean up is
refused.  It keeps no more than before, but for the handles of a round that is taken away. -/
structure Carries (c c' : Coordinator) (events : List Event) : Prop where
  sound : c'.archive.Sound
  tight : c.archive.Tight → CleanedUp events → c'.archive.Tight
  kept : ∀ {id : Nat} {handles : Handles}, (id, handles) ∈ c'.archive.retention.holdings →
    (∃ handles', (id, handles') ∈ c.archive.retention.holdings) ∨
    (c.rounds.contains id = true ∧ c'.rounds.contains id = false)

theorem Carries.of_forgets {gone : List (Nat × Handles)} (h : c.archive.Sound)
    (hforget : Archive.Forgets c.archive c'.archive gone)
    (hfree : CleanedUp events → Archive.Frees c.archive c'.archive gone) :
    Carries c c' events where
  sound := h.forget hforget
  tight htight hclean := htight.free hforget (hfree hclean)
  kept {_ handles} hmem := by
    exact Or.inl ⟨handles, hforget.holdings.symm.subset (List.mem_append_left _ hmem)⟩

/-- Nothing is forgotten if neither storage nor what is to be kept has changed. -/
theorem Carries.of_same (h : c.archive.Sound) (hvault : c'.archive.vault = c.archive.vault)
    (hholdings : c'.archive.retention.holdings = c.archive.retention.holdings) :
    Carries c c' events := by
  have hforget : Archive.Forgets c.archive c'.archive [] := by
    refine ⟨?_, ?_, ?_⟩
    · rw [hvault]
      exact h.memory
    · rw [hholdings, List.append_nil]
    · rw [hvault]
      exact fun _ hb => hb
  have hfree : Archive.Frees c.archive c'.archive [] := by
    intro i r b hb
    rw [hvault] at hb
    exact ⟨List.not_mem_nil, hb⟩
  exact .of_forgets h hforget fun _ => hfree

/-- A round that is taken away leaves its handles before retention forgets others. -/
theorem Carries.of_enters {b : Archive} {gone : List (Nat × Handles)} {id : Nat} {handles : Handles}
    (h : c.archive.Sound) (hnew : id ∉ c.archive.retention.holdings.map (·.1))
    (henter : Archive.Enters c.archive b id handles) (hforget : Archive.Forgets b c'.archive gone)
    (hfree : Archive.Frees b c'.archive gone) (hin : c.rounds.contains id = true)
    (hout : c'.rounds.contains id = false) : Carries c c' events where
  sound := (h.enter henter hnew).forget hforget
  tight htight _ := (htight.enter henter).free hforget hfree
  kept {_ _} hmem := by
    have hentered := hforget.holdings.symm.subset (List.mem_append_left _ hmem)
    rcases List.mem_cons.1 (henter.holdings.subset hentered) with heq | hold
    · cases heq
      exact Or.inr ⟨hin, hout⟩
    · exact Or.inl ⟨_, hold⟩

theorem Collects.carries (h : c.Collects) (hc : c.Orderly)
    (hstep : c.step request = .ok (c', events, reply)) : Carries c c' events := by
  cases Files.of_step hc hstep with
  | same archive silent => exact .of_same h.sound (by rw [archive]) (by rw [archive])
  | failed asked there full gone finalized archive heard requests =>
    obtain ⟨-, hnew⟩ := h.fresh hc there full
    obtain ⟨hforget, hfree⟩ := Archive.forgets_of_finalize h.sound hnew finalized
    rw [← archive] at hforget hfree
    exact .of_forgets h.sound hforget fun hclean => hfree (hclean.ne heard _)
  | finished asked there full gone finalized archive requests answered =>
    obtain ⟨hid, hnew⟩ := h.fresh hc there full
    obtain ⟨b, forgotten, henter, hforget, hfree⟩ :=
      Archive.enters_of_finalize h.sound hnew finalized
    rw [← archive] at hforget hfree
    rw [hid] at hnew henter
    exact .of_enters h.sound hnew henter hforget hfree (Table.contains_iff.2 ⟨_, there⟩)
      (Table.contains_eq_false_iff.2 gone)
  | relabeled asked newest claimed archive silent answered =>
    refine .of_same h.sound ?_ ?_
    · rw [archive]
      rfl
    · rw [archive]
      exact Retention.holdings_relabel _ _ _
  | removed asked unregistered silent =>
    -- In memory there is no record whose removal could fail.
    rename_i id e
    rcases Archive.remove_cases c.archive id with ⟨-, he⟩ | ⟨s, -, -, hfind, -, -⟩
    · obtain ⟨-, hresult⟩ := Prod.mk.inj (he.symm.trans unregistered)
      cases hresult
    · rw [Archive.remove_inMemory h.sound.memory hfind] at unregistered
      obtain ⟨-, hresult⟩ := Prod.mk.inj unregistered
      cases hresult
  | disposed asked found unregistered archive heard requests =>
    rename_i id a s removed
    rw [Archive.remove_inMemory h.sound.memory found] at unregistered
    cases unregistered
    obtain ⟨hforget, hfree⟩ := Archive.forgets_dispose h.sound found rfl
    rw [← archive] at hforget hfree
    exact .of_forgets h.sound hforget fun hclean => hfree (hclean.ne heard _)
  | closed asked archive requests =>
    rename_i status
    obtain ⟨gone, hforget, hfree⟩ := Archive.forgets_close h.sound status
    rw [← archive] at hforget hfree
    exact .of_forgets h.sound hforget fun _ => hfree

theorem Collects.step (h : c.Collects) (hc : c.Orderly)
    (hstep : c.step request = .ok (c', events, reply)) : c'.Collects := by
  have hcarries := h.carries hc hstep
  refine ⟨hcarries.sound, ?_⟩
  intro id handles hmem
  rcases hcarries.kept hmem with ⟨handles', hmem'⟩ | ⟨hin, hout⟩
  · exact IsOver.step hc hstep (h.numbered hmem')
  · obtain ⟨r, hfind⟩ := Table.contains_iff.1 hin
    exact ⟨lt_of_lt_of_le (hc.numbered hfind) (nextId_le_step hc hstep), hout⟩

theorem Collects.withVault (h : c.Collects) {vault : Vault}
    (hvault : vault.medium = c.archive.vault.medium) : (c.withVault vault).Collects where
  sound := by
    refine ⟨?_, h.sound.distinct, ?_⟩
    · show vault.medium.InMemory
      rw [hvault]
      exact h.sound.memory
    · intro id handles hmem run state hfind
      show vault.medium.load id run = .ok state
      rw [hvault]
      exact h.sound.holds hmem hfind
  numbered := h.numbered

end Coordinator

/-! ### The main statement -/

open Coordinator in
theorem collects_of_run {start c : Coordinator} {history : List Moment}
    (h : Run SameMedium start history c) (hstart : start.Orderly) (hcollects : start.Collects)
    (htight : start.archive.Tight) :
    c.Collects ∧ ((∀ m ∈ history, CleanedUp m.events) → c.archive.Tight) := by
  induction h with
  | nil => exact ⟨hcollects, fun _ => htight⟩
  | @snoc past c c' vault request events reply run change step ih =>
    obtain ⟨hc, hclean⟩ := ih
    have horderly := (Orderly.of_run run hstart).1.withVault vault
    have hvault := hc.withVault change
    refine ⟨hvault.step horderly step, fun hall => ?_⟩
    have hbefore : (c.withVault vault).archive.Tight := by
      intro id run' state hload
      refine hclean (fun m hm => hall m (List.mem_append_left _ hm)) id run' state ?_
      rw [← show vault.medium = c.archive.vault.medium from change]
      exact hload
    exact (hvault.carries horderly step).tight hbefore
      (hall _ (List.mem_append_right _ List.mem_cons_self))

/-- Garbage collection neither loses needed state nor leaks.  From empty storage in memory, in
every run and whatever storage refuses, every handle of a live snapshot and of one in the backlog
can be loaded; and unless a request to clean up was refused, nothing else can. -/
theorem collects_exactly {settings : Settings} {faults : FaultPlan} {maxRetained : Nat}
    {hasHandler : Bool} {archive : Archive} {start c : Coordinator} {history : List Moment}
    (harchive : Archive.open? (.of (.memory ∅) faults) maxRetained = .ok archive)
    (hopen : Coordinator.open? settings archive hasHandler = .ok start)
    (hrun : Run SameMedium start history c) :
    (∀ s ∈ c.archive.retention.live ++ c.archive.retention.backlog, ∀ run state,
      s.handles.find? run = some state → c.archive.vault.medium.load s.id run = .ok state) ∧
    ((∀ m ∈ history, CleanedUp m.events) → ∀ id run state,
      c.archive.vault.medium.load id run = .ok state →
        ∃ s ∈ c.archive.retention.live ++ c.archive.retention.backlog,
          s.id = id ∧ s.handles.find? run = some state) := by
  cases harchive
  have hstart := Coordinator.orderly_of_open hopen
  cases hopen
  obtain ⟨hcollects, htight⟩ := collects_of_run hrun hstart
    ⟨⟨⟨_, rfl⟩, List.nodup_nil, by simp [Retention.holdings, Retention.empty]⟩,
      by simp [Retention.holdings, Retention.empty]⟩
    (by
      intro id run state hload
      cases hload)
  constructor
  · intro s hs run state hfind
    exact hcollects.sound.holds (Retention.mem_holdings.2 ⟨s, hs, rfl, rfl⟩) hfind
  · intro hclean id run state hload
    obtain ⟨handles, hmem, hfind⟩ := htight hclean id run state hload
    obtain ⟨s, hs, hid, rfl⟩ := Retention.mem_holdings.1 hmem
    exact ⟨s, hs, hid, hfind⟩

/-- Two checkpoints of one task and a savepoint that is disposed of. -/
def disposalRequests : List Request :=
  [.register ⟨1, 0, 0⟩ .running, .trigger (.ofRetention .onFailure) 10,
    .acknowledge 1 ⟨1, 0, 0⟩ [7] 20, .trigger (.savepoint true .canonical) 30,
    .acknowledge 2 ⟨1, 0, 0⟩ [8] 40, .trigger (.ofRetention .onFailure) 50,
    .acknowledge 3 ⟨1, 0, 0⟩ [9] 60, .dispose 2]

theorem collects_exactly_after_disposal : ∃ archive start c history,
    Archive.open? (.of (.memory ∅) (FaultRule.plan [⟨.discard, some 1, none⟩])) 1 = .ok archive ∧
    Coordinator.open? .default archive false = .ok start ∧
    start.perform disposalRequests = (history, c) ∧
    c.archive.retention.live.map (·.id) = [3] ∧ c.archive.retention.backlog.map (·.id) = [1] ∧
    (∀ s ∈ c.archive.retention.live ++ c.archive.retention.backlog, ∀ run state,
      s.handles.find? run = some state → c.archive.vault.medium.load s.id run = .ok state) ∧
    ∀ id run state, c.archive.vault.medium.load id run = .ok state →
      ∃ s ∈ c.archive.retention.live ++ c.archive.retention.backlog,
        s.id = id ∧ s.handles.find? run = some state := by
  obtain ⟨archive, start, c, history, harchive, hopen, hperform, hlive, hbacklog, hclean⟩ :
      ∃ archive start c history,
        Archive.open? (.of (.memory ∅) (FaultRule.plan [⟨.discard, some 1, none⟩])) 1 =
          .ok archive ∧
        Coordinator.open? .default archive false = .ok start ∧
        start.perform disposalRequests = (history, c) ∧
        c.archive.retention.live.map (·.id) = [3] ∧
        c.archive.retention.backlog.map (·.id) = [1] ∧ ∀ m ∈ history, CleanedUp m.events :=
    ⟨_, _, _, _, rfl, rfl, rfl, rfl, rfl, by decide⟩
  have hrun : Run SameMedium start _ _ := Run.of_perform SameMedium.refl start disposalRequests
  rw [hperform] at hrun
  obtain ⟨hheld, htight⟩ := collects_exactly harchive hopen hrun
  exact ⟨archive, start, c, history, harchive, hopen, hperform, hlive, hbacklog, hheld,
    htight hclean⟩

end Checkpointing
