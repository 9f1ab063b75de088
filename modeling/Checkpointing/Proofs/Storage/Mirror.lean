import Mathlib
import Checkpointing.Proofs.Storage.Exchange

/-!
# A directory mirrors its archive

The records in a directory are those of the snapshots that its archive holds, live or in the
backlog, and each is as it was when the snapshot was added.  So the directory can be opened again at
any time and tells just these.

* `Archive.Mirrored` is the invariant, `Mirrored.exchange` is the step and `Mirrored.perform` the
  run;
* `directory_mirrors_archive` is the main statement.
-/

namespace Checkpointing

open Directory

variable {start : Disk} {base : Location} {a b : Archive} {s : Snapshot}

namespace Archive

/-- All that an archive holds was added, and what is on record is what it holds, as it was when it
was added. -/
structure Mirrored (start : Disk) (base : Location) (added : List Snapshot) (a : Archive) :
    Prop where
  cataloged : a.vault.medium.Cataloged start base
  distinct : a.held.Nodup
  taken : ∀ t ∈ a.retention.live ++ a.retention.backlog, ∃ s ∈ added,
    t = { s with policy := t.policy }
  files : ∀ s, a.vault.medium.Files s ↔ s ∈ added ∧ s.id ∈ a.held

namespace Mirrored

variable {added : List Snapshot}

theorem held_added (h : Mirrored start base added a) {id : Nat} (hid : id ∈ a.held) :
    id ∈ added.map (·.id) := by
  obtain ⟨t, ht, rfl⟩ := List.mem_map.1 hid
  obtain ⟨s, hs, heq⟩ := h.taken t ht
  rw [heq]
  exact List.mem_map.2 ⟨s, hs, rfl⟩

/-- What is on record is what the archive holds, but for the policy. -/
theorem files_iff (h : Mirrored start base added a) (honce : (added.map (·.id)).Nodup) :
    a.vault.medium.Files s ↔ s ∈ added ∧
      ∃ t ∈ a.snapshots ++ a.retention.backlog, t = { s with policy := t.policy } := by
  refine (h.files s).trans (and_congr_right fun hs => ?_)
  constructor
  · intro hid
    obtain ⟨t, ht, hid⟩ := List.mem_map.1 hid
    -- What was added under an id is one snapshot.
    obtain ⟨u, hu, heq⟩ := h.taken t ht
    cases List.inj_on_of_nodup_map honce hu hs ((congrArg Snapshot.id heq).symm.trans hid)
    exact ⟨t, ht, heq⟩
  · rintro ⟨t, ht, heq⟩
    exact List.mem_map.2 ⟨t, ht, by rw [heq]⟩

/-- An exchange keeps an archive mirrored if no id is added twice. -/
theorem exchange {more taken : List Snapshot} {gone : List Nat} (h : Mirrored start base added a)
    (hdistinct : ((added ++ more).map (·.id)).Nodup) (hsub : taken.Sublist more)
    (he : Exchange start base a b taken gone) : Mirrored start base (added ++ more) b := by
  rw [List.map_append] at hdistinct
  have hmore : ∀ id ∈ added.map (·.id), id ∉ more.map (·.id) :=
    fun _ hid => List.disjoint_of_nodup_append hdistinct hid
  have hids : ∀ id ∈ taken.map (·.id), id ∈ more.map (·.id) :=
    fun _ hid => (hsub.map _).subset hid
  have hnodup : (b.held ++ gone).Nodup := by
    refine he.balance.nodup_iff.2 (List.nodup_append'.2 ⟨?_, h.distinct, fun id htaken hheld => ?_⟩)
    · exact hdistinct.of_append_right.sublist (hsub.map _)
    · exact hmore id (h.held_added hheld) (hids id htaken)
  have hheld : ∀ id, id ∈ b.held ↔ (id ∈ taken.map (·.id) ∨ id ∈ a.held) ∧ id ∉ gone := by
    intro id
    rw [← List.mem_append, ← he.balance.mem_iff, List.mem_append]
    constructor
    · exact fun hid => ⟨Or.inl hid, List.disjoint_of_nodup_append hnodup hid⟩
    · exact fun hid => hid.1.resolve_right hid.2
  refine ⟨he.cataloged, hnodup.of_append_left, fun t ht => ?_, fun s => ?_⟩
  · obtain ⟨u, hu, heq⟩ := he.origin t ht
    rcases List.mem_append.1 hu with hu | hu
    · exact ⟨u, List.mem_append_right _ (hsub.subset hu), heq⟩
    · obtain ⟨s, hs, hsame⟩ := h.taken u hu
      exact ⟨s, List.mem_append_left _ hs, by rw [heq, hsame]⟩
  · rw [he.files, h.files, hheld, ← and_assoc]
    refine and_congr_left fun _ => ?_
    constructor
    · rintro (hs | ⟨⟨hs, hid⟩, -⟩)
      · exact ⟨List.mem_append_right _ (hsub.subset hs), Or.inl (List.mem_map_of_mem hs)⟩
      · exact ⟨List.mem_append_left _ hs, Or.inr hid⟩
    · rintro ⟨hs, hid⟩
      rcases List.mem_append.1 hs with hs | hs
      · have hother : s.id ∉ taken.map (·.id) :=
          fun hid => hmore s.id (List.mem_map_of_mem hs) (hids s.id hid)
        exact Or.inr ⟨⟨hs, hid.resolve_left hother⟩, hother⟩
      · -- What is added under a new id is not held before, so it is what was taken.
        have hnew : s.id ∉ a.held :=
          fun hid => hmore s.id (h.held_added hid) (List.mem_map_of_mem hs)
        obtain ⟨t, ht, heq⟩ := List.mem_map.1 (hid.resolve_right hnew)
        cases List.inj_on_of_nodup_map hdistinct.of_append_right (hsub.subset ht) hs heq
        exact Or.inl ht

/-- Whatever is done with an archive, it stays mirrored as long as no id is added twice. -/
theorem perform {actions : List Action} (h : Mirrored start base added a)
    (hfits : ∀ s ∈ actions.flatMap Action.added, s.Recordable)
    (hdistinct : ((added ++ actions.flatMap Action.added).map (·.id)).Nodup) :
    Mirrored start base (added ++ actions.flatMap Action.added) (a.perform actions) := by
  induction actions generalizing a added with
  | nil => simpa [Archive.perform] using h
  | cons action actions ih =>
    rw [List.flatMap_cons] at hfits hdistinct ⊢
    rw [← List.append_assoc] at hdistinct ⊢
    obtain ⟨hfirst, hrest⟩ := List.forall_mem_append.1 hfits
    have hbefore : ((added ++ action.added).map (·.id)).Nodup := by
      rw [List.map_append] at hdistinct
      exact hdistinct.of_append_left
    obtain ⟨taken, gone, hsub, he⟩ := exchange_act h.cataloged hfirst
    exact ih (h.exchange hbefore hsub he) hrest hdistinct

end Mirrored

/-! ### Opening and opening again -/

/-- An archive that was opened on an empty directory holds nothing, and nothing is on record. -/
theorem mirrored_of_open {vault : Vault} {maxRetained : Nat} (hd : Catalog start base start)
    (hempty : start.listing base.path = []) (h : open? vault maxRetained = .ok a)
    (hmedium : a.vault.medium = .directory base start) : Mirrored start base [] a := by
  have hnone : ∀ s, ¬Filed start base s := fun s hs =>
    Disk.not_below_of_listing hempty (isAbove_snapshot _ _ _) hs.record _ _ rfl
  have hretention : a.retention = .empty maxRetained := by
    obtain ⟨-, found, hfound, hinsert⟩ := open?_eq_ok h
    obtain ⟨l, hl, -, hmem⟩ := hd.readRecords
    rw [hmedium] at hfound
    cases hl.symm.trans hfound
    rw [List.eq_nil_iff_forall_not_mem.2 fun s hs => hnone s ((hmem s).1 hs)] at hinsert
    exact (Except.ok.inj hinsert).symm
  have hheld : a.held = [] := by rw [held, hretention]; rfl
  refine ⟨⟨start, hmedium, hd⟩, by simp [hheld], by simp [hretention, Retention.empty], fun s => ?_⟩
  rw [hmedium, Medium.files_directory]
  exact iff_of_false (hnone s) fun hs => by cases hs.1

/-- A directory is the image of its archive.  Let an archive be opened on a directory that is empty,
and let anything be added, relabeled, removed, closed and kept there, in any order and whatever
requests storage refuses, as long as no id is added twice.  Then the directory can be opened again,
and tells, in ascending order, just the snapshots that the archive holds, live or in the backlog;
each is what was added, although the archive may have given it another policy since. -/
theorem directory_mirrors_archive {text : String} {vault : Vault} {maxRetained : Nat}
    {actions : List Action} (hlocate : start.locate text = .ok base)
    (hempty : start.listing base.path = []) (hstored : open? vault maxRetained = .ok a)
    (hmedium : a.vault.medium = .directory base start)
    (hfits : ∀ s ∈ actions.flatMap Action.added, s.Recordable)
    (honce : ((actions.flatMap Action.added).map (·.id)).Nodup) :
    ∃ disk, (a.perform actions).vault.medium = .directory base disk ∧
      ∀ n, ∃ b, openDirectory text n disk = .ok b ∧ Retention.Ascending b.snapshots ∧
        (∀ s, s ∈ b.snapshots ↔ s ∈ actions.flatMap Action.added ∧
          ∃ t ∈ (a.perform actions).snapshots ++ (a.perform actions).retention.backlog,
            t = { s with policy := t.policy }) ∧
        (b.snapshots.map (·.id)).Perm (a.perform actions).held := by
  have hbase := node?_of_open hstored hmedium
  have hopened := mirrored_of_open (catalog_of_empty hlocate hbase hempty) hempty hstored hmedium
  have hlast := hopened.perform hfits honce
  rw [List.nil_append] at hlast
  obtain ⟨disk, hm, hd⟩ := hlast.cataloged
  refine ⟨disk, hm, fun n => ?_⟩
  obtain ⟨b, hb, hascending, hfiled⟩ := hd.openDirectory hlocate hbase hempty n
  have hmem : ∀ s, s ∈ b.snapshots ↔ (a.perform actions).vault.medium.Files s := by
    intro s
    rw [hfiled, hm, Medium.files_directory]
  refine ⟨b, hb, hascending, fun s => (hmem s).trans (hlast.files_iff honce), ?_⟩
  refine (List.perm_ext_iff_of_nodup hascending.nodup hlast.distinct).2 fun id => ?_
  constructor
  · intro hid
    obtain ⟨s, hs, rfl⟩ := List.mem_map.1 hid
    exact ((hlast.files s).1 ((hmem s).1 hs)).2
  · intro hid
    obtain ⟨s, hs, rfl⟩ := List.mem_map.1 (hlast.held_added hid)
    exact List.mem_map_of_mem ((hmem s).2 ((hlast.files s).2 ⟨hs, hid⟩))

/-- A checkpoint that is given up when the next one is there. -/
def firstStored : Snapshot :=
  ⟨1, .ofRetention .onFailure, 10, 11, Table.insert ∅ ⟨1, 0, 0⟩ [7], none⟩

/-- The next one. -/
def secondStored : Snapshot :=
  ⟨2, .ofRetention .onFailure, 20, 21, Table.insert ∅ ⟨1, 0, 0⟩ [8], none⟩

/-- Both are added, the second one becomes unclaimed, a state is kept for a checkpoint that never
completes, a savepoint comes and goes, and the archive is closed. -/
def storeActions : List Action :=
  [.call (.add firstStored), .call (.add secondStored), .call (.relabel 2 .unclaimedSnapshot),
    .persist 9 ⟨1, 0, 0⟩ [9], .call (.add ⟨3, .savepoint true .canonical, 30, 31, ∅, none⟩),
    .call (.remove 3), .call (.close .finished)]

/-- A checkpoint whose discard is refused is found again, and the unclaimed one with the policy that
it was added with; the other directory tells nothing. -/
theorem directory_mirrors_archive_of_store : ∃ a disk b,
    open? (.of (.directory ⟨"d", ["d"], none⟩ ⟨[]⟩) (FaultRule.plan [⟨.discard, some 1, none⟩])) 1 =
      .ok a ∧
    (a.perform storeActions).snapshots = [{ secondStored with policy := .unclaimedSnapshot }] ∧
    (a.perform storeActions).retention.backlog = [firstStored] ∧
    (a.perform storeActions).vault.medium = .directory ⟨"d", ["d"], none⟩ disk ∧
    disk.isThere ["d", "chk-9"] = true ∧ openDirectory "d" 1 disk = .ok b ∧
    (b.snapshots.map (·.id)).Perm [2, 1] ∧ firstStored ∈ b.snapshots ∧
    secondStored ∈ b.snapshots := by
  obtain ⟨a, hstored, hmedium, hlive, hbacklog, hheld, hthere⟩ : ∃ a,
      open? (.of (.directory ⟨"d", ["d"], none⟩ ⟨[]⟩)
        (FaultRule.plan [⟨.discard, some 1, none⟩])) 1 = .ok a ∧
      a.vault.medium = .directory ⟨"d", ["d"], none⟩ ⟨[(["d"], .directory)]⟩ ∧
      (a.perform storeActions).snapshots = [{ secondStored with policy := .unclaimedSnapshot }] ∧
      (a.perform storeActions).retention.backlog = [firstStored] ∧
      (a.perform storeActions).held = [2, 1] ∧
      (a.perform storeActions).vault.medium.disk?.map (·.isThere ["d", "chk-9"]) = some true :=
    ⟨⟨.of (.directory ⟨"d", ["d"], none⟩ ⟨[(["d"], .directory)]⟩)
      (FaultRule.plan [⟨.discard, some 1, none⟩]), .empty 1⟩,
      by cbv, rfl, by decide +kernel, by decide +kernel, by decide +kernel, by decide +kernel⟩
  have hlocate : (⟨[(["d"], .directory)]⟩ : Disk).locate "d" = .ok ⟨"d", ["d"], none⟩ := by cbv
  have hempty : (⟨[(["d"], .directory)]⟩ : Disk).listing ["d"] = [] := by cbv
  have hfits : ∀ s ∈ storeActions.flatMap Action.added, s.Recordable := by
    intro s hs
    have hs : s ∈ [firstStored, secondStored, _] := hs
    fin_cases hs <;>
      exact ⟨by decide, by decide, by decide, by decide, by decide, by rintro _ ⟨⟩⟩
  have honce : ((storeActions.flatMap Action.added).map (·.id)).Nodup := by decide
  obtain ⟨disk, hleft, hagain⟩ :=
    directory_mirrors_archive hlocate hempty hstored hmedium hfits honce
  obtain ⟨b, hb, -, hmem, hperm⟩ := hagain 1
  rw [hheld] at hperm
  rw [hlive, hbacklog] at hmem
  rw [hleft] at hthere
  refine ⟨a, disk, b, hstored, hlive, hbacklog, hleft, Option.some.inj hthere, hb, hperm, ?_, ?_⟩
  · exact (hmem _).2 ⟨by simp [storeActions, Action.added], firstStored, by simp, rfl⟩
  · exact (hmem _).2 ⟨by simp [storeActions, Action.added], _, List.mem_cons_self, rfl⟩

end Archive
end Checkpointing
