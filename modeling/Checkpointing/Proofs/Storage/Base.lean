import Mathlib.Tactic
import Checkpointing.Proofs.Storage.Layout

/-!
# Base directories of written paths

A written path that leads to an empty directory makes it a base directory, and leads to it as long
as no directory is taken from the disk.  A directory that is not empty serves as well, unless the way
to it leads through its own entries; then these may be taken too.

* `followAll_of_places`: a route does not notice what becomes of a disk, except for the places
  through which it leads;
* `hosts_of_locate`, `hosts_of_apart`: the directory to which a written path leads hosts what is put
  in it;
* `locate_of_kept`, `locate_of_apart`, `ensureRoute_of_locate`: the path can be used again to open
  the directory.
-/

namespace Checkpointing

/-- The way in which a location is written does not lead through its own entries. -/
def Location.Apart (l : Location) : Prop :=
  ∀ ds, l.detours = some ds → ∀ p ∈ ds, ∀ name rest, p ≠ l.path ++ name :: rest

namespace Disk

open Route

variable {d d' : Disk} {here next p : Path} {name text : String} {base : Location}

/-- A path and all those on the way to it are directories. -/
def Grounded (d : Disk) (p : Path) : Prop := ∀ q, q <+: p → d.node? q = some .directory

theorem grounded_of_isAbove (h : p.isAbove = true) : d.Grounded p := by
  rintro q ⟨t, rfl⟩
  refine node?_of_isAbove ?_
  simp only [Path.isAbove, List.all_append, Bool.and_eq_true] at h
  exact h.1

theorem Grounded.concat (h : d.Grounded p) (hdir : d.node? (p ++ [name]) = some .directory) :
    d.Grounded (p ++ [name]) := by
  intro q hq
  rcases List.prefix_concat_iff.1 hq with rfl | hq
  · exact hdir
  · exact h q hq

/-! ### Following a route -/

/-- Only from a directory a name leads on: to the same directory, up to its parent or to an
entry. -/
theorem follow_cases (h : d.follow here name = .ok next) :
    d.node? here = some .directory ∧
      (next = here ∨ (name = ".." ∧ next = here.parent) ∨ next = here ++ [name]) := by
  unfold follow at h
  split at h
  · cases h
  · cases h
  · next hdir =>
    refine ⟨hdir, ?_⟩
    split at h
    · cases h
      exact Or.inl rfl
    · split at h
      · next hup =>
        cases h
        exact Or.inr (Or.inl ⟨hup, rfl⟩)
      · split at h
        · cases h
        · split at h
          · cases h
            exact Or.inr (Or.inr rfl)
          · cases h

/-- A name leads to the same place if it leads to a directory that is still there. -/
theorem follow_of_kept (h : d.follow here name = .ok next)
    (hhere : d'.node? here = some .directory) (hnext : d'.node? next = some .directory) :
    d'.follow here name = .ok next := by
  have hdir := (follow_cases h).1
  unfold follow at h ⊢
  rw [hdir] at h
  rw [hhere]
  dsimp only at h ⊢
  split
  · next hstays =>
    rw [if_pos hstays] at h
    exact h
  · next hstays =>
    rw [if_neg hstays] at h
    split
    · next hup =>
      rw [if_pos hup] at h
      exact h
    · next hup =>
      rw [if_neg hup] at h
      split
      · next hlong =>
        rw [if_pos hlong] at h
        cases h
      · next hlong =>
        rw [if_neg hlong] at h
        split at h
        · cases h
          rw [if_pos (isThere_iff.2 ⟨_, hnext⟩)]
        · cases h

theorem directory_of_followAll {r : Route} (h : d.followAll here r = .ok p)
    (hp : d.node? p = some .directory) : d.node? here = some .directory := by
  cases r with
  | nil =>
    cases h
    exact hp
  | cons name r =>
    rw [followAll] at h
    split at h
    · cases h
    · next hfollow => exact (follow_cases hfollow).1

theorem grounded_follow (h : d.follow here name = .ok next) (hhere : d.Grounded here)
    (hnext : d.node? next = some .directory) : d.Grounded next := by
  obtain ⟨-, rfl | ⟨-, rfl⟩ | rfl⟩ := follow_cases h
  · exact hhere
  · unfold Path.parent at hnext ⊢
    split at hnext
    · exact hhere.concat hnext
    · exact hhere.concat hnext
    · exact hhere
    · exact fun q hq => hhere q <| hq.trans <| List.dropLast_prefix _
  · exact hhere.concat hnext

/-- A route to a directory only enters directories, and so do its detours. -/
theorem grounded_followAll {r : Route} (h : d.followAll here r = .ok p)
    (hp : d.node? p = some .directory) (hhere : d.Grounded here) :
    d.Grounded p ∧ ∀ q ∈ d.detours here r, d.Grounded q ∧ q.isAbove = false := by
  induction r generalizing here with
  | nil =>
    cases h
    exact ⟨hhere, by simp [detours]⟩
  | cons name r ih =>
    rw [followAll] at h
    cases hfollow : d.follow here name with
    | error e =>
      rw [hfollow] at h
      cases h
    | ok next =>
      rw [hfollow] at h
      have hnext := grounded_follow hfollow hhere (directory_of_followAll h hp)
      obtain ⟨hend, hdetours⟩ := ih h hnext
      refine ⟨hend, fun q hq => ?_⟩
      rw [detours, hfollow] at hq
      rcases List.mem_append.1 hq with hq | hq
      · -- The only detour here is the directory that a step up leaves.
        split at hq
        · next hup =>
          obtain rfl := List.mem_singleton.1 hq
          exact ⟨hhere, by simpa using hup.2⟩
        · cases hq
      · exact hdetours q hq

/-- The places through which a route leads. -/
def places (d : Disk) (here : Path) : Route → List Path
  | [] => [here]
  | name :: rest =>
    match d.follow here name with
    | .error _ => [here]
    | .ok next => here :: d.places next rest

theorem mem_places_self (here : Path) (r : Route) : here ∈ d.places here r := by
  cases r with
  | nil => exact List.mem_singleton_self here
  | cons name r =>
    rw [places]
    split
    · exact List.mem_singleton_self here
    · exact List.mem_cons_self

/-- A route leads to the same directory, by the same detours, in a disk that has kept the
directories through which it leads. -/
theorem followAll_of_places {r : Route} (h : d.followAll here r = .ok p)
    (hp : d.node? p = some .directory)
    (hkept : ∀ q ∈ d.places here r, d.node? q = some .directory → d'.node? q = some .directory) :
    d'.followAll here r = .ok p ∧ d'.detours here r = d.detours here r := by
  induction r generalizing here with
  | nil => exact ⟨h, rfl⟩
  | cons name r ih =>
    rw [followAll] at h
    cases hfollow : d.follow here name with
    | error e =>
      rw [hfollow] at h
      cases h
    | ok next =>
      rw [hfollow] at h
      rw [places, hfollow] at hkept
      obtain ⟨hfirst, hrest⟩ := List.forall_mem_cons.1 hkept
      have hnext := hrest next (mem_places_self next r) (directory_of_followAll h hp)
      have hsame := follow_of_kept hfollow (hfirst (follow_cases hfollow).1) hnext
      obtain ⟨hend, hdetours⟩ := ih h hrest
      constructor
      · rw [followAll, hsame]
        exact hend
      · rw [detours, detours, hsame, hfollow]
        dsimp only
        rw [hdetours]

/-- What a path lies in, its parent lies in as well. -/
theorem prefix_parent {q : Path} (h : q <+: here) (hne : q ≠ here) : q <+: here.parent := by
  unfold Path.parent
  split
  · exact h.trans (List.prefix_append _ _)
  · exact h.trans (List.prefix_append _ _)
  · exact h
  · next last _ _ hlast =>
    obtain ⟨front, rfl⟩ := List.getLast?_eq_some_iff.1 hlast
    rw [List.dropLast_concat]
    exact (List.prefix_concat_iff.1 h).resolve_left hne

/-- A directory that a route has entered and that does not lie on the way to its end is a detour. -/
theorem mem_detours_of_prefix {r : Route} {q : Path} (h : d.followAll here r = .ok p)
    (hq : q <+: here) (hout : ¬q <+: p) (habove : q.isAbove = false) : q ∈ d.detours here r := by
  induction r generalizing here with
  | nil =>
    cases h
    exact absurd hq hout
  | cons name r ih =>
    rw [followAll] at h
    rw [detours]
    cases hfollow : d.follow here name with
    | error e =>
      rw [hfollow] at h
      cases h
    | ok next =>
      rw [hfollow] at h
      obtain ⟨-, rfl | ⟨hup, rfl⟩ | rfl⟩ := follow_cases hfollow
      · exact List.mem_append_right _ (ih h hq)
      · by_cases hself : q = here
        · subst hself
          rw [if_pos ⟨hup, by rw [habove]; rfl⟩]
          exact List.mem_append_left _ (List.mem_singleton_self q)
        · exact List.mem_append_right _ (ih h (prefix_parent hq hself))
      · exact List.mem_append_right _ (ih h (hq.trans (List.prefix_append _ _)))

/-- So is every place below its end through which the route leads. -/
theorem mem_detours_of_mem_places {r : Route} {q : Path} (h : d.followAll here r = .ok p)
    (hq : q ∈ d.places here r) (hout : ¬q <+: p) (habove : q.isAbove = false) :
    q ∈ d.detours here r := by
  induction r generalizing here with
  | nil =>
    cases h
    rw [List.mem_singleton.1 hq] at hout
    exact absurd (List.prefix_refl p) hout
  | cons name r ih =>
    have hself := mem_detours_of_prefix (q := here) h (List.prefix_refl here)
    rw [followAll] at h
    rw [places] at hq
    cases hfollow : d.follow here name with
    | error e =>
      rw [hfollow] at h
      cases h
    | ok next =>
      rw [hfollow] at h hq
      rcases List.mem_cons.1 hq with rfl | hq
      · exact hself hout habove
      · rw [detours, hfollow]
        exact List.mem_append_right _ (ih h hq)

theorem followAll_append (r r' : Route) : d.followAll here (r ++ r') =
    (d.followAll here r).bind fun there => d.followAll there r' := by
  induction r generalizing here with
  | nil => rfl
  | cons name r ih =>
    rw [List.cons_append, followAll, followAll]
    cases d.follow here name with
    | error e => rfl
    | ok next => exact ih

/-! ### Written paths -/

theorem locate_eq_ok (h : d.locate text = .ok base) :
    text.utf8ByteSize ≤ maxText ∧ d.followAll (startOf text) (ofText text) = .ok base.path ∧
      base.shown = text ∧ ∀ ds, base.detours = some ds →
        ds = d.detours (startOf text) (ofText text) := by
  unfold locate at h
  split at h
  · cases h
  · next hshort =>
    cases hpath : d.followAll (startOf text) (ofText text) with
    | error e =>
      rw [hpath] at h
      cases h
    | ok path =>
      rw [hpath] at h
      cases h
      refine ⟨Nat.not_lt.1 hshort, rfl, rfl, fun ds hds => ?_⟩
      dsimp only at hds
      split at hds
      · cases hds
      · exact (Option.some.inj hds).symm

theorem isAbove_startOf (text : String) : (startOf text).isAbove = true := by
  unfold startOf
  split <;> rfl

/-- A path whose way does not lead through entries of the directory in which it ends makes this a
base directory. -/
theorem hosts_of_apart (h : d.locate text = .ok base)
    (hdir : d.node? base.path = some .directory) (hapart : base.Apart) : d.Hosts base := by
  obtain ⟨hshort, hfollow, hshown, hds⟩ := locate_eq_ok h
  obtain ⟨hroot, hdetours⟩ := grounded_followAll hfollow hdir
    (grounded_of_isAbove (isAbove_startOf text))
  refine ⟨by rw [hshown]; exact hshort, hroot, ?_, hapart _⟩
  intro ds hsome p hp
  rw [hds ds hsome] at hp
  exact (hdetours p hp).1

/-- There are no entries of an empty directory through which a way could lead. -/
theorem apart_of_listing (h : d.locate text = .ok base)
    (hdir : d.node? base.path = some .directory) (hempty : d.listing base.path = []) :
    base.Apart := by
  obtain ⟨-, hfollow, -, hds⟩ := locate_eq_ok h
  obtain ⟨-, hdetours⟩ := grounded_followAll hfollow hdir
    (grounded_of_isAbove (isAbove_startOf text))
  intro ds hsome p hp name rest heq
  rw [hds ds hsome] at hp
  obtain ⟨hgrounded, habove⟩ := hdetours p hp
  exact not_below_of_listing hempty habove (hgrounded p (List.prefix_refl p)) name rest heq

/-- A path that leads to an empty directory makes it a base directory. -/
theorem hosts_of_locate (h : d.locate text = .ok base)
    (hdir : d.node? base.path = some .directory) (hempty : d.listing base.path = []) :
    d.Hosts base :=
  hosts_of_apart h hdir (apart_of_listing h hdir hempty)

/-- A path leads to the same location in a disk that has kept the directories through which it
leads. -/
theorem locate_of_places (h : d.locate text = .ok base) (hdir : d.node? base.path = some .directory)
    (hkept : ∀ q ∈ d.places (startOf text) (ofText text), d.node? q = some .directory →
      d'.node? q = some .directory) : d'.locate text = .ok base := by
  obtain ⟨-, hfollow, -⟩ := locate_eq_ok h
  obtain ⟨hsame, hdetours⟩ := followAll_of_places hfollow hdir hkept
  unfold locate at h ⊢
  rw [hfollow] at h
  rw [hsame, hdetours]
  exact h

/-- A path leads to the same location in a disk that has kept all directories. -/
theorem locate_of_kept (h : d.locate text = .ok base) (hdir : d.node? base.path = some .directory)
    (hkept : ∀ q, d.node? q = some .directory → d'.node? q = some .directory) :
    d'.locate text = .ok base :=
  locate_of_places h hdir fun q _ => hkept q

/-- The directories that a located path enters and leaves again are noted. -/
theorem mem_detours_of_locate (h : d.locate text = .ok base) {q : Path}
    (hq : q ∈ d.detours (startOf text) (ofText text)) :
    ∃ ds, base.detours = some ds ∧ q ∈ ds := by
  unfold locate at h
  split at h
  · cases h
  · cases hpath : d.followAll (startOf text) (ofText text) with
    | error e =>
      rw [hpath] at h
      cases h
    | ok path =>
      rw [hpath] at h
      cases h
      refine ⟨_, if_neg ?_, hq⟩
      rintro ⟨hnone, -⟩
      rw [hnone] at hq
      cases hq

/-- Entries of the directory in which a path ends may be removed: the path still leads there if its
way does not lead through them. -/
theorem locate_of_apart (h : d.locate text = .ok base) (hdir : d.node? base.path = some .directory)
    (hapart : base.Apart)
    (hkept : ∀ q, (∀ name rest, q ≠ base.path ++ name :: rest) → d.node? q = some .directory →
      d'.node? q = some .directory) : d'.locate text = .ok base := by
  obtain ⟨-, hfollow, -⟩ := locate_eq_ok h
  refine locate_of_places h hdir fun q hq hnode => ?_
  cases habove : q.isAbove with
  | true => exact node?_of_isAbove habove
  | false =>
    refine hkept q (fun name rest heq => ?_) hnode
    -- What lies below the end of the route does not lie on the way to it.
    have hout : ¬q <+: base.path := by
      rintro ⟨t, ht⟩
      have hlength := congrArg List.length ht
      rw [heq] at hlength
      simp at hlength
    obtain ⟨ds, hds, hmem⟩ :=
      mem_detours_of_locate h (mem_detours_of_mem_places hfollow hq hout habove)
    exact hapart ds hds q hmem name rest heq

theorem exists_trim_append (r : Route) : ∃ slashes, trim r ++ slashes = r := by
  refine ⟨(r.reverse.takeWhile fun name => name == "").reverse, ?_⟩
  rw [trim, ← List.reverse_append, List.takeWhile_append_dropWhile, List.reverse_reverse]

/-- Nothing has to be created for a path that leads to a directory. -/
theorem ensureRoute_of_locate (h : d.locate text = .ok base)
    (hdir : d.node? base.path = some .directory) : d.ensureRoute text = (d, none) := by
  obtain ⟨hsize, hfollow, -⟩ := locate_eq_ok h
  have hmake : d.makeDirectory (startOf text) (ofText text) = .error .taken := by
    obtain ⟨slashes, htrim⟩ := exists_trim_append (ofText text)
    unfold makeDirectory
    cases hlast : (trim (ofText text)).getLast? with
    | none => rfl
    | some name =>
      -- All but the last name lead to where the last one was followed from.
      obtain ⟨front, hfront⟩ := List.getLast?_eq_some_iff.1 hlast
      rw [← htrim, hfront, List.append_assoc, followAll_append] at hfollow
      rw [hfront, List.dropLast_concat]
      dsimp only
      cases hhere : d.followAll (startOf text) front with
      | error e =>
        rw [hhere] at hfollow
        cases hfollow
      | ok here =>
        rw [hhere, Except.bind, List.singleton_append, followAll] at hfollow
        dsimp only
        split at hfollow
        · cases hfollow
        · next hname => rw [hname]
  have hensure : d.ensureDirectory (startOf text) (ofText text) = .ok d := by
    unfold ensureDirectory
    have hthere : d.isDirectory base.path = true := beq_iff_eq.2 hdir
    rw [hmake]
    dsimp only
    rw [hfollow]
    exact if_pos hthere
  unfold ensureRoute
  rw [if_neg (Nat.not_lt.2 hsize), ensureFirst, hensure]

/-- Creating directories that are there changes nothing. -/
theorem createFrom_of_grounded {done rest : List String} (h : d.Grounded (done ++ rest)) :
    d.createFrom done rest = .ok d := by
  induction rest generalizing done with
  | nil => rfl
  | cons name rest ih =>
    rw [List.append_cons] at h
    rw [createFrom, h (done ++ [name]) (List.prefix_append _ _)]
    exact ih h

theorem createDirectories_of_grounded (h : d.Grounded p) : d.createDirectories p = .ok d :=
  createFrom_of_grounded h

/-- A base directory need not be created again. -/
theorem createDirectoriesAt_of_hosts (h : d.Hosts base) : d.createDirectoriesAt base = .ok d := by
  unfold createDirectoriesAt
  split
  · exact createDirectories_of_grounded h.root
  · next ds hds =>
    have hshort : ¬base.shown.utf8ByteSize > maxText := Nat.not_lt.2 h.short
    have hdetours : ∀ l : List Path, (∀ p ∈ l, d.Grounded p) →
        l.foldlM createDirectories d = .ok d := by
      intro l
      induction l with
      | nil => intro _; rfl
      | cons p l ih =>
        intro hall
        obtain ⟨hp, hl⟩ := List.forall_mem_cons.1 hall
        rw [List.foldlM_cons, createDirectories_of_grounded hp]
        exact ih hl
    rw [if_neg hshort, hdetours ds (h.detours hds)]
    exact createDirectories_of_grounded h.root

end Disk
end Checkpointing
