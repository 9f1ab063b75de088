import Mathlib.Tactic
import Checkpointing.Proofs.Recovery.Answers

/-!
# Firings of tracked plans

Several plans are asked in turns, and between the calls the plans in them are renewed, as happens
when a task is restarted.  What outlives all this is the ledger.

* `FailurePlan.marks` are the tracked plans in a plan; a call leaves them as they are;
* `FailurePlan.firings` are the firings of tracked plans in one call, `notes_decide` is the step: a
  call notes exactly these in the ledger, and none of them was there;
* `Drill` is a set of plans with the ledger, `Drill.run` what happens to them in many steps,
  `Drill.Proper` says that ids tell tracked plans apart;
* `fires_once_each` is the main statement.
-/

namespace Checkpointing
namespace FailurePlan

variable {subtask : Nat} {ledger : FiringLedger}

/-! ### Tracked plans -/

/-- What a tracked plan goes by: its id and its ledger. -/
structure Mark where
  id : Nat
  ledger : Nat
deriving Repr, DecidableEq

mutual

/-- The tracked plans in a plan. -/
def marks : FailurePlan → List Mark
  | .never | .onCall .. => []
  | .anyOf plans => marksOf plans
  | .once inner _ => marks inner
  | .tracked id tracker inner => ⟨id, tracker⟩ :: marks inner

/-- The tracked plans in several plans. -/
def marksOf : List FailurePlan → List Mark
  | [] => []
  | plan :: plans => marks plan ++ marksOf plans

end

theorem marksOf_eq (plans : List FailurePlan) : marksOf plans = plans.flatMap marks := by
  induction plans with
  | nil => rw [marksOf, List.flatMap_nil]
  | cons plan plans ih => rw [marksOf, List.flatMap_cons, ih]

theorem marksOf_append (plans more : List FailurePlan) :
    marksOf (plans ++ more) = marksOf plans ++ marksOf more := by
  simp only [marksOf_eq, List.flatMap_append]

mutual

/-- A call changes no tracked plan into another. -/
theorem marks_decide (subtask : Nat) (ledger : FiringLedger) :
    ∀ p : FailurePlan, (decide subtask ledger p).1.marks = p.marks
  | .never => by rw [decide_never]
  | .onCall number kind calls => by rw [decide_onCall, marks, marks]
  | .anyOf plans => by
    rw [decide_anyOf, marks, marks]
    exact marksOf_decideFirst subtask ledger plans
  | .once inner true => by rw [decide_once_true]
  | .once inner false => by
    rw [decide_once_false, marks, marks]
    exact marks_decide subtask ledger inner
  | .tracked id tracker inner => by
    by_cases hmem : ⟨tracker, id, subtask⟩ ∈ ledger
    · rw [decide_tracked_of_mem hmem]
    · rw [decide_tracked_of_not_mem hmem, marks, marks, marks_decide subtask ledger inner]

theorem marksOf_decideFirst (subtask : Nat) (ledger : FiringLedger) :
    ∀ plans : List FailurePlan, marksOf (decideFirst subtask ledger plans).1 = marksOf plans
  | [] => by rw [decideFirst_nil]
  | plan :: plans => by
    have hfirst := marks_decide subtask ledger plan
    rcases hdecide : decide subtask ledger plan with ⟨plan', ledger', decision⟩
    rw [hdecide] at hfirst
    cases decision with
    | some kind => rw [decideFirst_cons_of_some hdecide, marksOf, marksOf, hfirst]
    | none =>
      rw [decideFirst_cons_of_none hdecide, marksOf, marksOf, hfirst,
        marksOf_decideFirst subtask ledger' plans]

end

/-! ### Firings in one call -/

/-- The firing that an answer amounts to: a tracked plan said to fail. -/
def Answer.firing? (subtask : Nat) (a : Answer) : Option Firing :=
  match a.plan, a.decision with
  | .tracked id tracker _, some _ => some ⟨tracker, id, subtask⟩
  | _, _ => none

/-- The firings in a call. -/
def firings (subtask : Nat) (ledger : FiringLedger) (p : FailurePlan) : List Firing :=
  (answers subtask ledger p).filterMap (Answer.firing? subtask)

/-- The firings in a call of members. -/
def firingsFrom (subtask : Nat) (ledger : FiringLedger) (i : Nat) (plans : List FailurePlan) :
    List Firing :=
  (answersFrom subtask ledger i plans).filterMap (Answer.firing? subtask)

/-- Firings do not depend on where the plans stand. -/
theorem filterMap_firing?_within (i : Nat) (l : List Answer) :
    (l.map (.within i)).filterMap (Answer.firing? subtask) =
      l.filterMap (Answer.firing? subtask) := by
  rw [List.filterMap_map]
  rfl

theorem firings_never : firings subtask ledger .never = [] := by
  rw [firings, answers]
  rfl

theorem firings_onCall (number : Nat) (kind : FailureKind) (calls : Nat) :
    firings subtask ledger (.onCall number kind calls) = [] := by
  rw [firings, answers]
  rfl

theorem firings_anyOf (plans : List FailurePlan) :
    firings subtask ledger (.anyOf plans) = firingsFrom subtask ledger 0 plans := by
  rw [firings, answers, List.filterMap_append]
  exact List.append_nil _

theorem firings_once_true (inner : FailurePlan) :
    firings subtask ledger (.once inner true) = [] := by
  rw [firings, answers]
  rfl

theorem firings_once_false (inner : FailurePlan) :
    firings subtask ledger (.once inner false) = firings subtask ledger inner := by
  rw [firings, answers, List.filterMap_append, if_neg Bool.false_ne_true,
    filterMap_firing?_within]
  exact List.append_nil _

theorem firings_tracked_of_mem {id tracker : Nat} (h : ⟨tracker, id, subtask⟩ ∈ ledger)
    (inner : FailurePlan) : firings subtask ledger (.tracked id tracker inner) = [] := by
  rw [firings, answers, if_pos h, List.nil_append, answerOf, decide_tracked_of_mem h]
  rfl

/-- A tracked plan fires after those in it, if its inner plan says to fail. -/
theorem firings_tracked_of_not_mem {id tracker : Nat} (h : ⟨tracker, id, subtask⟩ ∉ ledger)
    (inner : FailurePlan) : firings subtask ledger (.tracked id tracker inner) =
      firings subtask ledger inner ++
        if (decide subtask ledger inner).2.2.isSome then [⟨tracker, id, subtask⟩] else [] := by
  rw [firings, answers, if_neg h, List.filterMap_append, filterMap_firing?_within, answerOf,
    decide_tracked_of_not_mem h]
  cases hdecision : (decide subtask ledger inner).2.2 <;> rfl

theorem firingsFrom_nil (i : Nat) : firingsFrom subtask ledger i [] = [] := by
  rw [firingsFrom, answersFrom, List.filterMap_nil]

theorem firingsFrom_cons_of_some {p p' : FailurePlan} {ledger' : FiringLedger} {kind : FailureKind}
    (h : decide subtask ledger p = (p', ledger', some kind)) (i : Nat) (plans : List FailurePlan) :
    firingsFrom subtask ledger i (p :: plans) = firings subtask ledger p := by
  rw [firingsFrom, answersFrom_cons_of_some h, filterMap_firing?_within, firings]

theorem firingsFrom_cons_of_none {p p' : FailurePlan} {ledger' : FiringLedger}
    (h : decide subtask ledger p = (p', ledger', none)) (i : Nat) (plans : List FailurePlan) :
    firingsFrom subtask ledger i (p :: plans) =
      firings subtask ledger p ++ firingsFrom subtask ledger' (i + 1) plans := by
  rw [firingsFrom, answersFrom_cons_of_none h, List.filterMap_append, filterMap_firing?_within,
    firings, firingsFrom]

/-- What a call of plans with given marks does to the ledger: it adds the firings, each of a plan of
its own, and none of them was in the ledger. -/
structure Notes (all : List Mark) (before after : FiringLedger) (new : List Firing) : Prop where
  added : after = before ++ new
  marked : ∀ f ∈ new, ⟨f.id, f.ledger⟩ ∈ all
  fresh : ∀ f ∈ new, f ∉ before
  apart : (new.map Firing.id).Nodup

theorem Notes.nothing (all : List Mark) (ledger : FiringLedger) : Notes all ledger ledger [] :=
  ⟨(List.append_nil _).symm, nofun, nofun, .nil⟩

theorem Notes.mono {all more : List Mark} {before after : FiringLedger} {new : List Firing}
    (h : Notes all before after new) (hsub : all ⊆ more) : Notes more before after new :=
  { h with marked := fun f hf => hsub (h.marked f hf) }

/-- Two calls one after the other, of plans that have no ids in common. -/
theorem Notes.trans {all more : List Mark} {first second third : FiringLedger}
    {new newer : List Firing} (h : Notes all first second new) (h' : Notes more second third newer)
    (hdisjoint : List.Disjoint (all.map Mark.id) (more.map Mark.id)) :
    Notes (all ++ more) first third (new ++ newer) where
  added := by rw [h'.added, h.added, List.append_assoc]
  marked f hf := List.mem_append.2 ((List.mem_append.1 hf).imp (h.marked f) (h'.marked f))
  fresh f hf := by
    rcases List.mem_append.1 hf with hnew | hnewer
    · exact h.fresh f hnew
    · have hfresh := h'.fresh f hnewer
      rw [h.added] at hfresh
      exact fun hfirst => hfresh (List.mem_append_left _ hfirst)
  apart := by
    rw [List.map_append]
    refine h.apart.append h'.apart fun id hid hid' => ?_
    obtain ⟨f, hf, rfl⟩ := List.mem_map.1 hid
    obtain ⟨g, hg, heq⟩ := List.mem_map.1 hid'
    have hmore : g.id ∈ more.map Mark.id := List.mem_map_of_mem (h'.marked g hg)
    rw [heq] at hmore
    exact hdisjoint (List.mem_map_of_mem (h.marked f hf)) hmore

/-- A tracked plan notes its own firing after those of the plans in it. -/
theorem Notes.own {id tracker : Nat} {all : List Mark} {before after : FiringLedger}
    {new : List Firing} (h : Notes all before after new) (hid : id ∉ all.map Mark.id)
    (hfresh : ⟨tracker, id, subtask⟩ ∉ before) :
    Notes (⟨id, tracker⟩ :: all) before (after.note ⟨tracker, id, subtask⟩)
      (new ++ [⟨tracker, id, subtask⟩]) := by
  have hafter : ⟨tracker, id, subtask⟩ ∉ after := by
    rw [h.added, List.mem_append, not_or]
    exact ⟨hfresh, fun hmem => hid (List.mem_map_of_mem (h.marked _ hmem))⟩
  have hown : Notes [⟨id, tracker⟩] after (after.note ⟨tracker, id, subtask⟩)
      [⟨tracker, id, subtask⟩] := by
    rw [FiringLedger.note, if_neg hafter]
    refine ⟨rfl, ?_, ?_, List.nodup_singleton _⟩
    · exact List.forall_mem_singleton.2 (List.mem_singleton_self _)
    · exact List.forall_mem_singleton.2 hafter
  refine (h.trans hown ?_).mono ?_
  · exact List.disjoint_singleton.2 hid
  · exact fun mark hmark => List.mem_append.1 hmark |>.elim (List.mem_cons_of_mem _)
      fun h => List.mem_singleton.1 h ▸ List.mem_cons_self

mutual

/-- If the tracked plans in a plan have different ids, a call notes exactly the firings in it. -/
theorem notes_decide (subtask : Nat) (ledger : FiringLedger) : ∀ p : FailurePlan,
    (p.marks.map Mark.id).Nodup →
      Notes p.marks ledger (decide subtask ledger p).2.1 (firings subtask ledger p)
  | .never, _ => by
    rw [decide_never, firings_never]
    exact .nothing _ _
  | .onCall number kind calls, _ => by
    rw [decide_onCall, firings_onCall]
    exact .nothing _ _
  | .anyOf plans, h => by
    rw [marks] at h ⊢
    rw [decide_anyOf, firings_anyOf]
    exact notes_decideFirst subtask ledger 0 plans h
  | .once inner true, _ => by
    rw [decide_once_true, firings_once_true]
    exact .nothing _ _
  | .once inner false, h => by
    rw [marks] at h ⊢
    rw [decide_once_false, firings_once_false]
    exact notes_decide subtask ledger inner h
  | .tracked id tracker inner, h => by
    rw [marks, List.map_cons, List.nodup_cons] at h
    rw [marks]
    by_cases hmem : ⟨tracker, id, subtask⟩ ∈ ledger
    · rw [decide_tracked_of_mem hmem, firings_tracked_of_mem hmem]
      exact .nothing _ _
    · have hinner := notes_decide subtask ledger inner h.2
      rw [decide_tracked_of_not_mem hmem, firings_tracked_of_not_mem hmem]
      cases hdecision : (decide subtask ledger inner).2.2.isSome with
      | true => exact hinner.own h.1 hmem
      | false =>
        rw [if_neg Bool.false_ne_true, if_neg Bool.false_ne_true, List.append_nil]
        exact hinner.mono (List.subset_cons_self _ _)

theorem notes_decideFirst (subtask : Nat) (ledger : FiringLedger) (i : Nat) :
    ∀ plans : List FailurePlan, ((marksOf plans).map Mark.id).Nodup →
      Notes (marksOf plans) ledger (decideFirst subtask ledger plans).2.1
        (firingsFrom subtask ledger i plans)
  | [], _ => by
    rw [decideFirst_nil, firingsFrom_nil]
    exact .nothing _ _
  | plan :: plans, h => by
    rw [marksOf, List.map_append] at h
    have hfirst := notes_decide subtask ledger plan h.of_append_left
    rw [marksOf]
    rcases hdecide : decide subtask ledger plan with ⟨plan', ledger', decision⟩
    rw [hdecide] at hfirst
    cases decision with
    | some kind =>
      rw [decideFirst_cons_of_some hdecide, firingsFrom_cons_of_some hdecide]
      exact hfirst.mono (List.subset_append_left _ _)
    | none =>
      rw [decideFirst_cons_of_none hdecide, firingsFrom_cons_of_none hdecide]
      exact hfirst.trans (notes_decideFirst subtask ledger' (i + 1) plans h.of_append_right)
        (List.disjoint_of_nodup_append h)

end

/-! ### Renewal -/

/-- What is done to one element of a list shows in what the list comes to. -/
theorem flatMap_modify_subperm {α β : Type} {f : α → α} {g : α → List β} {extra : List β}
    (h : ∀ a, (g (f a)).Subperm (g a ++ extra)) (l : List α) (i : Nat) :
    ((l.modify i f).flatMap g).Subperm (l.flatMap g ++ extra) := by
  induction l generalizing i with
  | nil =>
    rw [List.modify_nil]
    exact List.nil_subperm
  | cons a l ih =>
    cases i with
    | zero =>
      rw [List.modify_zero_cons, List.flatMap_cons, List.flatMap_cons]
      refine ((h a).append (List.Subperm.refl _)).trans (List.Perm.subperm ?_)
      rw [List.append_assoc, List.append_assoc]
      exact List.perm_append_comm.append_left _
    | succ i =>
      rw [List.modify_succ_cons, List.flatMap_cons, List.flatMap_cons, List.append_assoc]
      exact (List.Subperm.refl _).append (ih i)

/-- A renewed plan has no tracked plans but its own and those of the new inner plan. -/
theorem marks_renewAt (inner : FailurePlan) (place : List Nat) (p : FailurePlan) :
    (renewAt inner place p).marks.Subperm (p.marks ++ inner.marks) := by
  have hsame (p : FailurePlan) : p.marks.Subperm (p.marks ++ inner.marks) :=
    (List.sublist_append_left _ _).subperm
  induction place generalizing p with
  | nil =>
    rw [renewAt]
    cases p with
    | never | onCall | anyOf => exact hsame _
    | once p fired =>
      rw [withInner, marks, marks]
      exact (List.sublist_append_right _ _).subperm
    | tracked id tracker p =>
      rw [withInner, marks, marks, List.cons_append]
      exact ((List.sublist_append_right _ _).cons_cons _).subperm
  | cons i place ih =>
    cases p with
    | never | onCall => exact hsame _
    | anyOf plans =>
      rw [renewAt, marks, marks, marksOf_eq, marksOf_eq]
      exact flatMap_modify_subperm ih plans i
    | once p fired =>
      cases i with
      | zero =>
        rw [renewAt, marks, marks]
        exact ih p
      | succ i => exact hsame _
    | tracked id tracker p =>
      cases i with
      | zero =>
        rw [renewAt, marks, marks, List.cons_append]
        exact (List.subperm_cons _).2 (ih p)
      | succ i => exact hsame _

end FailurePlan

/-! ### Drills -/

/-- Several plans and the ledger that they note their firings in. -/
structure Drill where
  plans : List FailurePlan
  ledger : FiringLedger

namespace Drill

open FailurePlan

/-- What can be done with the plans. -/
inductive Step where
  /-- Asks a plan on behalf of a subtask. -/
  | ask (i subtask : Nat)
  /-- Gives another inner plan to the one at a place in a plan. -/
  | renew (i : Nat) (place : List Nat) (inner : FailurePlan)

/-- The plans that a step puts in. -/
def Step.inners : Step → List FailurePlan
  | .ask .. => []
  | .renew _ _ inner => [inner]

/-- The plans and the ledger after a step. -/
def perform (d : Drill) : Step → Drill
  | .ask i subtask =>
    match d.plans[i]? with
    | none => d
    | some p =>
      ⟨d.plans.set i (decide subtask d.ledger p).1, (decide subtask d.ledger p).2.1⟩
  | .renew i place inner => { d with plans := d.plans.modify i (renewAt inner place) }

/-- The firings in a step. -/
def fired (d : Drill) : Step → List Firing
  | .ask i subtask =>
    match d.plans[i]? with
    | none => []
    | some p => firings subtask d.ledger p
  | .renew .. => []

/-- The firings in many steps, and the plans and the ledger afterwards. -/
def run (d : Drill) : List Step → List Firing × Drill
  | [] => ([], d)
  | step :: rest => (d.fired step ++ ((d.perform step).run rest).1, ((d.perform step).run rest).2)

/-- The tracked plans. -/
def marks (d : Drill) : List Mark := marksOf d.plans

/-- Ids tell tracked plans apart: those that are there at one time have different ids, and those
that are ever there under one id go by one ledger.  It is so if every tracked plan that is ever put
in has an id of its own, see `proper_of_nodup`. -/
structure Proper (plans : List FailurePlan) (steps : List Step) : Prop where
  home : ∀ mark ∈ marksOf (plans ++ steps.flatMap Step.inners),
    ∀ mark' ∈ marksOf (plans ++ steps.flatMap Step.inners),
      mark.id = mark'.id → mark.ledger = mark'.ledger
  apart : ∀ before, before <+: steps →
    (((⟨plans, []⟩ : Drill).run before).2.marks.map Mark.id).Nodup

variable {d : Drill} {step : Step} {steps : List Step}

theorem nodup_map_of_subperm {α β : Type} {f : α → β} {l more : List α} (h : l.Subperm more)
    (hmore : (more.map f).Nodup) : (l.map f).Nodup := by
  obtain ⟨part, hperm, hsub⟩ := h
  exact (hperm.map f).nodup_iff.1 (hmore.sublist (hsub.map f))

/-- A step brings no tracked plans but those it puts in. -/
theorem marks_perform (d : Drill) (step : Step) :
    (d.perform step).marks.Subperm (d.marks ++ marksOf step.inners) := by
  cases step with
  | ask i subtask =>
    have heq : (d.perform (.ask i subtask)).marks = d.marks := by
      rw [perform]
      cases hp : d.plans[i]? with
      | none => rfl
      | some p =>
        obtain ⟨hi, rfl⟩ := List.getElem?_eq_some_iff.1 hp
        rw [marks, marks, marksOf_eq, marksOf_eq, List.flatMap_def, List.flatMap_def, List.map_set,
          marks_decide, ← List.getElem_map FailurePlan.marks, List.set_getElem_self]
        rwa [List.length_map]
    rw [heq]
    exact (List.sublist_append_left _ _).subperm
  | renew i place inner =>
    rw [marks, marks, perform, Step.inners, marksOf_eq, marksOf_eq, marksOf_eq,
      List.flatMap_singleton]
    exact flatMap_modify_subperm (marks_renewAt inner place) d.plans i

theorem marks_run (d : Drill) (steps : List Step) :
    (d.run steps).2.marks.Subperm (d.marks ++ marksOf (steps.flatMap Step.inners)) := by
  induction steps generalizing d with
  | nil => exact (List.sublist_append_left _ _).subperm
  | cons step rest ih =>
    refine (ih _).trans (((marks_perform d step).append (List.Subperm.refl _)).trans ?_)
    rw [List.flatMap_cons, marksOf_append, List.append_assoc]

/-- Ids tell tracked plans apart if all tracked plans have different ids, at first and in what is
put in. -/
theorem proper_of_nodup {plans : List FailurePlan}
    (h : ((marksOf (plans ++ steps.flatMap Step.inners)).map Mark.id).Nodup) :
    Proper plans steps where
  home mark hmark mark' hmark' heq :=
    congrArg Mark.ledger (List.inj_on_of_nodup_map h hmark hmark' heq)
  apart before hbefore := by
    obtain ⟨after, rfl⟩ := hbefore
    refine nodup_map_of_subperm (marks_run ⟨plans, []⟩ before) (h.sublist (List.Sublist.map _ ?_))
    rw [List.flatMap_append, ← List.append_assoc, marksOf_append _ (after.flatMap Step.inners),
      marksOf_append]
    exact List.sublist_append_left _ _

/-! ### Once each -/

/-- The ledger knows the firings so far, each of a tracked plan and none of them twice. -/
structure Noted (all : List Mark) (d : Drill) (fired : List Firing) : Prop where
  ledger : d.ledger = fired
  known : d.marks ⊆ all
  marked : ∀ f ∈ fired, ⟨f.id, f.ledger⟩ ∈ all
  once : (fired.map fun f => (f.id, f.subtask)).Nodup

/-- What a step does to the ledger. -/
theorem notes_perform (hapart : (d.marks.map Mark.id).Nodup) (step : Step) :
    Notes d.marks d.ledger (d.perform step).ledger (d.fired step) := by
  cases step with
  | ask i subtask =>
    rw [perform, fired]
    cases hp : d.plans[i]? with
    | none => exact .nothing _ _
    | some p =>
      have hsub : p.marks.Sublist d.marks := by
        have hflat := (List.singleton_sublist.2 (List.mem_of_getElem? hp)).flatMap FailurePlan.marks
        rwa [List.flatMap_singleton, ← marksOf_eq] at hflat
      exact (notes_decide subtask d.ledger p (hapart.sublist (hsub.map _))).mono hsub.subset
  | renew i place inner => exact .nothing _ _

theorem noted_perform {all : List Mark} {fired : List Firing} (h : Noted all d fired)
    (hhome : ∀ mark ∈ all, ∀ mark' ∈ all, mark.id = mark'.id → mark.ledger = mark'.ledger)
    (hinners : marksOf step.inners ⊆ all) (hapart : (d.marks.map Mark.id).Nodup) :
    Noted all (d.perform step) (fired ++ d.fired step) := by
  have hnotes := notes_perform hapart step
  have hmarked (f : Firing) (hf : f ∈ d.fired step) : ⟨f.id, f.ledger⟩ ∈ all :=
    h.known (hnotes.marked f hf)
  refine ⟨?_, ?_, ?_, ?_⟩
  · rw [hnotes.added, h.ledger]
  · exact fun mark hmark =>
      List.append_subset.2 ⟨h.known, hinners⟩ ((marks_perform d step).subset hmark)
  · exact fun f hf => (List.mem_append.1 hf).elim (h.marked f) (hmarked f)
  · rw [List.map_append]
    refine h.once.append ?_ fun key hkey hkey' => ?_
    · refine List.Nodup.of_map Prod.fst ?_
      rw [List.map_map]
      exact hnotes.apart
    · -- one id goes by one ledger, so the same firing would be in the ledger already
      obtain ⟨f, hf, rfl⟩ := List.mem_map.1 hkey
      obtain ⟨g, hg, heq⟩ := List.mem_map.1 hkey'
      obtain ⟨hid, hsubtask⟩ := Prod.mk.inj heq
      have hledger : g.ledger = f.ledger :=
        hhome _ (hmarked g hg) _ (h.marked f hf) hid
      have hsame : g = f := by
        cases f
        cases g
        cases hid
        cases hsubtask
        cases hledger
        rfl
      rw [hsame] at hg
      rw [← h.ledger] at hf
      exact hnotes.fresh f hg hf

theorem noted_run {all : List Mark} {fired : List Firing} (h : Noted all d fired)
    (hhome : ∀ mark ∈ all, ∀ mark' ∈ all, mark.id = mark'.id → mark.ledger = mark'.ledger)
    (hinners : marksOf (steps.flatMap Step.inners) ⊆ all)
    (hapart : ∀ before, before <+: steps → ((d.run before).2.marks.map Mark.id).Nodup) :
    Noted all (d.run steps).2 (fired ++ (d.run steps).1) := by
  induction steps generalizing d fired with
  | nil =>
    rw [run, List.append_nil]
    exact h
  | cons step rest ih =>
    rw [List.flatMap_cons, marksOf_append, List.append_subset] at hinners
    have hnow := noted_perform h hhome hinners.1 (hapart [] List.nil_prefix)
    rw [run, ← List.append_assoc]
    refine ih hnow hinners.2 fun before hbefore => ?_
    exact hapart (step :: before) ((List.prefix_cons_inj step).2 hbefore)

/-- Of firings with different ids for each subtask, those for one subtask in one ledger are as many
as their ids. -/
theorem firedAt_eq_card {fired : FiringLedger}
    (h : (fired.map fun f => (f.id, f.subtask)).Nodup) (ledger subtask : Nat) :
    fired.firedAt ledger subtask =
      ((fired.filter fun f => f.ledger == ledger && f.subtask == subtask).map
        Firing.id).toFinset.card := by
  have hids : ((fired.filter fun f => f.ledger == ledger && f.subtask == subtask).map
      Firing.id).Nodup := by
    refine List.Nodup.of_map (fun id => (id, subtask)) ?_
    have heq : (fired.filter fun f => f.ledger == ledger && f.subtask == subtask).map
        ((fun id => (id, subtask)) ∘ Firing.id) =
          (fired.filter fun f => f.ledger == ledger && f.subtask == subtask).map
            fun f => (f.id, f.subtask) := by
      refine List.map_congr_left fun f hf => ?_
      have hkey := (List.mem_filter.1 hf).2
      rw [Bool.and_eq_true, beq_iff_eq, beq_iff_eq] at hkey
      rw [Function.comp_apply, hkey.2]
    rw [List.map_map, heq]
    exact h.sublist (List.filter_sublist.map _)
  rw [List.toFinset_card_of_nodup hids, List.length_map, FiringLedger.firedAt,
    List.countP_eq_length_filter]

/-- A tracked plan fires at most once for each subtask.  Let plans be asked on behalf of any
subtasks, in any order, and let plans in them get other inner plans meanwhile; let the ledgers be
empty at first, and let ids tell tracked plans apart.  Then no tracked plan says to fail twice for
one subtask, and each ledger counts for each subtask the tracked plans of this ledger that said to
fail for it. -/
theorem fires_once_each {plans : List FailurePlan} {steps : List Step} (h : Proper plans steps) :
    (∀ id subtask, ((⟨plans, []⟩ : Drill).run steps).1.countP
      (fun f => f.id == id && f.subtask == subtask) ≤ 1) ∧
    ∀ ledger subtask, ((⟨plans, []⟩ : Drill).run steps).2.ledger.firedAt ledger subtask =
      ((((⟨plans, []⟩ : Drill).run steps).1.filter fun f =>
        f.ledger == ledger && f.subtask == subtask).map Firing.id).toFinset.card := by
  have hstart : Noted (marksOf (plans ++ steps.flatMap Step.inners)) ⟨plans, []⟩ [] := by
    refine ⟨rfl, ?_, nofun, .nil⟩
    rw [marksOf_append]
    exact List.subset_append_left _ _
  have hinners : marksOf (steps.flatMap Step.inners) ⊆
      marksOf (plans ++ steps.flatMap Step.inners) := by
    rw [marksOf_append]
    exact List.subset_append_right _ _
  have hnoted := noted_run hstart h.home hinners h.apart
  rw [List.nil_append] at hnoted
  refine ⟨fun id subtask => ?_, fun ledger subtask => ?_⟩
  · have hcount := List.nodup_iff_count_le_one.1 hnoted.once (id, subtask)
    rw [List.count_eq_countP, List.countP_map] at hcount
    exact hcount
  · rw [hnoted.ledger]
    exact firedAt_eq_card hnoted.once ledger subtask

/-- A tracked plan in a tracked plan, on one ledger, and a tracked plan on another ledger. -/
def nestedPlans : List FailurePlan :=
  [.tracked 1 0 (.anyOf [.tracked 2 0 (.onCall 1 .userException 0),
      .onCall 2 .declineCheckpoint 0]),
    .tracked 3 1 (.onCall 1 .executorLoss 0)]

/-- Both plans are asked for subtask 5; then the inner plan of the second tracked plan is replaced
by a third one, with a count of its own, and the first plan is asked for subtask 6 and again for
5. -/
def restartSteps : List Step :=
  [.ask 0 5, .ask 1 5,
    .renew 0 [0, 0] (.once (.tracked 4 0 (.onCall 1 .userException 0)) false), .ask 0 6, .ask 0 5]

/-- All three fire for subtask 6, and the first one does not fire again for subtask 5. -/
theorem fires_once_each_of_restart :
    ((⟨nestedPlans, []⟩ : Drill).run restartSteps).1 =
      [⟨0, 2, 5⟩, ⟨0, 1, 5⟩, ⟨1, 3, 5⟩, ⟨0, 4, 6⟩, ⟨0, 2, 6⟩, ⟨0, 1, 6⟩] ∧
    ((⟨nestedPlans, []⟩ : Drill).run restartSteps).1.countP
      (fun f => f.id == 1 && f.subtask == 5) ≤ 1 ∧
    ((⟨nestedPlans, []⟩ : Drill).run restartSteps).2.ledger.firedAt 0 6 =
      ((((⟨nestedPlans, []⟩ : Drill).run restartSteps).1.filter fun f =>
        f.ledger == 0 && f.subtask == 6).map Firing.id).toFinset.card := by
  have hproper : Proper nestedPlans restartSteps := proper_of_nodup (by decide)
  obtain ⟨honce, hcount⟩ := fires_once_each hproper
  exact ⟨by decide +kernel, honce 1 5, hcount 0 6⟩

end Drill
end Checkpointing
