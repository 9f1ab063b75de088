import Mathlib.Tactic
import Checkpointing.Proofs.Coordinator.Operations

/-!
# Runs of a coordinator

A run performs any requests one after the other.  Before each of them the vault may have been
changed from outside, as far as the run allows it: other programs share the disk, and which
requests to storage fail may change at any time.

* `Moment` is one request with the states around it, `Run` a finite sequence of them;
* `Run.moment` takes a run apart at one of its moments;
* `Coordinator.perform` computes a run in which nothing happens from outside;
* `Run.invariant` packs the induction: what the start has and every step keeps holds throughout;
  `Run.invariant_of` is for steps of which something is known.
-/

namespace Checkpointing

/-- The coordinator with another vault. -/
def Coordinator.withVault (c : Coordinator) (vault : Vault) : Coordinator :=
  { c with archive := { c.archive with vault := vault } }

/-- One request of a run: the state it met, what it caused and the state it left. -/
structure Moment where
  before : Coordinator
  request : Request
  events : List Event
  reply : Reply
  after : Coordinator

/-- The runs from `start`, with their moments and the state they lead to.  Between two requests
the vault changes as `outside` allows. -/
inductive Run (outside : Vault → Vault → Prop) (start : Coordinator) :
    List Moment → Coordinator → Prop
  | nil : Run outside start [] start
  | snoc {past : List Moment} {c c' : Coordinator} {vault : Vault} {request : Request}
      {events : List Event} {reply : Reply} (run : Run outside start past c)
      (change : outside c.archive.vault vault)
      (step : (c.withVault vault).step request = .ok (c', events, reply)) :
      Run outside start (past ++ [⟨c.withVault vault, request, events, reply, c'⟩]) c'

/-- The medium stays as it is; which requests are refused may change. -/
def SameMedium (v w : Vault) : Prop := w.medium = v.medium

theorem SameMedium.refl (v : Vault) : SameMedium v v := rfl

/-- Performs requests one after the other, up to one that overflows, and nothing else happens. -/
def Coordinator.perform (c : Coordinator) : List Request → List Moment × Coordinator
  | [] => ([], c)
  | request :: rest =>
    match c.step request with
    | .error _ => ([], c)
    | .ok (c', events, reply) =>
      let (moments, d) := c'.perform rest
      (⟨c, request, events, reply, c'⟩ :: moments, d)

namespace Run

variable {outside : Vault → Vault → Prop} {start c : Coordinator} {past future : List Moment}

/-- A run in two parts is a run to the state between them and a run from there. -/
theorem split (h : Run outside start (past ++ future) c) :
    ∃ d, Run outside start past d ∧ Run outside d future c := by
  induction future using List.reverseRecOn generalizing c with
  | nil => exact ⟨c, by simpa using h, .nil⟩
  | append_singleton future m ih =>
    rw [← List.append_assoc] at h
    generalize hall : past ++ future ++ [m] = all at h
    cases h with
    | nil => simp at hall
    | snoc run change step =>
      obtain ⟨rfl, hm⟩ := List.append_inj' hall rfl
      obtain rfl := List.singleton_inj.1 hm
      obtain ⟨d, hpast, hfuture⟩ := ih run
      exact ⟨d, hpast, hfuture.snoc change step⟩

/-- A run from where another one ended continues it. -/
theorem append {d : Coordinator} (h : Run outside start past d) (h' : Run outside d future c) :
    Run outside start (past ++ future) c := by
  induction h' with
  | nil => simpa using h
  | snoc run change step ih =>
    rw [← List.append_assoc]
    exact ih.snoc change step

/-- Performing requests is a run, if the outside need not change anything. -/
theorem of_perform (hrefl : ∀ vault, outside vault vault) (c : Coordinator)
    (requests : List Request) :
    Run outside c (c.perform requests).1 (c.perform requests).2 := by
  induction requests generalizing c with
  | nil => exact .nil
  | cons request rest ih =>
    rw [Coordinator.perform]
    cases hstep : c.step request with
    | error overflow => exact .nil
    | ok result =>
      obtain ⟨c', events, reply⟩ := result
      exact (Run.nil.snoc (hrefl _) hstep).append (ih c')

/-- One more request, if nothing happens from outside. -/
theorem extend {c' : Coordinator} {request : Request} {events : List Event} {reply : Reply}
    (h : Run Eq start past c) (hstep : c.step request = .ok (c', events, reply)) :
    Run Eq start (past ++ [⟨c, request, events, reply, c'⟩]) c' :=
  Run.snoc h (Eq.refl c.archive.vault) hstep

/-- At each of its moments a run performs one step, from a state that it has reached. -/
theorem moment {m : Moment} (h : Run outside start (past ++ m :: future) c) :
    ∃ d vault, Run outside start past d ∧ outside d.archive.vault vault ∧
      m.before = d.withVault vault ∧
      m.before.step m.request = .ok (m.after, m.events, m.reply) ∧
      Run outside m.after future c := by
  rw [List.append_cons] at h
  obtain ⟨e, hfirst, hfuture⟩ := h.split
  generalize hall : past ++ [m] = all at hfirst
  cases hfirst with
  | nil => simp at hall
  | snoc run change step =>
    obtain ⟨rfl, hm⟩ := List.append_inj' hall rfl
    obtain rfl := List.singleton_inj.1 hm
    exact ⟨_, _, run, change, rfl, step, hfuture⟩

theorem step_of_mem {m : Moment} (h : Run outside start past c) (hm : m ∈ past) :
    m.before.step m.request = .ok (m.after, m.events, m.reply) := by
  obtain ⟨first, rest, rfl⟩ := List.append_of_mem hm
  obtain ⟨-, -, -, -, -, hstep, -⟩ := h.moment
  exact hstep

/-- What the start of a run has, and neither the outside nor a step breaks that does as `Q` says,
holds at the end and at every moment. -/
theorem invariant_of {P : Coordinator → Prop} {Q : Coordinator → Request → Prop}
    (hchange : ∀ {c : Coordinator} {vault : Vault}, outside c.archive.vault vault → P c →
      P (c.withVault vault))
    (hstep : ∀ {c c' : Coordinator} {request : Request} {events : List Event} {reply : Reply},
      P c → Q c request → c.step request = .ok (c', events, reply) → P c')
    (h : Run outside start past c) (hstart : P start) (hall : ∀ m ∈ past, Q m.before m.request) :
    P c ∧ ∀ m ∈ past, P m.before ∧ P m.after := by
  induction h with
  | nil => exact ⟨hstart, by simp⟩
  | snoc run change step ih =>
    obtain ⟨hc, hpast⟩ := ih fun m hm => hall m (List.mem_append_left _ hm)
    have hbefore := hchange change hc
    have hafter := hstep hbefore (hall _ (List.mem_append_right _ List.mem_cons_self)) step
    refine ⟨hafter, fun m hm => ?_⟩
    rcases List.mem_append.1 hm with hm | hm
    · exact hpast m hm
    · obtain rfl := List.mem_singleton.1 hm
      exact ⟨hbefore, hafter⟩

/-- What the start of a run has, and neither the outside nor a step breaks, holds at the end and at
every moment. -/
theorem invariant {P : Coordinator → Prop}
    (hchange : ∀ {c : Coordinator} {vault : Vault}, outside c.archive.vault vault → P c →
      P (c.withVault vault))
    (hstep : ∀ {c c' : Coordinator} {request : Request} {events : List Event} {reply : Reply},
      P c → c.step request = .ok (c', events, reply) → P c')
    (h : Run outside start past c) (hstart : P start) :
    P c ∧ ∀ m ∈ past, P m.before ∧ P m.after :=
  h.invariant_of (Q := fun _ _ => True) hchange (fun hc _ => hstep hc) hstart fun _ _ => trivial

end Run
end Checkpointing
