import Mathlib.Tactic
import Checkpointing.Proofs.Service.Loop
import Checkpointing.Service.Timeline

/-!
# Timelines are loops

A timeline handles what is sent to it, lets the tasks react and fires the timers that are due, all
in a fixed order.  This is one of the ways in which things can happen to the loop of its service, in
which a timer wakes when it is due.

* `Loop.Reaches` says that things can happen to a loop in which certain events are heard;
* `reaches_send`, `reaches_wake`, `reaches_handleAll` for the parts of an exchange;
* `Timeline.Follows` says that what happens on a timeline can happen to the loop of its service;
  `Timeline.follows_exchange` and `Timeline.follows_fire` are the main statements.
-/

namespace Checkpointing

namespace Loop

variable {l l' l'' : Loop} {events events' : List Event}

/-- Things can happen to a loop whose timers wake when they are due, so that it becomes another one
and certain events are heard. -/
def Reaches (l : Loop) (events : List Event) (l' : Loop) : Prop :=
  ∃ history, Run Timer.due l history l' ∧ history.flatMap (·.events) = events

theorem Reaches.refl (l : Loop) : l.Reaches [] l := ⟨[], .nil, rfl⟩

theorem Reaches.trans (h : l.Reaches events l') (h' : l'.Reaches events' l'') :
    l.Reaches (events ++ events') l'' := by
  obtain ⟨history, hrun, rfl⟩ := h
  obtain ⟨future, hrun', rfl⟩ := h'
  exact ⟨history ++ future, hrun.append hrun', List.flatMap_append⟩

theorem Reaches.of_act {a : Act} (h : l.act Timer.due a = some (l', events)) :
    l.Reaches events l' :=
  ⟨_, Run.nil.snoc h, by simp⟩

/-- The invariant of the service is kept by whatever happens, whenever timers wake. -/
theorem timed_service_act {wakes : Timer → Nat} {a : Act} {opened : List (Nat × Nat)}
    (hs : l.service.Timed opened) (h : l.act wakes a = some (l', events)) :
    l'.service.Timed (Service.openedBy opened l.clock events) := by
  have hquiet : Service.openedBy opened l.clock [] = opened := List.append_nil _
  rcases act_cases h with ⟨_, -, rfl, rfl⟩ | ⟨_, -, rfl, rfl⟩ | ⟨t, -, -, -, -, rfl, rfl⟩ |
    ⟨_, _, _, _, -, -, -, hhandle, rfl⟩ | ⟨_, -, -, htick, rfl⟩ | ⟨vault, -, rfl, rfl⟩
  · rwa [hquiet]
  · rwa [hquiet]
  · rw [hquiet]
    exact hs.markFired t.id
  · exact (Service.proceeds_handle hs hhandle).timed
  · exact (Service.proceeds_tick hs htick).timed
  · rw [hquiet]
    exact hs.withVault vault

theorem Reaches.timed (h : l.Reaches events l') {opened : List (Nat × Nat)}
    (hl : l.service.Timed opened) : ∃ opened', l'.service.Timed opened' := by
  obtain ⟨history, hrun, -⟩ := h
  induction hrun with
  | nil => exact ⟨opened, hl⟩
  | snoc run step ih =>
    obtain ⟨opened', hl'⟩ := ih
    exact ⟨_, timed_service_act hl' step⟩

/-- Messages that are sent wait in the mailbox. -/
theorem reaches_send (service : Service) (clock : Nat) (mailbox : List Letter)
    (messages : List Message) :
    Reaches ⟨service, clock, mailbox⟩ []
      ⟨service, clock, mailbox ++ messages.map fun m => ⟨m, none⟩⟩ := by
  induction messages generalizing mailbox with
  | nil => simpa using Reaches.refl _
  | cons m messages ih =>
    have hfirst : Reaches ⟨service, clock, mailbox⟩ []
        ⟨service, clock, mailbox ++ [⟨m, none⟩]⟩ := .of_act (a := .send m) rfl
    have hrest := ih (mailbox ++ [⟨m, none⟩])
    rw [List.append_assoc] at hrest
    exact hfirst.trans hrest

/-! ### Timers that wake -/

end Loop

namespace Service

variable {s : Service} {clock : Nat} {u : Timer} {us : List Timer}

/-- The timers that are due and have not fired. -/
def ripe (s : Service) (clock : Nat) : List Timer :=
  s.timers.filter fun t => !t.fired && t.due ≤ clock

theorem mem_ripe {t : Timer} :
    t ∈ s.ripe clock ↔ t ∈ s.timers ∧ t.fired = false ∧ t.due ≤ clock := by
  simp [ripe]

/-- Of the timers that are ripe one less is when one of them has woken. -/
theorem ripe_markFired (hdistinct : (s.timers.map (·.id)).Nodup) (h : s.ripe clock = u :: us) :
    (s.markFired u.id).ripe clock = us := by
  have hnodup : ((s.ripe clock).map (·.id)).Nodup := (List.filter_sublist.map _).nodup hdistinct
  rw [h, List.map_cons, List.nodup_cons] at hnodup
  have hothers : ∀ t ∈ us, t.id ≠ u.id := fun t ht heq =>
    hnodup.1 (heq ▸ List.mem_map_of_mem ht)
  have hleft : (s.ripe clock).filter (fun t => decide (t.id ≠ u.id)) = us := by
    rw [h, List.filter_cons_of_neg (by simp)]
    exact List.filter_eq_self.2 fun t ht => by simpa using hothers t ht
  rw [ripe, List.filter_filter] at hleft
  have hsame : us.map (fun t => if t.id = u.id then { t with fired := true } else t) = us :=
    (List.map_congr_left fun t ht => if_neg (hothers t ht)).trans (List.map_id _)
  show List.filter _ (s.timers.map _) = us
  rw [List.filter_map]
  refine Eq.trans (congrArg _ ?_) hsame
  rw [← hleft]
  refine List.filter_congr fun t _ => ?_
  by_cases hid : t.id = u.id <;> simp [hid]

/-- It is noted of all timers that are due, whether it was noted of some before or not. -/
theorem noteFired_markFired (hdistinct : (s.timers.map (·.id)).Nodup) (hu : u ∈ s.ripe clock) :
    (s.markFired u.id).noteFired clock = s.noteFired clock := by
  obtain ⟨hmem, -, hdue⟩ := mem_ripe.1 hu
  unfold noteFired markFired
  rw [List.map_map]
  congr 1
  refine List.map_congr_left fun t ht => ?_
  by_cases hid : t.id = u.id
  · obtain rfl : t = u := List.inj_on_of_nodup_map hdistinct ht hmem hid
    have hlate : Timer.due { t with fired := true } ≤ clock := hdue
    simp [hdue, hlate]
  · simp [hid]

theorem noteFired_of_ripe_eq_nil (h : s.ripe clock = []) : s.noteFired clock = s := by
  have hsame : s.timers.map (fun t => if t.due ≤ clock then { t with fired := true } else t) =
      s.timers := by
    refine (List.map_congr_left fun t ht => ?_).trans (List.map_id _)
    by_cases hdue : t.due ≤ clock
    · have hfired : t.fired = true := by
        by_contra hfresh
        have hripe : t ∈ s.ripe clock := mem_ripe.2 ⟨ht, by simpa using hfresh, hdue⟩
        rw [h] at hripe
        cases hripe
      rw [if_pos hdue, ← hfired]
      rfl
    · rw [if_neg hdue]
      rfl
  unfold noteFired
  rw [hsame]

end Service

namespace Loop

variable {s : Service} {clock : Nat} {u : Timer}

/-- The timer of a round that is due can wake. -/
theorem wakeable?_eq_some (hdistinct : (s.timers.map (·.id)).Nodup) (hu : u ∈ s.ripe clock)
    (mailbox : List Letter) : wakeable? Timer.due ⟨s, clock, mailbox⟩ u.id = some u := by
  obtain ⟨hmem, hfresh, hdue⟩ := Service.mem_ripe.1 hu
  cases hfind : wakeable? Timer.due ⟨s, clock, mailbox⟩ u.id with
  | none =>
    have hnot := List.find?_eq_none.1 hfind u hmem
    simp [hfresh, hdue] at hnot
  | some v =>
    have hv := List.find?_some hfind
    simp only [Bool.and_eq_true, beq_iff_eq] at hv
    rw [List.inj_on_of_nodup_map hdistinct (List.mem_of_find?_eq_some hfind) hmem hv.1.1]

/-- The timers that are due wake one after the other. -/
theorem reaches_wake (clock : Nat) (hdistinct : (s.timers.map (·.id)).Nodup)
    (mailbox : List Letter) :
    ∃ letters : List Letter, letters.map (·.message) = (s.overdue clock).map .expire ∧
      Reaches ⟨s, clock, mailbox⟩ [] ⟨s.noteFired clock, clock, mailbox ++ letters⟩ := by
  show ∃ letters : List Letter,
    letters.map (·.message) = ((s.ripe clock).map (·.id)).map .expire ∧ _
  generalize hripe : s.ripe clock = us
  induction us generalizing s mailbox with
  | nil =>
    rw [Service.noteFired_of_ripe_eq_nil hripe]
    exact ⟨[], rfl, by simpa using Reaches.refl _⟩
  | cons u us ih =>
    have hu : u ∈ s.ripe clock := by
      rw [hripe]
      exact List.mem_cons_self
    have hwake : (⟨s, clock, mailbox⟩ : Loop).act Timer.due (.wake u.id) =
        some (⟨s.markFired u.id, clock, mailbox ++ [⟨.expire u.id, some u⟩]⟩, []) := by
      simp only [act, wakeable?_eq_some hdistinct hu, Option.map_some]
    obtain ⟨letters, hletters, hreaches⟩ := ih (by rwa [Service.ids_markFired])
      (mailbox ++ [⟨.expire u.id, some u⟩]) (Service.ripe_markFired hdistinct hripe)
    rw [Service.noteFired_markFired hdistinct hu, List.append_assoc] at hreaches
    refine ⟨⟨.expire u.id, some u⟩ :: letters, ?_, (Reaches.of_act hwake).trans hreaches⟩
    simp [hletters]

end Loop

namespace Timeline

variable {σ : Type} {react : Reaction σ} {t : Timeline} {tasks : σ} {e : Exchange σ}
  {messages reactions : List Message}

/-- A service that has stopped handles nothing any more. -/
theorem handleAll_of_stopped (hstopped : t.service.running = false)
    (h : handleAll react t tasks messages = .ok (e, reactions)) :
    e.timeline = t ∧ e.events = [] := by
  induction messages generalizing e reactions with
  | nil =>
    cases h
    exact ⟨rfl, rfl⟩
  | cons m messages ih =>
    rw [handleAll, if_neg (by simp [hstopped])] at h
    obtain ⟨⟨rest, more⟩, hrest, he⟩ := map_eq_ok h
    cases he
    obtain ⟨hsame, hquiet⟩ := ih hrest
    exact ⟨hsame, hquiet⟩

/-- A service that is running handles the first message and then the others. -/
theorem handleAll_cons {m : Message} (hrunning : t.service.running = true)
    (h : handleAll react t tasks (m :: messages) = .ok (e, reactions)) :
    ∃ service events answer tasks' rest more,
      t.service.handle t.clock m = .ok (service, events, answer) ∧
      handleAll react { t with service := service } tasks' messages = .ok (rest, more) ∧
      e.timeline = rest.timeline ∧ e.events = events ++ rest.events := by
  rw [handleAll, if_pos hrunning] at h
  obtain ⟨⟨service, events, answer⟩, hhandle, hothers⟩ := bind_eq_ok h
  obtain ⟨⟨rest, more⟩, hrest, he⟩ := map_eq_ok hothers
  cases he
  exact ⟨service, events, answer, _, rest, more, hhandle, hrest, rfl, rfl⟩

/-- The letters of a mailbox are handled one after the other, as long as the service is running. -/
theorem reaches_handleAll (h : handleAll react t tasks messages = .ok (e, reactions))
    (letters : List Letter) (hletters : letters.map (·.message) = messages) :
    ∃ mailbox, Loop.Reaches ⟨t.service, t.clock, letters⟩ e.events
        ⟨e.timeline.service, e.timeline.clock, mailbox⟩ ∧
      (e.timeline.service.running = true → mailbox = []) := by
  induction letters generalizing t tasks e reactions messages with
  | nil =>
    subst hletters
    cases h
    exact ⟨[], .refl _, fun _ => rfl⟩
  | cons letter letters ih =>
    subst hletters
    by_cases hrunning : t.service.running = true
    · obtain ⟨service, events, answer, tasks', rest, more, hhandle, hrest, htimeline, hevents⟩ :=
        handleAll_cons hrunning h
      obtain ⟨mailbox, hreaches, hread⟩ := ih hrest rfl
      have hreceive : (⟨t.service, t.clock, letter :: letters⟩ : Loop).act Timer.due .receive =
          some (⟨service, t.clock, letters⟩, events) := by
        simp only [Loop.act, hrunning, hhandle]
      rw [htimeline, hevents]
      exact ⟨mailbox, (Loop.Reaches.of_act hreceive).trans hreaches, hread⟩
    · have hstopped : t.service.running = false := by simpa using hrunning
      obtain ⟨hsame, hquiet⟩ := handleAll_of_stopped hstopped h
      rw [hsame, hquiet]
      exact ⟨_, .refl _, fun hrunning' => absurd hrunning' hrunning⟩

/-- What happens on a timeline can happen to the loop of its service.  A service that is running has
read all of its letters before and afterwards. -/
def Follows (t : Timeline) (events : List Event) (t' : Timeline) : Prop :=
  ∀ mailbox, (t.service.running = true → mailbox = []) →
    ∃ mailbox', Loop.Reaches ⟨t.service, t.clock, mailbox⟩ events
        ⟨t'.service, t'.clock, mailbox'⟩ ∧
      (t'.service.running = true → mailbox' = [])

theorem Follows.refl (t : Timeline) : t.Follows [] t := fun mailbox hread =>
  ⟨mailbox, .refl _, hread⟩

theorem Follows.trans {t' t'' : Timeline} {events events' : List Event} (h : t.Follows events t')
    (h' : t'.Follows events' t'') : t.Follows (events ++ events') t'' := by
  intro mailbox hread
  obtain ⟨mailbox', hreaches, hread'⟩ := h mailbox hread
  obtain ⟨mailbox'', hreaches', hread''⟩ := h' mailbox' hread'
  exact ⟨mailbox'', hreaches.trans hreaches', hread''⟩

/-- The invariant of timers is kept. -/
theorem Follows.timed {t' : Timeline} {events : List Event} (h : t.Follows events t')
    {opened : List (Nat × Nat)} (ht : t.service.Timed opened) :
    ∃ opened', t'.service.Timed opened' := by
  obtain ⟨mailbox', hreaches, -⟩ := h [] fun _ => rfl
  exact hreaches.timed ht

theorem follows_handleAll (h : handleAll react t tasks messages = .ok (e, reactions)) :
    t.Follows e.events e.timeline := by
  intro mailbox hread
  by_cases hrunning : t.service.running = true
  · have hsend := Loop.reaches_send t.service t.clock mailbox messages
    rw [hread hrunning, List.nil_append] at hsend
    obtain ⟨mailbox', hreaches, hread'⟩ :=
      reaches_handleAll h (messages.map fun m => ⟨m, none⟩) (by simp [Function.comp_def])
    rw [hread hrunning]
    exact ⟨mailbox', hsend.trans hreaches, hread'⟩
  · have hstopped : t.service.running = false := by simpa using hrunning
    obtain ⟨hsame, hquiet⟩ := handleAll_of_stopped hstopped h
    rw [hsame, hquiet]
    exact ⟨mailbox, .refl _, hread⟩

variable {opened : List (Nat × Nat)}

/-- The timers that are due wake, and their letters are read. -/
theorem follows_expireOverdue (ht : t.service.Timed opened)
    (h : expireOverdue react t tasks = .ok e) : t.Follows e.events e.timeline := by
  intro mailbox hread
  obtain ⟨letters, hletters, hwake⟩ := Loop.reaches_wake t.clock ht.distinct mailbox
  unfold expireOverdue at h
  by_cases hrunning : t.service.running = true
  · rw [if_pos hrunning] at h
    obtain ⟨⟨e', more⟩, hhandle, rfl⟩ := map_eq_ok h
    obtain ⟨mailbox', hreaches, hread'⟩ := reaches_handleAll hhandle letters hletters
    rw [hread hrunning, List.nil_append] at hwake
    rw [hread hrunning]
    exact ⟨mailbox', hwake.trans hreaches, hread'⟩
  · rw [if_neg hrunning] at h
    cases h
    exact ⟨mailbox ++ letters, hwake, fun hrunning' => absurd hrunning' hrunning⟩

/-- An exchange is one of the ways in which things can happen to the loop of a service. -/
theorem follows_exchange (ht : t.service.Timed opened)
    (h : exchange react t tasks messages = .ok e) : t.Follows e.events e.timeline := by
  obtain ⟨⟨first, reactions⟩, hfirst, hrest⟩ := bind_eq_ok h
  obtain ⟨⟨second, more⟩, hsecond, hlast⟩ := bind_eq_ok hrest
  obtain ⟨third, hthird, rfl⟩ := map_eq_ok hlast
  have hmiddle := (follows_handleAll hfirst).trans (follows_handleAll hsecond)
  obtain ⟨opened', htimed⟩ := hmiddle.timed ht
  exact hmiddle.trans (follows_expireOverdue htimed hthird)

/-- A periodic checkpoint is triggered. -/
theorem follows_tick {service : Service} {events : List Event} (nextTick : Option Nat)
    (hrunning : t.service.running = true) (h : t.service.tick t.clock = .ok (service, events)) :
    t.Follows events { t with service := service, nextTick := nextTick } := by
  intro mailbox hread
  have htick : (⟨t.service, t.clock, mailbox⟩ : Loop).act Timer.due .tick =
      some (⟨service, t.clock, mailbox⟩, events) := by
    simp only [Loop.act, hrunning, h, if_true]
  exact ⟨mailbox, .of_act htick, fun _ => hread hrunning⟩

theorem follows_fireTick (ht : t.service.Timed opened) (h : fireTick react t tasks = .ok e) :
    t.Follows e.events e.timeline := by
  unfold fireTick at h
  cases hnext : t.nextTick with
  | none =>
    rw [hnext] at h
    cases h
    exact .refl t
  | some tick =>
    rw [hnext] at h
    by_cases hdue : (t.service.running && decide (tick ≤ t.clock)) = true
    · have hrunning : t.service.running = true := (Bool.and_eq_true_iff.1 hdue).1
      obtain ⟨⟨service, events⟩, htick, hothers⟩ := bind_eq_ok ((if_pos hdue).symm.trans h)
      obtain ⟨rest, hrest, rfl⟩ := map_eq_ok hothers
      have hfirst := follows_tick (some (t.clock + t.period)) hrunning htick
      obtain ⟨opened', htimed⟩ := hfirst.timed ht
      exact hfirst.trans (follows_exchange htimed hrest)
    · cases (if_neg hdue).symm.trans h
      exact .refl t

/-- So is what is due at an instant that is not in the past. -/
theorem follows_fire (ht : t.service.Timed opened) {clock : Nat} (hclock : t.clock ≤ clock)
    (h : fire react t tasks clock = .ok e) : t.Follows e.events e.timeline := by
  have hpass : t.Follows [] { t with clock := clock } := by
    intro mailbox hread
    have hact : (⟨t.service, t.clock, mailbox⟩ : Loop).act Timer.due (.pass (clock - t.clock)) =
        some (⟨t.service, clock, mailbox⟩, []) := by
      simp only [Loop.act, Nat.add_sub_cancel' hclock]
    exact ⟨mailbox, .of_act hact, hread⟩
  obtain ⟨first, hfirst, hrest⟩ := bind_eq_ok h
  obtain ⟨second, hsecond, rfl⟩ := map_eq_ok hrest
  have hmiddle := hpass.trans (follows_fireTick ht hfirst)
  obtain ⟨opened', htimed⟩ := hmiddle.timed ht
  exact hmiddle.trans (follows_expireOverdue htimed hsecond)

end Timeline

end Checkpointing
