import Mathlib.Tactic
import Checkpointing.Proofs.Coordinator.Occupancy
import Checkpointing.Service.Basic

/-!
# The timers of a service

A service keeps one timer for each round under way, which was set when the round was opened.

* `openedIds` are the checkpoints that are triggered among events;
* `Service.Timed` is the invariant: timers and rounds match, and each timer is as old as its round;
* `Monitored.coordinator_step`: whoever listens to a coordinator changes nothing of what it does;
* `timers_perform` says what becomes of timers and rounds, and `proceeds_handle`, `proceeds_tick`
  that the invariant is kept;
* `handle_expire`: the message that the time of a round is over ends that round and touches no
  other.
-/

namespace Checkpointing

/-! ### Operations that can overflow -/

section

variable {ε α β : Type}

theorem bind_eq_ok {x : Except ε α} {f : α → Except ε β} {b : β} (h : x.bind f = .ok b) :
    ∃ a, x = .ok a ∧ f a = .ok b := by
  cases x with
  | error e => cases h
  | ok a => exact ⟨a, rfl, h⟩

theorem map_eq_ok {x : Except ε α} {f : α → β} {b : β} (h : x.map f = .ok b) :
    ∃ a, x = .ok a ∧ f a = b := by
  cases x with
  | error e => cases h
  | ok a => exact ⟨a, rfl, Except.ok.inj h⟩

end

/-! ### Checkpoints that are triggered -/

/-- The checkpoint that is triggered. -/
def Event.opened? : Event → Option Nat
  | notice (.triggered id _) => some id
  | _ => none

/-- The checkpoints that are triggered among events. -/
def openedIds (events : List Event) : List Nat := events.filterMap Event.opened?

/-- They are among the news. -/
theorem openedIds_news (events : List Event) : openedIds (news events) = openedIds events := by
  rw [openedIds, news, List.filterMap_filter, openedIds]
  refine List.filterMap_congr fun e _ => ?_
  split
  · rfl
  · next h =>
    cases e with
    | notice n => cases n <;> simp [Event.subject?] at h
    | signal | storage | failJob | resolved => rfl

/-- A checkpoint that ends is not triggered. -/
theorem openedIds_verdicts (ended : List (Nat × Outcome)) : openedIds (verdicts ended) = [] := by
  refine List.filterMap_eq_nil_iff.2 fun e he => ?_
  obtain ⟨⟨id, outcome⟩, -, hmem⟩ := List.mem_flatMap.1 he
  cases outcome <;> simp only [verdict, List.mem_cons, List.not_mem_nil, or_false] at hmem <;>
    rcases hmem with rfl | rfl <;> rfl

/-! ### Listeners -/

section

variable {m m' : Monitored} {request : Request} {events : List Event} {reply : Reply}

theorem Monitored.coordinator_of_hear {c : Coordinator} (h : m.hear c events = .ok m') :
    m'.coordinator = c := by
  obtain ⟨statistics, -, rfl⟩ := map_eq_ok h
  rfl

/-- A monitored coordinator does what it does without those who listen. -/
theorem Monitored.coordinator_step (h : m.step request = .ok (m', events, reply)) :
    m.coordinator.step request = .ok (m'.coordinator, events, reply) ∧
      m.hear m'.coordinator events = .ok m' := by
  obtain ⟨⟨c, evs, answer⟩, hstep, hheard⟩ := bind_eq_ok h
  obtain ⟨heard, hhear, he⟩ := map_eq_ok hheard
  cases he
  rw [coordinator_of_hear hhear]
  exact ⟨hstep, hhear⟩

/-- Where nothing happens there is nothing to hear. -/
theorem Monitored.hear_nil (m : Monitored) : m.hear m.coordinator [] = .ok m := rfl

end

/-! ### What becomes of the timers -/

namespace Service

variable {s s' : Service} {request : Request} {message : Message} {events : List Event}
  {reply : Reply} {answer : Answer} {clock id : Nat} {opened : List (Nat × Nat)}

/-- Timers and rounds match: there is one timer for each round under way, with the time limit of
the settings, and it was set when the round was opened.  Which rounds were opened and when is
`opened`. -/
structure Timed (opened : List (Nat × Nat)) (s : Service) : Prop where
  orderly : s.coordinator.Orderly
  occupied : s.coordinator.Occupied
  once : (opened.map (·.1)).Nodup
  numbered : ∀ e ∈ opened, e.1 < s.coordinator.nextId
  distinct : (s.timers.map (·.id)).Nodup
  live : ∀ id, id ∈ s.timers.map (·.id) ↔ s.coordinator.rounds.contains id = true
  set : ∀ t ∈ s.timers, (t.id, t.since) ∈ opened ∧ t.limit = s.coordinator.settings.timeout

/-- What a service does with a request: the coordinator performs it, a timer is set if it opened a
round, and the timers of other rounds than those under way are taken away. -/
theorem perform_cases (h : s.perform clock request = .ok (s', events, reply)) :
    s.monitored.step request = .ok (s'.monitored, events, reply) ∧ s'.running = s.running ∧
      s'.timers = ({ s with monitored := s'.monitored }.schedule clock reply).timers.filter
        fun t => s'.coordinator.rounds.contains t.id := by
  obtain ⟨⟨monitored, evs, answer⟩, hstep, he⟩ := map_eq_ok h
  cases he
  unfold schedule
  split <;> exact ⟨hstep, rfl, rfl⟩

theorem coordinator_perform (h : s.perform clock request = .ok (s', events, reply)) :
    s.coordinator.step request = .ok (s'.coordinator, events, reply) :=
  (Monitored.coordinator_step (perform_cases h).1).1

theorem schedule_of_ne (h : ∀ id, reply ≠ .triggered (.ok id)) (s : Service) (clock : Nat) :
    s.schedule clock reply = s := by
  unfold schedule
  split
  · next id => exact absurd rfl (h id)
  · rfl

/-- A service sets the timer of the round that is opened, or takes the timers of the rounds away
that end. -/
theorem timers_perform (hs : s.Timed opened)
    (h : s.perform clock request = .ok (s', events, reply)) :
    (openedIds events = [s.coordinator.nextId] ∧
      s.coordinator.rounds.contains s.coordinator.nextId = false ∧
      s'.coordinator.nextId = s.coordinator.nextId + 1 ∧
      (∀ id, s'.coordinator.rounds.contains id = true ↔
        id = s.coordinator.nextId ∨ s.coordinator.rounds.contains id = true) ∧
      s'.timers = s.timers ++
        [⟨s.coordinator.nextId, clock, s.coordinator.settings.timeout, false⟩]) ∨
    (openedIds events = [] ∧
      (∀ id, s'.coordinator.rounds.contains id = true →
        s.coordinator.rounds.contains id = true) ∧
      s'.timers = s.timers.filter fun t => s'.coordinator.rounds.contains t.id) := by
  obtain ⟨-, -, htimers⟩ := perform_cases h
  have hstep := coordinator_perform h
  have hsettings := Coordinator.settings_step hs.orderly hstep
  rcases Coordinator.news_of_step (m := ⟨s.coordinator, request, events, reply, s'.coordinator⟩)
      hs.orderly hstep with
    ⟨policy, now, -, hreply, hnews, hfresh, hnext, -, hrounds⟩ | ⟨hno, ended, hended, -⟩
  · dsimp only at hreply hnews hfresh hnext hrounds
    left
    refine ⟨?_, hfresh, hnext, hrounds, ?_⟩
    · rw [← openedIds_news, hnews]
      rfl
    · -- No timer had the new id, and no timer is taken away.
      have hlive : ∀ t ∈ s.timers, s.coordinator.rounds.contains t.id = true := fun t ht =>
        (hs.live t.id).1 (List.mem_map_of_mem ht)
      have hothers : s.timers.filter (fun t => t.id != s.coordinator.nextId) = s.timers := by
        refine List.filter_eq_self.2 fun t ht => bne_iff_ne.2 fun heq => ?_
        have hin := hlive t ht
        rw [heq, hfresh] at hin
        cases hin
      rw [hreply] at htimers
      rw [htimers]
      show List.filter _ (s.timers.filter (fun t => t.id != s.coordinator.nextId) ++
        [⟨s.coordinator.nextId, clock, s'.coordinator.settings.timeout, false⟩]) = _
      rw [hothers, hsettings]
      refine List.filter_eq_self.2 fun t ht => (hrounds t.id).2 ?_
      rcases List.mem_append.1 ht with hold | hnew
      · exact Or.inr (hlive t hold)
      · obtain rfl := List.mem_singleton.1 hnew
        exact Or.inl rfl
  · right
    refine ⟨?_, fun id hid => ((hended.rounds id).1 hid).1, ?_⟩
    · have hnews := hended.news
      dsimp only at hnews
      rw [← openedIds_news, hnews, openedIds_verdicts]
    · rw [htimers, schedule_of_ne hno]

/-- Which rounds were opened after a step at an instant. -/
def openedBy (opened : List (Nat × Nat)) (clock : Nat) (events : List Event) : List (Nat × Nat) :=
  opened ++ (openedIds events).map fun id => (id, clock)

theorem Timed.perform (hs : s.Timed opened)
    (h : s.perform clock request = .ok (s', events, reply)) :
    s'.Timed (openedBy opened clock events) := by
  have hstep := coordinator_perform h
  have hsettings := Coordinator.settings_step hs.orderly hstep
  have horderly := hs.orderly.step hstep
  have hoccupied := hs.occupied.step hs.orderly hstep
  rcases timers_perform hs h with ⟨hopened, hfresh, hnext, hrounds, htimers⟩ |
    ⟨hopened, hrounds, htimers⟩
  · have hby : openedBy opened clock events = opened ++ [(s.coordinator.nextId, clock)] := by
      rw [openedBy, hopened]
      rfl
    rw [hby]
    refine ⟨horderly, hoccupied, ?_, fun e he => ?_, ?_, fun id => ?_, fun t ht => ?_⟩
    · rw [List.map_append, List.nodup_append]
      refine ⟨hs.once, List.nodup_singleton _, fun i hi j hj heq => ?_⟩
      obtain ⟨e, he, rfl⟩ := List.mem_map.1 hi
      obtain rfl := List.mem_singleton.1 hj
      exact (hs.numbered e he).ne heq
    · rcases List.mem_append.1 he with hold | hnew
      · have hlt := hs.numbered e hold
        omega
      · obtain rfl := List.mem_singleton.1 hnew
        dsimp only
        omega
    · rw [htimers, List.map_append, List.nodup_append]
      refine ⟨hs.distinct, List.nodup_singleton _, fun i hi j hj heq => ?_⟩
      obtain rfl := List.mem_singleton.1 hj
      have hin := (hs.live i).1 hi
      rw [heq, hfresh] at hin
      cases hin
    · rw [htimers, List.map_append, List.mem_append, hs.live, hrounds, or_comm]
      simp
    · rw [htimers] at ht
      rw [hsettings]
      rcases List.mem_append.1 ht with hold | hnew
      · obtain ⟨hset, hlimit⟩ := hs.set t hold
        exact ⟨List.mem_append_left _ hset, hlimit⟩
      · obtain rfl := List.mem_singleton.1 hnew
        exact ⟨List.mem_append_right _ (by simp), rfl⟩
  · have hby : openedBy opened clock events = opened := by
      rw [openedBy, hopened]
      exact List.append_nil _
    rw [hby]
    refine ⟨horderly, hoccupied, hs.once, fun e he => ?_, ?_, fun id => ?_, fun t ht => ?_⟩
    · exact (hs.numbered e he).trans_le (Coordinator.nextId_le_step hs.orderly hstep)
    · rw [htimers]
      exact (List.filter_sublist.map _).nodup hs.distinct
    · rw [htimers]
      constructor
      · intro hid
        obtain ⟨t, ht, rfl⟩ := List.mem_map.1 hid
        exact (List.mem_filter.1 ht).2
      · intro hid
        obtain ⟨t, ht, rfl⟩ := List.mem_map.1 ((hs.live id).2 (hrounds id hid))
        exact List.mem_map_of_mem (List.mem_filter.2 ⟨ht, hid⟩)
    · rw [htimers] at ht
      rw [hsettings]
      exact hs.set t (List.mem_filter.1 ht).1

/-- A service has done something at an instant: the invariant is kept, the settings are what they
were, and the timers that have fired are among those that it had. -/
structure Proceeds (s : Service) (opened : List (Nat × Nat)) (clock : Nat) (events : List Event)
    (s' : Service) : Prop where
  timed : s'.Timed (openedBy opened clock events)
  settings : s'.coordinator.settings = s.coordinator.settings
  fired : ∀ t ∈ s'.timers, t.fired = true → t ∈ s.timers

theorem proceeds_perform (hs : s.Timed opened)
    (h : s.perform clock request = .ok (s', events, reply)) :
    s.Proceeds opened clock events s' where
  timed := hs.perform h
  settings := Coordinator.settings_step hs.orderly (coordinator_perform h)
  fired t ht hfired := by
    rcases timers_perform hs h with ⟨-, -, -, -, htimers⟩ | ⟨-, -, htimers⟩
    · rw [htimers] at ht
      rcases List.mem_append.1 ht with hold | hnew
      · exact hold
      · obtain rfl := List.mem_singleton.1 hnew
        cases hfired
    · rw [htimers] at ht
      exact (List.mem_filter.1 ht).1

theorem proceeds_tick (hs : s.Timed opened) (h : s.tick clock = .ok (s', events)) :
    s.Proceeds opened clock events s' := by
  obtain ⟨⟨s₁, evs, reply⟩, hperform, he⟩ := map_eq_ok h
  cases he
  exact proceeds_perform hs hperform

/-- A message is a request, after which the service may stop, or a question, which changes
nothing. -/
theorem handle_cases (h : s.handle clock message = .ok (s', events, answer)) :
    (∃ request s₁ reply, message.request? (timestamp clock) = some request ∧
      s.perform clock request = .ok (s₁, events, reply) ∧
      s' = if message.isLast then s₁.stop else s₁) ∨
    (message.request? (timestamp clock) = none ∧ s' = s ∧ events = []) := by
  unfold Service.handle at h
  cases hrequest : message.request? (timestamp clock) with
  | some request =>
    left
    rw [hrequest] at h
    obtain ⟨⟨s₁, evs, reply⟩, hperform, he⟩ := map_eq_ok h
    cases he
    exact ⟨request, s₁, reply, rfl, hperform, rfl⟩
  | none =>
    right
    rw [hrequest] at h
    dsimp only at h
    split at h <;> cases h <;> exact ⟨rfl, rfl, rfl⟩

/-- A service that stops has closed its coordinator, which has no rounds then. -/
theorem Timed.stop (hs : s.Timed opened) (hempty : s.coordinator.rounds = ∅) :
    s.stop.Timed opened where
  orderly := hs.orderly
  occupied := hs.occupied
  once := hs.once
  numbered := hs.numbered
  distinct := List.nodup_nil
  live id := by
    show id ∈ [] ↔ s.coordinator.rounds.contains id = true
    rw [hempty]
    simp [Table.contains]
  set t ht := by cases ht

theorem proceeds_handle (hs : s.Timed opened)
    (h : s.handle clock message = .ok (s', events, answer)) :
    s.Proceeds opened clock events s' := by
  rcases handle_cases h with ⟨request, s₁, reply, hrequest, hperform, rfl⟩ | ⟨-, rfl, rfl⟩
  · have hs₁ := proceeds_perform hs hperform
    cases hlast : message.isLast with
    | false => simpa using hs₁
    | true =>
      rw [if_pos rfl]
      refine ⟨hs₁.timed.stop ?_, hs₁.settings, fun t ht => by cases ht⟩
      cases message with
      | shutdown status =>
        obtain rfl : Request.close status = request := Option.some.inj hrequest
        exact Coordinator.rounds_of_close (coordinator_perform hperform) hs.occupied.empty
      | _ => cases hlast
  · exact ⟨by simpa [openedBy, openedIds] using hs, rfl, fun t ht _ => ht⟩

/-! ### The time of a round is over -/

/-- Nothing changes when nothing happens to the coordinator. -/
theorem perform_of_quiet (hs : s.Timed opened) (hno : ∀ id, reply ≠ .triggered (.ok id))
    (h : s.perform clock request = .ok (s', [], reply))
    (hsame : s'.coordinator = s.coordinator) : s' = s := by
  obtain ⟨hstep, hrunning, htimers⟩ := perform_cases h
  have hmonitored : s'.monitored = s.monitored := by
    have hhear := (Monitored.coordinator_step hstep).2
    rw [show s'.monitored.coordinator = s.monitored.coordinator from hsame,
      Monitored.hear_nil] at hhear
    exact (Except.ok.inj hhear).symm
  have hkept : s'.timers = s.timers := by
    rw [htimers, schedule_of_ne hno, hsame]
    exact List.filter_eq_self.2 fun t ht => (hs.live t.id).1 (List.mem_map_of_mem ht)
  obtain ⟨monitored, timers, running⟩ := s'
  obtain rfl : monitored = s.monitored := hmonitored
  obtain rfl : timers = s.timers := hkept
  obtain rfl : running = s.running := hrunning
  rfl

/-- Aborting a round is no news of others. -/
theorem abortRound_others {c : Coordinator} (hc : c.Orderly) (id : Nat) (reason : SnapshotError)
    {i : Nat} (hne : i ≠ id) :
    (c.abortRound id reason).1.rounds.find? i = c.rounds.find? i ∧
      newsOf i (c.abortRound id reason).2.1 = [] := by
  cases hfind : c.rounds.find? id with
  | none =>
    have he : c.abortRound id reason = (c, [], false) := by simp [Coordinator.abortRound, hfind]
    rw [he]
    exact ⟨rfl, rfl⟩
  | some r =>
    obtain ⟨budget, breach, hbreach, he⟩ :=
      Coordinator.abortRound_of_find? hfind (hc.underWay hfind) reason
    have hquiet := news_failure c.budget reason
    rw [hbreach] at hquiet
    rw [he]
    constructor
    · show (c.rounds.erase id).find? i = c.rounds.find? i
      rw [Table.find?_erase, if_neg hne]
    · show newsOf i (verdict id _ ++ _ ++ breach) = []
      rw [← newsOf_news, news_append, news_append, news_signals, hquiet, List.append_nil,
        List.append_nil, newsOf_news, newsOf_verdict, if_neg hne.symm]

/-- The message that the time of a round is over ends that round, if it is still under way, and
touches no other. -/
theorem handle_expire (hs : s.Timed opened)
    (h : s.handle clock (.expire id) = .ok (s', events, answer)) :
    (s.coordinator.rounds.contains id = false → s' = s ∧ events = []) ∧
    s'.coordinator.rounds.contains id = false ∧
    ∀ i, i ≠ id → s'.coordinator.rounds.find? i = s.coordinator.rounds.find? i ∧
      newsOf i events = [] := by
  rcases handle_cases h with ⟨request, s₁, reply, hrequest, hperform, rfl⟩ | ⟨hnone, -⟩
  swap
  · cases hnone
  obtain rfl : Request.expire id = request := Option.some.inj hrequest
  cases Coordinator.Performs.of_step (coordinator_perform hperform) with
  | expire habort =>
    obtain ⟨budget, hstate⟩ := Coordinator.abortRound_state s.coordinator id (.expired id)
    refine ⟨fun hout => ?_, ?_, fun i hne => ?_⟩
    · have hquiet : s.coordinator.abortRound id (.expired id) = (s.coordinator, [], false) := by
        simp [Coordinator.abortRound, Table.contains_eq_false_iff.1 hout]
      rw [hquiet] at habort
      obtain ⟨hsame, hrest⟩ := Prod.mk.inj habort
      obtain ⟨rfl, -⟩ := Prod.mk.inj hrest
      exact ⟨perform_of_quiet hs (by simp) hperform hsame.symm, rfl⟩
    · rw [habort] at hstate
      rw [show s'.coordinator = _ from hstate]
      exact Bool.eq_false_iff.2 fun hin => (Table.contains_erase.1 hin).2 rfl
    · have hothers := abortRound_others hs.orderly id (.expired id) hne
      rw [habort] at hothers
      exact hothers

end Service

end Checkpointing
