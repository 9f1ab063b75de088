import Mathlib.Tactic
import Checkpointing.Proofs.Service.Timers

/-!
# The loop of a service

A service reads its letters one after the other and triggers periodic checkpoints in between.
Letters come through handles or from timers, and whatever waits in the mailbox is read later, when
things may have changed.  When a timer wakes is a parameter; all that is known of it is that it does
not wake before its deadline.

* `Loop` is a service with its clock and its mailbox, `Loop.act` what can happen to it, and
  `Loop.Run` a finite sequence of that; `openings` reads off a history when rounds were opened;
* `Loop.Timed` is the invariant: timers and rounds match, a timer that has fired has its letter in
  the mailbox, and a letter of a timer is as late as it should be; `Timed.proceed`, `Timed.wake` and
  others lead to its step `Timed.act`;
* `timers_track_rounds` is the main statement.
-/

namespace Checkpointing

/-- A message on its way to a service, and the timer that sent it unless somebody with a handle
did. -/
structure Letter where
  message : Message
  timer? : Option Timer

/-- A service at an instant, with the letters that it has not read yet. -/
structure Loop where
  service : Service
  clock : Nat
  mailbox : List Letter

/-- What can happen next. -/
inductive Act where
  /-- Somebody who holds a handle sends a message. -/
  | send (message : Message)
  /-- Time passes. -/
  | pass (time : Duration)
  /-- The timer of a round wakes and sends its letter. -/
  | wake (id : Nat)
  /-- The service reads the next letter. -/
  | receive
  /-- The service triggers a periodic checkpoint. -/
  | tick
  /-- The storage is changed from outside. -/
  | replace (vault : Vault)

namespace Service

/-- The same service with another vault. -/
def withVault (s : Service) (vault : Vault) : Service :=
  { s with monitored := s.monitored.mapVault fun _ => vault }

/-- Takes note that the timer of a round has fired. -/
def markFired (s : Service) (id : Nat) : Service :=
  { s with timers := s.timers.map fun t => if t.id = id then { t with fired := true } else t }

end Service

namespace Loop

/-- The timer of a round, if it can wake. -/
def wakeable? (wakes : Timer → Nat) (l : Loop) (id : Nat) : Option Timer :=
  l.service.timers.find? fun t => t.id == id && !t.fired && wakes t ≤ l.clock

/-- What comes of what happens, if it can happen.  A service that has stopped does nothing. -/
def act (wakes : Timer → Nat) (l : Loop) : Act → Option (Loop × List Event)
  | .send message => some ({ l with mailbox := l.mailbox ++ [⟨message, none⟩] }, [])
  | .pass time => some ({ l with clock := l.clock + time }, [])
  | .wake id =>
    (l.wakeable? wakes id).map fun t =>
      ({ l with
         service := l.service.markFired id
         mailbox := l.mailbox ++ [⟨.expire id, some t⟩] }, [])
  | .receive =>
    match l.mailbox, l.service.running with
    | letter :: rest, true =>
      match l.service.handle l.clock letter.message with
      | .ok (service, events, _) => some ({ l with service := service, mailbox := rest }, events)
      | .error _ => none
    | _, _ => none
  | .tick =>
    if l.service.running then
      match l.service.tick l.clock with
      | .ok (service, events) => some ({ l with service := service }, events)
      | .error _ => none
    else none
  | .replace vault => some ({ l with service := l.service.withVault vault }, [])

end Loop

/-- One thing that happened to a loop. -/
structure Turn where
  before : Loop
  act : Act
  events : List Event
  after : Loop

/-- What can happen to a loop, one after the other. -/
inductive Loop.Run (wakes : Timer → Nat) (start : Loop) : List Turn → Loop → Prop
  | nil : Run wakes start [] start
  | snoc {history : List Turn} {l l' : Loop} {act : Act} {events : List Event}
      (run : Run wakes start history l) (step : l.act wakes act = some (l', events)) :
      Run wakes start (history ++ [⟨l, act, events, l'⟩]) l'

/-- Which rounds were opened in a history, and at which instants. -/
def openings (history : List Turn) : List (Nat × Nat) :=
  history.flatMap fun turn => (openedIds turn.events).map fun id => (id, turn.before.clock)

/-- Lets things happen one after the other, up to the first that cannot. -/
def Loop.perform (wakes : Timer → Nat) (l : Loop) : List Act → List Turn × Loop
  | [] => ([], l)
  | act :: rest =>
    match l.act wakes act with
    | none => ([], l)
    | some (l', events) =>
      let (turns, last) := l'.perform wakes rest
      (⟨l, act, events, l'⟩ :: turns, last)

theorem Loop.Run.append {wakes : Timer → Nat} {start l l' : Loop} {history future : List Turn}
    (h : Loop.Run wakes start history l) (h' : Loop.Run wakes l future l') :
    Loop.Run wakes start (history ++ future) l' := by
  induction h' with
  | nil => simpa using h
  | snoc _ step ih =>
    rw [← List.append_assoc]
    exact ih.snoc step

/-- To let things happen is a run. -/
theorem Loop.Run.of_perform (wakes : Timer → Nat) (l : Loop) (acts : List Act) :
    Loop.Run wakes l (l.perform wakes acts).1 (l.perform wakes acts).2 := by
  induction acts generalizing l with
  | nil => exact .nil
  | cons act rest ih =>
    rw [Loop.perform]
    cases hact : l.act wakes act with
    | none => exact .nil
    | some result =>
      obtain ⟨l', events⟩ := result
      exact (Loop.Run.nil.snoc hact).append (ih l')

theorem openings_append (history history' : List Turn) :
    openings (history ++ history') = openings history ++ openings history' :=
  List.flatMap_append

namespace Loop

variable {wakes : Timer → Nat} {start l l' : Loop} {a : Act} {events : List Event}
  {history future : List Turn} {opened : List (Nat × Nat)} {timeout : Duration}

/-- Everything that can happen to a loop. -/
theorem act_cases (h : l.act wakes a = some (l', events)) :
    (∃ message, a = .send message ∧ events = [] ∧
      l' = { l with mailbox := l.mailbox ++ [⟨message, none⟩] }) ∨
    (∃ time, a = .pass time ∧ events = [] ∧ l' = { l with clock := l.clock + time }) ∨
    (∃ t ∈ l.service.timers, a = .wake t.id ∧ t.fired = false ∧ wakes t ≤ l.clock ∧ events = [] ∧
      l' = { l with
        service := l.service.markFired t.id
        mailbox := l.mailbox ++ [⟨.expire t.id, some t⟩] }) ∨
    (∃ letter rest service answer, a = .receive ∧ l.service.running = true ∧
      l.mailbox = letter :: rest ∧
      l.service.handle l.clock letter.message = .ok (service, events, answer) ∧
      l' = { l with service := service, mailbox := rest }) ∨
    (∃ service, a = .tick ∧ l.service.running = true ∧
      l.service.tick l.clock = .ok (service, events) ∧ l' = { l with service := service }) ∨
    (∃ vault, a = .replace vault ∧ events = [] ∧
      l' = { l with service := l.service.withVault vault }) := by
  cases a with
  | send message =>
    cases h
    exact Or.inl ⟨message, rfl, rfl, rfl⟩
  | pass time =>
    cases h
    exact Or.inr (Or.inl ⟨time, rfl, rfl, rfl⟩)
  | wake id =>
    obtain ⟨t, ht, he⟩ := Option.map_eq_some_iff.1 h
    have hcan := List.find?_some ht
    simp only [Bool.and_eq_true, beq_iff_eq, Bool.not_eq_true', decide_eq_true_eq] at hcan
    obtain ⟨⟨rfl, hfresh⟩, hwakes⟩ := hcan
    cases he
    exact Or.inr (Or.inr (Or.inl ⟨t, List.mem_of_find?_eq_some ht, rfl, hfresh, hwakes, rfl, rfl⟩))
  | receive =>
    simp only [act] at h
    split at h
    · next letter rest hmailbox hrunning =>
      split at h
      · next service evs answer hhandle =>
        cases h
        exact Or.inr (Or.inr (Or.inr (Or.inl
          ⟨letter, rest, service, answer, rfl, hrunning, hmailbox, hhandle, rfl⟩)))
      · cases h
    · cases h
  | tick =>
    simp only [act] at h
    split at h
    · next hrunning =>
      split at h
      · next service evs htick =>
        cases h
        exact Or.inr (Or.inr (Or.inr (Or.inr (Or.inl ⟨service, rfl, hrunning, htick, rfl⟩))))
      · cases h
    · cases h
  | replace vault =>
    cases h
    exact Or.inr (Or.inr (Or.inr (Or.inr (Or.inr ⟨vault, rfl, rfl, rfl⟩))))

/-! ### The invariant -/

/-- Timers and rounds match, a timer that has fired has its letter in the mailbox, and a letter of a
timer is for the round of that timer and was not sent before the time of the round was over. -/
structure Timed (timeout : Duration) (opened : List (Nat × Nat)) (l : Loop) : Prop where
  service : l.service.Timed opened
  limit : l.service.coordinator.settings.timeout = timeout
  queued : ∀ t ∈ l.service.timers, t.fired = true →
    ∃ letter ∈ l.mailbox, letter.message = .expire t.id
  sent : ∀ letter ∈ l.mailbox, ∀ t, letter.timer? = some t →
    letter.message = .expire t.id ∧ (t.id, t.since) ∈ opened ∧ t.since + timeout ≤ l.clock

end Loop

namespace Service

variable {s s' : Service} {message : Message} {events : List Event} {answer : Answer}
  {clock : Nat} {opened : List (Nat × Nat)}

theorem Timed.withVault (hs : s.Timed opened) (vault : Vault) :
    (s.withVault vault).Timed opened where
  orderly := hs.orderly.withVault vault
  occupied := ⟨hs.occupied.limit, hs.occupied.empty⟩
  once := hs.once
  numbered := hs.numbered
  distinct := hs.distinct
  live := hs.live
  set := hs.set

theorem ids_markFired (s : Service) (id : Nat) :
    (s.markFired id).timers.map (·.id) = s.timers.map (·.id) := by
  show (s.timers.map _).map _ = _
  rw [List.map_map]
  refine List.map_congr_left fun t _ => ?_
  show (if t.id = id then { t with fired := true } else t).id = t.id
  split <;> rfl

/-- To note that a timer has fired changes nothing else of it. -/
theorem Timed.markFired (hs : s.Timed opened) (id : Nat) : (s.markFired id).Timed opened := by
  have hids := ids_markFired s id
  refine ⟨hs.orderly, hs.occupied, hs.once, hs.numbered, ?_, fun i => ?_, fun t ht => ?_⟩
  · rw [hids]
    exact hs.distinct
  · rw [hids]
    exact hs.live i
  · obtain ⟨u, hu, rfl⟩ := List.mem_map.1 ht
    have hset := hs.set u hu
    split <;> exact hset

end Service

namespace Loop

variable {wakes : Timer → Nat} {start l l' : Loop} {a : Act} {events : List Event}
  {history : List Turn} {opened : List (Nat × Nat)} {timeout : Duration}

theorem subset_openedBy (opened : List (Nat × Nat)) (clock : Nat) (events : List Event) :
    opened ⊆ Service.openedBy opened clock events :=
  List.subset_append_left _ _

/-- The service has done something, and has read at most a letter that is no longer of any use. -/
theorem Timed.proceed (hl : l.Timed timeout opened) {service : Service} {mailbox : List Letter}
    (h : l.service.Proceeds opened l.clock events service)
    (hread : ∀ letter ∈ mailbox, letter ∈ l.mailbox)
    (hkept : ∀ t ∈ service.timers, ∀ letter ∈ l.mailbox, letter.message = .expire t.id →
      letter ∈ mailbox) :
    Timed timeout (Service.openedBy opened l.clock events)
      { l with service := service, mailbox := mailbox } where
  service := h.timed
  limit := by
    show service.coordinator.settings.timeout = timeout
    rw [h.settings]
    exact hl.limit
  queued t ht hfired := by
    obtain ⟨letter, hmem, hmessage⟩ := hl.queued t (h.fired t ht hfired) hfired
    exact ⟨letter, hkept t ht letter hmem hmessage, hmessage⟩
  sent letter hletter t htimer := by
    obtain ⟨hmessage, hopened, hlate⟩ := hl.sent letter (hread letter hletter) t htimer
    exact ⟨hmessage, subset_openedBy _ _ _ hopened, hlate⟩

/-- Of the round whose time is over no timer is left. -/
theorem Timed.receive (hl : l.Timed timeout opened) {letter : Letter} {rest : List Letter}
    {service : Service} {answer : Answer} (hmailbox : l.mailbox = letter :: rest)
    (h : l.service.handle l.clock letter.message = .ok (service, events, answer)) :
    Timed timeout (Service.openedBy opened l.clock events)
      { l with service := service, mailbox := rest } := by
  have hproceeds := Service.proceeds_handle hl.service h
  refine hl.proceed hproceeds (fun other hother => ?_) fun t ht other hother hmessage => ?_
  · rw [hmailbox]
    exact List.mem_cons_of_mem _ hother
  · rw [hmailbox] at hother
    rcases List.mem_cons.1 hother with rfl | hrest
    · rw [hmessage] at h
      have hgone := (Service.handle_expire hl.service h).2.1
      rw [(hproceeds.timed.live t.id).1 (List.mem_map_of_mem ht)] at hgone
      cases hgone
    · exact hrest

/-- A letter comes into the mailbox; one of a timer comes in time. -/
theorem Timed.deliver (hl : l.Timed timeout opened) (letter : Letter)
    (h : ∀ t, letter.timer? = some t →
      letter.message = .expire t.id ∧ (t.id, t.since) ∈ opened ∧ t.since + timeout ≤ l.clock) :
    Timed timeout opened { l with mailbox := l.mailbox ++ [letter] } where
  service := hl.service
  limit := hl.limit
  queued t ht hfired := by
    obtain ⟨old, hmem, hmessage⟩ := hl.queued t ht hfired
    exact ⟨old, List.mem_append_left _ hmem, hmessage⟩
  sent other hother t htimer := by
    rcases List.mem_append.1 hother with hold | hnew
    · exact hl.sent other hold t htimer
    · obtain rfl := List.mem_singleton.1 hnew
      exact h t htimer

/-- A timer of which it is noted that it has fired has its letter in the mailbox. -/
theorem Timed.markFired (hl : l.Timed timeout opened) {id : Nat}
    (h : ∃ letter ∈ l.mailbox, letter.message = .expire id) :
    Timed timeout opened { l with service := l.service.markFired id } where
  service := hl.service.markFired id
  limit := hl.limit
  queued t ht hfired := by
    obtain ⟨u, hu, rfl⟩ := List.mem_map.1 ht
    by_cases hid : u.id = id
    · rw [if_pos hid, hid]
      exact h
    · rw [if_neg hid] at hfired ⊢
      exact hl.queued u hu hfired
  sent := hl.sent

/-- A timer that wakes late enough sends its letter in time. -/
theorem Timed.wake (hl : l.Timed timeout opened) {t : Timer} (ht : t ∈ l.service.timers)
    (hlate : t.deadline ≤ l.clock) :
    Timed timeout opened { l with
      service := l.service.markFired t.id
      mailbox := l.mailbox ++ [⟨.expire t.id, some t⟩] } := by
  obtain ⟨hset, hlimit⟩ := hl.service.set t ht
  rw [Timer.deadline, hlimit, hl.limit] at hlate
  have hdelivered := hl.deliver ⟨.expire t.id, some t⟩ fun u hu => by
    obtain rfl := Option.some.inj hu
    exact ⟨rfl, hset, hlate⟩
  exact hdelivered.markFired ⟨⟨.expire t.id, some t⟩, List.mem_append_right _ (by simp), rfl⟩

theorem Timed.act (hl : l.Timed timeout opened)
    (hwakes : ∀ t : Timer, t.limit = timeout → t.deadline ≤ wakes t)
    (h : l.act wakes a = some (l', events)) :
    l'.Timed timeout (Service.openedBy opened l.clock events) := by
  have hquiet : Service.openedBy opened l.clock [] = opened := List.append_nil _
  rcases act_cases h with ⟨message, -, rfl, rfl⟩ | ⟨time, -, rfl, rfl⟩ |
    ⟨t, ht, -, -, hdue, rfl, rfl⟩ |
    ⟨letter, rest, service, answer, -, -, hmailbox, hhandle, rfl⟩ | ⟨service, -, -, htick, rfl⟩ |
    ⟨vault, -, rfl, rfl⟩
  · rw [hquiet]
    exact hl.deliver ⟨message, none⟩ fun t htimer => by cases htimer
  · rw [hquiet]
    refine ⟨hl.service, hl.limit, hl.queued, fun letter hletter t htimer => ?_⟩
    obtain ⟨hmessage, hopened, hlate⟩ := hl.sent letter hletter t htimer
    exact ⟨hmessage, hopened, hlate.trans (Nat.le_add_right _ _)⟩
  · rw [hquiet]
    have hlimit : t.limit = timeout := (hl.service.set t ht).2.trans hl.limit
    exact hl.wake ht ((hwakes t hlimit).trans hdue)
  · exact hl.receive hmailbox hhandle
  · exact hl.proceed (Service.proceeds_tick hl.service htick) (fun _ hmem => hmem)
      fun _ _ _ hmem _ => hmem
  · rw [hquiet]
    exact ⟨hl.service.withVault vault, hl.limit, hl.queued, hl.sent⟩

theorem Timed.of_run (h : Run wakes start history l) (hstart : start.Timed timeout [])
    (hwakes : ∀ t : Timer, t.limit = timeout → t.deadline ≤ wakes t) :
    l.Timed timeout (openings history) ∧
      ∀ turn ∈ history, turn.before.act wakes turn.act = some (turn.after, turn.events) ∧
        ∃ opened ⊆ openings history, turn.before.Timed timeout opened := by
  induction h with
  | nil => exact ⟨hstart, by simp⟩
  | @snoc history l l' a events run step ih =>
    obtain ⟨hl, hpast⟩ := ih
    have hopenings : openings (history ++ [⟨l, a, events, l'⟩]) =
        Service.openedBy (openings history) l.clock events := by
      rw [openings_append]
      simp [openings, Service.openedBy]
    rw [hopenings]
    refine ⟨hl.act hwakes step, fun turn hturn => ?_⟩
    rcases List.mem_append.1 hturn with hold | hnew
    · obtain ⟨hact, opened, hsub, htimed⟩ := hpast turn hold
      exact ⟨hact, opened, fun e he => subset_openedBy _ _ _ (hsub he), htimed⟩
    · obtain rfl := List.mem_singleton.1 hnew
      exact ⟨step, _, subset_openedBy _ _ _, hl⟩

/-- The loop of a coordinator that has no rounds yet. -/
theorem timed_of {c : Coordinator} (horderly : c.Orderly) (hoccupied : c.Occupied)
    (hempty : c.rounds = ∅) (clock : Nat) :
    Timed c.settings.timeout [] ⟨.of c, clock, []⟩ where
  service := ⟨horderly, hoccupied, List.nodup_nil, by simp, List.nodup_nil, fun id => by
    show id ∈ [] ↔ c.rounds.contains id = true
    rw [hempty]
    simp [Table.contains], fun t ht => by cases ht⟩
  limit := rfl
  queued t ht := by cases ht
  sent letter hletter := by cases hletter

end Loop

/-- What the message that the time of a round is over does: the round is not under way afterwards;
nothing changes if it was not before; and nothing happens to other rounds. -/
structure Turn.Expires (id : Nat) (turn : Turn) : Prop where
  gone : turn.after.service.coordinator.rounds.contains id = false
  settled : turn.before.service.coordinator.rounds.contains id = false →
    turn.after.service = turn.before.service ∧ turn.events = []
  others : ∀ i, i ≠ id →
    turn.after.service.coordinator.rounds.find? i =
      turn.before.service.coordinator.rounds.find? i ∧ newsOf i turn.events = []

theorem Loop.expires_of_receive {wakes : Timer → Nat} {turn : Turn} {opened : List (Nat × Nat)}
    {timeout : Duration} (h : turn.before.act wakes .receive = some (turn.after, turn.events))
    (htimed : turn.before.Timed timeout opened) {letter : Letter} {rest : List Letter} {id : Nat}
    (hmailbox : turn.before.mailbox = letter :: rest) (hmessage : letter.message = .expire id) :
    turn.Expires id := by
  rcases Loop.act_cases h with ⟨_, ha, -⟩ | ⟨_, ha, -⟩ | ⟨_, -, ha, -⟩ |
    ⟨letter', rest', service, answer, -, -, hmailbox', hhandle, hafter⟩ | ⟨_, ha, -⟩ | ⟨_, ha, -⟩
  · cases ha
  · cases ha
  · cases ha
  · obtain ⟨rfl, -⟩ := List.cons.inj (hmailbox.symm.trans hmailbox')
    rw [hmessage] at hhandle
    obtain ⟨hsettled, hgone, hothers⟩ := Service.handle_expire htimed.service hhandle
    rw [show service = turn.after.service by rw [hafter]] at hsettled hgone hothers
    exact ⟨hgone, hsettled, hothers⟩
  · cases ha
  · cases ha

/-- However a service is used, and whatever waits in its mailbox: it has one timer for each round
under way and no others, each with the deadline of its round, and one that has fired has told the
service.  The message that the time of a round is over ends no other round and does nothing if the
round is over; and where a timer sent it, it is for the round of that timer and its time is over. -/
theorem timers_track_rounds {settings : Settings} {archive : Archive} {hasHandler : Bool}
    {outside : Vault → Vault → Prop} {start c : Coordinator} {past : List Moment}
    (hopen : Coordinator.open? settings archive hasHandler = .ok start)
    (hrun : Run outside start past c) (hempty : c.rounds = ∅) {wakes : Timer → Nat}
    (hwakes : ∀ t : Timer, t.limit = settings.timeout → t.deadline ≤ wakes t) {clock : Nat}
    {history : List Turn} {l : Loop} (hloop : Loop.Run wakes ⟨.of c, clock, []⟩ history l) :
    (l.service.timers.map (·.id)).Nodup ∧
    (∀ id, id ∈ l.service.timers.map (·.id) ↔
      l.service.coordinator.rounds.contains id = true) ∧
    ((openings history).map (·.1)).Nodup ∧
    (∀ t ∈ l.service.timers, (t.id, t.since) ∈ openings history ∧
      t.deadline = t.since + settings.timeout ∧
      (t.fired = true → ∃ letter ∈ l.mailbox, letter.message = .expire t.id)) ∧
    (∀ turn ∈ history, turn.act = .receive → ∀ letter rest id,
      turn.before.mailbox = letter :: rest → letter.message = .expire id → turn.Expires id) ∧
    (∀ turn ∈ history, ∀ letter ∈ turn.before.mailbox, ∀ t, letter.timer? = some t →
      letter.message = .expire t.id ∧ (t.id, t.since) ∈ openings history ∧
        t.since + settings.timeout ≤ turn.before.clock) := by
  have horderly := (Coordinator.Orderly.of_run hrun (Coordinator.orderly_of_open hopen)).1
  have hoccupied := (Coordinator.Occupied.of_run hrun (Coordinator.orderly_of_open hopen)
    (Coordinator.occupied_of_open hopen)).1
  have hsettings : c.settings = settings :=
    (Coordinator.settings_of_run hrun (Coordinator.orderly_of_open hopen)).1.trans
      (Coordinator.start_of_open hopen).1
  have hstart := Loop.timed_of horderly hoccupied hempty clock
  rw [hsettings] at hstart
  obtain ⟨hl, hpast⟩ := Loop.Timed.of_run hloop hstart hwakes
  refine ⟨hl.service.distinct, hl.service.live, hl.service.once, fun t ht => ?_,
    fun turn hturn hact letter rest id hmailbox hmessage => ?_,
    fun turn hturn letter hletter t htimer => ?_⟩
  · obtain ⟨hset, hlimit⟩ := hl.service.set t ht
    refine ⟨hset, ?_, hl.queued t ht⟩
    rw [Timer.deadline, hlimit, hl.limit]
  · obtain ⟨hstep, opened, -, htimed⟩ := hpast turn hturn
    rw [hact] at hstep
    exact Loop.expires_of_receive hstep htimed hmailbox hmessage
  · obtain ⟨-, opened, hsub, htimed⟩ := hpast turn hturn
    obtain ⟨hmessage, hopened, hlate⟩ := htimed.sent letter hletter t htimer
    exact ⟨hmessage, hsub hopened, hlate⟩

/-- A checkpoint completes while the letter of its timer waits behind the acknowledgment, the next
one runs out of time, and a third one is under way. -/
def lateLetter : List Act :=
  [.send (.update ⟨1, 0, 0⟩ .running), .receive,
    .send (.trigger (.ofRetention .neverAfterTermination)), .receive,
    .pass (.ofSeconds 600), .send (.acknowledge 1 ⟨1, 0, 0⟩ [7]), .wake 1, .receive, .receive,
    .tick, .pass (.ofSeconds 600), .wake 2, .receive, .tick]

theorem timers_track_rounds_of_late_letter :
    ∃ start first late rest l letter,
      Coordinator.open? .default ⟨.of (.memory ∅) .none, .empty 1⟩ false = .ok start ∧
      Loop.perform Timer.due ⟨.of start, 0, []⟩ lateLetter = (first ++ late :: rest, l) ∧
      openings (first ++ late :: rest) =
        [(1, 0), (2, Duration.ofSeconds 600), (3, Duration.ofSeconds 1200)] ∧
      late.before.mailbox = [letter] ∧ letter.timer?.isSome = true ∧ late.Expires 1 ∧
      late.after.service = late.before.service ∧
      l.service.timers.map (·.id) = [3] ∧ l.service.coordinator.rounds.contains 3 = true := by
  obtain ⟨start, first, late, rest, l, letter, hopen, hperform, hopenings, hact, hmailbox, hmessage,
      htimer, hover, htimers⟩ :
      ∃ start first late rest l letter,
        Coordinator.open? .default ⟨.of (.memory ∅) .none, .empty 1⟩ false = .ok start ∧
        Loop.perform Timer.due ⟨.of start, 0, []⟩ lateLetter = (first ++ late :: rest, l) ∧
        openings (first ++ late :: rest) =
          [(1, 0), (2, Duration.ofSeconds 600), (3, Duration.ofSeconds 1200)] ∧
        late.act = .receive ∧ late.before.mailbox = [letter] ∧ letter.message = .expire 1 ∧
        letter.timer?.isSome = true ∧
        late.before.service.coordinator.rounds.contains 1 = false ∧
        l.service.timers.map (·.id) = [3] :=
    ⟨_, [_, _, _, _, _, _, _, _], _, _, _, _, rfl, rfl, by decide +kernel, rfl, rfl, rfl, rfl,
      by decide +kernel, by decide +kernel⟩
  have hwakes : ∀ t : Timer, t.limit = Settings.default.timeout → t.deadline ≤ t.due :=
    fun t ht => (Timer.due_eq_deadline (by rw [ht]; decide)).ge
  have hloop := Loop.Run.of_perform Timer.due ⟨.of start, 0, []⟩ lateLetter
  rw [hperform] at hloop
  have hrun : Run Eq start [] start := .nil
  obtain ⟨-, hlive, -, -, hexpires, -⟩ :=
    timers_track_rounds hopen hrun (Coordinator.rounds_of_open hopen) hwakes hloop
  have hlate := hexpires late (by simp) hact letter [] 1 hmailbox hmessage
  exact ⟨start, first, late, rest, l, letter, hopen, hperform, hopenings, hmailbox, htimer, hlate,
    (hlate.settled hover).1, htimers, (hlive 3).1 (by rw [htimers]; decide)⟩

end Checkpointing
