import Mathlib.Tactic
import Checkpointing.Coordinator.Statistics

/-!
# News of checkpoints

Among the events, those that tell what becomes of a checkpoint: the notices for listeners and the
outcomes for whoever waits.

* `news` and `newsOf` select them from events, of all checkpoints or of one;
* `verdict` is the news of a checkpoint that ends; `newsOf_verdicts` finds the verdict on one
  checkpoint among the verdicts on several;
* `observeAll_verdicts`: the statistics count every verdict once;
* `requestIds` are the checkpoints that the requests to storage are about.
-/

namespace Checkpointing

namespace Event

/-- The checkpoint of which an event tells what becomes of it. -/
def subject? : Event → Option Nat
  | notice (.triggered id _) => some id
  | notice (.completed id _ _) => some id
  | notice (.aborted id _) => some id
  | resolved id _ => some id
  | _ => none

/-- The event is a request to storage. -/
def IsRequest (e : Event) : Prop := ∃ call refused, e = storage call refused

/-- The checkpoint that a request to storage is about. -/
def requestId? : Event → Option Nat
  | storage call _ => some call.id
  | _ => none

theorem IsRequest.subject? {e : Event} (h : e.IsRequest) : e.subject? = none := by
  obtain ⟨call, refused, rfl⟩ := h
  rfl

theorem notice?_of_subject? {e : Event} (h : e.subject? = none) : e.notice? = none := by
  cases e with
  | notice n => cases n <;> cases h
  | signal | storage | failJob | resolved => rfl

end Event

/-- What is heard of checkpoints. -/
def news (events : List Event) : List Event := events.filter fun e => e.subject?.isSome

/-- What is heard of one checkpoint. -/
def newsOf (id : Nat) (events : List Event) : List Event :=
  events.filter fun e => e.subject? == some id

/-- What is heard of a checkpoint that ends: a notice for listeners, and the outcome for whoever
waits. -/
def verdict (id : Nat) : Outcome → List Event
  | .ok info => [.notice (.completed id info.triggeredAt info.completedAt), .resolved id (.ok info)]
  | .error reason => [.notice (.aborted id reason), .resolved id (.error reason)]

/-- The verdicts on several checkpoints. -/
def verdicts (ended : List (Nat × Outcome)) : List Event := ended.flatMap fun e => verdict e.1 e.2

@[simp]
theorem news_append (l l' : List Event) : news (l ++ l') = news l ++ news l' :=
  List.filter_append ..

@[simp]
theorem newsOf_append (id : Nat) (l l' : List Event) :
    newsOf id (l ++ l') = newsOf id l ++ newsOf id l' :=
  List.filter_append ..

theorem news_eq_nil {events : List Event} (h : ∀ e ∈ events, e.subject? = none) :
    news events = [] :=
  List.filter_eq_nil_iff.2 fun e he => by simp [h e he]

@[simp]
theorem news_signals {α : Type} (signal : α → Signal) (l : List α) :
    news (l.map fun a => .signal (signal a)) = [] :=
  news_eq_nil fun e he => by
    obtain ⟨a, -, rfl⟩ := List.mem_map.1 he
    rfl

/-- The news of one checkpoint are among the news. -/
theorem newsOf_news (id : Nat) (events : List Event) :
    newsOf id (news events) = newsOf id events := by
  rw [newsOf, news, List.filter_filter, newsOf]
  refine List.filter_congr fun e _ => ?_
  cases e.subject? <;> simp

/-! ### Verdicts -/

theorem subject?_of_mem_verdict {id : Nat} {outcome : Outcome} {e : Event}
    (h : e ∈ verdict id outcome) : e.subject? = some id := by
  cases outcome <;> simp only [verdict, List.mem_cons, List.not_mem_nil, or_false] at h <;>
    rcases h with rfl | rfl <;> rfl

theorem newsOf_verdict (i id : Nat) (outcome : Outcome) :
    newsOf i (verdict id outcome) = if id = i then verdict id outcome else [] := by
  split
  · next h =>
    exact List.filter_eq_self.2 fun e he => by simp [subject?_of_mem_verdict he, h]
  · next h =>
    exact List.filter_eq_nil_iff.2 fun e he => by simp [subject?_of_mem_verdict he, h]

theorem news_verdicts (ended : List (Nat × Outcome)) : news (verdicts ended) = verdicts ended :=
  List.filter_eq_self.2 fun e he => by
    obtain ⟨x, -, hx⟩ := List.mem_flatMap.1 he
    simp [subject?_of_mem_verdict hx]

/-- Nothing is heard of a checkpoint that is not among those that end. -/
theorem newsOf_verdicts_of_notMem {ended : List (Nat × Outcome)} {id : Nat}
    (h : id ∉ ended.map (·.1)) : newsOf id (verdicts ended) = [] := by
  refine List.filter_eq_nil_iff.2 fun e he => ?_
  obtain ⟨x, hx, hex⟩ := List.mem_flatMap.1 he
  have hne : x.1 ≠ id := fun heq => h (heq ▸ List.mem_map_of_mem hx)
  simp [subject?_of_mem_verdict hex, hne]

/-- Of a checkpoint among those that end its one verdict is heard. -/
theorem newsOf_verdicts {ended : List (Nat × Outcome)} {id : Nat} {outcome : Outcome}
    (hnodup : (ended.map (·.1)).Nodup) (h : (id, outcome) ∈ ended) :
    newsOf id (verdicts ended) = verdict id outcome := by
  induction ended with
  | nil => cases h
  | cons e rest ih =>
    rw [List.map_cons, List.nodup_cons] at hnodup
    show newsOf id (verdict e.1 e.2 ++ verdicts rest) = _
    rw [newsOf_append, newsOf_verdict]
    rcases List.mem_cons.1 h with rfl | h
    · rw [if_pos rfl, newsOf_verdicts_of_notMem hnodup.1, List.append_nil]
    · have hne : e.1 ≠ id := fun heq => hnodup.1 (heq ▸ List.mem_map_of_mem h)
      rw [if_neg hne, ih hnodup.2 h, List.nil_append]

/-! ### Statistics -/

namespace Statistics

theorem observeAll_append (s : Statistics) (l l' : List Event) :
    s.observeAll (l ++ l') = (s.observeAll l).bind fun s => s.observeAll l' := by
  rw [observeAll, List.filterMap_append, List.foldlM_append]
  rfl

/-- The statistics hear nothing but news. -/
theorem observeAll_news (s : Statistics) (events : List Event) :
    s.observeAll (news events) = s.observeAll events := by
  have hnotices : (news events).filterMap Event.notice? = events.filterMap Event.notice? := by
    rw [news, List.filterMap_filter]
    refine List.filterMap_congr fun e _ => ?_
    split
    · rfl
    · next h =>
      rw [Event.notice?_of_subject? (by simpa using h)]
  rw [observeAll, hnotices, observeAll]

/-- Every verdict is counted once, provided that the durations of the completed checkpoints are
timestamps. -/
theorem observeAll_verdicts (s : Statistics) (ended : List (Nat × Outcome))
    (h : ∀ id info, (id, .ok info) ∈ ended →
      Word.IsSigned (info.completedAt - info.triggeredAt)) :
    ∃ s', s.observeAll (verdicts ended) = .ok s' ∧ s'.triggered = s.triggered ∧
      s'.completed + s'.aborted = s.completed + s.aborted + ended.length := by
  induction ended generalizing s with
  | nil => exact ⟨s, rfl, rfl, rfl⟩
  | cons e rest ih =>
    obtain ⟨id, outcome⟩ := e
    have hrest := fun s => ih s fun id info hmem => h id info (List.mem_cons_of_mem _ hmem)
    obtain ⟨first, hfirst, htriggered, hended⟩ : ∃ first,
        s.observeAll (verdict id outcome) = .ok first ∧ first.triggered = s.triggered ∧
        first.completed + first.aborted = s.completed + s.aborted + 1 := by
      cases outcome with
      | error reason =>
        exact ⟨_, rfl, rfl, (Nat.add_assoc ..).symm⟩
      | ok info =>
        have hduration : Word.difference? info.completedAt info.triggeredAt = .ok _ :=
          Word.difference?_eq_ok_iff.2 ⟨h id info List.mem_cons_self, rfl⟩
        refine ⟨{ s with
          completed := s.completed + 1
          latestId := some id
          latestDuration := some (info.completedAt - info.triggeredAt) }, ?_, rfl, ?_⟩
        · show ((Word.difference? info.completedAt info.triggeredAt).map _).bind _ = _
          rw [hduration]
          rfl
        · exact Nat.add_right_comm ..
    obtain ⟨s', hs', htriggered', hended'⟩ := hrest first
    refine ⟨s', ?_, htriggered'.trans htriggered, ?_⟩
    · show s.observeAll (verdict id outcome ++ verdicts rest) = _
      rw [observeAll_append, hfirst]
      exact hs'
    · rw [List.length_cons]
      omega

end Statistics

/-! ### Requests to storage -/

/-- The checkpoints that the requests to storage are about, in order. -/
def requestIds (events : List Event) : List Nat := events.filterMap Event.requestId?

@[simp]
theorem requestIds_nil : requestIds [] = [] := rfl

@[simp]
theorem requestIds_append (l l' : List Event) :
    requestIds (l ++ l') = requestIds l ++ requestIds l' :=
  List.filterMap_append

@[simp]
theorem requestIds_signals {α : Type} (signal : α → Signal) (l : List α) :
    requestIds (l.map fun a => .signal (signal a)) = [] := by
  refine List.filterMap_eq_nil_iff.2 fun e he => ?_
  obtain ⟨a, -, rfl⟩ := List.mem_map.1 he
  rfl

end Checkpointing
