import Mathlib.Tactic
import Checkpointing.Proofs.Round

/-!
# What becomes of a round

A round is asked anything in any order: to record handles, to settle, and for futures.  The first
handle of every participant counts, and one request settles the round and calls its listeners.

* `Round.Call` is what a round can be asked, `Round.serve` answers calls one after the other;
* `firstHandle?`, `futuresTaken`, `settlements` and `heard` read off what was asked and answered;
* `Chronicle` says where a round stands after its turns, `Chronicle.answer` and `Chronicle.serve`
  keep it;
* `counts_first_handles_and_settles_once` is the main statement.
-/

namespace Checkpointing
namespace Round

/-- What a round can be asked. -/
inductive Call where
  | acknowledge (run : TaskRun) (state : Bytes)
  | abort (reason : SnapshotError)
  | complete (info : SnapshotInfo)
  | takeFuture
deriving Repr

/-- What a round answers. -/
inductive Answer where
  | acknowledged (result : AckResult)
  /-- It settled, unless there was nothing to settle. -/
  | settled (settlement : Option Settlement)
  /-- The number of the future. -/
  | future (number : Nat)
deriving Repr

/-- One call, with its answer. -/
structure Turn where
  call : Call
  answer : Answer
deriving Repr

/-- The round after it settled, if it did. -/
def settle (r : Round) : Option (Round × Settlement) → Round × Answer
  | some (r, settlement) => (r, .settled (some settlement))
  | none => (r, .settled none)

/-- Answers a call. -/
def answer (r : Round) : Call → Round × Answer
  | .acknowledge run state =>
    let (r, result) := r.acknowledge run state
    (r, .acknowledged result)
  | .abort reason => r.settle (r.abort? reason)
  | .complete info => r.settle (r.complete? info)
  | .takeFuture => (r.takeFuture, .future r.futures)

/-- Answers calls one after the other. -/
def serve (r : Round) : List Call → List Turn × Round
  | [] => ([], r)
  | call :: rest =>
    let (r, answer) := r.answer call
    let (turns, r) := r.serve rest
    (⟨call, answer⟩ :: turns, r)

/-- The handle that a call brings for a run. -/
def Call.handle? (run : TaskRun) : Call → Option Bytes
  | .acknowledge other state => if run = other then some state else none
  | _ => none

/-- The first handle that calls bring for a run. -/
def firstHandle? (run : TaskRun) (calls : List Call) : Option Bytes :=
  calls.findSome? (Call.handle? run)

/-- How the round settled in a turn. -/
def Turn.settlement? (t : Turn) : Option Settlement :=
  match t.answer with
  | .settled settlement => settlement
  | _ => none

/-- The future that was handed out in a turn. -/
def Turn.future? (t : Turn) : Option Nat :=
  match t.answer with
  | .future number => some number
  | _ => none

/-- Whether the turn brought the last handle that was owed. -/
def Turn.completes (t : Turn) : Bool :=
  match t.answer with
  | .acknowledged .completes => true
  | _ => false

/-- The settlements among turns. -/
def settlements (turns : List Turn) : List Settlement := turns.filterMap Turn.settlement?

/-- The calls to listeners in turns, in order. -/
def heard (turns : List Turn) : List (Listener × Notice) :=
  (settlements turns).flatMap Settlement.calls

/-- The futures that were handed out, in order. -/
def futuresTaken (turns : List Turn) : List Nat := turns.filterMap Turn.future?

/-- The calls of turns. -/
def calls (turns : List Turn) : List Call := turns.map Turn.call

variable {first r r' : Round} {turns : List Turn} {run : TaskRun} {state : Bytes}

/-- A call is answered before the others. -/
theorem serve_cons (r : Round) (call : Call) (rest : List Call) :
    r.serve (call :: rest) =
      (⟨call, (r.answer call).2⟩ :: ((r.answer call).1.serve rest).1,
        ((r.answer call).1.serve rest).2) := rfl

theorem firstHandle?_concat (run : TaskRun) (calls : List Call) (call : Call) :
    firstHandle? run (calls ++ [call]) = (firstHandle? run calls).or (call.handle? run) := by
  rw [firstHandle?, List.findSome?_append, List.findSome?_singleton]
  rfl

/-- Further calls bring no other first handle. -/
theorem firstHandle?_concat_of_ne_none {calls : List Call} (h : firstHandle? run calls ≠ none)
    (call : Call) : firstHandle? run (calls ++ [call]) = firstHandle? run calls := by
  obtain ⟨handle, hfirst⟩ := Option.ne_none_iff_exists'.1 h
  rw [firstHandle?_concat, hfirst, Option.some_or]

theorem calls_concat (turns : List Turn) (t : Turn) :
    calls (turns ++ [t]) = calls turns ++ [t.call] :=
  List.map_append

theorem settlements_concat (turns : List Turn) (t : Turn) :
    settlements (turns ++ [t]) = settlements turns ++ t.settlement?.toList := by
  rw [settlements, List.filterMap_append]
  cases h : t.settlement? <;> simp [h, settlements]

theorem futuresTaken_concat (turns : List Turn) (t : Turn) :
    futuresTaken (turns ++ [t]) = futuresTaken turns ++ t.future?.toList := by
  rw [futuresTaken, List.filterMap_append]
  cases h : t.future? <;> simp [h, futuresTaken]

theorem settlements_concat_of_none {t : Turn} (h : t.settlement? = none) :
    settlements (turns ++ [t]) = settlements turns := by
  rw [settlements_concat, h, Option.toList_none, List.append_nil]

/-- Listeners are called in a turn only if the round settles in it. -/
theorem heard_concat (turns : List Turn) (t : Turn) :
    heard (turns ++ [t]) = heard turns ++ t.settlement?.toList.flatMap Settlement.calls := by
  rw [heard, settlements_concat, List.flatMap_append, heard]

theorem futuresTaken_concat_of_none {t : Turn} (h : t.future? = none) :
    futuresTaken (turns ++ [t]) = futuresTaken turns := by
  rw [futuresTaken_concat, h, Option.toList_none, List.append_nil]

/-! ### Where a round stands -/

/-- Every participant brought a handle. -/
def Answered (first : Round) (turns : List Turn) : Prop :=
  ∀ run ∈ first.expected, firstHandle? run (calls turns) ≠ none

theorem Answered.concat (h : Answered first turns) (t : Turn) : Answered first (turns ++ [t]) := by
  intro run hmem
  rw [calls_concat, firstHandle?_concat_of_ne_none (h run hmem)]
  exact h run hmem

/-- What is given when a round starts stays as it is. -/
structure SameTerms (first r : Round) : Prop where
  own : r.id = first.id
  policy : r.policy = first.policy
  triggeredAt : r.triggeredAt = first.triggeredAt
  expected : r.expected = first.expected
  listeners : r.listeners = first.listeners

theorem SameTerms.keep (h : SameTerms first r) (acked : Handles) (phase : Phase) (futures : Nat)
    (waiting : Option Nat) : SameTerms first
      { r with acked := acked, phase := phase, futures := futures, waiting := waiting } :=
  ⟨h.own, h.policy, h.triggeredAt, h.expected, h.listeners⟩

/-- At most one handle was answered to be the last one that was owed, and it was. -/
structure CompletedOnce (first : Round) (turns : List Turn) : Prop where
  once : (turns.filter Turn.completes).length ≤ 1
  last : turns.filter Turn.completes ≠ [] → Answered first turns

theorem CompletedOnce.concat (h : CompletedOnce first turns) {t : Turn}
    (ht : t.completes = false) : CompletedOnce first (turns ++ [t]) := by
  have hsame : (turns ++ [t]).filter Turn.completes = turns.filter Turn.completes := by
    rw [List.filter_append, List.filter_singleton, ht]
    exact List.append_nil _
  refine ⟨by rw [hsame]; exact h.once, fun hsome => ?_⟩
  rw [hsame] at hsome
  exact (h.last hsome).concat t

/-- What listeners have been told by the time that a round stands in a phase: nothing while it is in
progress, and then how it ended, each of them once and in their order. -/
def Told (first : Round) (turns : List Turn) : Phase → Prop
  | .inProgress => heard turns = []
  | .completed => ∃ info, .complete info ∈ calls turns ∧
      heard turns =
        (Notice.completed first.id first.triggeredAt info.completedAt).tell first.listeners
  | .aborted reason => .abort reason ∈ calls turns ∧
      heard turns = (Notice.aborted first.id reason).tell first.listeners

theorem Told.concat {phase : Phase} (h : Told first turns phase) {t : Turn}
    (ht : t.settlement? = none) : Told first (turns ++ [t]) phase := by
  have hsame : heard (turns ++ [t]) = heard turns := by
    rw [heard_concat, ht]
    exact List.append_nil _
  have hcalls : ∀ {call}, call ∈ calls turns → call ∈ calls (turns ++ [t]) := fun hcall => by
    rw [calls_concat]
    exact List.mem_append_left _ hcall
  cases phase with
  | inProgress => exact hsame.trans h
  | completed =>
    obtain ⟨info, hcall, htold⟩ := h
    exact ⟨info, hcalls hcall, hsame.trans htold⟩
  | aborted reason => exact ⟨hcalls h.1, hsame.trans h.2⟩

/-- Where a round stands after its turns. -/
structure Chronicle (first : Round) (turns : List Turn) (r : Round) : Prop where
  terms : SameTerms first r
  /-- Futures are numbered. -/
  numbered : futuresTaken turns = List.range r.futures
  /-- The latest future waits. -/
  waiting : r.phase = .inProgress → r.waiting = (futuresTaken turns).getLast?
  /-- The first handle of each participant was recorded. -/
  handles : r.phase.failure? = none → ∀ run, r.acked.find? run =
    if run ∈ first.expected then firstHandle? run (calls turns) else none
  /-- A round that was aborted has let its handles go. -/
  released : r.phase.failure? ≠ none → r.acked = ∅
  /-- It settled once if it is not in progress any more. -/
  settled : (settlements turns).length = if r.isInProgress then 0 else 1
  told : Told first turns r.phase
  full : r.phase = .completed → Answered first turns
  completions : CompletedOnce first turns

namespace Chronicle

/-- Nothing has happened to a round that starts. -/
theorem start (id : Nat) (policy : SnapshotPolicy) (time : Int) (participants : List TaskRun)
    (listeners : List Listener) :
    Chronicle (start id policy time participants listeners) []
      (Round.start id policy time participants listeners) where
  terms := ⟨rfl, rfl, rfl, rfl, rfl⟩
  numbered := rfl
  waiting := fun _ => rfl
  handles := fun _ _ => (ite_self none).symm
  released := fun h => absurd rfl h
  settled := rfl
  told := rfl
  full := fun h => nomatch h
  completions := ⟨Nat.zero_le 1, fun h => absurd rfl h⟩

/-- Only participants are recorded. -/
theorem mem_of_hasAck (h : Chronicle first turns r) (hack : r.hasAck run = true) :
    run ∈ r.expected := by
  obtain ⟨handle, hfind⟩ := Table.contains_iff.1 hack
  rw [h.terms.expected]
  by_cases haborted : r.phase.failure? = none
  · rw [h.handles haborted] at hfind
    by_contra hmem
    rw [if_neg hmem] at hfind
    cases hfind
  · rw [h.released haborted] at hfind
    cases hfind

/-- While a round is not aborted, just those participants are recorded that brought a handle. -/
theorem hasAck_iff (h : Chronicle first turns r) (haborted : r.phase.failure? = none)
    (hmem : run ∈ r.expected) :
    r.hasAck run = true ↔ firstHandle? run (calls turns) ≠ none := by
  rw [hasAck, Table.contains, h.handles haborted, if_pos (h.terms.expected ▸ hmem),
    Option.isSome_iff_ne_none]

/-- In a full round every participant brought a handle. -/
theorem answered_of_isFull (h : Chronicle first turns r) (haborted : r.phase.failure? = none)
    (hfull : r.isFull = true) : Answered first turns := by
  intro run hmem
  rw [← h.terms.expected] at hmem
  exact (h.hasAck_iff haborted hmem).1
    ((hasAck_iff_of_isFull hfull (fun _ => h.mem_of_hasAck) run).2 hmem)

/-- A round is full just when every participant brought a handle. -/
theorem isFull_iff (h : Chronicle first turns r) (hnodup : first.expected.Nodup)
    (haborted : r.phase.failure? = none) : r.isFull = true ↔ Answered first turns := by
  refine ⟨h.answered_of_isFull haborted, fun hall => ?_⟩
  rw [Answered, ← h.terms.expected] at hall
  rw [← h.terms.expected] at hnodup
  exact isFull_of_forall_hasAck hnodup (fun _ => h.mem_of_hasAck) fun run hmem =>
    (h.hasAck_iff haborted hmem).2 (hall run hmem)

theorem inProgress_iff (h : Chronicle first turns r) :
    r.phase = .inProgress ↔ settlements turns = [] := by
  rw [← Phase.isInProgress_iff, ← List.length_eq_zero_iff, h.settled, isInProgress]
  cases r.phase.isInProgress <;> simp

/-- No listener is called while a round is in progress. -/
theorem silent (h : Chronicle first turns r) (hnow : r.phase = .inProgress) : heard turns = [] := by
  have htold := h.told
  rwa [hnow] at htold

/-- The listeners hear the calls of the turn in which the round settles, and no others. -/
theorem heard_settled (h : Chronicle first turns r) (hnow : r.phase = .inProgress) {t : Turn}
    {settlement : Settlement} (ht : t.settlement? = some settlement) :
    heard (turns ++ [t]) = settlement.calls := by
  rw [heard_concat, h.silent hnow, ht]
  exact List.flatMap_singleton _ _

/-- The acknowledgment that completes brings the last handle, and none did before. -/
theorem of_completes (h : Chronicle first turns r)
    (hack : r.acknowledge run state = (r', .completes)) :
    turns.filter Turn.completes = [] ∧
      Answered first (turns ++ [⟨.acknowledge run state, .acknowledged .completes⟩]) := by
  obtain ⟨hprog, hmem, hnew, rfl, hfull⟩ := acknowledge_eq_completes hack
  have haborted := Phase.failure?_of_inProgress (Phase.isInProgress_iff.1 hprog)
  constructor
  · by_contra hbefore
    have hanswered := h.completions.last hbefore run (h.terms.expected ▸ hmem)
    have hold := (h.hasAck_iff haborted hmem).2 hanswered
    rw [hnew] at hold
    cases hold
  · intro other hother
    rw [← h.terms.expected] at hother
    have hacked : ∀ other, (r.record run state).hasAck other = true → other ∈ r.expected :=
      mem_of_hasAck_record hmem fun _ => h.mem_of_hasAck
    rw [calls_concat]
    rcases (hasAck_record other).1 ((hasAck_iff_of_isFull hfull hacked other).2 hother) with
      rfl | hold
    · rw [firstHandle?_concat]
      cases firstHandle? other (calls turns) <;> simp [Call.handle?]
    · have hfirst := (h.hasAck_iff haborted hother).1 hold
      rwa [firstHandle?_concat_of_ne_none hfirst]

/-- An acknowledgment leaves a round with the first handle of every participant. -/
theorem handles_acknowledge (h : Chronicle first turns r) (haborted : r.phase.failure? = none)
    (other : TaskRun) : (r.acknowledge run state).1.acked.find? other =
      if other ∈ first.expected then
        firstHandle? other (calls turns ++ [.acknowledge run state]) else none := by
  cases hnow : r.phase with
  | inProgress =>
    rw [find?_acked_acknowledge hnow, h.handles haborted, firstHandle?_concat, Call.handle?,
      h.terms.expected]
    by_cases hmem : other ∈ first.expected <;> simp [hmem]
  | completed =>
    -- Nothing is recorded any more, and every participant brought its first handle before.
    rw [acknowledge_of_not_inProgress (by rw [isInProgress, hnow]; rfl), h.handles haborted]
    split
    · next hmem => rw [firstHandle?_concat_of_ne_none (h.full hnow other hmem)]
    · rfl
  | aborted reason =>
    rw [hnow] at haborted
    cases haborted

theorem acknowledge (h : Chronicle first turns r) (run : TaskRun) (state : Bytes) :
    Chronicle first
      (turns ++ [⟨.acknowledge run state, .acknowledged (r.acknowledge run state).2⟩])
      (r.acknowledge run state).1 := by
  obtain ⟨acked, hframe⟩ := acknowledge_frame r run state
  have hphase : (r.acknowledge run state).1.phase = r.phase := by rw [hframe]
  have hprog : (r.acknowledge run state).1.isInProgress = r.isInProgress := by rw [hframe]; rfl
  refine
    { terms := by rw [hframe]; exact h.terms.keep _ _ _ _
      numbered := by rw [hframe, futuresTaken_concat_of_none rfl]; exact h.numbered
      waiting := by rw [hframe, futuresTaken_concat_of_none rfl]; exact h.waiting
      settled := by rw [hprog, settlements_concat_of_none rfl]; exact h.settled
      told := by rw [hphase]; exact h.told.concat rfl
      full := by rw [hphase]; exact fun hcompleted => (h.full hcompleted).concat _
      handles := ?_, released := ?_, completions := ?_ }
  · intro haborted
    rw [hphase] at haborted
    rw [calls_concat]
    exact h.handles_acknowledge haborted
  · intro haborted
    rw [hphase] at haborted
    have hover : r.isInProgress = false := Bool.eq_false_iff.2 fun hprog =>
      haborted (Phase.failure?_of_inProgress (Phase.isInProgress_iff.1 hprog))
    rw [acknowledge_of_not_inProgress hover]
    exact h.released haborted
  · by_cases hres : (r.acknowledge run state).2 = .completes
    · obtain ⟨hbefore, hanswered⟩ := h.of_completes (Prod.ext rfl hres)
      rw [hres]
      refine ⟨?_, fun _ => hanswered⟩
      rw [List.filter_append, hbefore]
      exact List.length_filter_le _ _
    · refine h.completions.concat ?_
      rw [Turn.completes]
      split
      · next hcompletes => exact absurd (Answer.acknowledged.inj hcompletes) hres
      · rfl

/-- A call that brings no handle leaves the record of the handles as it is. -/
theorem handles_concat (h : Chronicle first turns r) {t : Turn}
    (hcall : ∀ run, t.call.handle? run = none) (haborted : r.phase.failure? = none)
    (run : TaskRun) : r.acked.find? run =
      if run ∈ first.expected then firstHandle? run (calls (turns ++ [t])) else none := by
  rw [calls_concat, firstHandle?_concat, hcall, Option.or_none]
  exact h.handles haborted run

/-- A turn in which nothing was recorded and nothing settled leaves the round as it is. -/
theorem idle (h : Chronicle first turns r) {call : Call}
    (hcall : ∀ run, call.handle? run = none) :
    Chronicle first (turns ++ [⟨call, .settled none⟩]) r where
  terms := h.terms
  numbered := by rw [futuresTaken_concat_of_none rfl]; exact h.numbered
  waiting := by rw [futuresTaken_concat_of_none rfl]; exact h.waiting
  handles := h.handles_concat hcall
  released := h.released
  settled := by rw [settlements_concat_of_none rfl]; exact h.settled
  told := h.told.concat rfl
  full := fun hcompleted => (h.full hcompleted).concat _
  completions := h.completions.concat rfl

theorem complete (h : Chronicle first turns r) (info : SnapshotInfo) :
    Chronicle first (turns ++ [⟨.complete info, (r.settle (r.complete? info)).2⟩])
      (r.settle (r.complete? info)).1 := by
  cases hcomplete : r.complete? info with
  | none => exact h.idle fun _ => rfl
  | some settled =>
    obtain ⟨r', settlement⟩ := settled
    obtain ⟨⟨hnow, hfull⟩, rfl, rfl⟩ := complete?_eq_some_iff.1 hcomplete
    have haborted := Phase.failure?_of_inProgress hnow
    exact
      { terms := h.terms.keep _ _ _ _
        numbered := by rw [futuresTaken_concat_of_none rfl]; exact h.numbered
        waiting := fun hagain => nomatch hagain
        handles := fun _ => h.handles_concat (fun _ => rfl) haborted
        released := fun hfailed => absurd rfl hfailed
        settled := by rw [settlements_concat, h.inProgress_iff.1 hnow]; rfl
        told := by
          refine ⟨info, by rw [calls_concat]; exact List.mem_concat_self, ?_⟩
          rw [h.heard_settled hnow rfl, h.terms.own, h.terms.triggeredAt, h.terms.listeners]
        full := fun _ => (h.answered_of_isFull haborted hfull).concat _
        completions := h.completions.concat rfl }

theorem abort (h : Chronicle first turns r) (reason : SnapshotError) :
    Chronicle first (turns ++ [⟨.abort reason, (r.settle (r.abort? reason)).2⟩])
      (r.settle (r.abort? reason)).1 := by
  cases habort : r.abort? reason with
  | none => exact h.idle fun _ => rfl
  | some settled =>
    obtain ⟨r', settlement⟩ := settled
    obtain ⟨hnow, rfl, rfl⟩ := abort?_eq_some_iff.1 habort
    exact
      { terms := h.terms.keep _ _ _ _
        numbered := by rw [futuresTaken_concat_of_none rfl]; exact h.numbered
        waiting := fun hagain => nomatch hagain
        handles := fun haborted => nomatch haborted
        released := fun _ => rfl
        settled := by rw [settlements_concat, h.inProgress_iff.1 hnow]; rfl
        told := by
          refine ⟨by rw [calls_concat]; exact List.mem_concat_self, ?_⟩
          rw [h.heard_settled hnow rfl, h.terms.own, h.terms.listeners]
        full := fun hcompleted => nomatch hcompleted
        completions := h.completions.concat rfl }

theorem takeFuture (h : Chronicle first turns r) :
    Chronicle first (turns ++ [⟨.takeFuture, .future r.futures⟩]) r.takeFuture where
  terms := h.terms.keep _ _ _ _
  numbered := by
    rw [futuresTaken_concat, h.numbered]
    exact List.range_succ.symm
  waiting := fun _ => by
    rw [futuresTaken_concat]
    exact List.getLast?_concat.symm
  handles := h.handles_concat fun _ => rfl
  released := h.released
  settled := by rw [settlements_concat_of_none rfl]; exact h.settled
  told := h.told.concat rfl
  full := fun hcompleted => (h.full hcompleted).concat _
  completions := h.completions.concat rfl

/-- One turn. -/
theorem answer (h : Chronicle first turns r) (call : Call) :
    Chronicle first (turns ++ [⟨call, (r.answer call).2⟩]) (r.answer call).1 := by
  cases call with
  | acknowledge run state => exact h.acknowledge run state
  | abort reason => exact h.abort reason
  | complete info => exact h.complete info
  | takeFuture => exact h.takeFuture

/-- Any number of turns. -/
theorem serve (h : Chronicle first turns r) (rest : List Call) :
    Chronicle first (turns ++ (r.serve rest).1) (r.serve rest).2 := by
  induction rest generalizing turns r with
  | nil =>
    rw [Round.serve, List.append_nil]
    exact h
  | cons call rest ih =>
    have hrest := ih (h.answer call)
    rw [List.append_assoc] at hrest
    exact hrest

/-- The first handle of a participant is accepted while the round is in progress, and no other. -/
theorem accepted_iff (h : Chronicle first turns r) :
    ((r.acknowledge run state).2 = .accepted ∨ (r.acknowledge run state).2 = .completes) ↔
      settlements turns = [] ∧ run ∈ first.expected ∧ firstHandle? run (calls turns) = none := by
  rw [← h.inProgress_iff, ← h.terms.expected, ← Phase.isInProgress_iff]
  rcases acknowledge_cases r run state with ⟨hno, he⟩ | ⟨hmem, hold, he⟩ | ⟨hprog, hmem, hnew, he⟩
  · rw [he]
    refine ⟨fun hres => by simp at hres, fun hgoes => ?_⟩
    obtain ⟨hprog, hmem, -⟩ := hgoes
    exact absurd hmem (hno.resolve_left (by rw [isInProgress, hprog]; decide))
  · rw [he]
    refine ⟨fun hres => by simp at hres, fun hgoes => ?_⟩
    obtain ⟨hprog, -, hnone⟩ := hgoes
    have haborted := Phase.failure?_of_inProgress (Phase.isInProgress_iff.1 hprog)
    exact absurd hnone ((h.hasAck_iff haborted hmem).1 hold)
  · rw [he]
    have haborted := Phase.failure?_of_inProgress (Phase.isInProgress_iff.1 hprog)
    refine ⟨fun _ => ⟨hprog, hmem, ?_⟩, fun _ => ?_⟩
    · by_contra hsome
      rw [(h.hasAck_iff haborted hmem).2 hsome] at hnew
      cases hnew
    · by_cases hfull : (r.record run state).isFull = true <;> simp [hfull]

/-- The call that completes is the one that brings the last first handle while the round is in
progress. -/
theorem completes_iff (h : Chronicle first turns r) (hnodup : first.expected.Nodup) :
    (r.acknowledge run state).2 = .completes ↔
      settlements turns = [] ∧ run ∈ first.expected ∧
        ∀ other ∈ first.expected, firstHandle? other (calls turns) = none ↔ other = run := by
  constructor
  · intro hres
    obtain ⟨hnow, hmem, hnone⟩ := h.accepted_iff.1 (Or.inr hres)
    refine ⟨hnow, hmem, fun other hother => ⟨fun howes => ?_, fun heq => heq ▸ hnone⟩⟩
    have hlast := (h.of_completes (Prod.ext rfl hres)).2 other hother
    rw [calls_concat, firstHandle?_concat, howes, Option.none_or] at hlast
    by_contra hne
    exact hlast (if_neg hne)
  · rintro ⟨hnow, hmem, hlast⟩
    have hresult : (r.acknowledge run state).2 = .accepted ∨
        (r.acknowledge run state).2 = .completes :=
      h.accepted_iff.2 ⟨hnow, hmem, (hlast run hmem).2 rfl⟩
    refine hresult.resolve_left fun haccepted => ?_
    -- The round would be full after the call, since it has a handle of every participant.
    have hafter := h.acknowledge run state
    have hanswered : Answered first
        (turns ++ [⟨.acknowledge run state, .acknowledged (r.acknowledge run state).2⟩]) := by
      intro other hother
      rw [calls_concat, firstHandle?_concat]
      by_cases heq : other = run
      · cases firstHandle? other (calls turns) <;> simp [Call.handle?, heq]
      · obtain ⟨handle, hfirst⟩ := Option.ne_none_iff_exists'.1 (mt (hlast other hother).1 heq)
        simp [hfirst]
    obtain ⟨acked, hframe⟩ := acknowledge_frame r run state
    have haborted : (r.acknowledge run state).1.phase.failure? = none := by
      rw [hframe]
      exact Phase.failure?_of_inProgress (h.inProgress_iff.2 hnow)
    have hfull := (hafter.isFull_iff hnodup haborted).2 hanswered
    rw [isFull_of_accepted (Prod.ext rfl haccepted)] at hfull
    cases hfull

theorem complete?_iff (h : Chronicle first turns r) (hnodup : first.expected.Nodup)
    {info : SnapshotInfo} {settlement : Settlement} :
    r.complete? info = some (r', settlement) ↔
      settlements turns = [] ∧ Answered first turns ∧
        r' = { r with phase := .completed, waiting := none } ∧
        settlement =
          ⟨(Notice.completed first.id first.triggeredAt info.completedAt).tell first.listeners,
            (futuresTaken turns).getLast?.map fun future => (future, .ok info)⟩ := by
  rw [complete?_eq_some_iff, ← h.inProgress_iff, and_assoc, deliver, h.terms.own,
    h.terms.triggeredAt, h.terms.listeners]
  refine and_congr_right fun hnow => ?_
  rw [h.isFull_iff hnodup (Phase.failure?_of_inProgress hnow), h.waiting hnow]

theorem abort?_iff (h : Chronicle first turns r) {reason : SnapshotError}
    {settlement : Settlement} :
    r.abort? reason = some (r', settlement) ↔
      settlements turns = [] ∧
        r' = { r with phase := .aborted reason, acked := ∅, waiting := none } ∧
        settlement = ⟨(Notice.aborted first.id reason).tell first.listeners,
          (futuresTaken turns).getLast?.map fun future => (future, .error reason)⟩ := by
  rw [abort?_eq_some_iff, ← h.inProgress_iff, deliver, h.terms.own, h.terms.listeners]
  refine and_congr_right fun hnow => ?_
  rw [h.waiting hnow]

end Chronicle

/-- A round only leaves its phase when it settles. -/
theorem phase_answer (r : Round) (call : Call) : (r.answer call).1.phase = r.phase ∨
    ∃ settlement, (r.answer call).2 = .settled (some settlement) := by
  cases call with
  | acknowledge run state =>
    obtain ⟨acked, hframe⟩ := acknowledge_frame r run state
    exact Or.inl (congrArg Round.phase hframe :)
  | abort reason =>
    rw [answer]
    cases r.abort? reason with
    | none => exact Or.inl rfl
    | some settled => exact Or.inr ⟨settled.2, rfl⟩
  | complete info =>
    rw [answer]
    cases r.complete? info with
    | none => exact Or.inl rfl
    | some settled => exact Or.inr ⟨settled.2, rfl⟩
  | takeFuture => exact Or.inl rfl

/-- What is not accepted changes nothing. -/
theorem acknowledge_eq_self
    (h : (r.acknowledge run state).2 = .unknownTask ∨
      (r.acknowledge run state).2 = .alreadyAcknowledged) :
    (r.acknowledge run state).1 = r := by
  rcases acknowledge_cases r run state with ⟨-, he⟩ | ⟨-, -, he⟩ | ⟨-, -, -, he⟩
  · rw [he]
  · rw [he]
  · rw [he] at h
    by_cases hfull : (r.record run state).isFull = true <;> simp [hfull] at h

theorem calls_serve (r : Round) (rest : List Call) : calls (r.serve rest).1 = rest := by
  induction rest generalizing r with
  | nil => rfl
  | cons call rest ih =>
    rw [serve_cons, calls, List.map_cons]
    exact congrArg (call :: ·) (ih _)

/-- What was asked of a round that starts is its chronicle. -/
theorem chronicle_of_serve {id : Nat} {policy : SnapshotPolicy} {time : Int}
    {participants : List TaskRun} {listeners : List Listener} {asked : List Call}
    (h : (start id policy time participants listeners).serve asked = (turns, r)) :
    Chronicle (start id policy time participants listeners) turns r ∧ calls turns = asked := by
  have hserve := (Chronicle.start id policy time participants listeners).serve asked
  have hcalls := calls_serve (start id policy time participants listeners) asked
  rw [h] at hserve hcalls
  exact ⟨hserve, hcalls⟩

/-! ### The main statement -/

/-- The first handles count and one call settles.  Whatever a round is asked after it starts, in any
order: only participants are recorded; a handle is accepted while the round has not settled, if its
run takes part and has brought none before, and any other changes nothing; the call that completes
is the one after which no participant owes its first handle, whatever else was asked in between, so
that there is at most one; unless the round is aborted, the first handle of each participant is
recorded, and calls that bring the same first handles make the same snapshot; the round settles at
most once, as completed only when every participant brought a handle, and is in progress until then;
settling calls every listener once, in their order, which nothing changes and nothing else does, and
the latest future that was handed out before learns the outcome. -/
theorem counts_first_handles_and_settles_once {id : Nat} {policy : SnapshotPolicy} {time : Int}
    {participants : List TaskRun} {listeners : List Listener} {asked : List Call}
    (hserve : (start id policy time participants listeners).serve asked = (turns, r)) :
    (∀ run, r.hasAck run = true → run ∈ participants) ∧
    (∀ run state, (r.acknowledge run state).2 = .accepted ∨
      (r.acknowledge run state).2 = .completes ↔
        settlements turns = [] ∧ run ∈ participants ∧ firstHandle? run asked = none) ∧
    (∀ run state, (r.acknowledge run state).2 = .completes ↔
      settlements turns = [] ∧ run ∈ participants ∧
        ∀ other ∈ participants, firstHandle? other asked = none ↔ other = run) ∧
    (turns.filter Turn.completes).length ≤ 1 ∧
    (∀ run state, (r.acknowledge run state).2 = .unknownTask ∨
      (r.acknowledge run state).2 = .alreadyAcknowledged → (r.acknowledge run state).1 = r) ∧
    (r.phase.failure? = none → ∀ run, r.acked.find? run =
      if run ∈ participants then firstHandle? run asked else none) ∧
    (∀ asked' turns' r',
      (start id policy time participants listeners).serve asked' = (turns', r') →
      r.phase.failure? = none → r'.phase.failure? = none →
      (∀ run ∈ participants, firstHandle? run asked = firstHandle? run asked') →
      ∀ completedAt pointer, r.snapshot completedAt pointer = r'.snapshot completedAt pointer) ∧
    (settlements turns).length ≤ 1 ∧ (r.phase = .inProgress ↔ settlements turns = []) ∧
    (∀ call, (r.answer call).1.phase = r.phase ∨
      ∃ settlement, (r.answer call).2 = .settled (some settlement)) ∧
    (futuresTaken turns).Nodup ∧
    (∀ info r' settlement, r.complete? info = some (r', settlement) ↔
      settlements turns = [] ∧ (∀ run ∈ participants, firstHandle? run asked ≠ none) ∧
        r' = { r with phase := .completed, waiting := none } ∧
        settlement =
          ⟨listeners.map fun listener => (listener, .completed id time info.completedAt),
            (futuresTaken turns).getLast?.map fun future => (future, .ok info)⟩) ∧
    (∀ reason r' settlement, r.abort? reason = some (r', settlement) ↔
      settlements turns = [] ∧
        r' = { r with phase := .aborted reason, acked := ∅, waiting := none } ∧
        settlement = ⟨listeners.map fun listener => (listener, .aborted id reason),
          (futuresTaken turns).getLast?.map fun future => (future, .error reason)⟩) ∧
    r.listeners = listeners ∧
    (r.phase = .inProgress → heard turns = []) ∧
    (r.phase = .completed → ∃ info, .complete info ∈ asked ∧
      heard turns = listeners.map fun listener => (listener, .completed id time info.completedAt)) ∧
    ∀ reason, r.phase = .aborted reason → .abort reason ∈ asked ∧
      heard turns = listeners.map fun listener => (listener, .aborted id reason) := by
  obtain ⟨h, rfl⟩ := chronicle_of_serve hserve
  have hmem : ∀ {run},
      run ∈ (start id policy time participants listeners).expected ↔ run ∈ participants :=
    TaskRun.mem_sortDistinct
  have hnodup : (start id policy time participants listeners).expected.Nodup :=
    TaskRun.nodup_sortDistinct participants
  have htold := h.told
  have honce : (settlements turns).length ≤ 1 := by
    rw [h.settled]
    split <;> omega
  refine ⟨?_, ?_, ?_, h.completions.once, fun _ _ => acknowledge_eq_self, ?_, ?_, honce,
    h.inProgress_iff, r.phase_answer, ?_, ?_, ?_, h.terms.listeners, h.silent, fun hphase => ?_,
    fun reason hphase => ?_⟩
  · exact fun run hack => hmem.1 (h.terms.expected ▸ h.mem_of_hasAck hack)
  · simpa only [hmem] using fun run state => h.accepted_iff
  · simpa only [hmem] using fun run state => h.completes_iff hnodup
  · simpa only [hmem] using h.handles
  · intro asked' turns' r' hserve' haborted haborted' hfirst completedAt pointer
    obtain ⟨h', rfl⟩ := chronicle_of_serve hserve'
    have hacked : r.acked = r'.acked := by
      refine Table.eq_of_find?_eq fun run => ?_
      rw [h.handles haborted, h'.handles haborted']
      split
      · next hrun => rw [hfirst run (hmem.1 hrun)]
      · rfl
    rw [snapshot, snapshot, hacked, h.terms.own, h.terms.policy, h.terms.triggeredAt, h'.terms.own,
      h'.terms.policy, h'.terms.triggeredAt]
  · rw [h.numbered]
    exact List.nodup_range
  · have hanswered : (∀ run ∈ participants, firstHandle? run (calls turns) ≠ none) ↔
        Answered (start id policy time participants listeners) turns := by
      simp only [Answered, hmem]
    intro info r' settlement
    rw [hanswered]
    exact h.complete?_iff hnodup
  · exact fun reason r' settlement => h.abort?_iff
  all_goals
    rw [hphase] at htold
    exact htold

/-- A round of two participants and two listeners. -/
def crowdedRound : Round :=
  start 4 (.ofRetention .onFailure) 10 [⟨1, 1, 0⟩, ⟨1, 0, 0⟩] ["a", "b"]

/-- The summary with which it is completed. -/
def crowdedInfo : SnapshotInfo := ⟨4, .ofRetention .onFailure, 10, 20, 2, none⟩

/-- Handles that come from a stranger and twice, futures before and after the round is completed,
an attempt to complete it that is too early, and an abort that is too late. -/
def crowdedCalls : List Call :=
  [.acknowledge ⟨9, 0, 0⟩ [9], .takeFuture, .acknowledge ⟨1, 1, 0⟩ [2], .complete crowdedInfo,
    .acknowledge ⟨1, 1, 0⟩ [7], .takeFuture, .acknowledge ⟨1, 0, 0⟩ [1],
    .acknowledge ⟨1, 0, 0⟩ [8], .complete crowdedInfo, .abort (.expired 4), .takeFuture]

/-- One handle completes, the second future learns the outcome, both listeners are called once, and
the snapshot is that of the two first handles in the other order. -/
theorem counts_first_handles_and_settles_once_of_two : ∃ turns r turns' r',
    crowdedRound.serve crowdedCalls = (turns, r) ∧
    crowdedRound.serve [.acknowledge ⟨1, 0, 0⟩ [1], .acknowledge ⟨1, 1, 0⟩ [2]] = (turns', r') ∧
    (turns.filter Turn.completes).length = 1 ∧
    (settlements turns).map Settlement.delivery = [some (1, .ok crowdedInfo)] ∧
    heard turns = [("a", .completed 4 10 20), ("b", .completed 4 10 20)] ∧
    ∀ completedAt pointer, r.snapshot completedAt pointer = r'.snapshot completedAt pointer := by
  obtain ⟨turns, r, turns', r', hserve, hserve', hcompletes, hdelivered, hphase, hphase'⟩ :
      ∃ turns r turns' r', crowdedRound.serve crowdedCalls = (turns, r) ∧
        crowdedRound.serve [.acknowledge ⟨1, 0, 0⟩ [1], .acknowledge ⟨1, 1, 0⟩ [2]] =
          (turns', r') ∧
        (turns.filter Turn.completes).length = 1 ∧
        (settlements turns).map Settlement.delivery = [some (1, .ok crowdedInfo)] ∧
        r.phase = .completed ∧ r'.phase.failure? = none :=
    ⟨_, _, _, _, rfl, rfl, rfl, rfl, rfl, rfl⟩
  obtain ⟨-, -, -, -, -, -, hsame, -, -, -, -, -, -, -, -, htold, -⟩ :=
    counts_first_handles_and_settles_once hserve
  refine ⟨turns, r, turns', r', hserve, hserve', hcompletes, hdelivered, ?_, ?_⟩
  · obtain ⟨info, hasked, hheard⟩ := htold hphase
    obtain rfl : info = crowdedInfo := by simpa [crowdedCalls] using hasked
    exact hheard
  · exact hsame _ turns' r' hserve' (by rw [hphase]; rfl) hphase' (by decide)

end Round
end Checkpointing
