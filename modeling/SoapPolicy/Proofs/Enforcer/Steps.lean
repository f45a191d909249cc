import SoapPolicy.Proofs.Feed
import SoapPolicy.Proofs.Reading
import SoapPolicy.Proofs.Selection

/-!
# The steps of an enforcer

What one call does to an enforcer, said once for all proofs about runs.

`Enforcer.dispatch_cases` lists the ways in which an enforcer that evaluates a policy reads an event:
the reading fails, the event passes, or it takes the last open alternative, which raises a violation.
A call that is refused gives the verdict, and `settle` is what it leaves behind; taking an event is
processing it and then settling (`register_of_open`), which `register_cases` lists in the same way.

An enforcer is *closed* once no alternative is open and a violation is on record.  It reads nothing
any more, it stays closed, and it never accepts the message.
-/

namespace SoapPolicy

namespace Enforcer

variable {e : Enforcer} {ev : Evaluation} {event : SecurityEvent}

/-! ## Runs -/

/-- Take the events of a message, with the tokens as they are. -/
def registerAll (e : Enforcer) (events : List SecurityEvent) :
    Enforcer × List (Except Failure Unit) :=
  feed register e events

@[simp] theorem registerAll_nil (e : Enforcer) : e.registerAll [] = (e, []) := rfl

theorem registerAll_cons (e : Enforcer) (event : SecurityEvent) (events : List SecurityEvent) :
    e.registerAll (event :: events) =
      (((e.register event).1.registerAll events).1,
        (e.register event).2 :: ((e.register event).1.registerAll events).2) := rfl

theorem registerAll_append (e : Enforcer) (xs ys : List SecurityEvent) :
    e.registerAll (xs ++ ys) =
      (((e.registerAll xs).1.registerAll ys).1,
        (e.registerAll xs).2 ++ ((e.registerAll xs).1.registerAll ys).2) :=
  feed_append register e xs ys

/-- No answer says that the policy or an event cannot be used. -/
def Clean (answers : List (Except Failure Unit)) : Prop :=
  ∀ f, .error f ∈ answers → f.isContract = false

@[simp] theorem clean_nil : Clean [] := by
  intro f hf
  cases hf

@[simp] theorem clean_ok_cons {answers : List (Except Failure Unit)} :
    Clean (.ok () :: answers) ↔ Clean answers := by
  simp [Clean]

@[simp] theorem clean_error_cons {f : Failure} {answers : List (Except Failure Unit)} :
    Clean (.error f :: answers) ↔ f.isContract = false ∧ Clean answers := by
  simp [Clean]

instance (answers : List (Except Failure Unit)) : Decidable (Clean answers) :=
  decidable_of_iff
    (∀ a ∈ answers, (match a with | .ok _ => true | .error f => !f.isContract) = true) <| by
      constructor
      · intro h f hf
        simpa using h _ hf
      · intro h a ha
        cases a with
        | ok u => rfl
        | error f => simp [h f ha]

/-! ## Raising -/

theorem raise_of_soft (h : e.context.softFail = true) (why : Violation) :
    e.raise why = ({ e with withheld := e.withheld.or (some why) }, .ok ()) := by
  rw [raise, if_pos h]

theorem raise_of_hard (h : e.context.softFail = false) (why : Violation) :
    e.raise why = ({ e with verdict := some (.violated why) }, .error why.failure) := by
  rw [raise, if_neg (by simp [h])]

/-! ## Dispatching -/

/-- The ways in which an enforcer that evaluates a policy reads an event. -/
inductive Dispatched (e : Enforcer) (ev : Evaluation) (event : SecurityEvent) :
    Enforcer × Except Failure Unit → Prop where
  | failed {ev' : Evaluation} {f : Failure} :
    ev.observe e.tokens event = (ev', .error f) →
    Dispatched e ev event ({ e with phase := .evaluating ev' }, .error f)
  | passed {ev' : Evaluation} :
    ev.observe e.tokens event = (ev', .ok none) →
    Dispatched e ev event ({ e with phase := .evaluating ev' }, .ok ())
  | lost {ev' : Evaluation} {why : Shortfall} :
    ev.observe e.tokens event = (ev', .ok (some why)) →
    Dispatched e ev event (({ e with phase := .evaluating ev' } : Enforcer).raise (.lost why))

theorem dispatch_cases (hp : e.phase = .evaluating ev) (event : SecurityEvent) :
    Dispatched e ev event (e.dispatch event) := by
  rw [dispatch, hp]
  dsimp only
  rcases h : ev.observe e.tokens event with ⟨ev', f | _ | why⟩
  · exact .failed h
  · exact .passed h
  · exact .lost h

theorem dispatch_of_viable_eq_nil (hp : e.phase = .evaluating ev) (hn : ev.viable = [])
    (event : SecurityEvent) : e.dispatch event = (e, .ok ()) := by
  rw [dispatch, hp]
  dsimp only
  rw [Evaluation.observe_of_viable_eq_nil hn]
  dsimp only
  rw [← hp]

/-- Go on after a success. -/
def andThen (answer : Enforcer × Except Failure Unit)
    (rest : Enforcer → Enforcer × Except Failure Unit) : Enforcer × Except Failure Unit :=
  match answer with
  | (e, .ok ()) => rest e
  | (e, .error f) => (e, .error f)

@[simp] theorem andThen_ok (e : Enforcer) (rest : Enforcer → Enforcer × Except Failure Unit) :
    andThen (e, .ok ()) rest = rest e := rfl

theorem replay_cons (e : Enforcer) (event : SecurityEvent) (events : List SecurityEvent) :
    e.replay (event :: events) = andThen (e.dispatch event) fun e => e.replay events := rfl

theorem replay_of_viable_eq_nil (hp : e.phase = .evaluating ev) (hn : ev.viable = [])
    (events : List SecurityEvent) : e.replay events = (e, .ok ()) := by
  induction events with
  | nil => rfl
  | cons event events ih => rw [replay_cons, dispatch_of_viable_eq_nil hp hn, andThen_ok, ih]

/-! ## Processing and settling -/

theorem process_of_evaluating (hp : e.phase = .evaluating ev) (event : SecurityEvent) :
    e.process event = ({ e with operation := e.operationAfter event } : Enforcer).dispatch event := by
  obtain ⟨context, tokens, phase, operation, withheld, verdict⟩ := e
  cases hp
  cases event <;> rfl

section
variable {policies : List OperationPolicy} {default : Option Policy} {queue : List SecurityEvent}

/-- Until an operation is reported, an event is put at the end of the queue. -/
theorem process_of_waiting (hp : e.phase = .waiting policies default queue)
    (quiet : event.operation? = none) :
    e.process event =
      ({ e with phase := .waiting policies default (queue ++ [event]) }, .ok ()) := by
  obtain ⟨context, tokens, phase, operation, withheld, verdict⟩ := e
  cases hp
  cases event with
  | operation name => cases quiet
  | _ => rfl

/-- The operation event selects a policy, which reads the queue before the event. -/
theorem process_operation (hp : e.phase = .waiting policies default queue) (name : QName) :
    e.process (.operation name) =
      match policyFor? policies default name with
      | none => ({ e with operation := some name }, .error (.noOperationPolicy name.text))
      | some policy =>
        andThen (({ e with operation := some name } : Enforcer).start policy queue) fun e =>
          e.dispatch (.operation name) := by
  obtain ⟨context, tokens, phase, operation, withheld, verdict⟩ := e
  cases hp
  rfl

end

/-- What a call leaves behind: the verdict, if it was refused. -/
def settle : Enforcer × Except Failure Unit → Enforcer
  | (e, .ok ()) => e
  | (e, .error f) => e.stop f

@[simp] theorem settle_ok (e : Enforcer) : settle (e, .ok ()) = e := rfl

@[simp] theorem settle_error (e : Enforcer) (f : Failure) : settle (e, .error f) = e.stop f := rfl

theorem register_of_open (hv : e.verdict = none) (event : SecurityEvent) :
    e.register event = (settle (e.process event), (e.process event).2) := by
  rw [register, isFinalized, hv]
  rcases e.process event with ⟨e', f | u⟩
  · rfl
  · rfl

theorem isFinalized_of_verdict {verdict : Verdict} (h : e.verdict = some verdict) :
    e.isFinalized = true := by
  rw [isFinalized, h]
  rfl

theorem stop_of_verdict {verdict : Verdict} (h : e.verdict = some verdict) (f : Failure) :
    e.stop f = e := by
  rw [stop, h, Option.some_or, ← h]

theorem verdict_stop (hv : e.verdict = none) (f : Failure) :
    (e.stop f).verdict = some (.violated (.stopped f.message)) := by
  rw [stop, hv]
  rfl

theorem isFinalized_stop (e : Enforcer) (f : Failure) : (e.stop f).isFinalized = true := by
  cases hv : e.verdict with
  | none => exact isFinalized_of_verdict (verdict_stop hv f)
  | some verdict => rw [stop_of_verdict hv, isFinalized_of_verdict hv]

/-! ## Finishing -/

theorem finish_of_evaluating (hp : e.phase = .evaluating ev) (hv : e.verdict = none) :
    e.finish = e.judge := by
  simp only [finish, hv, hp]

/-- A violation as the verdict is never an acceptance, and in soft mode no failure. -/
theorem finish_of_violated {why : Violation} (hv : e.verdict = some (.violated why)) :
    e.finish.2 = if e.context.softFail then .ok false else .error why.failure := by
  rw [finish_of_verdict hv]
  rfl

/-- With no operation reported, the default reads the queue at the end. -/
theorem finish_of_waiting {policies : List OperationPolicy} {policy : Policy}
    {queue : List SecurityEvent} (hp : e.phase = .waiting policies (some policy) queue)
    (hv : e.verdict = none) :
    e.finish =
      match e.start policy queue with
      | (e, .ok ()) => e.judge
      | (e, .error f) => (e.stop f, .error f) := by
  obtain ⟨context, tokens, phase, operation, withheld, verdict⟩ := e
  cases hp
  cases hv
  rfl

/-- A raised violation gives the verdict or withholds it, and settling adds nothing. -/
theorem settle_raise (e : Enforcer) (why : Violation) : settle (e.raise why) = (e.raise why).1 := by
  cases hs : e.context.softFail with
  | true =>
    rw [raise_of_soft hs]
    rfl
  | false =>
    rw [raise_of_hard hs]
    exact stop_of_verdict rfl _

/-- The ways in which an open enforcer that evaluates a policy takes an event. -/
inductive Registered (e : Enforcer) (ev : Evaluation) (event : SecurityEvent) :
    Enforcer × Except Failure Unit → Prop where
  | failed {ev' : Evaluation} {f : Failure} :
    ev.observe e.tokens event = (ev', .error f) →
    Registered e ev event
      (stop { e with operation := e.operationAfter event, phase := .evaluating ev' } f, .error f)
  | passed {ev' : Evaluation} :
    ev.observe e.tokens event = (ev', .ok none) →
    Registered e ev event
      ({ e with operation := e.operationAfter event, phase := .evaluating ev' }, .ok ())
  | lost {ev' : Evaluation} {why : Shortfall} :
    ev.observe e.tokens event = (ev', .ok (some why)) →
    Registered e ev event
      (raise { e with operation := e.operationAfter event, phase := .evaluating ev' } (.lost why))

theorem register_cases (hp : e.phase = .evaluating ev) (hv : e.verdict = none)
    (event : SecurityEvent) : Registered e ev event (e.register event) := by
  have step := dispatch_cases (e := { e with operation := e.operationAfter event }) hp event
  rw [register_of_open hv, process_of_evaluating hp]
  generalize dispatch _ event = answer at step
  cases step with
  | failed ho => exact .failed ho
  | passed ho => exact .passed ho
  | lost ho =>
    rw [settle_raise]
    exact .lost ho

/-- An enforcer that evaluates a policy goes on doing so. -/
theorem phase_of_register (hp : e.phase = .evaluating ev) (event : SecurityEvent) :
    ∃ ev', (e.register event).1.phase = .evaluating ev' := by
  cases hv : e.verdict with
  | some verdict =>
    rw [register_of_isFinalized (isFinalized_of_verdict hv)]
    exact ⟨ev, hp⟩
  | none =>
    have step := register_cases hp hv event
    generalize e.register event = answer at step
    cases step with
    | failed => exact ⟨_, rfl⟩
    | passed => exact ⟨_, rfl⟩
    | lost =>
      rw [raise]
      split
      · exact ⟨_, rfl⟩
      · exact ⟨_, rfl⟩

theorem phase_of_registerAll (hp : e.phase = .evaluating ev)
    (events : List SecurityEvent) :
    ∃ ev', (e.registerAll events).1.phase = .evaluating ev' := by
  induction events generalizing e ev with
  | nil => exact ⟨ev, hp⟩
  | cons event events ih =>
    obtain ⟨ev', hp'⟩ := phase_of_register hp event
    exact ih hp'

/-- Once the verdict is given, no event is taken any more. -/
theorem registerAll_of_isFinalized (h : e.isFinalized = true) (events : List SecurityEvent) :
    e.registerAll events = (e, events.map fun _ => .error .finalized) := by
  induction events with
  | nil => rfl
  | cons event events ih =>
    rw [registerAll_cons, register_of_isFinalized h, ih]
    rfl

/-! ## Closed enforcers -/

/-- No alternative is open, and a violation is on record. -/
structure Closed (e : Enforcer) : Prop where
  /-- The policy under evaluation has no open alternative. -/
  lost : ∃ ev, e.phase = .evaluating ev ∧ ev.viable = []
  /-- A violation is the verdict, or is withheld until it. -/
  recorded : e.verdict.isSome = true ∨ e.withheld.isSome = true
  /-- The message is not accepted yet. -/
  unsatisfied : e.verdict ≠ some .satisfied

namespace Closed

/-- A closed enforcer reads nothing. -/
theorem dispatch (h : Closed e) (event : SecurityEvent) : e.dispatch event = (e, .ok ()) := by
  obtain ⟨ev, hp, hn⟩ := h.lost
  exact dispatch_of_viable_eq_nil hp hn event

theorem withOperation (h : Closed e) (operation : Option QName) :
    Closed { e with operation } :=
  ⟨h.lost, h.recorded, h.unsatisfied⟩

/-- An event only tells a closed enforcer its operation. -/
theorem register (h : Closed e) (event : SecurityEvent) :
    e.register event =
      if e.isFinalized then (e, .error .finalized)
      else ({ e with operation := e.operationAfter event }, .ok ()) := by
  split
  next hf => exact register_of_isFinalized hf event
  next hf =>
    have hv : e.verdict = none := by simpa [isFinalized] using hf
    obtain ⟨ev, hp, hn⟩ := h.lost
    rw [register_of_open hv, process_of_evaluating hp, (h.withOperation _).dispatch event]
    rfl

/-- A closed enforcer stays closed, and all its answers are clean. -/
theorem registerAll (h : Closed e) (events : List SecurityEvent) :
    Closed (e.registerAll events).1 ∧ (e.registerAll events).1.phase = e.phase ∧
      Clean (e.registerAll events).2 := by
  induction events generalizing e with
  | nil => exact ⟨h, rfl, clean_nil⟩
  | cons event events ih =>
    rw [registerAll_cons, h.register event]
    cases e.isFinalized with
    | true =>
      simp only [if_true, clean_error_cons]
      exact ⟨(ih h).1, (ih h).2.1, rfl, (ih h).2.2⟩
    | false =>
      have stepped := ih (h.withOperation (e.operationAfter event))
      simp only [Bool.false_eq_true, if_false, clean_ok_cons]
      exact stepped

/-- A closed enforcer does not accept the message. -/
theorem finish_ne_true (h : Closed e) : e.finish.2 ≠ .ok true := by
  cases hv : e.verdict with
  | some verdict =>
    rw [finish_of_verdict hv]
    cases verdict with
    | satisfied => exact absurd hv h.unsatisfied
    | violated why => rw [report]; split <;> simp
  | none =>
    obtain ⟨ev, hp, -⟩ := h.lost
    obtain ⟨why, hw⟩ := Option.isSome_iff_exists.1 (h.recorded.resolve_left (by simp [hv]))
    simp only [finish, hv, hp, judge, hw, conclude, report]
    split <;> simp

end Closed

/-- An event that takes the last open alternative closes the enforcer. -/
theorem closed_of_raise (hp : e.phase = .evaluating ev) (hn : ev.viable = [])
    (hv : e.verdict = none) (why : Violation) : Closed (e.raise why).1 := by
  cases hs : e.context.softFail with
  | true =>
    rw [raise_of_soft hs]
    exact ⟨⟨ev, hp, hn⟩, .inr (by simp), by simp [hv]⟩
  | false =>
    rw [raise_of_hard hs]
    exact ⟨⟨ev, hp, hn⟩, .inl rfl, by simp⟩

end Enforcer

end SoapPolicy
