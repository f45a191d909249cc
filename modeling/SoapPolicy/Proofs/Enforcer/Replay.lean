import SoapPolicy.Proofs.Enforcer.Calls

/-!
# Waiting for the operation

An enforcer of a service keeps the events of a message until it knows the operation, and only then
reads them.  In the end this makes no difference: it gives the same verdict, and finds the same
obligations unmet, as the enforcer of the selected policy that reads every event when it comes
(`finish_ofOperations`).

Both halves, with an operation and with the default, rest on one comparison.  Replaying events, which
stops at the first failure, and then settling leaves the same enforcer as taking the events one by
one, where the first failure gives the verdict and the rest are refused (`registerAll_replay`).  The
two differ in the operation they report, since a replay begins with the operation known; `SameCheck`
is equality up to that, and nothing but the report depends on it.
-/

namespace SoapPolicy.Enforcer

/-! ## The operation is only reported -/

/-- Two enforcers that agree in all but the operation they report. -/
def SameCheck (e₁ e₂ : Enforcer) : Prop :=
  ∃ operation, e₂ = { e₁ with operation }

/-- Change the operation of an enforcer after a call. -/
def relabel {α : Type} (operation : Option QName) (answer : Enforcer × α) : Enforcer × α :=
  ({ answer.1 with operation }, answer.2)

section
variable {e : Enforcer} (operation : Option QName)

theorem raise_relabel (why : Violation) :
    ({ e with operation } : Enforcer).raise why = relabel operation (e.raise why) := by
  cases hs : e.context.softFail with
  | true =>
    rw [raise_of_soft hs, raise_of_soft (e := { e with operation }) hs]
    rfl
  | false =>
    rw [raise_of_hard hs, raise_of_hard (e := { e with operation }) hs]
    rfl

theorem dispatch_relabel (event : SecurityEvent) :
    ({ e with operation } : Enforcer).dispatch event = relabel operation (e.dispatch event) := by
  obtain ⟨context, tokens, phase, operation', withheld, verdict⟩ := e
  cases phase with
  | waiting policies default queue => rfl
  | evaluating ev =>
    simp only [dispatch]
    rcases ev.observe tokens event with ⟨ev', f | _ | why⟩
    · rfl
    · rfl
    · exact raise_relabel (e := ⟨context, tokens, .evaluating ev', operation', withheld, verdict⟩)
        operation (.lost why)

theorem replay_relabel (events : List SecurityEvent) :
    ({ e with operation } : Enforcer).replay events = relabel operation (e.replay events) := by
  induction events generalizing e with
  | nil => rfl
  | cons event events ih =>
    rw [replay_cons, replay_cons, dispatch_relabel]
    rcases e.dispatch event with ⟨e', f | u⟩
    · rfl
    · exact ih

theorem settle_relabel (answer : Enforcer × Except Failure Unit) :
    settle (relabel operation answer) = { settle answer with operation } := by
  rcases answer with ⟨e, f | u⟩
  · rfl
  · rfl

theorem start_relabel (policy : Policy) (queue : List SecurityEvent) :
    ({ e with operation } : Enforcer).start policy queue =
      relabel operation (e.start policy queue) := by
  unfold start
  dsimp only
  cases Evaluation.ofPolicy policy e.context.initiator with
  | error f => rfl
  | ok ev => exact replay_relabel (e := { e with phase := .evaluating ev }) operation queue

theorem judge_relabel :
    ({ e with operation } : Enforcer).judge = relabel operation e.judge := by
  obtain ⟨context, tokens, phase, operation', withheld, verdict⟩ := e
  cases withheld with
  | some why => rfl
  | none =>
    have same : (⟨context, tokens, phase, operation, none, verdict⟩ : Enforcer).isSatisfied =
        (⟨context, tokens, phase, operation', none, verdict⟩ : Enforcer).isSatisfied := rfl
    simp only [judge, same]
    split
    · rfl
    · rfl

theorem finish_relabel :
    ({ e with operation } : Enforcer).finish = relabel operation e.finish := by
  obtain ⟨context, tokens, phase, operation', withheld, verdict⟩ := e
  cases verdict with
  | some verdict => rfl
  | none =>
    cases phase with
    | evaluating ev => exact judge_relabel operation
    | waiting policies default queue =>
      cases default with
      | none => rfl
      | some policy =>
        simp only [finish]
        have started := start_relabel operation policy queue
          (e := ⟨context, tokens, .waiting policies (some policy) queue, operation', withheld, none⟩)
        dsimp only at started
        rw [started]
        rcases start _ policy queue with ⟨e', f | u⟩
        · rfl
        · exact judge_relabel operation

end

namespace SameCheck

variable {e₁ e₂ e₃ : Enforcer}

theorem refl (e : Enforcer) : SameCheck e e := ⟨e.operation, rfl⟩

theorem symm (h : SameCheck e₁ e₂) : SameCheck e₂ e₁ := by
  obtain ⟨operation, rfl⟩ := h
  exact ⟨e₁.operation, rfl⟩

theorem trans (h₁ : SameCheck e₁ e₂) (h₂ : SameCheck e₂ e₃) : SameCheck e₁ e₃ := by
  obtain ⟨operation, rfl⟩ := h₁
  obtain ⟨operation', rfl⟩ := h₂
  exact ⟨operation', rfl⟩

theorem finish (h : SameCheck e₁ e₂) :
    SameCheck e₁.finish.1 e₂.finish.1 ∧ e₁.finish.2 = e₂.finish.2 := by
  obtain ⟨operation, rfl⟩ := h
  rw [finish_relabel (e := e₁) operation]
  exact ⟨⟨operation, rfl⟩, rfl⟩

theorem unmet (h : SameCheck e₁ e₂) : e₁.unmet = e₂.unmet := by
  obtain ⟨operation, rfl⟩ := h
  rfl

theorem register {ev : Evaluation} (h : SameCheck e₁ e₂) (hp : e₁.phase = .evaluating ev)
    (event : SecurityEvent) :
    SameCheck (e₁.register event).1 (e₂.register event).1 ∧
      (e₁.register event).2 = (e₂.register event).2 := by
  obtain ⟨operation, rfl⟩ := h
  obtain ⟨context, tokens, phase, operation', withheld, verdict⟩ := e₁
  cases hp
  cases verdict with
  | some verdict =>
    rw [register_of_isFinalized rfl, register_of_isFinalized rfl]
    exact ⟨⟨operation, rfl⟩, rfl⟩
  | none =>
    let e : Enforcer := ⟨context, tokens, .evaluating ev, none, withheld, none⟩
    have read (operation : Option QName) :
        ({ e with operation } : Enforcer).register event =
          ({ settle (e.dispatch event) with
              operation := ({ e with operation } : Enforcer).operationAfter event },
            (e.dispatch event).2) := by
      rw [register_of_open rfl, process_of_evaluating rfl, ← settle_relabel]
      exact congrArg (fun answer => (settle answer, answer.2)) (dispatch_relabel (e := e) _ event)
    rw [read operation', read operation]
    exact ⟨⟨_, rfl⟩, rfl⟩

theorem registerAll {ev : Evaluation} (h : SameCheck e₁ e₂) (hp : e₁.phase = .evaluating ev)
    (events : List SecurityEvent) :
    SameCheck (e₁.registerAll events).1 (e₂.registerAll events).1 ∧
      (e₁.registerAll events).2 = (e₂.registerAll events).2 := by
  induction events generalizing e₁ e₂ ev with
  | nil => exact ⟨h, rfl⟩
  | cons event events ih =>
    obtain ⟨step, answer⟩ := h.register hp event
    obtain ⟨ev', hp'⟩ := phase_of_register hp event
    obtain ⟨rest, answers⟩ := ih step hp'
    rw [registerAll_cons, registerAll_cons, answer, answers]
    exact ⟨rest, rfl⟩

end SameCheck

/-! ## Replaying and taking one by one -/

theorem replay_append (xs ys : List SecurityEvent) : ∀ e : Enforcer,
    e.replay (xs ++ ys) = andThen (e.replay xs) fun e => e.replay ys := by
  induction xs with
  | nil => exact fun e => rfl
  | cons event xs ih =>
    intro e
    rw [List.cons_append, replay_cons, replay_cons]
    rcases e.dispatch event with ⟨e', f | u⟩
    · rfl
    · exact ih e'

theorem replay_singleton (e : Enforcer) (event : SecurityEvent) :
    e.replay [event] = e.dispatch event := by
  rw [replay_cons]
  rcases e.dispatch event with ⟨e', f | u⟩ <;> rfl

/-- A replay to its end has read what comes before the last event, and then that event. -/
theorem replay_snoc_ok {e e' : Enforcer} {events : List SecurityEvent} {event : SecurityEvent}
    (passed : e.replay (events ++ [event]) = (e', .ok ())) :
    ∃ e₁, e.replay events = (e₁, .ok ()) ∧ e₁.dispatch event = (e', .ok ()) := by
  rw [replay_append] at passed
  rcases read : e.replay events with ⟨e₁, f | u⟩
  · rw [read] at passed
    cases passed
  · rw [read, andThen_ok, replay_singleton] at passed
    exact ⟨e₁, rfl, passed⟩

theorem operation_replay (e : Enforcer) (events : List SecurityEvent) :
    (e.replay events).1.operation = e.operation :=
  congrArg (fun answer => answer.1.operation) (replay_relabel (e := e) e.operation events)

theorem operation_dispatch (e : Enforcer) (event : SecurityEvent) :
    (e.dispatch event).1.operation = e.operation := by
  rw [← replay_singleton, operation_replay]

section
variable {e : Enforcer} {ev : Evaluation}

/-- How the reading of one or more events ends, as long as the verdict was not given before. -/
inductive Ended : Enforcer × Except Failure Unit → Prop where
  | passed {e : Enforcer} {ev : Evaluation} :
    e.phase = .evaluating ev → e.verdict = none → Ended (e, .ok ())
  | unreadable {e : Enforcer} {f : Failure} : f.isContract = true → Ended (e, .error f)
  | raised {e : Enforcer} {why : Violation} :
    e.context.softFail = false → e.verdict = some (.violated why) → Ended (e, .error why.failure)

theorem Handled.ended {answer : Enforcer × Except Failure Unit} (h : Handled e answer)
    (hp : e.phase = .evaluating ev) : Ended answer := by
  cases h with
  | passed k hv =>
    obtain ⟨ev', hp'⟩ := k.evaluating hp
    exact .passed hp' hv
  | unreadable _ _ contract => exact .unreadable contract
  | raised _ hard given => exact .raised hard given

/-- A replay that is settled leaves the enforcer that takes the events one by one, and the failure
that stops it is among the answers. -/
theorem registerAll_replay (hp : e.phase = .evaluating ev) (hv : e.verdict = none)
    (events : List SecurityEvent) :
    SameCheck (settle (e.replay events)) (e.registerAll events).1 ∧
      ∀ f, (e.replay events).2 = .error f → .error f ∈ (e.registerAll events).2 := by
  induction events generalizing e ev with
  | nil => exact ⟨.refl e, fun f hf => by cases hf⟩
  | cons event events ih =>
    have step := (handled_dispatch hv event).ended hp
    rw [registerAll_cons, register_of_open hv, process_of_evaluating hp,
      dispatch_relabel (e := e), settle_relabel, replay_cons]
    rcases he : e.dispatch event with ⟨e', f | u⟩
    · rw [registerAll_of_isFinalized (e := { settle (e', .error f) with
        operation := e.operationAfter event }) (isFinalized_stop e' f)]
      exact ⟨⟨_, rfl⟩, fun g hg => by cases hg; exact .head _⟩
    · rw [he] at step
      cases step with
      | passed hp' hv' =>
        obtain ⟨replayed, found⟩ := ih hp' hv'
        have relabelled : SameCheck e' { e' with operation := e.operationAfter event } := ⟨_, rfl⟩
        obtain ⟨taken, answers⟩ := relabelled.registerAll hp' events
        refine ⟨replayed.trans taken, fun f hf => .tail _ ?_⟩
        have hmem := found f hf
        rw [answers] at hmem
        exact hmem

end

/-! ## Waiting -/

section
variable {e : Enforcer} {policies : List OperationPolicy} {default : Option Policy}
  {queue : List SecurityEvent}

/-- Until an operation is reported, every event is put at the end of the queue. -/
theorem registerAll_of_waiting (hp : e.phase = .waiting policies default queue)
    (hv : e.verdict = none) {events : List SecurityEvent}
    (quiet : ∀ event ∈ events, event.operation? = none) :
    (e.registerAll events).1 = { e with phase := .waiting policies default (queue ++ events) } := by
  induction events generalizing e queue with
  | nil => rw [registerAll_nil, List.append_nil, ← hp]
  | cons event events ih =>
    obtain ⟨he, hes⟩ := List.forall_mem_cons.1 quiet
    rw [registerAll_cons, register_of_open hv, process_of_waiting hp he]
    have rest := ih (e := { e with phase := .waiting policies default (queue ++ [event]) })
      rfl hv hes
    rw [List.append_assoc] at rest
    exact rest

/-- The operation event makes the selected policy read the queue, and the event last. -/
theorem process_selected (hp : e.phase = .waiting policies default queue) {name : QName}
    {policy : Policy} (selected : policyFor? policies default name = some policy) {ev : Evaluation}
    (hev : Evaluation.ofPolicy policy e.context.initiator = .ok ev) :
    e.process (.operation name) =
      ({ e with operation := some name, phase := .evaluating ev } : Enforcer).replay
        (queue ++ [.operation name]) := by
  rw [process_operation hp, selected, replay_append]
  simp only [start, hev]
  rcases replay _ queue with ⟨e', f | u⟩
  · rfl
  · exact (replay_singleton e' _).symm

/-- An operation event that is taken has selected a policy, which has read the queue and the event. -/
theorem exists_selected (hp : e.phase = .waiting policies default queue) {name : QName}
    {e' : Enforcer} (passed : e.process (.operation name) = (e', .ok ())) :
    ∃ policy ev, policyFor? policies default name = some policy ∧
      Evaluation.ofPolicy policy e.context.initiator = .ok ev ∧
      ({ e with operation := some name, phase := .evaluating ev } : Enforcer).replay
        (queue ++ [.operation name]) = (e', .ok ()) := by
  have selects := passed
  rw [process_operation hp] at selects
  cases chosen : policyFor? policies default name with
  | none =>
    rw [chosen] at selects
    cases selects
  | some policy =>
    cases built : Evaluation.ofPolicy policy e.context.initiator with
    | error f =>
      simp only [chosen, start, built] at selects
      cases selects
    | ok ev => exact ⟨policy, ev, rfl, built, (process_selected hp chosen built).symm.trans passed⟩

/-- The default reads the queue at the end.  Unless an event cannot be read, the verdict is that of
the enforcer which the replay leaves. -/
theorem finish_of_default {policy : Policy} {ev : Evaluation}
    (hp : e.phase = .waiting policies (some policy) queue) (hv : e.verdict = none)
    (hev : Evaluation.ofPolicy policy e.context.initiator = .ok ev)
    (clean : Clean (({ e with phase := .evaluating ev } : Enforcer).registerAll queue).2) :
    e.finish =
      (settle (({ e with phase := .evaluating ev } : Enforcer).replay queue)).finish := by
  have ended := (handled_replay (e := { e with phase := .evaluating ev }) hv queue).ended rfl
  have found := (registerAll_replay (e := { e with phase := .evaluating ev }) rfl hv queue).2
  -- a stopped replay leaves its verdict behind, and only a contract failure says more than that
  rw [finish_of_waiting hp hv]
  simp only [start, hev]
  generalize replay _ queue = answer at ended found
  cases ended with
  | passed hp' hv' => exact (finish_of_evaluating hp' hv').symm
  | @unreadable e' f contract =>
    have readable := clean f (found f rfl)
    rw [contract] at readable
    cases readable
  | @raised e' why hard given =>
    simp only [settle_error, stop_of_verdict given, finish_of_verdict given, report, hard]
    rfl

end

/-! ## The policy of the operation -/

section
variable {policies : List OperationPolicy} {default : Option Policy} {context : EnforcerContext}
  {waiting : Enforcer} {policy : Policy} (tokens : Registry) {events : List SecurityEvent}

/-- Every policy of a service has an enforcer of its own. -/
theorem ofPolicy_of_ofOperations (built : ofOperations policies default context = .ok waiting)
    (hmem : policy ∈ policies.map OperationPolicy.policy ++ default.toList) :
    waiting = { context, phase := .waiting policies default [] } ∧
      ∃ ev, Evaluation.ofPolicy policy context.initiator = .ok ev ∧
        ofPolicy policy context = .ok { context, phase := .evaluating ev } := by
  obtain ⟨evaluable, rfl⟩ := ofOperations_eq_ok_iff.1 built
  obtain ⟨ev, hev⟩ := evaluable policy hmem
  exact ⟨rfl, ev, hev, ofPolicy_eq_ok_iff.2 ⟨ev, hev, rfl⟩⟩

/-- Once the operation is known, an enforcer of a service is where the enforcer of the selected
policy is. -/
theorem sameCheck_of_operation (built : ofOperations policies default context = .ok waiting)
    {name : QName} (reported : events.findSome? SecurityEvent.operation? = some name)
    (selected : Selected policies default name policy) :
    ∃ direct, ofPolicy policy context = .ok direct ∧
      SameCheck ({ waiting with tokens }.registerAll events).1
        ({ direct with tokens }.registerAll events).1 := by
  obtain ⟨rfl, ev, hev, direct⟩ := ofPolicy_of_ofOperations built selected.mem
  refine ⟨_, direct, ?_⟩
  obtain ⟨before, event, after, rfl, hop, quiet⟩ := List.findSome?_eq_some_iff.1 reported
  cases SecurityEvent.operation?_eq_some_iff.1 hop
  let service : Enforcer := { context, tokens, phase := .waiting policies default [] }
  let start : Enforcer := { context, tokens, phase := .evaluating ev }
  let known : Enforcer := { start with operation := some name }
  -- both have read the events up to the operation event, and take the rest alike
  have served : (service.registerAll (before ++ .operation name :: after)).1 =
      ((settle (known.replay (before ++ [.operation name]))).registerAll after).1 := by
    rw [registerAll_append, registerAll_of_waiting rfl rfl quiet, registerAll_cons,
      register_of_open rfl, process_selected rfl (policyFor?_eq_some_iff.2 selected) hev]
    rfl
  have taken : (start.registerAll (before ++ .operation name :: after)).1 =
      ((start.registerAll (before ++ [.operation name])).1.registerAll after).1 := by
    rw [List.append_cons, registerAll_append]
  have replayed := (registerAll_replay (e := known) rfl rfl (before ++ [.operation name])).1
  have relabelled : SameCheck known start := ⟨none, rfl⟩
  have reached := replayed.trans (relabelled.registerAll rfl (before ++ [.operation name])).1
  obtain ⟨ev', hp'⟩ := phase_of_registerAll (e := start) rfl (before ++ [.operation name])
  have rest := (reached.symm.registerAll hp' after).1.symm
  rw [← served, ← taken] at rest
  exact rest

/-- Where no operation is reported, an enforcer of a service gives the verdict of the enforcer of the
default, unless an event cannot be read. -/
theorem sameCheck_of_default (built : ofOperations policies (some policy) context = .ok waiting)
    (silent : events.findSome? SecurityEvent.operation? = none) :
    ∃ direct, ofPolicy policy context = .ok direct ∧
      (Clean ({ direct with tokens }.registerAll events).2 →
        ({ waiting with tokens }.registerAll events).1.finish.2 =
            ({ direct with tokens }.registerAll events).1.finish.2 ∧
          SameCheck ({ waiting with tokens }.registerAll events).1.finish.1
            ({ direct with tokens }.registerAll events).1.finish.1) := by
  have own : policy ∈ policies.map OperationPolicy.policy ++ (some policy).toList := by simp
  obtain ⟨rfl, ev, hev, direct⟩ := ofPolicy_of_ofOperations built own
  refine ⟨_, direct, fun clean => ?_⟩
  have quiet := List.findSome?_eq_none_iff.1 silent
  rw [registerAll_of_waiting rfl rfl quiet, finish_of_default rfl rfl hev clean]
  obtain ⟨state, answer⟩ := (registerAll_replay (e := { context, tokens, phase := .evaluating ev })
    rfl rfl events).1.finish
  exact ⟨answer, state⟩

/-- Waiting for the operation changes no verdict.  With an operation reported, the enforcer of a
service ends like the enforcer of the policy selected for the first one; with none, like the enforcer
of the default, provided that every event can be read. -/
theorem finish_ofOperations (built : ofOperations policies default context = .ok waiting)
    (events : List SecurityEvent) :
    (∀ name policy, events.findSome? SecurityEvent.operation? = some name →
      Selected policies default name policy →
      ∃ direct, ofPolicy policy context = .ok direct ∧
        ({ waiting with tokens }.registerAll events).1.finish.2 =
          ({ direct with tokens }.registerAll events).1.finish.2 ∧
        ({ waiting with tokens }.registerAll events).1.unmet =
          ({ direct with tokens }.registerAll events).1.unmet ∧
        ({ waiting with tokens }.registerAll events).1.finish.1.unmet =
          ({ direct with tokens }.registerAll events).1.finish.1.unmet) ∧
    (∀ policy, events.findSome? SecurityEvent.operation? = none → default = some policy →
      ∃ direct, ofPolicy policy context = .ok direct ∧
        (Clean ({ direct with tokens }.registerAll events).2 →
          ({ waiting with tokens }.registerAll events).1.finish.2 =
            ({ direct with tokens }.registerAll events).1.finish.2 ∧
          ({ waiting with tokens }.registerAll events).1.finish.1.unmet =
            ({ direct with tokens }.registerAll events).1.finish.1.unmet)) := by
  constructor
  · intro name policy reported selected
    obtain ⟨direct, hdirect, same⟩ := sameCheck_of_operation tokens built reported selected
    exact ⟨direct, hdirect, same.finish.2, same.unmet, same.finish.1.unmet⟩
  · rintro policy silent rfl
    obtain ⟨direct, hdirect, same⟩ := sameCheck_of_default tokens built silent
    exact ⟨direct, hdirect, fun clean => ⟨(same clean).1, (same clean).2.unmet⟩⟩

end

/-- A service with a policy for one operation.  By default an element has to be signed. -/
def greetingService : Enforcer :=
  { context := {},
    phase := .waiting [⟨⟨"urn:greeting", "greet"⟩, asksForElement⟩]
      (some (.single [.signedElements ⟨[⟨"//b", []⟩]⟩])) [] }

/-- Both verdicts on the service: one of the policy of its operation, which a present element
satisfies, and one of the default, which an unsigned element violates. -/
theorem finish_greetingService :
    (greetingService.registerAll
        [.requiredElement [⟨"", "a"⟩], .operation ⟨"", "greet"⟩]).1.finish.2 = .ok true ∧
      ∃ why, (greetingService.registerAll [.ofSigned ⟨0⟩ [⟨"", "b"⟩] false]).1.finish.2 =
        .error (Violation.failure (.lost why)) := by
  have built : ofOperations [⟨⟨"urn:greeting", "greet"⟩, asksForElement⟩]
      (some (.single [.signedElements ⟨[⟨"//b", []⟩]⟩])) {} = .ok greetingService := rfl
  constructor
  · obtain ⟨direct, hdirect, verdict, -⟩ :=
      (finish_ofOperations {} built [.requiredElement [⟨"", "a"⟩], .operation ⟨"", "greet"⟩]).1
        ⟨"", "greet"⟩ asksForElement rfl (policyFor?_eq_some_iff.1 rfl)
    cases hdirect
    exact verdict.trans rfl
  · obtain ⟨direct, hdirect, same⟩ :=
      (finish_ofOperations {} built [.ofSigned ⟨0⟩ [⟨"", "b"⟩] false]).2 _ rfl rfl
    cases hdirect
    obtain ⟨verdict, -⟩ := same (by decide +kernel)
    exact ⟨_, verdict.trans rfl⟩

end SoapPolicy.Enforcer
