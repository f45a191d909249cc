import SoapPolicy.Proofs.Enforcer.Finality
import SoapPolicy.Proofs.Enforcer.Replay

/-!
# The operation that is enforced

An enforcer of a service selects a policy once.  `Serves` is the invariant of one that has taken some
events without a verdict: before any operation event all of them wait, and from the first one on the
policy selected for *that* operation has read all of them, whatever the tokens were by then
(`Evaluates`).  Every call keeps it (`Serves.call`).

An enforcer reports the operation of the last operation event.  The policy under evaluation is the
one for the operation reported as long as a message names one operation only
(`evaluates_firstOperation`).
-/

namespace SoapPolicy.Enforcer

/-! ## The policy under evaluation -/

/-- The enforcer evaluates a policy, which has read these events. -/
def Evaluates (e : Enforcer) (policy : Policy) (events : List SecurityEvent) : Prop :=
  ∃ start history, Evaluation.ofPolicy policy e.context.initiator = .ok start ∧
    history.map Prod.snd = events ∧ e.phase = .evaluating (start.observeOver history).1

section
variable {e e' : Enforcer} {policy : Policy} {events : List SecurityEvent} {event : SecurityEvent}

theorem Evaluates.of_eq (h : Evaluates e policy events) (context : e'.context = e.context)
    (phase : e'.phase = e.phase) : Evaluates e' policy events := by
  obtain ⟨start, history, built, read, hp⟩ := h
  exact ⟨start, history, by rw [context, built], read, phase.trans hp⟩

/-- The policy reads every event that is dispatched. -/
theorem Evaluates.dispatch (h : Evaluates e policy events) (event : SecurityEvent) :
    Evaluates (e.dispatch event).1 policy (events ++ [event]) := by
  obtain ⟨start, history, built, rfl, hp⟩ := h
  have after : (start.observeOver (history ++ [(e.tokens, event)])).1 =
      ((start.observeOver history).1.observe e.tokens event).1 :=
    start.observeOver_snoc history (e.tokens, event)
  have read : (history ++ [(e.tokens, event)]).map Prod.snd = history.map Prod.snd ++ [event] := by
    simp
  have step := dispatch_cases hp event
  generalize e.dispatch event = answer at step
  cases step with
  | failed ho => exact ⟨start, _, built, read, by rw [after, ho]⟩
  | passed ho => exact ⟨start, _, built, read, by rw [after, ho]⟩
  | @lost ev' why ho =>
    have raised : Evaluates { e with phase := .evaluating ev' } policy
        (history.map Prod.snd ++ [event]) :=
      ⟨start, _, built, read, by rw [after, ho]⟩
    refine raised.of_eq ?_ ?_
    · rw [raise]; split <;> rfl
    · rw [raise]; split <;> rfl

/-- A replay that nothing stops is read to its end. -/
theorem Evaluates.replay {queue : List SecurityEvent} (h : Evaluates e policy events)
    (passed : e.replay queue = (e', .ok ())) : Evaluates e' policy (events ++ queue) := by
  induction queue generalizing e events with
  | nil =>
    cases passed
    rwa [List.append_nil]
  | cons event queue ih =>
    rw [replay_cons] at passed
    have step := h.dispatch event
    rcases hd : e.dispatch event with ⟨e₁, f | u⟩
    · rw [hd] at passed
      cases passed
    · rw [hd] at passed step
      rw [List.append_cons]
      exact ih step passed

end

/-! ## Taking events -/

/-- What an enforcer of a service is doing once it has taken some events. -/
inductive Serves (policies : List OperationPolicy) (default : Option Policy)
    (events : List SecurityEvent) (e : Enforcer) : Prop where
  | waiting :
    events.findSome? SecurityEvent.operation? = none → e.operation = none →
    e.phase = .waiting policies default events → Serves policies default events e
  | evaluating {name : QName} {policy : Policy} :
    events.findSome? SecurityEvent.operation? = some name →
    (∀ other, e.operation = some other → .operation other ∈ events) →
    Selected policies default name policy → Evaluates e policy events →
    Serves policies default events e

section
variable {policies : List OperationPolicy} {default : Option Policy} {e e' : Enforcer}
  {events : List SecurityEvent}

theorem Serves.of_eq (h : Serves policies default events e) (context : e'.context = e.context)
    (phase : e'.phase = e.phase) (operation : e'.operation = e.operation) :
    Serves policies default events e' := by
  cases h with
  | waiting silent unknown hp => exact .waiting silent (operation.trans unknown) (phase.trans hp)
  | evaluating first known selected evaluates =>
    refine .evaluating first (fun other reported => ?_) selected (evaluates.of_eq context phase)
    exact known other (operation ▸ reported)

/-- An event that is taken is read, or waits with those before it. -/
theorem Serves.process (h : Serves policies default events e) {event : SecurityEvent}
    (passed : e.process event = (e', .ok ())) : Serves policies default (events ++ [event]) e' := by
  cases h with
  | @evaluating name policy first known selected evaluates =>
    obtain ⟨start, history, -, -, hp⟩ := id evaluates
    rw [process_of_evaluating hp] at passed
    let told : Enforcer := { e with operation := e.operationAfter event }
    have same : Evaluates told policy events := evaluates.of_eq rfl rfl
    have read := same.dispatch event
    have named := operation_dispatch told event
    rw [passed] at read named
    refine .evaluating (by rw [List.findSome?_append, first]; rfl) ?_ selected read
    intro other reported
    rw [named] at reported
    cases event with
    | operation other => cases reported; simp
    | _ => exact List.mem_append_left _ (known other reported)
  | waiting silent unknown hp =>
    cases hop : event.operation? with
    | none =>
      rw [process_of_waiting hp hop] at passed
      cases passed
      exact .waiting (by simp [List.findSome?_append, silent, hop]) unknown rfl
    | some name =>
      cases SecurityEvent.operation?_eq_some_iff.1 hop
      have first : (events ++ [SecurityEvent.operation name]).findSome? SecurityEvent.operation? =
          some name := by
        rw [List.findSome?_append, silent]
        rfl
      obtain ⟨policy, start, chosen, built, read⟩ := exists_selected hp passed
      have fresh : Evaluates { e with operation := some name, phase := .evaluating start }
          policy [] := ⟨start, [], built, rfl, rfl⟩
      have named := operation_replay
        { e with operation := some name, phase := .evaluating start } (events ++ [.operation name])
      rw [read] at named
      refine .evaluating first ?_ (policyFor?_eq_some_iff.1 chosen) (fresh.replay read)
      intro other reported
      rw [named] at reported
      cases reported
      simp

/-! ## Runs -/

/-- The event that a call reports. -/
def Call.event? : Call → Option SecurityEvent
  | .register event => some event
  | _ => none

/-- The events that calls report, in their order. -/
def registered (calls : List Call) : List SecurityEvent :=
  calls.filterMap Call.event?

theorem registered_cons (c : Call) (calls : List Call) :
    registered (c :: calls) = registered [c] ++ registered calls := by
  rw [← List.singleton_append, registered, List.filterMap_append]
  rfl

theorem Serves.register (hv : e.verdict = none) (h : Serves policies default events e)
    {event : SecurityEvent} (accepted : (e.register event).2 = .ok ()) :
    Serves policies default (events ++ [event]) (e.register event).1 := by
  rw [register_of_open hv] at accepted ⊢
  rcases passed : e.process event with ⟨e', f | u⟩
  · rw [passed] at accepted
    cases accepted
  · exact h.process passed

/-- A call that gives no verdict keeps the invariant. -/
theorem Serves.call (hv : e.verdict = none) (h : Serves policies default events e) (c : Call)
    (still : (e.call c).1.verdict = none) :
    Serves policies default (events ++ registered [c]) (e.call c).1 := by
  cases c with
  | addToken token =>
    rw [registered, List.filterMap_cons_none rfl, List.filterMap_nil, List.append_nil]
    exact h.of_eq rfl rfl rfl
  | setTokens tokens =>
    rw [registered, List.filterMap_cons_none rfl, List.filterMap_nil, List.append_nil]
    exact h.of_eq rfl rfl rfl
  | finish =>
    obtain ⟨verdict, given⟩ := verdict_finish hv
    rw [Enforcer.call, given] at still
    cases still
  | register event =>
    have accepted : (e.register event).2 = .ok () := by
      have step := taken_register hv event
      rw [Enforcer.call] at still
      generalize e.register event = answer at step still
      cases step with
      | passed => rfl
      | refused k given =>
        rw [given] at still
        cases still
    exact h.register hv accepted

/-- So does a run. -/
theorem Serves.perform (hv : e.verdict = none) (h : Serves policies default events e)
    (calls : List Call) (still : (e.perform calls).1.verdict = none) :
    Serves policies default (events ++ registered calls) (e.perform calls).1 := by
  induction calls generalizing e events with
  | nil => rwa [registered, List.filterMap_nil, List.append_nil]
  | cons c calls ih =>
    rw [perform_cons] at still ⊢
    rw [registered_cons, ← List.append_assoc]
    cases hv' : (e.call c).1.verdict with
    | none => exact ih hv' (h.call hv c hv') still
    | some verdict =>
      obtain ⟨tokens, unmoved⟩ := perform_of_verdict hv' calls
      rw [unmoved, hv'] at still
      cases still

/-- When an event is taken and an operation is reported, the policy under evaluation is the one
selected for the operation of the first operation event, and it has read every event.  If no other
operation was named, it is the policy for the operation that is reported. -/
theorem evaluates_firstOperation {context : EnforcerContext}
    (built : ofOperations policies default context = .ok e) (calls : List Call)
    (event : SecurityEvent) (accepted : ((e.perform calls).1.register event).2 = .ok ())
    {known : QName} (reported : ((e.perform calls).1.register event).1.operation = some known) :
    ∃ name policy,
      (registered calls ++ [event]).findSome? SecurityEvent.operation? = some name ∧
      Selected policies default name policy ∧
      Evaluates ((e.perform calls).1.register event).1 policy (registered calls ++ [event]) ∧
      ((∀ other, .operation other ∈ registered calls ++ [event] → other = name) →
        name = known) := by
  obtain ⟨-, rfl⟩ := ofOperations_eq_ok_iff.1 built
  generalize ran : perform _ calls = run at accepted reported
  have still : run.1.verdict = none := by
    cases hv : run.1.verdict with
    | none => rfl
    | some verdict =>
      rw [register_of_isFinalized (isFinalized_of_verdict hv)] at accepted
      cases accepted
  have start : Serves policies default [] { context, phase := .waiting policies default [] } :=
    .waiting rfl rfl rfl
  have before := start.perform rfl calls (by rw [ran]; exact still)
  rw [ran, List.nil_append] at before
  cases before.register still accepted with
  | waiting silent unknown hp =>
    rw [unknown] at reported
    cases reported
  | @evaluating name policy first named selected evaluates =>
    refine ⟨name, policy, first, selected, evaluates, fun only => ?_⟩
    exact (only known (named known reported)).symm

end

/-- A service whose balance may be asked for freely, and whose transfers have to hold an element. -/
def bankPolicies : List OperationPolicy :=
  [⟨⟨"urn:bank", "balance"⟩, .single []⟩, ⟨⟨"urn:bank", "transfer"⟩, asksForElement⟩]

def bank : Enforcer :=
  { context := {}, phase := .waiting bankPolicies none [] }

/-- A token and an element are found before a transfer is asked for, and the policy for transfers has
read all of it. -/
theorem evaluates_bankTransfer :
    Evaluates ((bank.perform [.addToken { type := .x509V3 },
        .register (.requiredElement [⟨"", "a"⟩])]).1.register
          (.operation ⟨"urn:bank", "transfer"⟩)).1
      asksForElement
      [.requiredElement [⟨"", "a"⟩], .operation ⟨"urn:bank", "transfer"⟩] := by
  have built : ofOperations bankPolicies none {} = .ok bank := rfl
  obtain ⟨name, policy, first, selected, evaluates, -⟩ :=
    evaluates_firstOperation built
      [.addToken { type := .x509V3 }, .register (.requiredElement [⟨"", "a"⟩])]
      (.operation ⟨"urn:bank", "transfer"⟩) rfl rfl
  cases first
  cases (policyFor?_eq_some_iff.2 selected).symm.trans
    (rfl : policyFor? bankPolicies none ⟨"urn:bank", "transfer"⟩ = some asksForElement)
  exact evaluates

/-- A message that names two operations is checked against the policy for the first, while the second
is reported. -/
theorem not_evaluates_reported :
    ¬ ∀ (policies : List OperationPolicy) (default : Option Policy) (context : EnforcerContext)
        (e : Enforcer), ofOperations policies default context = .ok e →
      ∀ (calls : List Call) (event : SecurityEvent) (known : QName),
        ((e.perform calls).1.register event).2 = .ok () →
        ((e.perform calls).1.register event).1.operation = some known →
        ∃ policy, Selected policies default known policy ∧
          Evaluates ((e.perform calls).1.register event).1 policy
            (registered calls ++ [event]) := by
  intro all
  obtain ⟨policy, selected, start, history, built, read, hp⟩ :=
    all bankPolicies none {} bank rfl [.register (.operation ⟨"urn:bank", "balance"⟩)]
      (.operation ⟨"urn:bank", "transfer"⟩) ⟨"urn:bank", "transfer"⟩ rfl rfl
  cases (policyFor?_eq_some_iff.2 selected).symm.trans
    (rfl : policyFor? bankPolicies none ⟨"urn:bank", "transfer"⟩ = some asksForElement)
  cases built
  obtain ⟨⟨r, first⟩, later, rfl, rfl, rest⟩ := List.map_eq_cons_iff.1 read
  obtain ⟨⟨r', second⟩, none_left, rfl, rfl, done⟩ := List.map_eq_cons_iff.1 rest
  cases List.map_eq_nil_iff.1 done
  cases hp

end SoapPolicy.Enforcer
