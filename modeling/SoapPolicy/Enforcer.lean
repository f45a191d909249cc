import SoapPolicy.Evaluation

/-!
# Enforcing a policy

An enforcer takes the events of one message and gives the verdict on it.  It enforces one policy, or
the policy of whichever operation the message asks for.  In the second case nothing can be evaluated
until the operation is known, so the events before it wait, and are read in their order once the
policy is selected.

The verdict is given once.  It is given by `finish`, or early by an event that leaves no alternative
or that causes a failure.  From then on no event is taken and `finish` repeats the verdict.  In soft
mode a violation is not reported when it happens but withheld, and the verdict says only that the
message is not accepted.
-/

namespace SoapPolicy

/-- How a message is to be checked. -/
structure EnforcerContext where
  /-- Whether the local party sent the request that the message answers. -/
  initiator : Bool := false
  /-- Whether violations are withheld until the verdict. -/
  softFail : Bool := false
deriving DecidableEq

/-- The verdict on a message. -/
inductive Verdict where
  | satisfied
  | violated (why : Violation)
deriving DecidableEq

/-- How far an enforcer is. -/
inductive Phase where
  /-- The operation is not known.  The events so far are in the queue, oldest first. -/
  | waiting (policies : List OperationPolicy) (default : Option Policy)
      (queue : List SecurityEvent)
  /-- The policy is known and evaluated. -/
  | evaluating (evaluation : Evaluation)
deriving DecidableEq

/-- The check of one message. -/
structure Enforcer where
  /-- How the message is checked. -/
  context : EnforcerContext
  /-- The tokens of the message. -/
  tokens : Registry := {}
  /-- How far the check is. -/
  phase : Phase
  /-- The operation the message asks for, as last reported. -/
  operation : Option QName := none
  /-- The first violation that was withheld. -/
  withheld : Option Violation := none
  /-- The verdict, once it is given. -/
  verdict : Option Verdict := none
deriving DecidableEq

namespace Enforcer

/-! ## Starting -/

/-- Enforce one policy. -/
def ofPolicy (policy : Policy) (context : EnforcerContext) : Except Failure Enforcer := do
  return { context, phase := .evaluating (← Evaluation.ofPolicy policy context.initiator) }

/-- Enforce the policy of the operation the message asks for, or the default.  Every policy has to be
one that can be evaluated. -/
def ofOperations (policies : List OperationPolicy) (default : Option Policy)
    (context : EnforcerContext) : Except Failure Enforcer := do
  (policies.map OperationPolicy.policy ++ default.toList).forM fun policy => do
    let _ ← Evaluation.ofPolicy policy context.initiator
  return { context, phase := .waiting policies default [] }

/-! ## Looking -/

/-- Whether the verdict is given. -/
def isFinalized (e : Enforcer) : Bool := e.verdict.isSome

/-- The obligations that are not met, of the alternatives still open. -/
def unmet (e : Enforcer) : List Obligation :=
  match e.phase with
  | .waiting _ _ _ => []
  | .evaluating evaluation => evaluation.unmet

/-- Whether the policy under evaluation is satisfied. -/
def isSatisfied (e : Enforcer) : Bool :=
  match e.phase with
  | .waiting _ _ _ => false
  | .evaluating evaluation => evaluation.isSatisfied

/-- The violation to report if the policy is not satisfied. -/
def violation (e : Enforcer) : Violation :=
  match e.phase with
  | .waiting _ _ _ => .noOperation
  | .evaluating evaluation => evaluation.violation

/-! ## Events -/

/-- Report a violation, or withhold it in soft mode. -/
def raise (e : Enforcer) (why : Violation) : Enforcer × Except Failure Unit :=
  if e.context.softFail then ({ e with withheld := e.withheld.or (some why) }, .ok ())
  else ({ e with verdict := some (.violated why) }, .error why.failure)

/-- Let the policy under evaluation read an event. -/
def dispatch (e : Enforcer) (event : SecurityEvent) : Enforcer × Except Failure Unit :=
  match e.phase with
  | .waiting _ _ _ => (e, .ok ())
  | .evaluating evaluation =>
    let (evaluation, answer) := evaluation.observe e.tokens event
    let e := { e with phase := .evaluating evaluation }
    match answer with
    | .error f => (e, .error f)
    | .ok none => (e, .ok ())
    | .ok (some why) => e.raise (.lost why)

/-- Read events one after the other, up to a failure. -/
def replay (e : Enforcer) : List SecurityEvent → Enforcer × Except Failure Unit
  | [] => (e, .ok ())
  | event :: events =>
    match e.dispatch event with
    | (e, .ok ()) => replay e events
    | (e, .error f) => (e, .error f)

/-- Evaluate a policy, and read the events of the queue. -/
def start (e : Enforcer) (policy : Policy) (queue : List SecurityEvent) :
    Enforcer × Except Failure Unit :=
  match Evaluation.ofPolicy policy e.context.initiator with
  | .error f => (e, .error f)
  | .ok evaluation => replay { e with phase := .evaluating evaluation } queue

/-- The policy for an operation: its own, else the default. -/
def policyFor? (policies : List OperationPolicy) (default : Option Policy) (operation : QName) :
    Option Policy :=
  ((OperationPolicy.select? policies operation).map OperationPolicy.policy).or default

/-- The operation an event reports, else the one known so far. -/
def operationAfter (e : Enforcer) : SecurityEvent → Option QName
  | .operation name => some name
  | _ => e.operation

/-- Take an event.  The first operation event selects the policy. -/
def process (e : Enforcer) (event : SecurityEvent) : Enforcer × Except Failure Unit :=
  let e := { e with operation := e.operationAfter event }
  match e.phase, event with
  | .waiting policies default queue, .operation name =>
    match policyFor? policies default name with
    | none => (e, .error (.noOperationPolicy name.text))
    | some policy =>
      match e.start policy queue with
      | (e, .ok ()) => e.dispatch event
      | (e, .error f) => (e, .error f)
  | .waiting policies default queue, event =>
    ({ e with phase := .waiting policies default (queue ++ [event]) }, .ok ())
  | .evaluating _, event => e.dispatch event

/-- A failure gives the verdict, if it is not given yet. -/
def stop (e : Enforcer) (f : Failure) : Enforcer :=
  { e with verdict := e.verdict.or (some (.violated (.stopped f.message))) }

/-- Take an event, unless the verdict is given. -/
def register (e : Enforcer) (event : SecurityEvent) : Enforcer × Except Failure Unit :=
  if e.isFinalized then (e, .error .finalized)
  else
    match e.process event with
    | (e, .ok ()) => (e, .ok ())
    | (e, .error f) => (e.stop f, .error f)

/-! ## The verdict -/

/-- What a verdict is reported as.  In soft mode a violation is an answer and no failure. -/
def report (e : Enforcer) : Verdict → Except Failure Bool
  | .satisfied => .ok true
  | .violated why => if e.context.softFail then .ok false else .error why.failure

/-- Give a verdict. -/
def conclude (e : Enforcer) (verdict : Verdict) : Enforcer × Except Failure Bool :=
  ({ e with verdict := some verdict }, e.report verdict)

/-- Give the verdict on the policy under evaluation.  A violation that was withheld counts. -/
def judge (e : Enforcer) : Enforcer × Except Failure Bool :=
  match e.withheld with
  | some why => e.conclude (.violated why)
  | none => if e.isSatisfied then e.conclude .satisfied else e.conclude (.violated e.violation)

/-- Give the verdict, or repeat it.  If no operation was reported, the default is evaluated. -/
def finish (e : Enforcer) : Enforcer × Except Failure Bool :=
  match e.verdict with
  | some verdict => (e, e.report verdict)
  | none =>
    match e.phase with
    | .waiting _ (some policy) queue =>
      match e.start policy queue with
      | (e, .ok ()) => e.judge
      | (e, .error f) => (e.stop f, .error f)
    | .waiting _ none _ => e.conclude (.violated .noOperation)
    | .evaluating _ => e.judge

/-- Once the verdict is given, no event is taken. -/
theorem register_of_isFinalized {e : Enforcer} (h : e.isFinalized = true) (event : SecurityEvent) :
    e.register event = (e, .error .finalized) := by
  rw [register, if_pos h]

/-- Once the verdict is given, it is repeated. -/
theorem finish_of_verdict {e : Enforcer} {verdict : Verdict} (h : e.verdict = some verdict) :
    e.finish = (e, e.report verdict) := by
  rw [finish, h]

/-! ## Tests -/

section Tests

/-- A policy that asks for one element. -/
def asksForElement : Policy :=
  .single [.requiredElements ⟨[⟨"//a", []⟩]⟩]

/-- The verdict of a policy after some events. -/
def verdictOn (policy : Policy) (context : EnforcerContext) (events : List SecurityEvent) :
    Except Failure Bool := do
  let e ← ofPolicy policy context
  (events.foldl (fun e event => (e.register event).1) e).finish.2

example : verdictOn asksForElement {} [.requiredElement [⟨"", "b"⟩, ⟨"", "a"⟩]] = .ok true := by rfl

example : verdictOn asksForElement {} [] =
    .error (Violation.failure (.unmet "RequiredElements"
      (some (.elementMissing ⟨[.gap, .name (some "") (some "a")]⟩)))) := by rfl

/-- In soft mode the verdict is an answer. -/
example : verdictOn asksForElement { softFail := true } [] = .ok false := by rfl

end Tests

end Enforcer

end SoapPolicy
