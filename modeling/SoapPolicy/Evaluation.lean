import SoapPolicy.Obligation.Basic
import SoapPolicy.Violation

/-!
# Evaluating a policy

A policy is evaluated by keeping a *candidate* for each alternative: the obligations of its
assertions.  Every event goes to the obligations that read its kind.  A fatal outcome retires the
candidate, and a retired candidate reads no more events.  The policy is satisfied while some
candidate that is not retired has all its obligations met.

A failure stops the reading of an event.  What was read before it stays read.
-/

namespace SoapPolicy

/-! ## Candidates -/

/-- An alternative while a message is checked against it. -/
structure Candidate where
  /-- The obligations, in the order of the assertions. -/
  obligations : List Obligation
  /-- Why the alternative is lost, if it is. -/
  retired : Option Shortfall := none
deriving DecidableEq

namespace Candidate

/-- Whether the alternative is still open. -/
def isViable (c : Candidate) : Bool := c.retired.isNone

/-- Whether every obligation is met. -/
def isMet (c : Candidate) : Bool := c.obligations.all Obligation.met

/-- The candidate for an alternative, before any event. -/
def ofAlternative (initiator : Bool) (alternative : Alternative) : Except Failure Candidate := do
  return ⟨← alternative.assertions.mapM fun assertion =>
    Obligation.ofAssertion assertion initiator, none⟩

/-- Let obligations read an event one after the other.  The first fatal outcome is the last one
read, and its shortfall is the answer. -/
def observeAll (r : Registry) (event : SecurityEvent) :
    List Obligation → List Obligation × Except Failure (Option Shortfall)
  | [] => ([], .ok none)
  | o :: os =>
    if o.kinds.contains event.kind then
      match o.hear r event with
      | (o', .error f) => (o' :: os, .error f)
      | (o', .ok (.fatal why)) => (o' :: os, .ok (some why))
      | (o', .ok _) =>
        let (os', answer) := observeAll r event os
        (o' :: os', answer)
    else
      let (os', answer) := observeAll r event os
      (o :: os', answer)

/-- Read an event.  The answer is the shortfall that retires the candidate now, if one does. -/
def observe (r : Registry) (event : SecurityEvent) (c : Candidate) :
    Candidate × Except Failure (Option Shortfall) :=
  if c.isViable then
    match observeAll r event c.obligations with
    | (os, .error f) => (⟨os, none⟩, .error f)
    | (os, .ok why) => (⟨os, why⟩, .ok why)
  else (c, .ok none)

end Candidate

/-! ## Policies -/

/-- A policy while a message is checked against it. -/
structure Evaluation where
  /-- The candidates, in the order of the alternatives. -/
  candidates : List Candidate
  /-- The shortfall that retired a candidate last. -/
  lastLoss : Option Shortfall := none
deriving DecidableEq

namespace Evaluation

/-- The evaluation of a policy, before any event. -/
def ofPolicy (policy : Policy) (initiator : Bool) : Except Failure Evaluation := do
  return ⟨← policy.alternatives.mapM (Candidate.ofAlternative initiator), none⟩

/-- The candidates that are not retired. -/
def viable (e : Evaluation) : List Candidate :=
  e.candidates.filter Candidate.isViable

/-- Whether the policy is satisfied. -/
def isSatisfied (e : Evaluation) : Bool :=
  e.viable.any Candidate.isMet

/-- The obligations that are not met, of the candidates that are not retired. -/
def unmet (e : Evaluation) : List Obligation :=
  (e.viable.flatMap Candidate.obligations).filter fun o => !o.met

/-- Why the policy is not satisfied. -/
def violation (e : Evaluation) : Violation :=
  if e.candidates.isEmpty then .noAlternatives
  else
    match e.unmet, e.lastLoss with
    | o :: _, _ => .unmet o.name o.shortfall
    | [], some why => .lost why
    | [], none => .noneSatisfied

/-- Let candidates read an event one after the other.  Besides the candidates, the answer is the
shortfall that retired the last of those that were retired now, and the failure that stopped the
reading. -/
def observeAll (r : Registry) (event : SecurityEvent) :
    List Candidate → List Candidate × Option Shortfall × Option Failure
  | [] => ([], none, none)
  | c :: cs =>
    match c.observe r event with
    | (c', .error f) => (c' :: cs, none, some f)
    | (c', .ok why) =>
      let (cs', loss, failure) := observeAll r event cs
      (c' :: cs', loss.or why, failure)

/-- Read an event.  The answer is the shortfall that retired the last open candidate, if the event
did so. -/
def observe (e : Evaluation) (r : Registry) (event : SecurityEvent) :
    Evaluation × Except Failure (Option Shortfall) :=
  let (candidates, loss, failure) := observeAll r event e.candidates
  let after : Evaluation := ⟨candidates, loss.or e.lastLoss⟩
  match failure with
  | some f => (after, .error f)
  | none =>
    if !e.viable.isEmpty && after.viable.isEmpty then (after, .ok after.lastLoss)
    else (after, .ok none)

end Evaluation

end SoapPolicy
