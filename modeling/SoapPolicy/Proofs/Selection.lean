import SoapPolicy.Enforcer

/-!
# The policy of a message

Which policy a message is checked against.  For one operation it is the policy of the first operation
with exactly its name, else of the first with the same local part, else the default
(`Selected`), and `Enforcer.policyFor?` finds it (`policyFor?_eq_some_iff`).  An enforcer of a
service takes the operation from the first operation event, and enforces the default if a message
reports none (`PolicySource.Enforces`).
-/

namespace SoapPolicy

/-! ## Policies of operations -/

/-- The first operation policy of a list with a property. -/
def IsFirst (P : OperationPolicy → Prop) (policies : List OperationPolicy)
    (p : OperationPolicy) : Prop :=
  ∃ before after, policies = before ++ p :: after ∧ P p ∧ ∀ q ∈ before, ¬ P q

/-- The policy that is selected for an operation. -/
inductive Selected (policies : List OperationPolicy) (default : Option Policy) (name : QName) :
    Policy → Prop where
  | exactly {p : OperationPolicy} :
    IsFirst (fun p => p.operation = name) policies p →
    Selected policies default name p.policy
  | byLocalPart {p : OperationPolicy} :
    (∀ q ∈ policies, q.operation ≠ name) →
    IsFirst (fun p => p.operation.localPart = name.localPart) policies p →
    Selected policies default name p.policy
  | byDefault {policy : Policy} :
    (∀ q ∈ policies, q.operation.localPart ≠ name.localPart) →
    default = some policy →
    Selected policies default name policy

theorem find?_eq_some_iff_isFirst {P : OperationPolicy → Prop} [DecidablePred P]
    {policies : List OperationPolicy} {p : OperationPolicy} :
    policies.find? (fun p => decide (P p)) = some p ↔ IsFirst P policies p := by
  rw [List.find?_eq_some_iff_append, IsFirst]
  constructor
  · rintro ⟨hp, before, after, rfl, hb⟩
    exact ⟨before, after, rfl, of_decide_eq_true hp, fun q hq => by simpa using hb q hq⟩
  · rintro ⟨before, after, rfl, hp, hb⟩
    exact ⟨decide_eq_true hp, before, after, rfl, fun q hq => by simpa using hb q hq⟩

/-- The enforcer finds exactly the policy that is selected. -/
theorem policyFor?_eq_some_iff {policies : List OperationPolicy} {default : Option Policy}
    {name : QName} {policy : Policy} :
    Enforcer.policyFor? policies default name = some policy ↔
      Selected policies default name policy := by
  have exact_find : (policies.find? fun p => p.operation == name) =
      policies.find? fun p => decide (p.operation = name) := rfl
  have local_find : (policies.find? fun p => p.operation.localPart == name.localPart) =
      policies.find? fun p => decide (p.operation.localPart = name.localPart) := rfl
  rw [Enforcer.policyFor?, OperationPolicy.select?, exact_find, local_find]
  cases he : policies.find? fun p => decide (p.operation = name) with
  | some p =>
    have first := find?_eq_some_iff_isFirst.1 he
    obtain ⟨before, after, hs, hp, -⟩ := id first
    have hmem : p ∈ policies := by simp [hs]
    constructor
    · intro h
      cases h
      exact .exactly first
    · intro h
      cases h with
      | exactly first' =>
        rw [← he, find?_eq_some_iff_isFirst.2 first']
        rfl
      | byLocalPart none_exact _ => exact absurd hp (none_exact p hmem)
      | byDefault none_local _ => exact absurd (congrArg QName.localPart hp) (none_local p hmem)
  | none =>
    have none_exact : ∀ q ∈ policies, q.operation ≠ name := by
      simpa using List.find?_eq_none.1 he
    cases hl : policies.find? fun p => decide (p.operation.localPart = name.localPart) with
    | some p =>
      have first := find?_eq_some_iff_isFirst.1 hl
      obtain ⟨before, after, hs, hp, -⟩ := id first
      have hmem : p ∈ policies := by simp [hs]
      constructor
      · intro h
        cases h
        exact .byLocalPart none_exact first
      · intro h
        cases h with
        | exactly first' =>
          rw [find?_eq_some_iff_isFirst.2 first'] at he
          cases he
        | byLocalPart _ first' =>
          rw [← hl, find?_eq_some_iff_isFirst.2 first']
          rfl
        | byDefault none_local _ => exact absurd hp (none_local p hmem)
    | none =>
      have none_local : ∀ q ∈ policies, q.operation.localPart ≠ name.localPart := by
        simpa using List.find?_eq_none.1 hl
      constructor
      · intro h
        exact .byDefault none_local h
      · intro h
        cases h with
        | exactly first' =>
          rw [find?_eq_some_iff_isFirst.2 first'] at he
          cases he
        | byLocalPart _ first' =>
          rw [find?_eq_some_iff_isFirst.2 first'] at hl
          cases hl
        | byDefault _ hd => exact hd

/-- A selected policy is one of the policies of the service. -/
theorem Selected.mem {policies : List OperationPolicy} {default : Option Policy} {name : QName}
    {policy : Policy} (h : Selected policies default name policy) :
    policy ∈ policies.map OperationPolicy.policy ++ default.toList := by
  cases h with
  | exactly first =>
    obtain ⟨before, after, hs, -, -⟩ := first
    simp [hs]
  | byLocalPart _ first =>
    obtain ⟨before, after, hs, -, -⟩ := first
    simp [hs]
  | byDefault _ hd => simp [hd]

/-! ## What is enforced -/

/-- The operation an event reports. -/
def SecurityEvent.operation? : SecurityEvent → Option QName
  | .operation name => some name
  | _ => none

theorem SecurityEvent.operation?_eq_some_iff {event : SecurityEvent} {name : QName} :
    event.operation? = some name ↔ event = .operation name := by
  cases event <;> simp [operation?]

/-- What an enforcer is made for: one policy, or the policies of a service. -/
inductive PolicySource where
  | policy (policy : Policy)
  | operations (policies : List OperationPolicy) (default : Option Policy)

/-- The policies of a source. -/
def PolicySource.policies : PolicySource → List Policy
  | .policy p => [p]
  | .operations ps default => ps.map OperationPolicy.policy ++ default.toList

/-- The enforcer made for a source of policies. -/
def Enforcer.ofSource : PolicySource → EnforcerContext → Except Failure Enforcer
  | .policy policy, context => ofPolicy policy context
  | .operations policies default, context => ofOperations policies default context

/-- The policy that a message with these events is checked against. -/
inductive PolicySource.Enforces : PolicySource → List SecurityEvent → Policy → Prop where
  | policy {policy : Policy} {events : List SecurityEvent} :
    Enforces (.policy policy) events policy
  | operation {policies : List OperationPolicy} {default : Option Policy} {name : QName}
      {events : List SecurityEvent} {policy : Policy} :
    events.findSome? SecurityEvent.operation? = some name →
    Selected policies default name policy →
    Enforces (.operations policies default) events policy
  | default {policies : List OperationPolicy} {events : List SecurityEvent} {policy : Policy} :
    events.findSome? SecurityEvent.operation? = none →
    Enforces (.operations policies (some policy)) events policy

end SoapPolicy
