import SoapPolicy.Proofs.Hearing
import SoapPolicy.Violation

/-!
# Two sorts of failures

A failure is either the report of a violation, or it says that a policy, an event or a call cannot
be used as it is.  An obligation that hears an event never reports a violation: what a message falls
short of is an outcome there.  So every failure of `Obligation.hear` is of the second sort
(`Obligation.hear_onlyContract`).
-/

namespace SoapPolicy

namespace Failure

/-- Whether a failure reports that the message breaks its policy. -/
def isSecurity : Failure → Bool
  | security _ _ => true
  | _ => false

/-- Whether a failure says that a policy or an event cannot be used as it is. -/
def isContract : Failure → Bool
  | security _ _ | finalized => false
  | _ => true

theorem not_isContract_of_isSecurity {f : Failure} (h : f.isSecurity = true) :
    f.isContract = false := by
  cases f <;> simp_all [isSecurity, isContract]

end Failure

@[simp] theorem Violation.isSecurity_failure (why : Violation) : why.failure.isSecurity = true := rfl

@[simp] theorem Violation.isContract_failure (why : Violation) :
    why.failure.isContract = false := rfl

/-! ## Computations that fail in one way only -/

/-- Every failure of a computation is of one sort. -/
def FailsOnly {α : Type} (sort : Failure → Prop) (x : Except Failure α) : Prop :=
  ∀ f, x = .error f → sort f

namespace FailsOnly

variable {α β : Type} {sort : Failure → Prop}

@[simp] theorem ok (a : α) : FailsOnly sort (.ok a) := by
  intro f h
  cases h

@[simp] theorem pure (a : α) : FailsOnly sort (Pure.pure a : Except Failure α) := ok a

@[simp] theorem error {f : Failure} :
    FailsOnly sort (.error f : Except Failure α) ↔ sort f := by
  constructor
  · intro h
    exact h f rfl
  · intro h g hg
    cases hg
    exact h

/-- A failure is of its sort whatever the computation would have given. -/
theorem passed_on {f : Failure} (h : FailsOnly sort (.error f : Except Failure α)) :
    FailsOnly sort (.error f : Except Failure β) :=
  error.2 (error.1 h)

/-- The second computation counts only for what the first one gives. -/
theorem bind_of_ok {x : Except Failure α} {f : α → Except Failure β} (hx : FailsOnly sort x)
    (hf : ∀ a, x = .ok a → FailsOnly sort (f a)) : FailsOnly sort (x >>= f) := by
  cases x with
  | error e => exact hx.passed_on
  | ok a => exact hf a rfl

theorem bind {x : Except Failure α} {f : α → Except Failure β} (hx : FailsOnly sort x)
    (hf : ∀ a, FailsOnly sort (f a)) : FailsOnly sort (x >>= f) :=
  hx.bind_of_ok fun a _ => hf a

theorem map {x : Except Failure α} (hx : FailsOnly sort x) (f : α → β) :
    FailsOnly sort (x.map f) := by
  cases x with
  | error e => exact hx.passed_on
  | ok a => exact ok (f a)

theorem mono {sort' : Failure → Prop} {x : Except Failure α} (hx : FailsOnly sort x)
    (weaker : ∀ f, sort f → sort' f) : FailsOnly sort' x :=
  fun f hf => weaker f (hx f hf)

theorem mapM {f : α → Except Failure β} (hf : ∀ a, FailsOnly sort (f a)) :
    ∀ as : List α, FailsOnly sort (as.mapM f)
  | [] => by
    rw [List.mapM_nil]
    exact pure []
  | a :: as => by
    rw [List.mapM_cons]
    exact (hf a).bind fun b => (mapM hf as).bind fun bs => pure (b :: bs)

end FailsOnly

/-! ## Failures of the parts of an obligation -/

/-- The computation never reports a violation. -/
abbrev OnlyContract {α : Type} (x : Except Failure α) : Prop :=
  FailsOnly (fun f => f.isContract = true) x

namespace Registry

theorem get_onlyContract (r : Registry) (id : TokenId) : OnlyContract (r.get id) := by
  unfold get
  cases r.get? id with
  | none => exact FailsOnly.error.2 rfl
  | some token => exact FailsOnly.ok token

end Registry

namespace TokenPolicy

theorem checkUsages_onlyContract (policy : TokenPolicy) (usages : List TokenUsage) :
    OnlyContract (policy.checkUsages usages) := by
  unfold checkUsages
  split
  · exact FailsOnly.error.2 rfl
  · exact FailsOnly.ok _

theorem propertyShortfall_onlyContract (policy : TokenPolicy) (token : SecurityToken)
    (details : TokenDetails) : OnlyContract (policy.propertyShortfall token details) := by
  unfold propertyShortfall
  split
  case h_2 =>
    split
    · exact FailsOnly.ok _
    · exact FailsOnly.error.2 rfl
  case h_9 => exact FailsOnly.error.2 rfl
  all_goals exact FailsOnly.ok _

theorem judge_onlyContract (policy : TokenPolicy) (initiator : Bool) (r : Registry)
    (event : TokenEvent) : OnlyContract (policy.judge initiator r event) := by
  unfold judge
  refine (r.get_onlyContract event.token).bind fun token => ?_
  refine (policy.checkUsages_onlyContract token.usages).bind fun _ => ?_
  split
  · refine FailsOnly.bind ?_ fun answer => ?_
    · exact (policy.propertyShortfall_onlyContract token event.details).bind fun _ =>
        FailsOnly.pure _
    · cases answer with
      | none => exact FailsOnly.pure _
      | some why => exact FailsOnly.pure _
  · exact FailsOnly.pure _

end TokenPolicy

namespace HeaderRecord

theorem signsAll_onlyContract (r : Registry) (signer : TokenId) :
    ∀ (ids : List TokenId) (elements : List SignedElement),
      OnlyContract (signsAll r signer ids elements)
  | [], _ => FailsOnly.ok true
  | id :: ids, elements => by
    unfold signsAll
    refine (r.get_onlyContract id).bind fun token => ?_
    split
    · dsimp only
      split
      · exact signsAll_onlyContract r signer ids _
      · exact FailsOnly.pure false
    · exact signsAll_onlyContract r signer ids elements

theorem tokenShortfall_onlyContract (record : HeaderRecord) (r : Registry) (id : TokenId) :
    OnlyContract (record.tokenShortfall r id) := by
  unfold tokenShortfall
  refine (r.get_onlyContract _).bind fun root => ?_
  refine (r.get_onlyContract _).bind fun token => ?_
  split
  · exact FailsOnly.pure _
  split
  · exact FailsOnly.pure _
  split
  · exact (signsAll_onlyContract r _ _ _).bind fun _ => FailsOnly.pure _
  · exact FailsOnly.pure _

theorem firstShortfall_onlyContract (record : HeaderRecord) (r : Registry) :
    ∀ ids : List TokenId, OnlyContract (record.firstShortfall r ids)
  | [] => FailsOnly.ok none
  | id :: ids => by
    unfold firstShortfall
    refine (record.tokenShortfall_onlyContract r id).bind fun answer => ?_
    cases answer with
    | none => exact record.firstShortfall_onlyContract r ids
    | some why => exact FailsOnly.pure _

end HeaderRecord

/-! ## Failures of an obligation -/

namespace Obligation

/-- Hearing an event never reports a violation. -/
theorem hear_onlyContract (o : Obligation) (r : Registry) (event : SecurityEvent) :
    OnlyContract (o.hear r event).2 := by
  intro f failed
  cases (hear_error_cases failed).1 with
  | @token policy initiator found _ _ judged => exact policy.judge_onlyContract initiator r found f judged
  | @operation _ record _ _ _ settled => exact record.firstShortfall_onlyContract r _ f settled
  | misdirected => rfl

/-! ## Failures before any event -/

theorem patternsOf_onlyContract (policy : ElementsPolicy) : OnlyContract (patternsOf policy) := by
  refine FailsOnly.mapM (fun xpath => ?_) policy.xpaths
  cases xpath.compile with
  | ok pattern => exact FailsOnly.ok pattern
  | error e => exact FailsOnly.error.2 rfl

theorem ofProtection_onlyContract (protection : Protection) (policy : ElementsPolicy) :
    OnlyContract (ofProtection protection policy) :=
  (patternsOf_onlyContract policy).bind fun _ => FailsOnly.pure _

/-- An assertion that cannot be checked is no violation. -/
theorem ofAssertion_onlyContract (assertion : PolicyAssertion) (initiator : Bool) :
    OnlyContract (ofAssertion assertion initiator) := by
  cases assertion with
  | token policy => exact FailsOnly.ok _
  | signedElements policy => exact ofProtection_onlyContract _ policy
  | encryptedElements policy => exact ofProtection_onlyContract _ policy
  | requiredElements policy =>
    exact (patternsOf_onlyContract policy).bind fun _ => FailsOnly.pure _
  | binding policy => exact FailsOnly.ok _

end Obligation

end SoapPolicy
