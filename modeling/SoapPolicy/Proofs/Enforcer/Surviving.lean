import SoapPolicy.Proofs.Enforcer.Disjunction
import SoapPolicy.Proofs.Surviving

/-!
# Messages that are accepted

A message is accepted only if all assertions of some alternative hold of it (`holds_of_accepts`), and
where every event can be read this is enough (`accepts_iff_holds`).
-/

namespace SoapPolicy.Enforcer

variable {policy : Policy} {context : EnforcerContext} {tokens : Registry}
  {events : List SecurityEvent}

/-- All assertions of some alternative hold of a message that is accepted, even if some alternative
cannot read it to the end. -/
theorem holds_of_accepts (accepted : Accepts policy context tokens events) :
    ∃ alternative ∈ policy.alternatives, ∀ a ∈ alternative.assertions,
      a.Holds context.initiator tokens events := by
  obtain ⟨run, checked, accepted⟩ := accepted
  cases built : Evaluation.ofPolicy policy context.initiator with
  | error f =>
    rw [check, ofPolicy, built] at checked
    cases checked
  | ok ev =>
    rw [check_of_ofPolicy built] at checked
    cases checked
    obtain ⟨unfailing, satisfied⟩ := observeEach_of_accepted rfl rfl rfl accepted
    exact (Evaluation.isSatisfied_iff_holds built unfailing).1 satisfied

/-- Where every event can be read, a message is accepted exactly if all assertions of some alternative
hold of it. -/
theorem accepts_iff_holds (clean : ChecksCleanly policy context tokens events) :
    Accepts policy context tokens events ↔
      ∃ alternative ∈ policy.alternatives, ∀ a ∈ alternative.assertions,
        a.Holds context.initiator tokens events := by
  refine ⟨holds_of_accepts, fun holds => ?_⟩
  obtain ⟨run, checked, clean⟩ := clean
  cases built : Evaluation.ofPolicy policy context.initiator with
  | error f =>
    rw [check, ofPolicy, built] at checked
    cases checked
  | ok ev =>
    rw [check_of_ofPolicy built] at checked
    cases checked
    have unfailing := (registerAll_of_evaluating rfl rfl rfl).1.1 clean
    have satisfied := (Evaluation.isSatisfied_iff_holds built unfailing).2 holds
    exact ⟨_, check_of_ofPolicy built, ((registerAll_of_evaluating rfl rfl rfl).2 clean).2.2 satisfied⟩

end SoapPolicy.Enforcer
