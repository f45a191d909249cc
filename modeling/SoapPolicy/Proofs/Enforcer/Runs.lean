import SoapPolicy.Proofs.Alternatives
import SoapPolicy.Proofs.Enforcer.Steps

/-!
# Runs of an enforcer that evaluates a policy

An enforcer stops at the event that takes the last open alternative.  As long as nothing fails, this
makes no difference to the policy under evaluation, because a policy with no open alternative reads
nothing (`registerAll_of_evaluating`).  A message that is accepted was read without a failure to its
end (`observeEach_of_accepted`).
-/

namespace SoapPolicy.Enforcer

variable {e : Enforcer} {ev : Evaluation} {events : List SecurityEvent}

/-- With nothing on record, the verdict is whether the policy is satisfied. -/
theorem finish_eq_true_iff (hp : e.phase = .evaluating ev) (hv : e.verdict = none)
    (hw : e.withheld = none) : e.finish.2 = .ok true ↔ ev.isSatisfied = true := by
  simp only [finish, hv, hp, judge, hw, isSatisfied]
  cases ev.isSatisfied with
  | true => simp [conclude, report]
  | false =>
    simp only [Bool.false_eq_true, if_false, conclude, report, iff_false]
    split <;> simp

/-- A raised violation is no contract failure. -/
theorem clean_raise_cons {why : Violation} {answers : List (Except Failure Unit)} :
    Clean ((e.raise why).2 :: answers) ↔ Clean answers := by
  cases hs : e.context.softFail with
  | true => simp [raise_of_soft hs]
  | false => simp [raise_of_hard hs]

/-- The run of an enforcer is clean exactly if its policy never fails to read an event.  Then the
policy under evaluation has read all events, wherever the enforcer stopped, and the verdict is
whether it is satisfied. -/
theorem registerAll_of_evaluating (hp : e.phase = .evaluating ev) (hv : e.verdict = none)
    (hw : e.withheld = none) :
    (Clean (e.registerAll events).2 ↔ Unfailing (ev.observeEach e.tokens events).2) ∧
      (Clean (e.registerAll events).2 →
        (e.registerAll events).1.phase = .evaluating (ev.observeEach e.tokens events).1 ∧
          ((e.registerAll events).1.finish.2 = .ok true ↔
            (ev.observeEach e.tokens events).1.isSatisfied = true)) := by
  induction events generalizing e ev with
  | nil => exact ⟨⟨fun _ => unfailing_nil, fun _ => clean_nil⟩, fun _ =>
      ⟨hp, finish_eq_true_iff hp hv hw⟩⟩
  | cons event events ih =>
    rw [registerAll_cons, Evaluation.observeEach_cons, unfailing_cons]
    have step := register_cases hp hv event
    generalize e.register event = answer at step
    cases step with
    | @failed ev' f ho =>
      have contract : f.isContract = true := by
        refine ev.observe_onlyContract e.tokens event f ?_
        rw [ho]
      simp [ho, contract]
    | @passed ev' ho =>
      have rest := ih (e := { e with
        operation := e.operationAfter event, phase := .evaluating ev' }) rfl hv hw
      simpa [ho] using rest
    | @lost ev' why ho =>
      -- nothing is read any more, neither by the enforcer nor by the policy
      have none_left := Evaluation.viable_eq_nil_of_observe ho
      have closed := closed_of_raise
        (e := { e with operation := e.operationAfter event, phase := .evaluating ev' })
        rfl none_left hv (.lost why)
      obtain ⟨still, phase, clean⟩ := closed.registerAll events
      rw [clean_raise_cons, ho, Evaluation.observeEach_of_viable_eq_nil none_left,
        Evaluation.isSatisfied_of_viable_eq_nil none_left]
      refine ⟨⟨fun _ => ⟨⟨_, rfl⟩, ?_⟩, fun _ => clean⟩, fun _ => ⟨?_, ?_⟩⟩
      · intro a ha
        obtain ⟨_, -, rfl⟩ := List.mem_map.1 ha
        exact ⟨none, rfl⟩
      · rw [phase, raise]
        split <;> rfl
      · exact ⟨fun accepted => absurd accepted still.finish_ne_true, fun h => by cases h⟩

/-- A message is accepted only if every event was read and the policy is satisfied by them. -/
theorem observeEach_of_accepted (hp : e.phase = .evaluating ev) (hv : e.verdict = none)
    (hw : e.withheld = none) (accepted : (e.registerAll events).1.finish.2 = .ok true) :
    Unfailing (ev.observeEach e.tokens events).2 ∧
      (ev.observeEach e.tokens events).1.isSatisfied = true := by
  induction events generalizing e ev with
  | nil => exact ⟨unfailing_nil, (finish_eq_true_iff hp hv hw).1 accepted⟩
  | cons event events ih =>
    rw [registerAll_cons] at accepted
    rw [Evaluation.observeEach_cons, unfailing_cons]
    have step := register_cases hp hv event
    generalize e.register event = answer at step accepted
    cases step with
    | @failed ev' f ho =>
      -- the failure gave a verdict, and it was not that of an accepted message
      have given := verdict_stop
        (e := { e with operation := e.operationAfter event, phase := .evaluating ev' }) hv f
      rw [registerAll_of_isFinalized (isFinalized_of_verdict given),
        finish_of_violated given] at accepted
      split at accepted <;> cases accepted
    | @passed ev' ho =>
      have rest := ih (e := { e with
        operation := e.operationAfter event, phase := .evaluating ev' }) rfl hv hw accepted
      rw [ho]
      exact ⟨⟨⟨none, rfl⟩, rest.1⟩, rest.2⟩
    | @lost ev' why ho =>
      have none_left := Evaluation.viable_eq_nil_of_observe ho
      have closed := closed_of_raise
        (e := { e with operation := e.operationAfter event, phase := .evaluating ev' })
        rfl none_left hv (.lost why)
      exact absurd accepted (closed.registerAll events).1.finish_ne_true

end SoapPolicy.Enforcer
