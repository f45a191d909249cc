import SoapPolicy.Proofs.Enforcer.Runs

/-!
# A policy is an or of ands

The check of a message against a policy says no more than the checks of the same message against
each of its assertions alone: the message is accepted exactly if some alternative has all its
assertions accepted, and an alternative is lost exactly if one of its assertions is
(`accepts_iff_some_alternative`).

The enforcer of a policy stops early, at the event that takes the last open alternative, and the
enforcer of a single assertion stops at other events.  `registerAll_of_evaluating` takes that away:
as long as nothing fails, stopping makes no difference to the policy under evaluation, because a
policy with no open alternative reads nothing.  What is left is a statement on runs of a policy, and
there `Candidate.Tracks` does the work.
-/

namespace SoapPolicy.Enforcer

/-! ## Checks against one policy -/

/-- Check the events of a message against one policy: the enforcer after them, and its answers. -/
def check (policy : Policy) (context : EnforcerContext) (tokens : Registry)
    (events : List SecurityEvent) : Except Failure (Enforcer × List (Except Failure Unit)) := do
  let e ← ofPolicy policy context
  return { e with tokens }.registerAll events

section
variable (policy : Policy) (context : EnforcerContext) (tokens : Registry)
  (events : List SecurityEvent)

/-- The policy can be evaluated, and so can every event. -/
def ChecksCleanly : Prop :=
  ∃ run, check policy context tokens events = .ok run ∧ Clean run.2

/-- The verdict on the message is that it satisfies the policy. -/
def Accepts : Prop :=
  ∃ run, check policy context tokens events = .ok run ∧ run.1.finish.2 = .ok true

/-- The alternative at a place is lost when the events are read. -/
def LosesAlternative (place : Nat) : Prop :=
  ∃ run ev c, check policy context tokens events = .ok run ∧ run.1.phase = .evaluating ev ∧
    ev.candidates[place]? = some c ∧ c.isViable = false

end

/-! ## Checks against one policy, seen from its candidates -/

section
variable {policy : Policy} {context : EnforcerContext} {tokens : Registry}
  {events : List SecurityEvent} {ev : Evaluation}

theorem check_of_ofPolicy (h : Evaluation.ofPolicy policy context.initiator = .ok ev) :
    check policy context tokens events =
      .ok (({ context, tokens, phase := .evaluating ev } : Enforcer).registerAll events) := by
  rw [check, ofPolicy_eq_ok_iff.2 ⟨ev, h, rfl⟩]
  rfl

theorem checksCleanly_iff (h : Evaluation.ofPolicy policy context.initiator = .ok ev) :
    ChecksCleanly policy context tokens events ↔
      ∀ c ∈ ev.candidates, Unfailing (c.observeEach tokens events).2 := by
  rw [← Evaluation.observeEach_unfailing_iff]
  simp only [ChecksCleanly, check_of_ofPolicy h, Except.ok.injEq, exists_eq_left']
  exact (registerAll_of_evaluating rfl rfl rfl).1

theorem accepts_iff (h : Evaluation.ofPolicy policy context.initiator = .ok ev)
    (clean : ChecksCleanly policy context tokens events) :
    Accepts policy context tokens events ↔
      ∃ c ∈ ev.candidates, (c.observeEach tokens events).1.isViable = true ∧
        (c.observeEach tokens events).1.isMet = true := by
  have unfailing := Evaluation.observeEach_unfailing_iff.2 ((checksCleanly_iff h).1 clean)
  simp only [ChecksCleanly, check_of_ofPolicy h, Except.ok.injEq, exists_eq_left'] at clean
  simp only [Accepts, check_of_ofPolicy h, Except.ok.injEq, exists_eq_left']
  rw [((registerAll_of_evaluating rfl rfl rfl).2 clean).2, Evaluation.isSatisfied_iff,
    Evaluation.observeEach_candidates unfailing]
  simp

theorem losesAlternative_iff (h : Evaluation.ofPolicy policy context.initiator = .ok ev)
    (clean : ChecksCleanly policy context tokens events) {place : Nat} {c : Candidate}
    (hc : ev.candidates[place]? = some c) :
    LosesAlternative policy context tokens events place ↔
      (c.observeEach tokens events).1.isViable = false := by
  have unfailing := Evaluation.observeEach_unfailing_iff.2 ((checksCleanly_iff h).1 clean)
  simp only [ChecksCleanly, check_of_ofPolicy h, Except.ok.injEq, exists_eq_left'] at clean
  have phase := ((registerAll_of_evaluating rfl rfl rfl).2 clean).1
  simp only [LosesAlternative, check_of_ofPolicy h, Except.ok.injEq]
  constructor
  · rintro ⟨run, after, c', rfl, hafter, hc', lost⟩
    rw [phase] at hafter
    cases hafter
    rw [Evaluation.observeEach_candidates unfailing, List.getElem?_map, hc] at hc'
    cases hc'
    exact lost
  · intro lost
    refine ⟨_, _, _, rfl, phase, ?_, lost⟩
    rw [Evaluation.observeEach_candidates unfailing, List.getElem?_map, hc]
    rfl

end

/-! ## The checks of single assertions -/

section
variable {context : EnforcerContext} {tokens : Registry} {events : List SecurityEvent}
  {a : PolicyAssertion} {o : Obligation}

theorem accepts_single_iff (ho : Obligation.ofAssertion a context.initiator = .ok o)
    (clean : ChecksCleanly (.single [a]) context tokens events) :
    Accepts (.single [a]) context tokens events ↔
      ((Candidate.alone o).observeEach tokens events).1.isViable = true ∧
        ((Candidate.alone o).observeEach tokens events).1.isMet = true := by
  rw [accepts_iff (Evaluation.ofPolicy_single ho) clean]
  constructor
  · rintro ⟨c, hc, met⟩
    cases List.mem_singleton.1 hc
    exact met
  · intro met
    exact ⟨_, List.mem_singleton.2 rfl, met⟩

theorem losesAlternative_single_iff (ho : Obligation.ofAssertion a context.initiator = .ok o)
    (clean : ChecksCleanly (.single [a]) context tokens events) :
    LosesAlternative (.single [a]) context tokens events 0 ↔
      ((Candidate.alone o).observeEach tokens events).1.isViable = false :=
  losesAlternative_iff (Evaluation.ofPolicy_single ho) clean rfl

/-- What becomes of the candidate for an alternative is what becomes of its assertions. -/
theorem observeEach_ofAlternative {alternative : Alternative} {c : Candidate}
    (hc : Candidate.ofAlternative context.initiator alternative = .ok c)
    (clean : ∀ a ∈ alternative.assertions, ChecksCleanly (.single [a]) context tokens events) :
    Unfailing (c.observeEach tokens events).2 ∧
      ((c.observeEach tokens events).1.isViable = true ∧
          (c.observeEach tokens events).1.isMet = true ↔
        ∀ a ∈ alternative.assertions, Accepts (.single [a]) context tokens events) ∧
      ((c.observeEach tokens events).1.isViable = false ↔
        ∃ a ∈ alternative.assertions, LosesAlternative (.single [a]) context tokens events 0) := by
  obtain ⟨os, rfl, assertions⟩ := Candidate.ofAlternative_eq_ok hc
  have unfailing : ∀ s ∈ os.map Candidate.alone, Unfailing (s.observeEach tokens events).2 := by
    intro s hs
    obtain ⟨o, ho, rfl⟩ := List.mem_map.1 hs
    obtain ⟨a, ha, built⟩ := forall₂_exists_left assertions ho
    exact (checksCleanly_iff (Evaluation.ofPolicy_single built)).1 (clean a ha) _
      (List.mem_singleton.2 rfl)
  -- the singles are the candidates of the assertions, each under an enforcer of its own
  obtain ⟨run, tracks⟩ := (Candidate.Tracks.isOpen os).observeEach unfailing
  refine ⟨run, tracks.met_iff.trans ?_, tracks.retired_iff.trans ?_⟩
  · constructor
    · intro met a ha
      obtain ⟨o, ho, built⟩ := forall₂_exists_right assertions ha
      exact (accepts_single_iff built (clean a ha)).2
        (met _ (List.mem_map_of_mem (List.mem_map_of_mem ho)))
    · intro accepted s hs
      obtain ⟨single, hsingle, rfl⟩ := List.mem_map.1 hs
      obtain ⟨o, ho, rfl⟩ := List.mem_map.1 hsingle
      obtain ⟨a, ha, built⟩ := forall₂_exists_left assertions ho
      exact (accepts_single_iff built (clean a ha)).1 (accepted a ha)
  · constructor
    · rintro ⟨s, hs, lost⟩
      obtain ⟨single, hsingle, rfl⟩ := List.mem_map.1 hs
      obtain ⟨o, ho, rfl⟩ := List.mem_map.1 hsingle
      obtain ⟨a, ha, built⟩ := forall₂_exists_left assertions ho
      exact ⟨a, ha, (losesAlternative_single_iff built (clean a ha)).2 lost⟩
    · rintro ⟨a, ha, lost⟩
      obtain ⟨o, ho, built⟩ := forall₂_exists_right assertions ha
      exact ⟨_, List.mem_map_of_mem (List.mem_map_of_mem ho),
        (losesAlternative_single_iff built (clean a ha)).1 lost⟩

end

/-! ## The or of ands -/

/-- A policy accepts a message exactly if all assertions of some alternative accept it, each checked
alone, and it loses an alternative exactly if some assertion of it is lost.  No check of the policy
fails, provided that no check of an assertion does. -/
theorem accepts_iff_some_alternative {policy : Policy} {context : EnforcerContext}
    {tokens : Registry} {events : List SecurityEvent} {e : Enforcer}
    (built : ofPolicy policy context = .ok e)
    (clean : ∀ alternative ∈ policy.alternatives, ∀ a ∈ alternative.assertions,
      ChecksCleanly (.single [a]) context tokens events) :
    ChecksCleanly policy context tokens events ∧
      (Accepts policy context tokens events ↔
        ∃ alternative ∈ policy.alternatives, ∀ a ∈ alternative.assertions,
          Accepts (.single [a]) context tokens events) ∧
      ∀ place alternative, policy.alternatives[place]? = some alternative →
        (LosesAlternative policy context tokens events place ↔
          ∃ a ∈ alternative.assertions,
            LosesAlternative (.single [a]) context tokens events 0) := by
  obtain ⟨ev, hev, -⟩ := ofPolicy_eq_ok_iff.1 built
  have candidates := Evaluation.ofPolicy_eq_ok hev
  have cleanly : ChecksCleanly policy context tokens events := by
    refine (checksCleanly_iff hev).2 fun c hc => ?_
    obtain ⟨alternative, halt, hof⟩ := forall₂_exists_left candidates hc
    exact (observeEach_ofAlternative hof (clean alternative halt)).1
  refine ⟨cleanly, (accepts_iff hev cleanly).trans ?_, ?_⟩
  · constructor
    · rintro ⟨c, hc, met⟩
      obtain ⟨alternative, halt, hof⟩ := forall₂_exists_left candidates hc
      exact ⟨alternative, halt,
        (observeEach_ofAlternative hof (clean alternative halt)).2.1.1 met⟩
    · rintro ⟨alternative, halt, accepted⟩
      obtain ⟨c, hc, hof⟩ := forall₂_exists_right candidates halt
      exact ⟨c, hc, (observeEach_ofAlternative hof (clean alternative halt)).2.1.2 accepted⟩
  · intro place alternative hplace
    obtain ⟨c, hc, hof⟩ := forall₂_get? candidates hplace
    rw [losesAlternative_iff hev cleanly hc]
    exact (observeEach_ofAlternative hof
      (clean alternative (List.mem_of_getElem? hplace))).2.2

/-- A policy that asks for a signed element or for an element that is present. -/
def signedOrPresent : Policy :=
  ⟨[⟨[.signedElements ⟨[⟨"//a", []⟩]⟩]⟩, ⟨[.requiredElements ⟨[⟨"//b", []⟩]⟩]⟩]⟩

/-- The first element is not signed, and the second is present. -/
def presentNotSigned : List SecurityEvent :=
  [.ofSigned ⟨0⟩ [⟨"", "a"⟩] false, .requiredElement [⟨"", "b"⟩]]

/-- The message is accepted for its second alternative, and only the first is lost. -/
theorem accepts_signedOrPresent :
    Accepts signedOrPresent {} {} presentNotSigned ∧
      LosesAlternative signedOrPresent {} {} presentNotSigned 0 ∧
      ¬ LosesAlternative signedOrPresent {} {} presentNotSigned 1 := by
  have built : ∃ e, ofPolicy signedOrPresent {} = .ok e := ⟨_, rfl⟩
  have clean : ∀ alternative ∈ signedOrPresent.alternatives, ∀ a ∈ alternative.assertions,
      ChecksCleanly (.single [a]) {} {} presentNotSigned := by
    intro alternative halt a ha
    simp only [signedOrPresent, List.mem_cons, List.not_mem_nil, or_false] at halt
    rcases halt with rfl | rfl
    · cases List.mem_singleton.1 ha
      exact ⟨_, rfl, by decide +kernel⟩
    · cases List.mem_singleton.1 ha
      exact ⟨_, rfl, by decide +kernel⟩
  obtain ⟨e, built⟩ := built
  obtain ⟨-, accepts, loses⟩ := accepts_iff_some_alternative built clean
  refine ⟨accepts.2 ⟨_, .tail _ (.head _), fun a ha => ?_⟩,
    (loses 0 _ rfl).2 ⟨_, .head _, _, _, _, rfl, rfl, rfl, rfl⟩, fun lost => ?_⟩
  · cases List.mem_singleton.1 ha
    exact ⟨_, rfl, rfl⟩
  · obtain ⟨a, ha, run, ev, c, hrun, hev, hc, retired⟩ := (loses 1 _ rfl).1 lost
    cases List.mem_singleton.1 ha
    cases hrun
    cases hev
    cases hc
    cases retired

end SoapPolicy.Enforcer
