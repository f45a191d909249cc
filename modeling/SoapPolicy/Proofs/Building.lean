import Mathlib.Data.List.Forall2
import SoapPolicy.Enforcer
import SoapPolicy.Proofs.Failures

/-!
# How a check begins

What the evaluation of a policy holds before any event: one candidate for each alternative, in their
order, and in it one obligation for each assertion (`Evaluation.ofPolicy_eq_ok`).  An enforcer of a
service is made only if every policy of the service can be evaluated
(`Enforcer.ofOperations_eq_ok_iff`).
-/

namespace SoapPolicy

/-- A computation over a list succeeds exactly if it succeeds for every element. -/
theorem mapM_eq_ok_iff {α β : Type} {f : α → Except Failure β} :
    ∀ {as : List α} {bs : List β},
      as.mapM f = .ok bs ↔ List.Forall₂ (fun a b => f a = .ok b) as bs
  | [], bs => by
    rw [List.mapM_nil, List.forall₂_nil_left_iff]
    constructor
    · intro h
      cases h
      rfl
    · rintro rfl
      rfl
  | a :: as, bs => by
    rw [List.mapM_cons, List.forall₂_cons_left_iff]
    constructor
    · intro h
      cases ha : f a with
      | error e => rw [ha] at h; cases h
      | ok b =>
        cases has : as.mapM f with
        | error e => rw [ha, has] at h; cases h
        | ok bs' =>
          rw [ha, has] at h
          cases h
          exact ⟨b, bs', rfl, mapM_eq_ok_iff.1 has, rfl⟩
    · rintro ⟨b, bs', hb, hbs, rfl⟩
      rw [hb, mapM_eq_ok_iff.2 hbs]
      rfl

/-- Each element of one list has its partner in the other. -/
theorem forall₂_get? {α β : Type} {R : α → β → Prop} {as : List α} {bs : List β}
    (h : List.Forall₂ R as bs) {i : Nat} {a : α} (ha : as[i]? = some a) :
    ∃ b, bs[i]? = some b ∧ R a b := by
  induction h generalizing i with
  | nil => cases ha
  | cons hr _ ih =>
    cases i with
    | zero =>
      cases ha
      exact ⟨_, rfl, hr⟩
    | succ i => exact ih ha

theorem forall₂_exists_right {α β : Type} {R : α → β → Prop} {as : List α} {bs : List β}
    (h : List.Forall₂ R as bs) {a : α} (ha : a ∈ as) : ∃ b ∈ bs, R a b := by
  obtain ⟨i, hi⟩ := List.getElem?_of_mem ha
  obtain ⟨b, hb, hr⟩ := forall₂_get? h hi
  exact ⟨b, List.mem_of_getElem? hb, hr⟩

theorem forall₂_exists_left {α β : Type} {R : α → β → Prop} {as : List α} {bs : List β}
    (h : List.Forall₂ R as bs) {b : β} (hb : b ∈ bs) : ∃ a ∈ as, R a b :=
  forall₂_exists_right (R := fun b a => R a b) (List.Forall₂.flip h) hb

/-! ## Policies -/

/-- The candidate for an alternative is open and holds one obligation for each assertion. -/
theorem Candidate.ofAlternative_eq_ok {initiator : Bool} {alternative : Alternative}
    {c : Candidate} (h : ofAlternative initiator alternative = .ok c) :
    ∃ os, c = ⟨os, none⟩ ∧
      List.Forall₂ (fun a o => Obligation.ofAssertion a initiator = .ok o)
        alternative.assertions os := by
  unfold ofAlternative at h
  cases hos : alternative.assertions.mapM fun a => Obligation.ofAssertion a initiator with
  | error f => rw [hos] at h; cases h
  | ok os =>
    rw [hos] at h
    cases h
    exact ⟨os, rfl, mapM_eq_ok_iff.1 hos⟩

/-- The evaluation of a policy holds one candidate for each alternative, and has lost none. -/
theorem Evaluation.exists_candidates {policy : Policy} {initiator : Bool} {ev : Evaluation}
    (h : ofPolicy policy initiator = .ok ev) :
    ∃ cs, ev = ⟨cs, none⟩ ∧
      List.Forall₂ (fun a c => Candidate.ofAlternative initiator a = .ok c) policy.alternatives cs := by
  unfold ofPolicy at h
  cases hcs : policy.alternatives.mapM (Candidate.ofAlternative initiator) with
  | error f => rw [hcs] at h; cases h
  | ok cs =>
    rw [hcs] at h
    cases h
    exact ⟨cs, rfl, mapM_eq_ok_iff.1 hcs⟩

theorem Evaluation.ofPolicy_eq_ok {policy : Policy} {initiator : Bool} {ev : Evaluation}
    (h : ofPolicy policy initiator = .ok ev) :
    List.Forall₂ (fun a c => Candidate.ofAlternative initiator a = .ok c)
      policy.alternatives ev.candidates := by
  obtain ⟨cs, rfl, made⟩ := exists_candidates h
  exact made

theorem Evaluation.lastLoss_of_ofPolicy {policy : Policy} {initiator : Bool} {ev : Evaluation}
    (h : ofPolicy policy initiator = .ok ev) : ev.lastLoss = none := by
  obtain ⟨cs, rfl, -⟩ := exists_candidates h
  rfl

/-- Before any event some candidate is open, if the policy has an alternative. -/
theorem Evaluation.viable_of_ofPolicy {policy : Policy} {initiator : Bool} {ev : Evaluation}
    (h : ofPolicy policy initiator = .ok ev) (alternatives : policy.alternatives ≠ []) : ev.viable ≠ [] := by
  obtain ⟨alternative, halternative⟩ := List.exists_mem_of_ne_nil _ alternatives
  obtain ⟨c, hc, made⟩ := forall₂_exists_right (ofPolicy_eq_ok h) halternative
  obtain ⟨os, rfl, -⟩ := Candidate.ofAlternative_eq_ok made
  exact List.ne_nil_of_mem (List.mem_filter.2 ⟨hc, rfl⟩)

/-- The evaluation of a policy with one assertion holds the obligation for it. -/
theorem Evaluation.ofPolicy_single {a : PolicyAssertion} {initiator : Bool} {o : Obligation}
    (h : Obligation.ofAssertion a initiator = .ok o) :
    ofPolicy (.single [a]) initiator = .ok ⟨[⟨[o], none⟩], none⟩ := by
  simp [ofPolicy, Policy.single, Candidate.ofAlternative, h, bind, Except.bind, pure, Except.pure]

/-- A policy with one assertion can be evaluated only if there is an obligation for it. -/
theorem Evaluation.exists_obligation_of_single {a : PolicyAssertion} {initiator : Bool}
    {ev : Evaluation} (h : ofPolicy (.single [a]) initiator = .ok ev) :
    ∃ o, Obligation.ofAssertion a initiator = .ok o ∧ ev = ⟨[⟨[o], none⟩], none⟩ := by
  cases made : Obligation.ofAssertion a initiator with
  | error f =>
    simp [ofPolicy, Policy.single, Candidate.ofAlternative, made, bind, Except.bind] at h
  | ok o =>
    rw [ofPolicy_single made] at h
    cases h
    exact ⟨o, rfl, rfl⟩

/-- A policy that cannot be evaluated is no violation. -/
theorem Evaluation.ofPolicy_onlyContract (policy : Policy) (initiator : Bool) :
    OnlyContract (ofPolicy policy initiator) := by
  have candidates := FailsOnly.mapM (fun alternative : Alternative =>
    (FailsOnly.mapM (fun a => Obligation.ofAssertion_onlyContract a initiator)
      alternative.assertions).bind fun os => FailsOnly.pure (⟨os, none⟩ : Candidate))
  exact (candidates policy.alternatives).bind fun _ => FailsOnly.pure _

/-! ## Enforcers -/

namespace Enforcer

/-- An enforcer of one policy evaluates it from the start. -/
theorem ofPolicy_eq_ok_iff {policy : Policy} {context : EnforcerContext} {e : Enforcer} :
    ofPolicy policy context = .ok e ↔
      ∃ ev, Evaluation.ofPolicy policy context.initiator = .ok ev ∧
        e = { context, phase := .evaluating ev } := by
  unfold ofPolicy
  cases Evaluation.ofPolicy policy context.initiator with
  | error f => simp [bind, Except.bind]
  | ok ev =>
    simp only [bind, Except.bind, pure, Except.pure, Except.ok.injEq, exists_eq_left']
    exact eq_comm

/-- An enforcer of a service waits for the operation, and all policies of the service can be
evaluated. -/
theorem ofOperations_eq_ok_iff {policies : List OperationPolicy} {default : Option Policy}
    {context : EnforcerContext} {e : Enforcer} :
    ofOperations policies default context = .ok e ↔
      (∀ policy ∈ policies.map OperationPolicy.policy ++ default.toList,
        ∃ ev, Evaluation.ofPolicy policy context.initiator = .ok ev) ∧
      e = { context, phase := .waiting policies default [] } := by
  unfold ofOperations
  generalize policies.map OperationPolicy.policy ++ default.toList = all
  have checked : ∀ l : List Policy,
      forM l (fun policy => do let _ ← Evaluation.ofPolicy policy context.initiator) = .ok () ↔
        ∀ policy ∈ l, ∃ ev, Evaluation.ofPolicy policy context.initiator = .ok ev := by
    intro l
    induction l with
    | nil => simp [List.forM_nil, pure, Except.pure]
    | cons policy l ih =>
      rw [List.forM_cons, List.forall_mem_cons, ← ih]
      cases Evaluation.ofPolicy policy context.initiator with
      | error f => simp [bind, Except.bind]
      | ok ev => simp [bind, Except.bind, pure, Except.pure]
  rw [List.forM_eq_forM, ← checked]
  cases forM all fun policy => do let _ ← Evaluation.ofPolicy policy context.initiator with
  | error f => simp [bind, Except.bind]
  | ok u =>
    simp only [bind, Except.bind, pure, Except.pure, Except.ok.injEq, true_and]
    exact eq_comm

end Enforcer

end SoapPolicy
