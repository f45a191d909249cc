import SoapPolicy.Proofs.Harmless
import SoapPolicy.Proofs.Likeness
import SoapPolicy.Proofs.Selection

/-!
# What an obligation keeps

The events of a message change what an obligation knows, but never what it demands.  `Carries` is the
invariant of the obligation for an assertion: the token policy and the patterns are those of the
assertion, and an obligation that is met falls short of nothing.  Building it gives the invariant
(`carries_ofAssertion`) and every event keeps it (`Carries.hear`), whatever the tokens are at that
event.  So the obligations of a policy under evaluation are those that its source imposes
(`PolicySource.imposes_ofAssertion`, `PolicySource.Imposes.read`).
-/

namespace SoapPolicy

/-! ## Assertions -/

/-- The protection that an assertion asks for, and the elements. -/
def PolicyAssertion.protection? : PolicyAssertion → Option (Protection × ElementsPolicy)
  | .signedElements policy => some (.signature, policy)
  | .encryptedElements policy => some (.encryption, policy)
  | _ => none

/-- Whether an assertion asks for token protection. -/
def PolicyAssertion.watchesHeader : PolicyAssertion → Bool
  | .binding policy => policy.protectTokens
  | _ => false

/-- Whether some assertion of a policy asks for token protection. -/
def Policy.watchesHeader (policy : Policy) : Bool :=
  policy.alternatives.any fun alternative =>
    alternative.assertions.any PolicyAssertion.watchesHeader

/-! ## The invariant -/

/-- The obligation for an assertion, whatever it has read. -/
inductive Carries (initiator : Bool) : PolicyAssertion → Obligation → Prop where
  | token (policy : TokenPolicy) {met : Bool} {shortfall : Option Shortfall} :
    (met = true → shortfall = none) →
    Carries initiator (.token policy) ⟨.token policy initiator, met, shortfall⟩
  | protection {a : PolicyAssertion} {kind : Protection} {policy : ElementsPolicy}
    {patterns : List ElementPattern} {met : Bool} {shortfall : Option Shortfall} :
    a.protection? = some (kind, policy) → Obligation.patternsOf policy = .ok patterns →
    (met = true → shortfall = none) →
    Carries initiator a ⟨.protection kind patterns, met, shortfall⟩
  | presence {policy : ElementsPolicy} (patterns : List (ElementPattern × Bool)) :
    Obligation.patternsOf policy = .ok (patterns.map Prod.fst) →
    Carries initiator (.requiredElements policy) (.ofPresence patterns)
  | header {policy : BindingPolicy} (record : HeaderRecord) (met : Bool)
    (shortfall : Option Shortfall) :
    policy.protectTokens = true →
    Carries initiator (.binding policy)
      ⟨.tokenProtection policy.binding (some record), met, shortfall⟩
  | idle {policy : BindingPolicy} :
    policy.protectTokens = false →
    Carries initiator (.binding policy) ⟨.tokenProtection policy.binding none, true, none⟩

variable {initiator : Bool} {a : PolicyAssertion} {o o' : Obligation}

/-- The obligation for an assertion begins with the invariant. -/
theorem carries_ofAssertion (h : Obligation.ofAssertion a initiator = .ok o) :
    Carries initiator a o := by
  have protection {kind : Protection} {policy : ElementsPolicy}
      (asked : a.protection? = some (kind, policy))
      (h : Obligation.ofProtection kind policy = .ok o) : Carries initiator a o := by
    rw [Obligation.ofProtection] at h
    cases hp : Obligation.patternsOf policy with
    | error f => rw [hp] at h; cases h
    | ok patterns =>
      rw [hp] at h
      cases h
      exact .protection asked hp fun _ => rfl
  cases a with
  | token policy =>
    cases h
    exact .token policy fun _ => rfl
  | signedElements policy => exact protection rfl h
  | encryptedElements policy => exact protection rfl h
  | requiredElements policy =>
    rw [Obligation.ofAssertion] at h
    cases hp : Obligation.patternsOf policy with
    | error f => rw [hp] at h; cases h
    | ok patterns =>
      rw [hp] at h
      cases h
      refine .presence _ ?_
      rw [hp, List.map_map]
      exact congrArg Except.ok (List.map_id patterns).symm
  | binding policy =>
    cases h
    cases hp : policy.protectTokens with
    | true => exact .header {} true none hp
    | false => exact .idle hp

/-- Every event keeps the invariant, whatever the tokens are. -/
theorem Carries.hear (h : Carries initiator a o) (r : Registry) (event : SecurityEvent) :
    Carries initiator a (o.hear r event).1 := by
  cases h with
  | @token policy met shortfall quiet =>
    rw [Obligation.hear_token rfl]
    split
    next => exact .token policy quiet
    next unmet =>
      split
      next found =>
        rcases policy.judge initiator r found with f | _ | _ | ⟨why, main⟩
        · exact .token policy quiet
        · exact .token policy quiet
        · exact .token policy fun _ => rfl
        · exact .token policy fun met => absurd met unmet
      next => exact .token policy quiet
  | @protection _ kind policy patterns met shortfall asked compiled quiet =>
    rw [Obligation.hear_protection rfl]
    split
    next => exact .protection asked compiled quiet
    next report _ =>
      split
      next => exact .protection asked compiled quiet
      next =>
        split
        next => exact .protection asked compiled fun _ => rfl
        next => exact .protection asked compiled fun met => by cases met
  | presence patterns compiled =>
    rw [Obligation.hear_presence (Obligation.demand_ofPresence patterns)]
    split
    next path =>
      split
      next => exact .presence patterns compiled
      next =>
        refine .presence _ ?_
        rw [compiled, List.map_map]
        rfl
    next => exact .presence patterns compiled
  | header record met shortfall asks =>
    rw [Obligation.hear_header rfl]
    split
    next found => exact .header _ met shortfall asks
    next report => exact .header _ met shortfall asks
    next name =>
      rcases record.shortfall? r with f | _ | why
      · exact .header record met shortfall asks
      · exact .header record met shortfall asks
      · exact .header record false (some why) asks
    next => exact .header record met shortfall asks
  | idle silent =>
    rw [Obligation.hear_idle rfl]
    exact .idle silent

theorem Carries.read (h : Carries initiator a o) (r : Registry) (event : SecurityEvent) :
    Carries initiator a (o.read r event).1 := by
  rw [Obligation.read]
  split
  · exact h.hear r event
  · exact h

/-! ## Policies -/

/-- What every event of a history keeps of every obligation, all obligations have after it. -/
theorem Evaluation.Each.observeOver {P : Obligation → Prop} {ev : Evaluation} (h : ev.Each P)
    {history : List (Registry × SecurityEvent)}
    (kept : ∀ input ∈ history, ∀ {o : Obligation}, P o → P (o.read input.1 input.2).1) :
    (ev.observeOver history).1.Each P := by
  induction history generalizing ev with
  | nil => exact h
  | cons input history ih =>
    obtain ⟨first, others⟩ := List.forall_mem_cons.1 kept
    exact ih (h.observe first) others

variable {policy : Policy}

/-- The obligations of a fresh evaluation are those for the assertions of its policy. -/
theorem Evaluation.each_ofAssertion {ev : Evaluation}
    (built : ofPolicy policy initiator = .ok ev) :
    ev.Each fun o => ∃ alternative ∈ policy.alternatives, ∃ a ∈ alternative.assertions,
      Obligation.ofAssertion a initiator = .ok o := by
  intro c hc o ho
  obtain ⟨alternative, halternative, made⟩ := forall₂_exists_left (ofPolicy_eq_ok built) hc
  obtain ⟨os, rfl, obligations⟩ := Candidate.ofAlternative_eq_ok made
  obtain ⟨a, ha, hao⟩ := forall₂_exists_left obligations ho
  exact ⟨alternative, halternative, a, ha, hao⟩

/-! ## Sources of policies -/

namespace PolicySource

/-- An assertion stands in some policy of a source. -/
def Asserts (source : PolicySource) (a : PolicyAssertion) : Prop :=
  ∃ policy ∈ source.policies, ∃ alternative ∈ policy.alternatives, a ∈ alternative.assertions

/-- The obligation for an assertion of a source, other than for token protection. -/
def Imposes (source : PolicySource) (initiator : Bool) (o : Obligation) : Prop :=
  ∃ a, source.Asserts a ∧ a.watchesHeader = false ∧ Carries initiator a o

variable {source : PolicySource}

theorem Asserts.exists_watchesHeader (h : source.Asserts a) (watches : a.watchesHeader = true) :
    ∃ policy ∈ source.policies, policy.watchesHeader = true := by
  obtain ⟨policy, hpolicy, alternative, halternative, ha⟩ := h
  exact ⟨policy, hpolicy, List.any_eq_true.2 ⟨alternative, halternative,
    List.any_eq_true.2 ⟨a, ha, watches⟩⟩⟩

/-- The obligations of a policy of a source are those for assertions of the source. -/
theorem each_ofAssertion (hmem : policy ∈ source.policies) {ev : Evaluation}
    (built : Evaluation.ofPolicy policy initiator = .ok ev) :
    ev.Each fun o => ∃ a, source.Asserts a ∧ Obligation.ofAssertion a initiator = .ok o := by
  intro c hc o ho
  obtain ⟨alternative, halternative, a, ha, made⟩ := Evaluation.each_ofAssertion built c hc o ho
  exact ⟨a, ⟨policy, hmem, alternative, halternative, ha⟩, made⟩

/-- If no policy of a source asks for token protection, the source imposes the obligations for its
assertions. -/
theorem imposes_ofAssertion (plain : ∀ policy ∈ source.policies, policy.watchesHeader = false)
    (asserts : source.Asserts a) (made : Obligation.ofAssertion a initiator = .ok o) :
    source.Imposes initiator o := by
  refine ⟨a, asserts, Bool.eq_false_iff.2 fun watches => ?_, carries_ofAssertion made⟩
  obtain ⟨policy, hmem, protects⟩ := asserts.exists_watchesHeader watches
  rw [plain policy hmem] at protects
  cases protects

theorem Imposes.read (h : source.Imposes initiator o) (r : Registry) (event : SecurityEvent) :
    source.Imposes initiator (o.read r event).1 := by
  obtain ⟨a, asserts, plain, carries⟩ := h
  exact ⟨a, asserts, plain, carries.read r event⟩

end PolicySource

end SoapPolicy
