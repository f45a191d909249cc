import SoapPolicy.Proofs.Carrying
import SoapPolicy.Proofs.Enforcer.Likeness
import SoapPolicy.Proofs.Harmless

/-!
# Irrelevant events

An event is irrelevant to a policy, or to all policies of a service, if it plays no part in any of
their assertions: a token of which no usage fits, or an element that no pattern matches
(`PolicySource.Irrelevant`).  An obligation that reads it lets it pass and stays as it is
(`Obligation.read_of_irrelevant`).  So it cannot be seen whether a message held it or not, wherever it
came (`Enforcer.irrelevant_invisible`).

Token protection is left out, since it looks at every token and every signed element of the header.
-/

namespace SoapPolicy

/-! ## Irrelevant events -/

namespace PolicySource

/-- An event that plays no part in any assertion of a source of policies. -/
inductive Irrelevant (source : PolicySource) (initiator : Bool) (r : Registry) :
    SecurityEvent → Prop where
  /-- The token is known, no usage of it is generic, and none fits a role that an assertion for its
  family stands in. -/
  | token {found : TokenEvent} {token : SecurityToken} :
    r.get? found.token = some token →
    (∀ usage ∈ token.usages, usage.isGeneric = false) →
    (∀ policy, source.Asserts (.token policy) → policy.kind.family = found.details.family →
      ∀ usage ∈ token.usages, policy.role.takes initiator usage = false) →
    Irrelevant source initiator r (.token found)
  /-- The element is matched by no pattern of an assertion for the same protection. -/
  | protection {event : SecurityEvent} {kind : Protection} {report : ProtectionEvent} :
    kind.report? event = some report →
    (∀ a policy patterns, source.Asserts a → a.protection? = some (kind, policy) →
      Obligation.patternsOf policy = .ok patterns →
      ∀ pattern ∈ patterns, pattern.accepts report.path = false) →
    Irrelevant source initiator r event
  /-- The element is matched by no pattern of an assertion for elements that have to be present. -/
  | presence {path : ElementPath} :
    (∀ policy patterns, source.Asserts (.requiredElements policy) →
      Obligation.patternsOf policy = .ok patterns →
      ∀ pattern ∈ patterns, pattern.accepts path = false) →
    Irrelevant source initiator r (.requiredElement path)

variable {source : PolicySource} {initiator : Bool} {r : Registry} {event : SecurityEvent}

/-- An irrelevant event names no operation. -/
theorem Irrelevant.operation? (h : source.Irrelevant initiator r event) :
    event.operation? = none := by
  cases h with
  | token => rfl
  | @protection _ kind report reported =>
    cases kind <;> cases event <;> first | rfl | cases reported
  | presence => rfl

end PolicySource

/-! ## Obligations -/

section
variable {source : PolicySource} {initiator : Bool} {r : Registry} {event : SecurityEvent}

/-- A known token of which no usage is generic and none fits does not concern an assertion. -/
theorem TokenPolicy.judge_unconcerned {policy : TokenPolicy} {found : TokenEvent}
    {token : SecurityToken} (known : r.get? found.token = some token)
    (concrete : ∀ usage ∈ token.usages, usage.isGeneric = false)
    (unfit : ∀ usage ∈ token.usages, policy.role.takes initiator usage = false) :
    policy.judge initiator r found = .ok .unconcerned := by
  have legal : policy.checkUsages token.usages = .ok () := by
    rw [checkUsages, List.find?_eq_none.2 fun usage hmem => by simp [concrete usage hmem]]
  have none_fits : token.usages.any (policy.role.takes initiator) = false :=
    List.any_eq_false.2 fun usage hmem => by simp [unfit usage hmem]
  rw [judge, Registry.get_eq_ok_iff.2 known]
  simp only [bind, Except.bind, legal, none_fits]
  rfl

/-- An obligation that reads an irrelevant event lets it pass and stays as it is. -/
theorem Obligation.read_of_irrelevant {o : Obligation} (h : source.Imposes initiator o)
    (irrelevant : source.Irrelevant initiator r event) : o.read r event = (o, .ok none) := by
  by_cases reads : event.kind ∈ o.kinds
  case neg => exact read_of_not_mem reads
  obtain ⟨a, asserts, plain, carries⟩ := h
  cases carries with
  | @token policy met shortfall quiet =>
    rw [kinds_token, List.mem_singleton] at reads
    cases irrelevant with
    | @token found token known concrete unfit =>
      have family : found.details.family = policy.kind.family := EventKind.token.inj reads
      cases met with
      | true => exact read_met_token family shortfall
      | false =>
        have judged := TokenPolicy.judge_unconcerned known concrete
          (unfit policy asserts family.symm)
        rw [read_unmet_token family, judged]
    | @protection _ kind report reported =>
      rw [Protection.kind_of_report? reported] at reads
      cases kind <;> cases reads
    | presence => cases reads
  | @protection _ kind policy patterns met shortfall asked compiled quiet =>
    rw [kinds_protection, List.mem_singleton] at reads
    cases irrelevant with
    | token => cases kind <;> cases reads
    | @protection _ kind' report reported unmatched =>
      obtain rfl : kind = kind' := by
        rw [Protection.kind_of_report? reported] at reads
        cases kind <;> cases kind' <;> first | rfl | cases reads
      have none_matches : patterns.any (·.accepts report.path) = false :=
        List.any_eq_false.2 fun pattern hmem => by
          simp [unmatched a policy patterns asserts asked compiled pattern hmem]
      rw [read_report reported, none_matches, Bool.not_false, Bool.or_true, if_pos rfl]
    | presence => cases kind <;> cases reads
  | @presence policy patterns compiled =>
    rw [kinds_ofPresence, List.mem_singleton] at reads
    cases irrelevant with
    | token => cases reads
    | @protection _ kind report reported =>
      rw [Protection.kind_of_report? reported] at reads
      cases kind <;> cases reads
    | @presence path unmatched =>
      rw [read_presence]
      refine congrArg (fun patterns => (ofPresence patterns, Except.ok none)) ?_
      refine (List.map_congr_left fun p hp => ?_).trans (List.map_id patterns)
      have missed := unmatched policy _ asserts compiled p.1 (List.mem_map_of_mem hp)
      simp [missed]
  | header record met shortfall asks =>
    rw [PolicyAssertion.watchesHeader, asks] at plain
    cases plain
  | idle => cases reads

/-- An evaluation absorbs an irrelevant event. -/
theorem Evaluation.absorbs_irrelevant {ev : Evaluation}
    (h : Alike (fun o o' => o = o' ∧ source.Imposes initiator o) ev ev)
    (irrelevant : source.Irrelevant initiator r event) :
    ev.Absorbs r (fun o o' => o = o' ∧ source.Imposes initiator o) event := by
  refine absorbs fun c hc => ?_
  have alike := List.forall₂_same.1 h.candidates c hc
  refine Candidate.absorbs alike fun _ o ho => ?_
  have imposed := (Candidate.alike_self_iff.1 alike o ho).2
  rw [Obligation.read_of_irrelevant imposed irrelevant]
  exact ⟨rfl, rfl, imposed⟩

end

/-! ## Enforcers -/

namespace Enforcer

/-- It cannot be seen whether an irrelevant event came: all other events are answered alike, the same
obligations are not met, before and after the verdict, and the verdict is the same. -/
theorem irrelevant_invisible {source : PolicySource} {context : EnforcerContext} {e : Enforcer}
    (built : ofSource source context = .ok e)
    (plain : ∀ policy ∈ source.policies, policy.watchesHeader = false) (tokens : Registry)
    {event : SecurityEvent} (irrelevant : source.Irrelevant context.initiator tokens event)
    (xs ys : List SecurityEvent) :
    ({ e with tokens }.registerAll (xs ++ event :: ys)).2.eraseIdx xs.length =
        ({ e with tokens }.registerAll (xs ++ ys)).2 ∧
      ({ e with tokens }.registerAll (xs ++ event :: ys)).1.unmet =
        ({ e with tokens }.registerAll (xs ++ ys)).1.unmet ∧
      ({ e with tokens }.registerAll (xs ++ event :: ys)).1.finish.2 =
        ({ e with tokens }.registerAll (xs ++ ys)).1.finish.2 ∧
      ({ e with tokens }.registerAll (xs ++ event :: ys)).1.finish.1.unmet =
        ({ e with tokens }.registerAll (xs ++ ys)).1.finish.1.unmet := by
  let ρ : Obligation → Obligation → Prop := fun o o' => o = o' ∧ source.Imposes context.initiator o
  have likeness : Likeness tokens (fun _ => True) ρ :=
    .of_kept fun h _ => h.read _ _
  have equal {os os' : List Obligation} (h : List.Forall₂ ρ os os') : os = os' :=
    List.forall₂_eq_eq_eq ▸ h.imp fun _ _ same => same.1
  have start : Alike tokens ρ { e with tokens } { e with tokens } :=
    .of_ofSource built (fun _ _ asserts made =>
      ⟨rfl, PolicySource.imposes_ofAssertion plain asserts made⟩) tokens
  have before := (start.registerAll likeness xs fun _ _ => trivial).state
  have inserted := alike_register
    (fun ev alike => Evaluation.absorbs_irrelevant alike irrelevant)
    before irrelevant.operation?
  have after := inserted.registerAll likeness ys fun _ _ => trivial
  have finished := after.state.finish likeness
  have length : xs.length = ({ e with tokens }.registerAll xs).2.length :=
    (length_feed register _ xs).symm
  rw [registerAll_append, registerAll_append, registerAll_cons]
  refine ⟨?_, (equal (after.state.unmet likeness)).symm, finished.same.symm,
    (equal (finished.state.unmet likeness)).symm⟩
  rw [length, List.eraseIdx_append_of_length_le (Nat.le_refl _), Nat.sub_self,
    List.eraseIdx_cons_zero, after.same]

/-- A service that asks for a signature by a certificate, and by default for an element. -/
def signedGreeting : PolicySource :=
  .operations
    [⟨⟨"urn:greeting", "greet"⟩, .single [.token { role := .signature, kind := .x509 {} }]⟩]
    (some asksForElement)

/-- A certificate that only encrypts. -/
def encryptingCertificate : Registry := ⟨[{ type := .x509V3, usages := [.mainEncryption] }]⟩

def certificateSeen : SecurityEvent := .token ⟨⟨0⟩, .x509 ⟨none, 3⟩⟩

theorem irrelevant_certificateSeen :
    signedGreeting.Irrelevant false encryptingCertificate certificateSeen := by
  refine .token rfl (by decide) ?_
  rintro policy ⟨p, hp, alternative, halternative, ha⟩ -
  rcases List.mem_pair.1 hp with rfl | rfl
  · cases List.mem_singleton.1 halternative
    cases List.mem_singleton.1 ha
    decide
  · cases List.mem_singleton.1 halternative
    cases List.mem_singleton.1 ha

/-- Whether such a certificate is found between two elements does not change the verdict. -/
theorem irrelevant_invisible_certificate :
    ∃ e, ofSource signedGreeting {} = .ok e ∧
      ({ e with tokens := encryptingCertificate }.registerAll
        [.requiredElement [⟨"", "b"⟩], certificateSeen,
          .requiredElement [⟨"", "a"⟩]]).1.finish.2 = .ok true := by
  have built : ofSource signedGreeting {} = .ok _ := rfl
  obtain ⟨-, -, verdict, -⟩ :=
    irrelevant_invisible built (by decide) encryptingCertificate irrelevant_certificateSeen
      [.requiredElement [⟨"", "b"⟩]] [.requiredElement [⟨"", "a"⟩]]
  exact ⟨_, built, verdict.trans rfl⟩

end Enforcer

end SoapPolicy
