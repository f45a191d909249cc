import SoapPolicy.Proofs.Building
import SoapPolicy.Proofs.SoapVersion.Tokens

/-!
# Evaluating a policy without the SOAP version

Reading an event commutes with leaving out the SOAP version: of a header (`HeaderRecord.shortfall?_versionless`),
of an obligation (`Obligation.hear_versionless`), of an alternative and of a whole policy
(`Evaluation.observe_versionless`).  What is met, what is open and whether the policy is satisfied are
the same without it, and the violation to report is the same up to the version of the elements it names.
-/

namespace SoapPolicy

/-! ## The header -/

/-- A signed element whose place is written without the SOAP version. -/
def SignedElement.versionless (element : SignedElement) : SignedElement :=
  { element with path := element.path.versionless true }

theorem SignedElement.isBy_versionless (r : Registry) (signer : TokenId) (path : ElementPath)
    (element : SignedElement) :
    element.versionless.isBy r.versionless signer (path.versionless true) =
      element.isBy r signer path := by
  simp [isBy, SignedElement.versionless]

/-- What was seen of the header without the SOAP version. -/
def HeaderRecord.versionless (record : HeaderRecord) : HeaderRecord :=
  { record with signed := record.signed.map SignedElement.versionless }

namespace HeaderRecord

variable (record : HeaderRecord) (r : Registry)

theorem addToken_versionless (id : TokenId) :
    record.versionless.addToken id = (record.addToken id).versionless := by
  unfold addToken
  show (if record.tokens.contains id then _ else _) = _
  split <;> rfl

theorem addElement_versionless (report : ProtectionEvent) :
    record.versionless.addElement report.versionless = (record.addElement report).versionless := by
  unfold addElement
  show (if report.isProtected then _ else _) = _
  split
  · simp [versionless, ProtectionEvent.versionless, SignedElement.versionless]
  · rfl

theorem isSigned_versionless (signer : TokenId) (path : ElementPath) :
    record.versionless.isSigned r.versionless signer (path.versionless true) =
      record.isSigned r signer path := by
  simp only [isSigned, versionless, List.any_map, Function.comp_def, SignedElement.isBy_versionless]

/-- The place of the signature in the header is that of SOAP 1.1 already. -/
theorem isSigned_headerSignature_versionless (signer : TokenId) :
    record.versionless.isSigned r.versionless signer ElementPath.headerSignature =
      record.isSigned r signer ElementPath.headerSignature := by
  have own : ElementPath.headerSignature.versionless true = ElementPath.headerSignature := by decide
  rw [← record.isSigned_versionless r signer ElementPath.headerSignature, own]

theorem signsAll_versionless (signer : TokenId) (ids : List TokenId)
    (elements : List SignedElement) :
    signsAll r.versionless signer ids (elements.map SignedElement.versionless) =
      signsAll r signer ids elements := by
  induction ids generalizing elements with
  | nil => rfl
  | cons id ids ih =>
    rw [signsAll, signsAll, Registry.get_versionless]
    cases r.get id with
    | error f => rfl
    | ok token =>
      have fits : SignedElement.isBy r.versionless signer token.versionless.place ∘
          SignedElement.versionless = SignedElement.isBy r signer token.place := by
        funext element
        simp only [Function.comp, SecurityToken.place_versionless, SignedElement.isBy_versionless]
      simp only [Except.map, bind, Except.bind, List.any_map, List.eraseP_map, fits, ih]
      rfl

theorem tokenShortfall_versionless (id : TokenId) :
    record.versionless.tokenShortfall r.versionless id =
      (record.tokenShortfall r id).map (Option.map Shortfall.versionless) := by
  unfold tokenShortfall
  dsimp only
  rw [Registry.root_versionless, Registry.signer_versionless, Registry.get_versionless,
    Registry.get_versionless]
  cases r.get (r.root id) with
  | error f => rfl
  | ok root =>
    cases r.get (r.signer id) with
    | error f => rfl
    | ok token =>
      have signs : signsAll r.versionless (r.signer id) record.versionless.tokens
          record.versionless.signed = signsAll r (r.signer id) record.tokens record.signed :=
        signsAll_versionless r (r.signer id) record.tokens record.signed
      simp only [Except.map, bind, Except.bind, SecurityToken.place_versionless,
        SecurityToken.included_versionless, SecurityToken.isSigning_versionless,
        SecurityToken.isEndorsing_versionless, SecurityToken.hasUsage_versionless,
        isSigned_versionless, isSigned_headerSignature_versionless, signs]
      -- the token signs itself, it endorses the main signature, it signs the supporting tokens
      split
      · rfl
      split
      · rfl
      cases root.hasUsage .mainSignature with
      | true => rcases signsAll r (r.signer id) record.tokens record.signed with f | _ | _ <;> rfl
      | false => rfl

theorem firstShortfall_versionless (ids : List TokenId) :
    record.versionless.firstShortfall r.versionless ids =
      (record.firstShortfall r ids).map (Option.map Shortfall.versionless) := by
  induction ids with
  | nil => rfl
  | cons id ids ih =>
    rw [firstShortfall, firstShortfall, tokenShortfall_versionless]
    cases record.tokenShortfall r id with
    | error f => rfl
    | ok answer =>
      cases answer with
      | none => exact ih
      | some why => rfl

theorem shortfall?_versionless :
    record.versionless.shortfall? r.versionless =
      (record.shortfall? r).map (Option.map Shortfall.versionless) :=
  record.firstShortfall_versionless r record.tokens

end HeaderRecord

/-! ## Obligations -/

/-- A demand without the SOAP version of the elements it speaks of. -/
def Demand.versionless : Demand → Demand
  | token policy initiator => .token policy initiator
  | protection kind patterns => .protection kind (patterns.map ElementPattern.versionless)
  | presence patterns =>
    .presence (patterns.map fun (pattern, seen) => (pattern.versionless, seen))
  | tokenProtection binding record =>
    .tokenProtection binding (record.map HeaderRecord.versionless)

/-- An obligation without the SOAP version. -/
def Obligation.versionless (o : Obligation) : Obligation :=
  ⟨o.demand.versionless, o.met, o.shortfall.map Shortfall.versionless⟩

/-- An outcome without the SOAP version. -/
def Outcome.versionless : Outcome → Outcome
  | pass => .pass
  | recoverable why => .recoverable why.versionless
  | fatal why => .fatal why.versionless

namespace Obligation

@[simp] theorem name_versionless (o : Obligation) : o.versionless.name = o.name := by
  obtain ⟨demand, met, shortfall⟩ := o
  cases demand <;> rfl

@[simp] theorem kinds_versionless (o : Obligation) : o.versionless.kinds = o.kinds := by
  obtain ⟨demand, met, shortfall⟩ := o
  cases demand with
  | tokenProtection binding record => cases record <;> rfl
  | _ => rfl

theorem ofPresence_versionless (patterns : List (ElementPattern × Bool)) :
    ofPresence (patterns.map fun (pattern, seen) => (pattern.versionless, seen)) =
      (ofPresence patterns).versionless := by
  unfold ofPresence
  rw [List.find?_map]
  simp only [Function.comp_def]
  cases patterns.find? fun (_, seen) => !seen <;> rfl

/-- The obligation for an assertion commutes with leaving out the version. -/
theorem ofAssertion_versionless (a : PolicyAssertion) (initiator : Bool) :
    ofAssertion a.versionless initiator = (ofAssertion a initiator).map versionless := by
  have protection (kind : Protection) (policy : ElementsPolicy) :
      ofProtection kind policy.versionless = (ofProtection kind policy).map versionless := by
    rw [ofProtection, ofProtection, patternsOf_versionless]
    cases patternsOf policy with
    | error f => rfl
    | ok patterns => cases patterns <;> rfl
  cases a with
  | token policy => rfl
  | signedElements policy => exact protection _ policy
  | encryptedElements policy => exact protection _ policy
  | requiredElements policy =>
    simp only [PolicyAssertion.versionless, ofAssertion, patternsOf_versionless]
    cases patternsOf policy with
    | error f => rfl
    | ok patterns =>
      have fresh := ofPresence_versionless (patterns.map fun pattern => (pattern, false))
      rw [List.map_map] at fresh
      show Except.ok (ofPresence ((patterns.map ElementPattern.versionless).map _)) = .ok _
      rw [← fresh, List.map_map]
      rfl
  | binding policy =>
    simp only [PolicyAssertion.versionless, ofAssertion]
    cases policy.protectTokens <;> rfl

/-! ### Hearing an event -/

variable (o : Obligation) (r : Registry) (event : SecurityEvent)

/-- What hearing an event comes to, without the SOAP version. -/
def resultVersionless (result : Obligation × Except Failure Outcome) :
    Obligation × Except Failure Outcome :=
  (result.1.versionless, result.2.map Outcome.versionless)

variable {o}

theorem hear_token_versionless {policy : TokenPolicy} {initiator : Bool}
    (hd : o.demand = .token policy initiator) :
    o.versionless.hear r.versionless event.versionless = resultVersionless (o.hear r event) := by
  rw [hear_token hd, hear_token (congrArg Demand.versionless hd)]
  show (if o.met then _ else _) = _
  split
  · rfl
  · cases event with
    | token found =>
      have plain := policy.namesNoElement_judge initiator r found
      simp only [SecurityEvent.versionless, TokenPolicy.judge_versionless]
      cases judged : policy.judge initiator r found with
      | error f => rfl
      | ok verdict =>
        cases verdict with
        | unconcerned => rfl
        | conforming => rfl
        | adverse why main =>
          -- the verdict is the same, and so must be what it says is missing
          have same : why.versionless = why := plain _ judged
          cases main <;> simp [Except.map, resultVersionless, Outcome.versionless, versionless,
            missedBy, same]
    | _ => rfl

theorem hear_protection_versionless {kind : Protection} {patterns : List ElementPattern}
    (hd : o.demand = .protection kind patterns) :
    o.versionless.hear r.versionless event.versionless = resultVersionless (o.hear r event) := by
  rw [hear_protection hd, hear_protection (congrArg Demand.versionless hd),
    Protection.report?_versionless]
  cases kind.report? event with
  | none =>
    simp only [Option.map_none, Failure.misdirected, SecurityEvent.kind_versionless]
    rfl
  | some report =>
    have accepted : (patterns.map ElementPattern.versionless).any
        (·.accepts report.versionless.path) = patterns.any (·.accepts report.path) := by
      simp [List.any_map, Function.comp_def, ProtectionEvent.versionless]
    simp only [Option.map_some, accepted]
    show (if o.met || _ then _ else if report.isProtected then _ else _) = _
    split
    · rfl
    split
    · rfl
    · rfl

theorem hear_presence_versionless {patterns : List (ElementPattern × Bool)}
    (hd : o.demand = .presence patterns) :
    o.versionless.hear r.versionless event.versionless = resultVersionless (o.hear r event) := by
  rw [hear_presence hd, hear_presence (congrArg Demand.versionless hd)]
  cases event with
  | requiredElement path =>
    show (if o.met then _ else _) = _
    split
    · rfl
    · have after := ofPresence_versionless
        (patterns.map fun (pattern, seen) => (pattern, seen || pattern.accepts path))
      simp only [List.map_map, Function.comp_def] at after
      simp only [List.map_map, Function.comp_def, ElementPattern.accepts_versionless, after]
      rfl
  | _ => rfl

theorem hear_header_versionless {binding : BindingType} {record : HeaderRecord}
    (hd : o.demand = .tokenProtection binding (some record)) :
    o.versionless.hear r.versionless event.versionless = resultVersionless (o.hear r event) := by
  rw [hear_header hd, hear_header (congrArg Demand.versionless hd)]
  cases event with
  | token found =>
    simp only [SecurityEvent.versionless, HeaderRecord.addToken_versionless]
    rfl
  | signedElement report =>
    simp only [SecurityEvent.versionless, HeaderRecord.addElement_versionless]
    rfl
  | operation name =>
    simp only [SecurityEvent.versionless, HeaderRecord.shortfall?_versionless]
    rcases record.shortfall? r with f | _ | why <;> rfl
  | _ => rfl

/-- Hearing an event commutes with leaving out the version. -/
theorem hear_versionless :
    o.versionless.hear r.versionless event.versionless = resultVersionless (o.hear r event) := by
  cases hd : o.demand with
  | token policy initiator => exact hear_token_versionless r event hd
  | protection kind patterns => exact hear_protection_versionless r event hd
  | presence patterns => exact hear_presence_versionless r event hd
  | tokenProtection binding record =>
    cases record with
    | none => rw [hear_idle hd, hear_idle (congrArg Demand.versionless hd)]; rfl
    | some record => exact hear_header_versionless r event hd

end Obligation

/-! ## Candidates -/

/-- A candidate without the SOAP version. -/
def Candidate.versionless (c : Candidate) : Candidate :=
  ⟨c.obligations.map Obligation.versionless, c.retired.map Shortfall.versionless⟩

namespace Candidate

variable (c : Candidate) (r : Registry) (event : SecurityEvent)

@[simp] theorem isViable_versionless : c.versionless.isViable = c.isViable :=
  Option.isNone_map

@[simp] theorem isMet_versionless : c.versionless.isMet = c.isMet :=
  List.all_map

/-- The candidate for an alternative commutes with leaving out the version. -/
theorem ofAlternative_versionless (initiator : Bool) (alternative : Alternative) :
    ofAlternative initiator alternative.versionless =
      (ofAlternative initiator alternative).map versionless := by
  have obligations := mapM_map_of_commutes (f := fun a => Obligation.ofAssertion a initiator)
    (fun a => Obligation.ofAssertion_versionless a initiator) alternative.assertions
  rw [ofAlternative, ofAlternative, Alternative.versionless, obligations]
  cases alternative.assertions.mapM fun a => Obligation.ofAssertion a initiator <;> rfl

theorem observeAll_versionless (os : List Obligation) :
    observeAll r.versionless event.versionless (os.map Obligation.versionless) =
      ((observeAll r event os).1.map Obligation.versionless,
        (observeAll r event os).2.map (Option.map Shortfall.versionless)) := by
  induction os with
  | nil => rfl
  | cons o os ih =>
    simp only [List.map_cons, observeAll, Obligation.kinds_versionless,
      SecurityEvent.kind_versionless, Obligation.hear_versionless, ih]
    split
    · rcases o.hear r event with ⟨o', f | _ | why | why⟩ <;> rfl
    · rfl

/-- Reading an event commutes with leaving out the version. -/
theorem observe_versionless :
    c.versionless.observe r.versionless event.versionless =
      ((c.observe r event).1.versionless,
        (c.observe r event).2.map (Option.map Shortfall.versionless)) := by
  have read := observeAll_versionless r event c.obligations
  unfold observe
  rw [isViable_versionless]
  split
  · rw [versionless, read]
    rcases observeAll r event c.obligations with ⟨os, f | why⟩ <;> rfl
  · rfl

end Candidate

/-! ## Policies -/

/-- The evaluation of a policy without the SOAP version. -/
def Evaluation.versionless (ev : Evaluation) : Evaluation :=
  ⟨ev.candidates.map Candidate.versionless, ev.lastLoss.map Shortfall.versionless⟩

/-- A violation without the SOAP version of the element it names. -/
def Violation.versionless : Violation → Violation
  | unmet assertion why => .unmet assertion (why.map Shortfall.versionless)
  | lost why => .lost why.versionless
  | other => other

namespace Evaluation

variable (ev : Evaluation) (r : Registry) (event : SecurityEvent)

/-- The evaluation of a policy commutes with leaving out the version, and fails for the same
reasons. -/
theorem ofPolicy_versionless (policy : Policy) (initiator : Bool) :
    ofPolicy policy.versionless initiator = (ofPolicy policy initiator).map versionless := by
  have candidates := mapM_map_of_commutes
    (Candidate.ofAlternative_versionless initiator) policy.alternatives
  rw [ofPolicy, ofPolicy, Policy.versionless, candidates]
  cases policy.alternatives.mapM (Candidate.ofAlternative initiator) <;> rfl

theorem viable_versionless : ev.versionless.viable = ev.viable.map Candidate.versionless := by
  simp [viable, versionless, List.filter_map, Function.comp_def]

@[simp] theorem isEmpty_viable_versionless : ev.versionless.viable.isEmpty = ev.viable.isEmpty := by
  rw [viable_versionless, List.isEmpty_map]

@[simp] theorem isSatisfied_versionless : ev.versionless.isSatisfied = ev.isSatisfied := by
  rw [isSatisfied, isSatisfied, viable_versionless, List.any_map]
  simp [Function.comp_def]

theorem unmet_versionless : ev.versionless.unmet = ev.unmet.map Obligation.versionless := by
  have obligations : (ev.viable.map Candidate.versionless).flatMap Candidate.obligations =
      (ev.viable.flatMap Candidate.obligations).map Obligation.versionless := by
    rw [List.flatMap_map, List.map_flatMap]
    rfl
  rw [unmet, unmet, viable_versionless, obligations, List.filter_map]
  rfl

theorem violation_versionless : ev.versionless.violation = ev.violation.versionless := by
  have empty : ev.versionless.candidates.isEmpty = ev.candidates.isEmpty := List.isEmpty_map
  have loss : ev.versionless.lastLoss = ev.lastLoss.map Shortfall.versionless := rfl
  simp only [violation, empty, unmet_versionless, loss]
  split
  · rfl
  · cases ev.unmet with
    | cons o os =>
      show Violation.unmet o.versionless.name _ = .unmet o.name _
      rw [Obligation.name_versionless]
      rfl
    | nil => cases ev.lastLoss <;> rfl

theorem observeAll_versionless (cs : List Candidate) :
    observeAll r.versionless event.versionless (cs.map Candidate.versionless) =
      ((observeAll r event cs).1.map Candidate.versionless,
        (observeAll r event cs).2.1.map Shortfall.versionless, (observeAll r event cs).2.2) := by
  induction cs with
  | nil => rfl
  | cons c cs ih =>
    simp only [List.map_cons, observeAll, Candidate.observe_versionless, ih]
    rcases c.observe r event with ⟨c', f | why⟩
    · rfl
    · simp [Except.map, Option.map_or]

/-- Reading an event commutes with leaving out the version. -/
theorem observe_versionless :
    ev.versionless.observe r.versionless event.versionless =
      ((ev.observe r event).1.versionless,
        (ev.observe r event).2.map (Option.map Shortfall.versionless)) := by
  have read : observeAll r.versionless event.versionless ev.versionless.candidates = _ :=
    observeAll_versionless r event ev.candidates
  rcases reading : observeAll r event ev.candidates with ⟨candidates, loss, failure⟩
  rw [reading] at read
  have lost : (loss.map Shortfall.versionless).or ev.versionless.lastLoss =
      (loss.or ev.lastLoss).map Shortfall.versionless := Option.map_or.symm
  have closed : (viable ⟨candidates.map Candidate.versionless,
      (loss.or ev.lastLoss).map Shortfall.versionless⟩).isEmpty =
      (viable ⟨candidates, loss.or ev.lastLoss⟩).isEmpty :=
    isEmpty_viable_versionless ⟨candidates, loss.or ev.lastLoss⟩
  simp only [observe, reading, read, lost, closed, isEmpty_viable_versionless]
  cases failure with
  | some f => rfl
  | none => cases !ev.viable.isEmpty && (viable ⟨candidates, loss.or ev.lastLoss⟩).isEmpty <;> rfl

end Evaluation

end SoapPolicy
