import SoapPolicy.Proofs.SoapVersion

/-!
# Tokens and events without their SOAP version

The place of a token is all that the SOAP version shows in.  So the registry says the same of a handle
without it: which token wraps another, which signs, which has derived keys.  A token assertion looks at
no place at all, and so its verdict is the same (`TokenPolicy.judge_versionless`), and what it finds
missing names no element (`TokenPolicy.namesNoElement_judge`).
-/

namespace SoapPolicy

/-! ## Tokens -/

/-- A token whose place is written without the SOAP version. -/
def SecurityToken.versionless (token : SecurityToken) : SecurityToken :=
  { token with path := token.path.map (ElementPath.versionless true) }

namespace SecurityToken

variable (token : SecurityToken)

@[simp] theorem place_versionless : token.versionless.place = token.place.versionless true := by
  rw [place, place, versionless]
  cases token.path <;> rfl

@[simp] theorem included_versionless : token.versionless.included = token.included := rfl

@[simp] theorem hasUsage_versionless (usage : TokenUsage) :
    token.versionless.hasUsage usage = token.hasUsage usage := rfl

@[simp] theorem isSigning_versionless : token.versionless.isSigning = token.isSigning := rfl

@[simp] theorem isEndorsing_versionless : token.versionless.isEndorsing = token.isEndorsing := rfl

@[simp] theorem isSigned_versionless : token.versionless.isSigned = token.isSigned := rfl

end SecurityToken

/-- The tokens of a message without their SOAP version. -/
def Registry.versionless (r : Registry) : Registry :=
  ⟨r.tokens.map SecurityToken.versionless⟩

namespace Registry

variable (r : Registry)

@[simp] theorem get?_versionless (id : TokenId) :
    r.versionless.get? id = (r.get? id).map SecurityToken.versionless := by
  rw [get?, get?, versionless, List.getElem?_map]

@[simp] theorem get_versionless (id : TokenId) :
    r.versionless.get id = (r.get id).map SecurityToken.versionless := by
  rw [get, get, get?_versionless]
  cases r.get? id <;> rfl

@[simp] theorem size_versionless : r.versionless.size = r.size :=
  List.length_map _

theorem insert_versionless (token : SecurityToken) :
    r.versionless.insert token.versionless =
      ((r.insert token).1.versionless, (r.insert token).2) := by
  simp [insert, versionless, size]

@[simp] theorem wrapper?_versionless (id : TokenId) :
    r.versionless.wrapper? id = r.wrapper? id := by
  rw [wrapper?, wrapper?, get?_versionless]
  cases r.get? id <;> rfl

theorem climb_versionless (n : Nat) (id : TokenId) : r.versionless.climb n id = r.climb n id := by
  induction n generalizing id with
  | zero => rfl
  | succ n ih => simp only [climb, wrapper?_versionless, ih]

@[simp] theorem root_versionless (id : TokenId) : r.versionless.root id = r.root id := by
  rw [root, root, size_versionless, climb_versionless]

@[simp] theorem isSigningKey_versionless (id : TokenId) :
    r.versionless.isSigningKey id = r.isSigningKey id := by
  rw [isSigningKey, isSigningKey, get?_versionless]
  cases r.get? id <;> rfl

@[simp] theorem signer_versionless (id : TokenId) : r.versionless.signer id = r.signer id := by
  have signs : r.versionless.isSigningKey = r.isSigningKey := funext r.isSigningKey_versionless
  rw [signer, signer, root_versionless, get?_versionless, signs]
  cases r.get? (r.root id) <;> rfl

theorem seekDerived_versionless (depth : Nat) (id : TokenId) :
    r.versionless.seekDerived depth id = r.seekDerived depth id := by
  induction depth generalizing id with
  | zero => rfl
  | succ depth ih =>
    have same : r.versionless.seekDerived depth = r.seekDerived depth := funext ih
    rw [seekDerived, seekDerived, get?_versionless, same]
    cases r.get? id <;> rfl

@[simp] theorem hasDerivedKeys_versionless (id : TokenId) :
    r.versionless.hasDerivedKeys id = r.hasDerivedKeys id := by
  rw [hasDerivedKeys, hasDerivedKeys, size_versionless, seekDerived_versionless]

end Registry

/-! ## Events -/

/-- A report on an element whose place is written without the SOAP version. -/
def ProtectionEvent.versionless (report : ProtectionEvent) : ProtectionEvent :=
  { report with path := report.path.versionless true }

/-- An event without the SOAP version of the element it speaks of. -/
def SecurityEvent.versionless : SecurityEvent → SecurityEvent
  | .token found => .token found
  | .signedElement report => .signedElement report.versionless
  | .encryptedElement report => .encryptedElement report.versionless
  | .requiredElement path => .requiredElement (path.versionless true)
  | .operation name => .operation name

@[simp] theorem SecurityEvent.kind_versionless (event : SecurityEvent) :
    event.versionless.kind = event.kind := by
  cases event <;> rfl

theorem Protection.report?_versionless (kind : Protection) (event : SecurityEvent) :
    kind.report? event.versionless = (kind.report? event).map ProtectionEvent.versionless := by
  cases kind <;> cases event <;> rfl

/-! ## Shortfalls -/

/-- A shortfall without the SOAP version of the element it names. -/
def Shortfall.versionless : Shortfall → Shortfall
  | unprotected protection path => .unprotected protection (path.versionless true)
  | elementMissing pattern => .elementMissing pattern.versionless
  | tokenNotSigned path => .tokenNotSigned (path.versionless true)
  | notEndorsing path => .notEndorsing (path.versionless true)
  | other => other

/-- What is found missing, if anything, names no element. -/
def NamesNoElement (answer : Option Shortfall) : Prop :=
  answer.map Shortfall.versionless = answer

theorem namesNoElement_ask {met : Bool} {why : Shortfall} (h : why.versionless = why) :
    NamesNoElement (ask met why) := by
  cases met with
  | true => rfl
  | false => exact congrArg some h

theorem namesNoElement_askAll {answers : List (Option Shortfall)}
    (h : ∀ answer ∈ answers, NamesNoElement answer) : NamesNoElement (askAll answers) := by
  induction answers with
  | nil => rfl
  | cons answer answers ih =>
    obtain ⟨first, others⟩ := List.forall_mem_cons.1 h
    cases answer with
    | none => exact ih others
    | some why => exact first

theorem namesNoElement_askIssuer (required : Option String) (holder : String)
    (actual : Option String) : NamesNoElement (askIssuer required holder actual) := by
  cases required with
  | none => rfl
  | some name => exact namesNoElement_ask rfl

/-! ## Token assertions -/

theorem UsernamePolicy.namesNoElement_shortfall (policy : UsernamePolicy)
    (details : UsernameDetails) : NamesNoElement (policy.shortfall details) := by
  refine namesNoElement_askAll ?_
  simp only [List.forall_mem_cons]
  refine ⟨?_, namesNoElement_ask rfl, namesNoElement_ask rfl, ?_, by simp⟩
  · unfold passwordShortfall
    split <;> exact namesNoElement_ask rfl
  · unfold profileShortfall
    split
    · exact namesNoElement_ask rfl
    · rfl

theorem X509Policy.namesNoElement_shortfall (policy : X509Policy) (issuer : Option String)
    (token : SecurityToken) (details : X509Details) :
    NamesNoElement (policy.shortfall issuer token details) := by
  refine namesNoElement_askAll ?_
  simp only [List.forall_mem_cons]
  refine ⟨namesNoElement_askIssuer _ _ _, namesNoElement_askAll ?_, ?_, by simp⟩
  · simp only [List.forall_mem_cons]
    exact ⟨namesNoElement_ask rfl, namesNoElement_ask rfl, namesNoElement_ask rfl,
      namesNoElement_ask rfl, by simp⟩
  · unfold formShortfall
    split
    · rfl
    · split <;> exact namesNoElement_ask rfl

theorem SamlPolicy.namesNoElement_shortfall (policy : SamlPolicy) (issuer : Option String)
    (token : SecurityToken) (details : SamlDetails) :
    NamesNoElement (policy.shortfall issuer token details) := by
  refine namesNoElement_askAll ?_
  simp only [List.forall_mem_cons]
  refine ⟨namesNoElement_askIssuer _ _ _, namesNoElement_ask rfl, ?_, by simp⟩
  unfold formShortfall
  split
  · rfl
  · split
    · rfl
    · exact namesNoElement_ask rfl

theorem KerberosPolicy.namesNoElement_shortfall (policy : KerberosPolicy) (issuer : Option String)
    (token : SecurityToken) (details : KerberosDetails) :
    NamesNoElement (policy.shortfall issuer token details) := by
  refine namesNoElement_askAll ?_
  simp only [List.forall_mem_cons]
  refine ⟨namesNoElement_askIssuer _ _ _, namesNoElement_ask rfl, ?_, by simp⟩
  unfold formShortfall
  split
  · rfl
  · exact namesNoElement_ask rfl

theorem IssuedPolicy.namesNoElement_shortfall (policy : IssuedPolicy) (issuer : Option String)
    (details : IssuedDetails) : NamesNoElement (policy.shortfall issuer details) := by
  refine namesNoElement_askAll ?_
  simp only [List.forall_mem_cons]
  refine ⟨namesNoElement_askIssuer _ _ _, ?_, by simp⟩
  unfold typeShortfall
  split
  · rfl
  · exact namesNoElement_ask rfl

theorem SecurityContextPolicy.namesNoElement_shortfall (policy : SecurityContextPolicy)
    (issuer : Option String) (token : SecurityToken) (details : SecurityContextDetails) :
    NamesNoElement (policy.shortfall issuer token details) := by
  refine namesNoElement_askAll ?_
  simp only [List.forall_mem_cons]
  exact ⟨namesNoElement_askIssuer _ _ _, namesNoElement_ask rfl, by simp⟩

theorem HttpsPolicy.namesNoElement_shortfall (policy : HttpsPolicy) (details : HttpsDetails) :
    NamesNoElement (policy.shortfall details) := by
  refine namesNoElement_askAll ?_
  simp only [List.forall_mem_cons]
  refine ⟨namesNoElement_ask rfl, ?_, by simp⟩
  unfold authenticationShortfall
  split
  · rfl
  · exact namesNoElement_ask rfl

/-- Every result of a computation has a property. -/
def Gives {α : Type} (P : α → Prop) (x : Except Failure α) : Prop :=
  ∀ a, x = .ok a → P a

namespace Gives

variable {α β : Type} {P : α → Prop} {Q : β → Prop}

theorem ok {a : α} (h : P a) : Gives P (.ok a) := by
  rintro _ ⟨⟩
  exact h

theorem error (f : Failure) : Gives P (.error f) := by
  rintro _ ⟨⟩

theorem bind {x : Except Failure α} {f : α → Except Failure β} (hx : Gives P x)
    (hf : ∀ a, P a → Gives Q (f a)) : Gives Q (x >>= f) := by
  cases x with
  | error e => exact error e
  | ok a => exact hf a (hx a rfl)

theorem any (x : Except Failure α) : Gives (fun _ => True) x :=
  fun _ _ => trivial

end Gives

/-- What a token falls short of, if it is not as asked, names no element. -/
def TokenVerdict.NamesNoElement : TokenVerdict → Prop
  | .adverse why _ => why.versionless = why
  | _ => True

namespace TokenPolicy

variable (policy : TokenPolicy) (initiator : Bool) (r : Registry) (found : TokenEvent)

theorem namesNoElement_propertyShortfall (token : SecurityToken) (details : TokenDetails) :
    Gives NamesNoElement (policy.propertyShortfall token details) := by
  unfold propertyShortfall
  split
  case h_1 kind details _ => exact .ok (kind.namesNoElement_shortfall _)
  case h_2 kind details _ =>
    split
    · exact .ok (kind.namesNoElement_shortfall _ _ _)
    · exact .error _
  case h_3 kind details _ => exact .ok (kind.namesNoElement_shortfall _ _ _)
  case h_4 kind details _ => exact .ok (namesNoElement_ask rfl)
  case h_5 kind details _ => exact .ok (kind.namesNoElement_shortfall _ _ _)
  case h_6 kind details _ => exact .ok (kind.namesNoElement_shortfall _ _)
  case h_7 kind details _ => exact .ok (kind.namesNoElement_shortfall _ _ _)
  case h_8 kind details _ => exact .ok (kind.namesNoElement_shortfall _)
  case h_9 => exact .error _

theorem namesNoElement_shortfall? (token : SecurityToken) (derived : Bool) (details : TokenDetails) :
    Gives NamesNoElement (policy.shortfall? initiator token derived details) := by
  refine (policy.namesNoElement_propertyShortfall token details).bind fun property own => .ok ?_
  refine namesNoElement_askAll ?_
  simp only [List.forall_mem_cons]
  refine ⟨own, ?_, ?_, by simp⟩
  · unfold DerivedKeys.shortfall
    split <;> exact namesNoElement_ask rfl
  · unfold IncludeToken.shortfall
    split
    · rfl
    · exact namesNoElement_ask rfl
    · exact namesNoElement_ask rfl

/-- What a token falls short of names no element. -/
theorem namesNoElement_judge :
    Gives TokenVerdict.NamesNoElement (policy.judge initiator r found) := by
  refine (Gives.any _).bind fun token _ => (Gives.any _).bind fun _ _ => ?_
  split
  · refine (policy.namesNoElement_shortfall? initiator token _ _).bind fun answer plain => ?_
    cases answer with
    | none => exact .ok trivial
    | some why => exact .ok (Option.some.inj plain)
  · exact .ok trivial

/-- What a token means for an assertion does not depend on the SOAP version. -/
@[simp] theorem judge_versionless :
    policy.judge initiator r.versionless found = policy.judge initiator r found := by
  unfold judge
  rw [Registry.get_versionless, Registry.hasDerivedKeys_versionless]
  cases r.get found.token with
  | error f => rfl
  | ok token => rfl

end TokenPolicy

end SoapPolicy
