import SoapPolicy.Proofs.Surviving

/-!
# Stronger token assertions

A token assertion is strengthened by asking for something it left open: the inclusion of the token, an
issuer, a form, a reference (`TokenPolicy.Strengthens`).  A token that conforms to the stronger
assertion conforms to the weaker one, and a token that concerns one of them concerns the other
(`TokenPolicy.judge_relaxed`).

So two runs are compared obligation by obligation.  `Obligation.Relaxes` is the invariant: the weaker
obligation is met whenever the stronger one is.  An event that the stronger obligation lets pass, the
weaker one lets pass too, and the invariant is kept (`Obligation.Relaxes.read`).  Nothing is said of
events that the stronger obligation does not let pass, because its alternative does not survive them.
-/

namespace SoapPolicy

/-! ## Requirements -/

/-- A requirement that the weaker policy leaves open, or that both policies have. -/
def LeftOpen {α : Type} (weak strong : Option α) : Prop :=
  weak = none ∨ weak = strong

/-- What is asked for only if a policy says so is not asked for if it leaves it open. -/
theorem LeftOpen.shortfall_eq_none {α : Type} {weak strong : Option α} (h : LeftOpen weak strong)
    (shortfall : Option α → Option Shortfall) (idle : shortfall none = none)
    (met : shortfall strong = none) : shortfall weak = none := by
  rcases h with rfl | rfl
  · exact idle
  · exact met

theorem askIssuer_relaxed {weak strong : Option String} (h : LeftOpen weak strong) {holder : String}
    {actual : Option String} (met : askIssuer strong holder actual = none) :
    askIssuer weak holder actual = none :=
  h.shortfall_eq_none (fun required => askIssuer required holder actual) rfl met

/-- What is asked for only if a flag is set is met if it is met with the flag. -/
theorem ask_relaxed {weak strong found : Bool} (h : weak = true → strong = true) {why : Shortfall}
    (met : ask (!strong || found) why = none) : ask (!weak || found) why = none := by
  rw [ask_eq_none] at met ⊢
  cases weak with
  | false => rfl
  | true => rwa [h rfl] at met

/-! ## Families -/

/-- A policy for a username token asks for what another asks for, and maybe for more. -/
structure UsernamePolicy.Strengthens (strong weak : UsernamePolicy) : Prop where
  passwordType : weak.passwordType = strong.passwordType
  created : weak.created = true → strong.created = true
  nonce : weak.nonce = true → strong.nonce = true
  tokenType : LeftOpen weak.tokenType strong.tokenType

/-- A policy for a certificate asks for what another asks for, and maybe for more. -/
structure X509Policy.Strengthens (strong weak : X509Policy) : Prop where
  tokenType : LeftOpen weak.tokenType strong.tokenType
  keyIdentifierReference : weak.keyIdentifierReference = true → strong.keyIdentifierReference = true
  issuerSerialReference : weak.issuerSerialReference = true → strong.issuerSerialReference = true
  embeddedTokenReference : weak.embeddedTokenReference = true → strong.embeddedTokenReference = true
  thumbprintReference : weak.thumbprintReference = true → strong.thumbprintReference = true

/-- A policy for a SAML assertion asks for what another asks for, and maybe for more. -/
structure SamlPolicy.Strengthens (strong weak : SamlPolicy) : Prop where
  tokenType : LeftOpen weak.tokenType strong.tokenType
  keyIdentifierReference : weak.keyIdentifierReference = true → strong.keyIdentifierReference = true

/-- A policy for a Kerberos ticket asks for what another asks for, and maybe for more. -/
structure KerberosPolicy.Strengthens (strong weak : KerberosPolicy) : Prop where
  tokenType : LeftOpen weak.tokenType strong.tokenType
  keyIdentifierReference : weak.keyIdentifierReference = true → strong.keyIdentifierReference = true

/-- A policy for an HTTPS connection asks for what another asks for, and maybe for more. -/
structure HttpsPolicy.Strengthens (strong weak : HttpsPolicy) : Prop where
  clientCertificate : weak.clientCertificate = true → strong.clientCertificate = true
  authentication : LeftOpen weak.authentication strong.authentication

/-- A policy asks for what another of the same family asks for, and maybe for more. -/
inductive TokenKind.Strengthens : TokenKind → TokenKind → Prop where
  | username {strong weak : UsernamePolicy} :
    strong.Strengthens weak → Strengthens (.username strong) (.username weak)
  | x509 {strong weak : X509Policy} :
    strong.Strengthens weak → Strengthens (.x509 strong) (.x509 weak)
  | saml {strong weak : SamlPolicy} :
    strong.Strengthens weak → Strengthens (.saml strong) (.saml weak)
  | keyValue {strong weak : KeyValuePolicy} :
    (weak.rsaKeyValue = true → strong.rsaKeyValue = true) →
    Strengthens (.keyValue strong) (.keyValue weak)
  | kerberos {strong weak : KerberosPolicy} :
    strong.Strengthens weak → Strengthens (.kerberos strong) (.kerberos weak)
  | issued {strong weak : IssuedPolicy} :
    LeftOpen weak.requiredTokenType strong.requiredTokenType →
    Strengthens (.issued strong) (.issued weak)
  | securityContext {strong weak : SecurityContextPolicy} :
    (weak.externalUriReference = true → strong.externalUriReference = true) →
    Strengthens (.securityContext strong) (.securityContext weak)
  | https {strong weak : HttpsPolicy} :
    strong.Strengthens weak → Strengthens (.https strong) (.https weak)

/-- A token assertion asks for what another in the same role asks for, and maybe for more. -/
structure TokenPolicy.Strengthens (strong weak : TokenPolicy) : Prop where
  role : weak.role = strong.role
  includeToken : weak.includeToken = .once ∨ weak.includeToken = strong.includeToken
  derivedKeys : weak.derivedKeys = strong.derivedKeys
  issuerName : LeftOpen weak.issuerName strong.issuerName
  kind : strong.kind.Strengthens weak.kind

theorem TokenKind.Strengthens.family {strong weak : TokenKind} (h : strong.Strengthens weak) :
    weak.family = strong.family := by
  cases h <;> rfl

theorem UsernamePolicy.Strengthens.shortfall {strong weak : UsernamePolicy}
    (h : strong.Strengthens weak) {details : UsernameDetails}
    (met : strong.shortfall details = none) : weak.shortfall details = none := by
  simp only [UsernamePolicy.shortfall, askAll_eq_none, List.forall_mem_cons] at met ⊢
  obtain ⟨password, created, nonce, profile, -⟩ := met
  refine ⟨?_, ask_relaxed h.created created, ask_relaxed h.nonce nonce, ?_, by simp⟩
  · rwa [h.passwordType]
  · exact h.tokenType.shortfall_eq_none
      (fun required => profileShortfall required details.profile) rfl profile

theorem X509Policy.Strengthens.shortfall {strong weak : X509Policy} (h : strong.Strengthens weak)
    {issuer issuer' : Option String} (named : LeftOpen issuer issuer') {token : SecurityToken}
    {details : X509Details} (met : strong.shortfall issuer' token details = none) :
    weak.shortfall issuer token details = none := by
  simp only [X509Policy.shortfall, referenceShortfall, askAll_eq_none, List.forall_mem_cons] at met ⊢
  obtain ⟨name, ⟨identifier, serial, thumbprint, embedded, -⟩, form, -⟩ := met
  refine ⟨askIssuer_relaxed named name, ⟨ask_relaxed h.keyIdentifierReference identifier,
    ask_relaxed h.issuerSerialReference serial, ask_relaxed h.thumbprintReference thumbprint,
    ask_relaxed h.embeddedTokenReference embedded, by simp⟩, ?_, by simp⟩
  exact h.tokenType.shortfall_eq_none
    (fun required => formShortfall required token.type details.version) rfl form

theorem SamlPolicy.Strengthens.shortfall {strong weak : SamlPolicy} (h : strong.Strengthens weak)
    {issuer issuer' : Option String} (named : LeftOpen issuer issuer') {token : SecurityToken}
    {details : SamlDetails} (met : strong.shortfall issuer' token details = none) :
    weak.shortfall issuer token details = none := by
  simp only [SamlPolicy.shortfall, askAll_eq_none, List.forall_mem_cons] at met ⊢
  obtain ⟨name, identifier, form, -⟩ := met
  refine ⟨askIssuer_relaxed named name, ask_relaxed h.keyIdentifierReference identifier, ?_, by simp⟩
  exact h.tokenType.shortfall_eq_none
    (fun required => formShortfall required details.version) rfl form

theorem KerberosPolicy.Strengthens.shortfall {strong weak : KerberosPolicy}
    (h : strong.Strengthens weak) {issuer issuer' : Option String} (named : LeftOpen issuer issuer')
    {token : SecurityToken} {details : KerberosDetails}
    (met : strong.shortfall issuer' token details = none) :
    weak.shortfall issuer token details = none := by
  simp only [KerberosPolicy.shortfall, askAll_eq_none, List.forall_mem_cons] at met ⊢
  obtain ⟨name, identifier, form, -⟩ := met
  refine ⟨askIssuer_relaxed named name, ask_relaxed h.keyIdentifierReference identifier, ?_, by simp⟩
  exact h.tokenType.shortfall_eq_none
    (fun required => formShortfall required details.ticketType) rfl form

theorem HttpsPolicy.Strengthens.shortfall {strong weak : HttpsPolicy} (h : strong.Strengthens weak)
    {details : HttpsDetails} (met : strong.shortfall details = none) :
    weak.shortfall details = none := by
  simp only [HttpsPolicy.shortfall, askAll_eq_none, List.forall_mem_cons] at met ⊢
  obtain ⟨certificate, authentication, -⟩ := met
  refine ⟨ask_relaxed h.clientCertificate certificate, ?_, by simp⟩
  exact h.authentication.shortfall_eq_none
    (fun required => authenticationShortfall required details.authentication) rfl
    authentication

theorem IssuedPolicy.shortfall_relaxed {strong weak : IssuedPolicy}
    (h : LeftOpen weak.requiredTokenType strong.requiredTokenType) {issuer issuer' : Option String}
    (named : LeftOpen issuer issuer') {details : IssuedDetails}
    (met : strong.shortfall issuer' details = none) : weak.shortfall issuer details = none := by
  simp only [IssuedPolicy.shortfall, askAll_eq_none, List.forall_mem_cons] at met ⊢
  obtain ⟨name, type, -⟩ := met
  refine ⟨askIssuer_relaxed named name, ?_, by simp⟩
  exact h.shortfall_eq_none (fun required => typeShortfall required details.tokenType)
    rfl type

theorem SecurityContextPolicy.shortfall_relaxed {strong weak : SecurityContextPolicy}
    (h : weak.externalUriReference = true → strong.externalUriReference = true)
    {issuer issuer' : Option String} (named : LeftOpen issuer issuer') {token : SecurityToken}
    {details : SecurityContextDetails} (met : strong.shortfall issuer' token details = none) :
    weak.shortfall issuer token details = none := by
  simp only [SecurityContextPolicy.shortfall, askAll_eq_none, List.forall_mem_cons, Bool.or_assoc]
    at met ⊢
  obtain ⟨name, reference, -⟩ := met
  exact ⟨askIssuer_relaxed named name, ask_relaxed h reference, by simp⟩

/-! ## The verdict on a token -/

/-- Where the second computation gives a result, the first gives one in this relation to it. -/
def Relaxed {α β : Type} (R : α → β → Prop) (x : Except Failure α) (y : Except Failure β) : Prop :=
  ∀ b, y = .ok b → ∃ a, x = .ok a ∧ R a b

namespace Relaxed

variable {α β γ δ : Type} {R : α → β → Prop} {S : γ → δ → Prop}

theorem refl (x : Except Failure α) : Relaxed Eq x x :=
  fun b h => ⟨b, h, rfl⟩

theorem pure {a : α} {b : β} (h : R a b) :
    Relaxed R (Pure.pure a : Except Failure α) (Pure.pure b : Except Failure β) := by
  rintro _ ⟨⟩
  exact ⟨a, rfl, h⟩

theorem bind {x : Except Failure α} {y : Except Failure β} {f : α → Except Failure γ}
    {g : β → Except Failure δ} (h : Relaxed R x y) (rest : ∀ a b, R a b → Relaxed S (f a) (g b)) :
    Relaxed S (x >>= f) (y >>= g) := by
  intro d hd
  cases hy : y with
  | error e =>
    rw [hy] at hd
    cases hd
  | ok b =>
    rw [hy] at hd
    obtain ⟨a, rfl, hab⟩ := h b hy
    exact rest a b hab d hd

end Relaxed

/-- The first answer falls short of nothing if the second does not. -/
def NoneIfNone (weak strong : Option Shortfall) : Prop :=
  strong = none → weak = none

/-- What a token means for a weaker assertion, given what it means for a stronger one. -/
inductive TokenVerdict.Relaxes : TokenVerdict → TokenVerdict → Prop where
  | unconcerned : Relaxes .unconcerned .unconcerned
  | conforming : Relaxes .conforming .conforming
  | mended (why : Shortfall) (main : Bool) : Relaxes .conforming (.adverse why main)
  | adverse (why why' : Shortfall) (main : Bool) : Relaxes (.adverse why main) (.adverse why' main)

namespace TokenPolicy

variable {strong weak : TokenPolicy}

theorem propertyShortfall_relaxed (h : strong.Strengthens weak) {token : SecurityToken}
    {details : TokenDetails} (family : details.family = strong.kind.family) :
    Relaxed NoneIfNone (weak.propertyShortfall token details)
      (strong.propertyShortfall token details) := by
  obtain ⟨role, rule, keys, issuer, weakKind⟩ := weak
  obtain ⟨role', rule', keys', issuer', strongKind⟩ := strong
  obtain ⟨-, -, -, named, kind⟩ := h
  unfold propertyShortfall
  cases kind <;> cases details <;> cases family
  case username h found => exact .pure h.shortfall
  case x509 h found =>
    dsimp only
    split
    · exact .pure (h.shortfall named)
    · rintro _ ⟨⟩
  case saml h found => exact .pure (h.shortfall named)
  case keyValue h found => exact .pure (ask_relaxed h)
  case kerberos h found => exact .pure (h.shortfall named)
  case issued h found => exact .pure (IssuedPolicy.shortfall_relaxed h named)
  case securityContext h found => exact .pure (SecurityContextPolicy.shortfall_relaxed h named)
  case https h found => exact .pure h.shortfall

theorem includeToken_relaxed (h : strong.Strengthens weak) {initiator included : Bool}
    (met : strong.includeToken.shortfall initiator included = none) :
    weak.includeToken.shortfall initiator included = none := by
  rcases h.includeToken with once | same
  · rw [once]
    rfl
  · rwa [same]

theorem shortfall?_relaxed (h : strong.Strengthens weak) (initiator : Bool) {token : SecurityToken}
    (derived : Bool) {details : TokenDetails} (family : details.family = strong.kind.family) :
    Relaxed NoneIfNone (weak.shortfall? initiator token derived details)
      (strong.shortfall? initiator token derived details) := by
  refine (propertyShortfall_relaxed h family).bind fun property property' relaxed => .pure ?_
  intro met
  simp only [askAll_eq_none, List.forall_mem_cons] at met ⊢
  obtain ⟨own, keys, present, -⟩ := met
  exact ⟨relaxed own, by rwa [h.derivedKeys], includeToken_relaxed h present, by simp⟩

theorem checkUsages_relaxed (strong weak : TokenPolicy) (usages : List TokenUsage) :
    Relaxed Eq (weak.checkUsages usages) (strong.checkUsages usages) := by
  unfold checkUsages
  split
  · rintro _ ⟨⟩
  · exact .refl _

/-- A token that means something for the stronger assertion means the same for the weaker one, or is as
the weaker one asks. -/
theorem judge_relaxed (h : strong.Strengthens weak) (initiator : Bool) {r : Registry}
    {found : TokenEvent} (family : found.details.family = strong.kind.family) :
    Relaxed TokenVerdict.Relaxes (weak.judge initiator r found) (strong.judge initiator r found) := by
  unfold judge
  refine (Relaxed.refl (r.get found.token)).bind ?_
  rintro token _ rfl
  refine (checkUsages_relaxed strong weak token.usages).bind fun _ _ _ => ?_
  rw [h.role]
  split
  · refine (shortfall?_relaxed h initiator _ family).bind ?_
    rintro (_ | why) (_ | why') relaxed
    · exact .pure .conforming
    · exact .pure (.mended why' _)
    · cases relaxed rfl
    · exact .pure (.adverse why why' _)
  · exact .pure .unconcerned

end TokenPolicy

/-! ## Obligations -/

/-- An obligation that is met whenever a stronger one is. -/
inductive Obligation.Relaxes : Obligation → Obligation → Prop where
  | same (o : Obligation) : Relaxes o o
  | token {strong weak : TokenPolicy} {initiator met met' : Bool}
    {shortfall shortfall' : Option Shortfall} :
    strong.Strengthens weak → (met' = true → met = true) →
    Relaxes ⟨.token weak initiator, met, shortfall⟩ ⟨.token strong initiator, met', shortfall'⟩

namespace Obligation.Relaxes

variable {r : Registry} {event : SecurityEvent} {events : List SecurityEvent} {o o' : Obligation}

theorem met (h : Relaxes o o') (met' : o'.met = true) : o.met = true := by
  cases h with
  | same => exact met'
  | token _ kept => exact kept met'

/-- An event that the stronger obligation lets pass, the weaker one lets pass too. -/
theorem read (h : Relaxes o o') (passed : (o'.read r event).2 = .ok none) :
    (o.read r event).2 = .ok none ∧ Relaxes (o.read r event).1 (o'.read r event).1 := by
  cases h with
  | same => exact ⟨passed, .same _⟩
  | @token strong weak initiator met met' shortfall shortfall' stronger kept =>
    by_cases reads : event.kind = .token strong.kind.family
    case neg =>
      have reads' : event.kind ≠ .token weak.kind.family := by rwa [stronger.kind.family]
      rw [read_of_not_mem (by simpa using reads'), read_of_not_mem (by simpa using reads)]
      exact ⟨rfl, .token stronger kept⟩
    cases event with
    | token found =>
      have family : found.details.family = strong.kind.family := EventKind.token.inj reads
      have family' : found.details.family = weak.kind.family := family.trans stronger.kind.family.symm
      cases met with
      | true =>
        -- whatever the stronger obligation makes of the token, the weaker one stays met
        rw [read_met_token family']
        cases met' with
        | true =>
          rw [read_met_token family]
          exact ⟨rfl, .token stronger fun _ => rfl⟩
        | false =>
          rw [read_unmet_token family]
          refine ⟨rfl, ?_⟩
          rcases strong.judge initiator r found with f | _ | _ | ⟨why, main⟩
          all_goals exact .token stronger fun _ => rfl
      | false =>
        obtain rfl : met' = false := Bool.eq_false_iff.2 fun met => Bool.false_ne_true (kept met)
        rw [read_unmet_token family] at passed
        rw [read_unmet_token family, read_unmet_token family']
        cases judged : strong.judge initiator r found with
        | error f =>
          rw [judged] at passed
          cases passed
        | ok verdict' =>
          obtain ⟨verdict, judged', relaxes⟩ :=
            TokenPolicy.judge_relaxed stronger initiator family verdict' judged
          rw [judged] at passed
          rw [judged']
          cases relaxes with
          | unconcerned => exact ⟨rfl, .token stronger kept⟩
          | conforming => exact ⟨rfl, .token stronger fun _ => rfl⟩
          | mended why main => exact ⟨rfl, .token stronger fun _ => rfl⟩
          | adverse why why' main =>
            cases main with
            | true => cases passed
            | false => exact ⟨rfl, .token stronger kept⟩
    | _ => cases reads

/-- A run that the stronger obligation lets pass, the weaker one lets pass too. -/
theorem passes (h : Relaxes o o') (passed : o'.Passes r events) :
    o.Passes r events ∧ Relaxes (o.readAll r events) (o'.readAll r events) := by
  induction events generalizing o o' with
  | nil => exact ⟨trivial, h⟩
  | cons event events ih =>
    obtain ⟨first, rest⟩ := passed
    obtain ⟨passes, after⟩ := h.read first
    obtain ⟨later, last⟩ := ih after rest
    exact ⟨⟨passes, later⟩, last⟩

end Obligation.Relaxes

/-! ## Policies -/

/-- An assertion is another one, or a stronger token assertion in its place. -/
inductive PolicyAssertion.Strengthens : PolicyAssertion → PolicyAssertion → Prop where
  | same (a : PolicyAssertion) : Strengthens a a
  | token {strong weak : TokenPolicy} :
    strong.Strengthens weak → Strengthens (.token strong) (.token weak)

/-- The token assertions of a policy, some of them, are strengthened. -/
def Policy.Strengthens (strong weak : Policy) : Prop :=
  List.Forall₂ (fun alternative alternative' =>
    List.Forall₂ PolicyAssertion.Strengthens alternative.assertions alternative'.assertions)
    strong.alternatives weak.alternatives

/-- What a stronger assertion holds of, the weaker one holds of. -/
theorem PolicyAssertion.Strengthens.holds {strong weak : PolicyAssertion}
    (h : strong.Strengthens weak) {initiator : Bool} {r : Registry} {events : List SecurityEvent}
    (holds : strong.Holds initiator r events) : weak.Holds initiator r events := by
  cases h with
  | same => exact holds
  | @token strong weak stronger =>
    obtain ⟨o', made, passed, met⟩ := holds
    cases made
    have relaxes : Obligation.Relaxes ⟨.token weak initiator, false, none⟩
        ⟨.token strong initiator, false, none⟩ := .token stronger id
    obtain ⟨passes, after⟩ := relaxes.passes passed
    exact ⟨_, rfl, passes, after.met met⟩

end SoapPolicy
