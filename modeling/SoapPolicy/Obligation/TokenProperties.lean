import SoapPolicy.Failure
import SoapPolicy.Shortfall

/-!
# Properties of a token

What a policy asks of the tokens of one family.  A requirement that is met gives `none`, and the
first one that is not met gives the shortfall.  Details of another family than the policy asks for,
or of a certificate for a token that is none, are a failure and no shortfall.
-/

namespace SoapPolicy

/-- The name of a kind of reference, for a token that may not be referred to at all. -/
def KeyIdentifier.nameOrNone (reference : Option KeyIdentifier) : String :=
  (reference.map KeyIdentifier.name).getD "no key identifier"

/-! ## Families -/

namespace UsernamePolicy

/-- What is asked of the password.  Without a requirement, there has to be one. -/
def passwordShortfall (required : Option PasswordRequirement) (actual : PasswordType) :
    Option Shortfall :=
  match required with
  | some .none => ask (actual == .none) .passwordProhibited
  | some .hashed => ask (actual == .digest) .passwordNotHashed
  | none => ask (actual != .none) .passwordMissing

/-- What is asked of the profile.  A token that does not state its profile may have any. -/
def profileShortfall (required : Option UsernameTokenType) (actual : Option UsernameProfile) :
    Option Shortfall :=
  match required, actual with
  | some type, some profile =>
    ask (type.profile == profile) (.usernameProfile type.profile profile)
  | _, _ => none

/-- What is asked of a username token. -/
def shortfall (policy : UsernamePolicy) (details : UsernameDetails) : Option Shortfall :=
  let plain := details.passwordType == .text
  askAll [
    passwordShortfall policy.passwordType details.passwordType,
    ask (!policy.created || details.created.isSome && plain) .createdMissing,
    ask (!policy.nonce || details.nonce.isSome && plain) .nonceMissing,
    profileShortfall policy.tokenType details.profile]

end UsernamePolicy

namespace X509Policy

/-- What is asked of the form of a certificate.  Version 3 is taken from the token or from the
certificate, version 1 has to be stated by both. -/
def formShortfall (required : Option X509TokenType) (type : TokenType) (version : UInt8) :
    Option Shortfall :=
  match required with
  | none => none
  | some form =>
    match form with
    | .v1Profile11 =>
      ask (type == .x509V1 && version == 1) (.certificateVersion form version)
    | .v3Profile10 | .v3Profile11 =>
      ask (type == .x509V3 || version == 3) (.certificateVersion form version)
    | .pkcs7Profile10 | .pkcs7Profile11 =>
      ask (type == .x509Pkcs7) (.unsupportedType type.name)
    | .pkiPathProfile10 | .pkiPathProfile11 =>
      ask (type == .x509PkiPathV1) (.unsupportedType type.name)

/-- What is asked of the reference to a certificate. -/
def referenceShortfall (policy : X509Policy) (actual : Option KeyIdentifier) : Option Shortfall :=
  let askReference (asked : Bool) (reference : KeyIdentifier) (name : String) :=
    ask (!asked || actual == some reference)
      (.reference name (KeyIdentifier.nameOrNone actual))
  askAll [
    askReference policy.keyIdentifierReference .x509KeyIdentifier "KeyIdentifierReference",
    askReference policy.issuerSerialReference .issuerSerial "IssuerSerialReference",
    askReference policy.thumbprintReference .thumbprintIdentifier "ThumbprintReference",
    askReference policy.embeddedTokenReference .securityTokenDirectReference
      "EmbeddedTokenReference"]

/-- What is asked of a certificate. -/
def shortfall (policy : X509Policy) (issuerName : Option String) (token : SecurityToken)
    (details : X509Details) : Option Shortfall :=
  askAll [
    askIssuer issuerName "certificate" details.issuerName,
    policy.referenceShortfall token.keyIdentifier,
    formShortfall policy.tokenType token.type details.version]

end X509Policy

namespace SamlPolicy

/-- What is asked of the form of an assertion. -/
def formShortfall (required : Option SamlTokenType) (actual : SamlVersion) : Option Shortfall :=
  match required with
  | none => none
  | some form =>
    match form.version? with
    | none => some (.unsupportedType form.name)
    | some version => ask (actual == version) (.samlVersion form actual)

/-- What is asked of a SAML assertion. -/
def shortfall (policy : SamlPolicy) (issuerName : Option String) (token : SecurityToken)
    (details : SamlDetails) : Option Shortfall :=
  askAll [
    askIssuer issuerName "SamlToken" details.issuerName,
    ask (!policy.keyIdentifierReference || token.keyIdentifier == some .x509KeyIdentifier)
      (.reference "KeyIdentifierReference" token.type.name),
    formShortfall policy.tokenType details.version]

end SamlPolicy

/-- What is asked of a bare key. -/
def KeyValuePolicy.shortfall (policy : KeyValuePolicy) (details : KeyValueDetails) :
    Option Shortfall :=
  ask (!policy.rsaKeyValue || details.keyType == .rsa) (.keyNotRsa details.keyType)

namespace KerberosPolicy

/-- What is asked of the form of a ticket. -/
def formShortfall (required : Option KerberosTokenType) (actual : KerberosTicketType) :
    Option Shortfall :=
  match required with
  | none => none
  | some form => ask (actual == form.ticketType) (.ticketType form actual)

/-- What is asked of a Kerberos ticket. -/
def shortfall (policy : KerberosPolicy) (issuerName : Option String) (token : SecurityToken)
    (details : KerberosDetails) : Option Shortfall :=
  askAll [
    askIssuer issuerName "KerberosToken" details.issuerName,
    ask (!policy.keyIdentifierReference || token.keyIdentifier == some .kerberosSha1Identifier)
      (.reference "KeyIdentifierReference" (KeyIdentifier.nameOrNone token.keyIdentifier)),
    formShortfall policy.tokenType details.ticketType]

end KerberosPolicy

namespace IssuedPolicy

/-- What is asked of the type the issuer states. -/
def typeShortfall (required actual : Option String) : Option Shortfall :=
  match required with
  | none => none
  | some type => ask (actual == some type) (.issuedType type actual)

/-- What is asked of an issued token. -/
def shortfall (policy : IssuedPolicy) (issuerName : Option String) (details : IssuedDetails) :
    Option Shortfall :=
  askAll [
    askIssuer issuerName "IssuedToken" details.issuer,
    typeShortfall policy.requiredTokenType details.tokenType]

end IssuedPolicy

/-- What is asked of a security context token. -/
def SecurityContextPolicy.shortfall (policy : SecurityContextPolicy) (issuerName : Option String)
    (token : SecurityToken) (details : SecurityContextDetails) : Option Shortfall :=
  askAll [
    askIssuer issuerName "SecurityContextToken" details.issuerName,
    ask (!policy.externalUriReference || details.external ||
      token.keyIdentifier == some .externalUriReference) .externalReferenceMissing]

namespace HttpsPolicy

/-- What is asked of the way a client signs in. -/
def authenticationShortfall (required : Option HttpAuthenticationType)
    (actual : HttpAuthentication) : Option Shortfall :=
  match required with
  | none => none
  | some way => ask (actual == way.authentication) (.httpAuthentication way actual)

/-- What is asked of an HTTPS connection. -/
def shortfall (policy : HttpsPolicy) (details : HttpsDetails) : Option Shortfall :=
  askAll [
    ask (!policy.clientCertificate || details.clientCertificate) .clientCertificateMissing,
    authenticationShortfall policy.authentication details.authentication]

end HttpsPolicy

/-! ## Any family -/

/-- What is asked of a token of the family of a policy. -/
def TokenPolicy.propertyShortfall (policy : TokenPolicy) (token : SecurityToken)
    (details : TokenDetails) : Except Failure (Option Shortfall) :=
  match policy.kind, details with
  | .username kind, .username details => .ok (kind.shortfall details)
  | .x509 kind, .x509 details =>
    if token.type.isX509 then .ok (kind.shortfall policy.issuerName token details)
    else .error (.unexpectedEvent ("Expected a X509 token but got " ++ token.type.name))
  | .saml kind, .saml details => .ok (kind.shortfall policy.issuerName token details)
  | .keyValue kind, .keyValue details => .ok (kind.shortfall details)
  | .kerberos kind, .kerberos details => .ok (kind.shortfall policy.issuerName token details)
  | .issued kind, .issued details => .ok (kind.shortfall policy.issuerName details)
  | .securityContext kind, .securityContext details =>
    .ok (kind.shortfall policy.issuerName token details)
  | .https kind, .https details => .ok (kind.shortfall details)
  | kind, details =>
    .error (.unexpectedEvent
      ("Expected a " ++ kind.family.name ++ "SecurityEvent but got " ++ details.family.name))

end SoapPolicy
