import SoapPolicy.Policy.Token
import SoapPolicy.XPath.Pattern

/-!
# Shortfalls

A shortfall is a reason why a message does not meet one assertion of a policy.  It holds what was
asked and what was found.  `Shortfall.message` is the one place where shortfalls are put into
words.
-/

namespace SoapPolicy

/-- A reason why an assertion is not met. -/
inductive Shortfall where
  /-- A token is in the message and must not be. -/
  | tokenIncluded
  /-- A token is only referred to. -/
  | tokenNotIncluded
  /-- A token has no derived keys. -/
  | derivedKeyMissing
  /-- A token has derived keys that are not asked for. -/
  | derivedKeyUsed
  /-- A token comes from another issuer.  `holder` is what the issuer is read from. -/
  | issuer (required : String) (holder : String) (actual : Option String)
  /-- There is a password where none is allowed. -/
  | passwordProhibited
  /-- The password is not hashed. -/
  | passwordNotHashed
  /-- There is no password. -/
  | passwordMissing
  /-- There is no time of creation next to a plain password. -/
  | createdMissing
  /-- There is no nonce next to a plain password. -/
  | nonceMissing
  /-- A username token follows another profile. -/
  | usernameProfile (required actual : UsernameProfile)
  /-- A token is referred to in another way. -/
  | reference (required actual : String)
  /-- A certificate has another version. -/
  | certificateVersion (required : X509TokenType) (actual : UInt8)
  /-- A form of token is not supported, or is not the one asked for. -/
  | unsupportedType (type : String)
  /-- A SAML assertion has another version. -/
  | samlVersion (required : SamlTokenType) (actual : SamlVersion)
  /-- A key is no RSA key. -/
  | keyNotRsa (actual : KeyValueType)
  /-- A Kerberos ticket has another form. -/
  | ticketType (required : KerberosTokenType) (actual : KerberosTicketType)
  /-- An issuer states another token type. -/
  | issuedType (required : String) (actual : Option String)
  /-- A security context token is in the message. -/
  | externalReferenceMissing
  /-- A client showed no certificate. -/
  | clientCertificateMissing
  /-- A client signed in in another way. -/
  | httpAuthentication (required : HttpAuthenticationType) (actual : HttpAuthentication)
  /-- An element is not protected. -/
  | unprotected (protection : Protection) (path : ElementPath)
  /-- An element was not seen. -/
  | elementMissing (pattern : ElementPattern)
  /-- A token is not covered by the signature it makes. -/
  | tokenNotSigned (path : ElementPath)
  /-- An endorsing token does not sign the main signature. -/
  | notEndorsing (path : ElementPath)
  /-- The main signature leaves out a token it has to sign. -/
  | supportingNotSigned
deriving DecidableEq

/-- How an element with a protection is called. -/
def Protection.participle : Protection → String
  | signature => "signed"
  | encryption => "encrypted"

/-- The text of a shortfall. -/
def Shortfall.message : Shortfall → String
  | tokenIncluded => "Token must not be included"
  | tokenNotIncluded => "Token must be included"
  | derivedKeyMissing => "Derived key must be used"
  | derivedKeyUsed => "Derived key must not be used"
  | issuer required holder actual =>
    "IssuerName in Policy (" ++ required ++ ") didn't match with the one in the " ++ holder
      ++ " (" ++ actual.getD "" ++ ")"
  | passwordProhibited => "UsernameToken contains a password but the policy prohibits it"
  | passwordNotHashed => "UsernameToken does not contain a hashed password"
  | passwordMissing => "UsernameToken must contain a password"
  | createdMissing =>
    "UsernameToken does not contain a created timestamp or password is not plain text"
  | nonceMissing => "UsernameToken does not contain a nonce or password is not plain text"
  | usernameProfile required actual =>
    "Policy enforces UsernameToken profile " ++ required.text ++ " but we got " ++ actual.text
  | reference required actual => "Policy enforces " ++ required ++ " but we got " ++ actual
  | certificateVersion required actual =>
    "X509Certificate Version " ++ toString actual.toNat ++ " mismatch; Policy enforces "
      ++ required.name
  | unsupportedType type => "Unsupported token type: " ++ type
  | samlVersion required actual =>
    "Policy enforces " ++ required.profileName ++ " but we got " ++ actual.text
  | keyNotRsa actual =>
    "Policy enforces that a RsaKeyValue must be present in the KeyValueToken but we got a "
      ++ actual.element
  | ticketType required actual =>
    "Policy enforces " ++ required.name ++ " but we got " ++ actual.name
  | issuedType required actual =>
    "Policy enforces token type " ++ required ++ " but we got " ++ actual.getD "none"
  | externalReferenceMissing => "Policy enforces ExternalUriReference"
  | clientCertificateMissing => "Policy enforces HTTPClientCertificate"
  | httpAuthentication required actual =>
    "Policy enforces " ++ required.name ++ " but we got " ++ actual.name
  | unprotected protection path =>
    "Element " ++ path.text ++ " must be " ++ protection.participle
  | elementMissing pattern => "Element " ++ pattern.text ++ " must be present"
  | tokenNotSigned path => "Token " ++ path.text ++ " must be signed by its signature."
  | notEndorsing path => "Token " ++ path.text ++ " must sign the main signature."
  | supportingNotSigned => "Main signature must sign the Signed*Supporting-Tokens."

/-! ## Asking -/

/-- What is wrong, if a requirement is not met. -/
def ask (met : Bool) (otherwise : Shortfall) : Option Shortfall :=
  if met then none else some otherwise

/-- The first thing that is wrong. -/
def askAll (answers : List (Option Shortfall)) : Option Shortfall :=
  answers.findSome? id

/-- What is wrong with an issuer, if one is asked for.  A missing issuer counts as the empty one. -/
def askIssuer (required : Option String) (holder : String) (actual : Option String) :
    Option Shortfall :=
  match required with
  | none => none
  | some name => ask (name == actual.getD "") (.issuer name holder actual)

@[simp] theorem ask_eq_none {met : Bool} {why : Shortfall} : ask met why = none ↔ met = true := by
  cases met <;> simp [ask]

@[simp] theorem askAll_eq_none {answers : List (Option Shortfall)} :
    askAll answers = none ↔ ∀ answer ∈ answers, answer = none := by
  simp [askAll, List.findSome?_eq_none_iff]

end SoapPolicy
