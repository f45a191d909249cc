import SoapPolicy.Json.Event
import SoapPolicy.Policy.Basic

/-!
# Policies as JSON
-/

namespace SoapPolicy

open Json

/-! ## Token assertions -/

/-- The roles that need no more words than their name. -/
def TokenRole.plain : List TokenRole :=
  [.initiator, .initiatorSignature, .initiatorEncryption, .recipient, .recipientSignature,
    .recipientEncryption, .signature, .encryption, .protection, .transport]

instance : Codec TokenRole where
  toJson
    | .supporting kind => .obj [("Supporting", toJson kind)]
    | role => .str role.element
  ofJson? j :=
    match j with
    | .obj [("Supporting", kind)] => (ofJson? kind).map .supporting
    | _ => j.bareName?.bind fun name => TokenRole.plain.find? fun role => role.element == name

instance : Codec UsernamePolicy where
  toJson p := .obj [
    ("password_type", toJson p.passwordType),
    ("created", toJson p.created),
    ("nonce", toJson p.nonce),
    ("token_type", toJson p.tokenType)]
  ofJson? j := do
    let fields ← j.fields?
    return {
      passwordType := ← fields.defaulted "password_type" none
      created := ← fields.defaulted "created" false
      nonce := ← fields.defaulted "nonce" false
      tokenType := ← fields.defaulted "token_type" none }

instance : Codec X509Policy where
  toJson p := .obj [
    ("token_type", toJson p.tokenType),
    ("require_key_identifier_reference", toJson p.keyIdentifierReference),
    ("require_issuer_serial_reference", toJson p.issuerSerialReference),
    ("require_embedded_token_reference", toJson p.embeddedTokenReference),
    ("require_thumbprint_reference", toJson p.thumbprintReference)]
  ofJson? j := do
    let fields ← j.fields?
    return {
      tokenType := ← fields.defaulted "token_type" none
      keyIdentifierReference := ← fields.defaulted "require_key_identifier_reference" false
      issuerSerialReference := ← fields.defaulted "require_issuer_serial_reference" false
      embeddedTokenReference := ← fields.defaulted "require_embedded_token_reference" false
      thumbprintReference := ← fields.defaulted "require_thumbprint_reference" false }

instance : Codec SamlPolicy where
  toJson p := .obj [
    ("token_type", toJson p.tokenType),
    ("require_key_identifier_reference", toJson p.keyIdentifierReference)]
  ofJson? j := do
    let fields ← j.fields?
    return {
      tokenType := ← fields.defaulted "token_type" none
      keyIdentifierReference := ← fields.defaulted "require_key_identifier_reference" false }

instance : Codec KeyValuePolicy where
  toJson p := .obj [("rsa_key_value", toJson p.rsaKeyValue)]
  ofJson? j := do
    let fields ← j.fields?
    return { rsaKeyValue := ← fields.defaulted "rsa_key_value" false }

instance : Codec KerberosPolicy where
  toJson p := .obj [
    ("token_type", toJson p.tokenType),
    ("require_key_identifier_reference", toJson p.keyIdentifierReference)]
  ofJson? j := do
    let fields ← j.fields?
    return {
      tokenType := ← fields.defaulted "token_type" none
      keyIdentifierReference := ← fields.defaulted "require_key_identifier_reference" false }

instance : Codec IssuedPolicy where
  toJson p := .obj [("required_token_type", toJson p.requiredTokenType)]
  ofJson? j := do
    let fields ← j.fields?
    return { requiredTokenType := ← fields.defaulted "required_token_type" none }

instance : Codec SecurityContextPolicy where
  toJson p := .obj [("require_external_uri_reference", toJson p.externalUriReference)]
  ofJson? j := do
    let fields ← j.fields?
    return { externalUriReference := ← fields.defaulted "require_external_uri_reference" false }

instance : Codec HttpsPolicy where
  toJson p := .obj [
    ("require_client_certificate", toJson p.clientCertificate),
    ("authentication", toJson p.authentication)]
  ofJson? j := do
    let fields ← j.fields?
    return {
      clientCertificate := ← fields.defaulted "require_client_certificate" false
      authentication := ← fields.defaulted "authentication" none }

instance : Codec TokenKind where
  toJson
    | .username p => .obj [("Username", toJson p)]
    | .x509 p => .obj [("X509", toJson p)]
    | .saml p => .obj [("Saml", toJson p)]
    | .keyValue p => .obj [("KeyValue", toJson p)]
    | .kerberos p => .obj [("Kerberos", toJson p)]
    | .issued p => .obj [("Issued", toJson p)]
    | .securityContext p => .obj [("SecurityContext", toJson p)]
    | .https p => .obj [("Https", toJson p)]
  ofJson? j := do
    let (tag, content) ← j.variant?
    match tag with
    | "Username" => (ofJson? content).map .username
    | "X509" => (ofJson? content).map .x509
    | "Saml" => (ofJson? content).map .saml
    | "KeyValue" => (ofJson? content).map .keyValue
    | "Kerberos" => (ofJson? content).map .kerberos
    | "Issued" => (ofJson? content).map .issued
    | "SecurityContext" => (ofJson? content).map .securityContext
    | "Https" => (ofJson? content).map .https
    | _ => none

instance : Codec TokenPolicy where
  toJson p := .obj [
    ("role", toJson p.role),
    ("include_token", toJson p.includeToken),
    ("derived_keys", toJson p.derivedKeys),
    ("issuer_name", toJson p.issuerName),
    ("kind", toJson p.kind)]
  ofJson? j := do
    let fields ← j.fields?
    return {
      role := ← fields.required "role"
      includeToken := ← fields.defaulted "include_token" .always
      derivedKeys := ← fields.defaulted "derived_keys" none
      issuerName := ← fields.defaulted "issuer_name" none
      kind := ← fields.required "kind" }

/-! ## Other assertions -/

/-- Namespace prefixes are written as an object, one field for each prefix. -/
def XPath.namespacesToJson (namespaces : List (String × String)) : Json :=
  .obj (namespaces.map fun (label, uri) => (label, toJson uri))

/-- Read namespace prefixes. -/
def XPath.namespacesOfJson? (j : Json) : Option (List (String × String)) :=
  j.fields?.bind fun fields =>
    fields.mapM fun (label, uri) => (ofJson? uri).map fun uri => (label, uri)

instance : Codec XPath where
  toJson x := .obj [
    ("expression", toJson x.expression),
    ("namespaces", XPath.namespacesToJson x.namespaces)]
  ofJson? j := do
    let fields ← j.fields?
    return {
      expression := ← fields.required "expression"
      namespaces := ←
        match fields.lookup "namespaces" with
        | none => some []
        | some labels => XPath.namespacesOfJson? labels }

instance : Codec ElementsPolicy where
  toJson p := .obj [("xpaths", toJson p.xpaths)]
  ofJson? j := do
    let fields ← j.fields?
    return { xpaths := ← fields.required "xpaths" }

instance : Codec BindingPolicy where
  toJson p := .obj [("binding", toJson p.binding), ("protect_tokens", toJson p.protectTokens)]
  ofJson? j := do
    let fields ← j.fields?
    return {
      binding := ← fields.required "binding"
      protectTokens := ← fields.defaulted "protect_tokens" false }

instance : Codec PolicyAssertion where
  toJson
    | .token p => .obj [("Token", toJson p)]
    | .signedElements p => .obj [("SignedElements", toJson p)]
    | .encryptedElements p => .obj [("EncryptedElements", toJson p)]
    | .requiredElements p => .obj [("RequiredElements", toJson p)]
    | .binding p => .obj [("Binding", toJson p)]
  ofJson? j := do
    let (tag, content) ← j.variant?
    match tag with
    | "Token" => (ofJson? content).map .token
    | "SignedElements" => (ofJson? content).map .signedElements
    | "EncryptedElements" => (ofJson? content).map .encryptedElements
    | "RequiredElements" => (ofJson? content).map .requiredElements
    | "Binding" => (ofJson? content).map .binding
    | _ => none

/-! ## Policies -/

instance : Codec Alternative where
  toJson a := .obj [("assertions", toJson a.assertions)]
  ofJson? j := do
    let fields ← j.fields?
    return { assertions := ← fields.required "assertions" }

instance : Codec Policy where
  toJson p := .obj [("alternatives", toJson p.alternatives)]
  ofJson? j := do
    let fields ← j.fields?
    return { alternatives := ← fields.required "alternatives" }

instance : Codec OperationPolicy where
  toJson p := .obj [("operation", toJson p.operation), ("policy", toJson p.policy)]
  ofJson? j := do
    let fields ← j.fields?
    return { operation := ← fields.required "operation", policy := ← fields.required "policy" }

end SoapPolicy
