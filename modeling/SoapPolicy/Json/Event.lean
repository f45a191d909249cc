import SoapPolicy.Event
import SoapPolicy.Json.Token

/-!
# Events as JSON
-/

namespace SoapPolicy

open Json

/-! ## Details of a token -/

instance : Codec UsernameDetails where
  toJson d := .obj [
    ("password_type", toJson d.passwordType),
    ("created", toJson d.created),
    ("nonce", toJson d.nonce),
    ("profile", toJson d.profile)]
  ofJson? j := do
    let fields ← j.fields?
    return {
      passwordType := ← fields.required "password_type"
      created := ← fields.defaulted "created" none
      nonce := ← fields.defaulted "nonce" none
      profile := ← fields.defaulted "profile" none }

instance : Codec X509Details where
  toJson d := .obj [("issuer_name", toJson d.issuerName), ("version", toJson d.version)]
  ofJson? j := do
    let fields ← j.fields?
    return {
      issuerName := ← fields.defaulted "issuer_name" none
      version := ← fields.required "version" }

instance : Codec SamlDetails where
  toJson d := .obj [("issuer_name", toJson d.issuerName), ("version", toJson d.version)]
  ofJson? j := do
    let fields ← j.fields?
    return {
      issuerName := ← fields.defaulted "issuer_name" none
      version := ← fields.required "version" }

instance : Codec KeyValueDetails where
  toJson d := .obj [("key_type", toJson d.keyType)]
  ofJson? j := do
    let fields ← j.fields?
    return { keyType := ← fields.required "key_type" }

instance : Codec KerberosDetails where
  toJson d := .obj [("issuer_name", toJson d.issuerName), ("ticket_type", toJson d.ticketType)]
  ofJson? j := do
    let fields ← j.fields?
    return {
      issuerName := ← fields.defaulted "issuer_name" none
      ticketType := ← fields.required "ticket_type" }

instance : Codec IssuedDetails where
  toJson d := .obj [("issuer", toJson d.issuer), ("token_type", toJson d.tokenType)]
  ofJson? j := do
    let fields ← j.fields?
    return {
      issuer := ← fields.defaulted "issuer" none
      tokenType := ← fields.defaulted "token_type" none }

instance : Codec SecurityContextDetails where
  toJson d := .obj [("issuer_name", toJson d.issuerName), ("external", toJson d.external)]
  ofJson? j := do
    let fields ← j.fields?
    return {
      issuerName := ← fields.defaulted "issuer_name" none
      external := ← fields.required "external" }

instance : Codec HttpsDetails where
  toJson d := .obj [
    ("client_certificate", toJson d.clientCertificate),
    ("authentication", toJson d.authentication)]
  ofJson? j := do
    let fields ← j.fields?
    return {
      clientCertificate := ← fields.required "client_certificate"
      authentication := ← fields.required "authentication" }

instance : Codec TokenDetails where
  toJson
    | .username d => .obj [("Username", toJson d)]
    | .x509 d => .obj [("X509", toJson d)]
    | .saml d => .obj [("Saml", toJson d)]
    | .keyValue d => .obj [("KeyValue", toJson d)]
    | .kerberos d => .obj [("Kerberos", toJson d)]
    | .issued d => .obj [("Issued", toJson d)]
    | .securityContext d => .obj [("SecurityContext", toJson d)]
    | .https d => .obj [("Https", toJson d)]
  ofJson? j := do
    let (tag, content) ← j.variant?
    match tag with
    | "Username" => (ofJson? content).map .username
    | "X509" => (ofJson? content).map .x509
    | "Saml" => (ofJson? content).map .saml
    | "KeyValue" => (ofJson? content).map .keyValue
    | "Kerberos" => (ofJson? content).map .kerberos
    | "Issued" => (ofJson? content).map .issued
    | "SecurityContext" => (ofJson? content).map .securityContext
    | "Https" => (ofJson? content).map .https
    | _ => none

/-! ## Events -/

instance : Codec TokenEvent where
  toJson e := .obj [("token", toJson e.token), ("details", toJson e.details)]
  ofJson? j := do
    let fields ← j.fields?
    return { token := ← fields.required "token", details := ← fields.required "details" }

instance : Codec ProtectionEvent where
  toJson e := .obj [
    ("token", toJson e.token),
    ("element_path", toJson e.path),
    ("protected", toJson e.isProtected),
    ("protection_order", toJson e.order)]
  ofJson? j := do
    let fields ← j.fields?
    return {
      token := ← fields.required "token"
      path := ← fields.required "element_path"
      isProtected := ← fields.required "protected"
      order := ← fields.defaulted "protection_order" [] }

instance : Codec SecurityEvent where
  toJson
    | .token e => .obj [("Token", toJson e)]
    | .signedElement e => .obj [("SignedElement", toJson e)]
    | .encryptedElement e => .obj [("EncryptedElement", toJson e)]
    | .requiredElement path => .obj [("RequiredElement", .obj [("element_path", toJson path)])]
    | .operation name => .obj [("Operation", .obj [("operation", toJson name)])]
  ofJson? j := do
    let (tag, content) ← j.variant?
    match tag with
    | "Token" => (ofJson? content).map .token
    | "SignedElement" => (ofJson? content).map .signedElement
    | "EncryptedElement" => (ofJson? content).map .encryptedElement
    | "RequiredElement" =>
      let fields ← content.fields?
      (fields.required "element_path").map .requiredElement
    | "Operation" =>
      let fields ← content.fields?
      (fields.required "operation").map .operation
    | _ => none

end SoapPolicy
