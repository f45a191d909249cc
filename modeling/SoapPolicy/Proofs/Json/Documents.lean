import SoapPolicy.Json.Context
import SoapPolicy.Json.Policy
import SoapPolicy.Proofs.Json.ReadBack

/-!
# Documents that read back

The shapes of policies, tokens, events and contexts, which say of every structure what its fields are,
and which of them may be left out.  Each type reads back what it wrote because the types of its fields
do, and so the documents as a whole do (`documents_read_back`).
-/

namespace SoapPolicy

open Json

/-! ## Tokens -/

instance : ReadsBack QName where
  shape := .struct [("namespace", orElse ""), ("local", need String)]
  reads name _ h := by
    obtain ⟨fields, rfl, keeps⟩ := edits_struct h
    exact read_bind rfl <| keeps.defaulted rfl rfl <| keeps.required rfl rfl rfl

instance : ReadsBack TokenId where
  shape := .plain
  reads id _ h := congrArg (Option.map TokenId.mk) (reads id.index _ h)

instance : Solid TokenId := ⟨rfl⟩

instance : ReadsBack SecurityToken where
  shape := .struct [
    ("id", orElse (none : Option String)),
    ("token_type", need TokenType),
    ("usages", need (List TokenUsage)),
    ("element_path", orElse (none : Option ElementPath)),
    ("included_in_message", need Bool),
    ("key_identifier", orElse (none : Option KeyIdentifier)),
    ("wrapped_tokens", orElse ([] : List TokenId)),
    ("key_wrapping_token", orElse (none : Option TokenId))]
  reads token _ h := by
    obtain ⟨fields, rfl, keeps⟩ := edits_struct h
    exact read_bind rfl <| keeps.defaulted rfl rfl <| keeps.required rfl rfl <|
      keeps.required rfl rfl <| keeps.defaulted rfl rfl <| keeps.required rfl rfl <|
      keeps.defaulted rfl rfl <| keeps.defaulted rfl rfl <| keeps.defaulted rfl rfl rfl

/-! ## Details of a token -/

instance : ReadsBack UsernameDetails where
  shape := .struct [
    ("password_type", need PasswordType),
    ("created", orElse (none : Option String)),
    ("nonce", orElse (none : Option String)),
    ("profile", orElse (none : Option UsernameProfile))]
  reads details _ h := by
    obtain ⟨fields, rfl, keeps⟩ := edits_struct h
    exact read_bind rfl <| keeps.required rfl rfl <| keeps.defaulted rfl rfl <|
      keeps.defaulted rfl rfl <| keeps.defaulted rfl rfl rfl

instance : ReadsBack X509Details where
  shape := .struct [("issuer_name", orElse (none : Option String)), ("version", need UInt8)]
  reads details _ h := by
    obtain ⟨fields, rfl, keeps⟩ := edits_struct h
    exact read_bind rfl <| keeps.defaulted rfl rfl <| keeps.required rfl rfl rfl

instance : ReadsBack SamlDetails where
  shape := .struct [("issuer_name", orElse (none : Option String)), ("version", need SamlVersion)]
  reads details _ h := by
    obtain ⟨fields, rfl, keeps⟩ := edits_struct h
    exact read_bind rfl <| keeps.defaulted rfl rfl <| keeps.required rfl rfl rfl

instance : ReadsBack KeyValueDetails where
  shape := .struct [("key_type", need KeyValueType)]
  reads details _ h := by
    obtain ⟨fields, rfl, keeps⟩ := edits_struct h
    exact read_bind rfl <| keeps.required rfl rfl rfl

instance : ReadsBack KerberosDetails where
  shape := .struct [
    ("issuer_name", orElse (none : Option String)),
    ("ticket_type", need KerberosTicketType)]
  reads details _ h := by
    obtain ⟨fields, rfl, keeps⟩ := edits_struct h
    exact read_bind rfl <| keeps.defaulted rfl rfl <| keeps.required rfl rfl rfl

instance : ReadsBack IssuedDetails where
  shape := .struct [
    ("issuer", orElse (none : Option String)),
    ("token_type", orElse (none : Option String))]
  reads details _ h := by
    obtain ⟨fields, rfl, keeps⟩ := edits_struct h
    exact read_bind rfl <| keeps.defaulted rfl rfl <| keeps.defaulted rfl rfl rfl

instance : ReadsBack SecurityContextDetails where
  shape := .struct [("issuer_name", orElse (none : Option String)), ("external", need Bool)]
  reads details _ h := by
    obtain ⟨fields, rfl, keeps⟩ := edits_struct h
    exact read_bind rfl <| keeps.defaulted rfl rfl <| keeps.required rfl rfl rfl

instance : ReadsBack HttpsDetails where
  shape := .struct [("client_certificate", need Bool), ("authentication", need HttpAuthentication)]
  reads details _ h := by
    obtain ⟨fields, rfl, keeps⟩ := edits_struct h
    exact read_bind rfl <| keeps.required rfl rfl <| keeps.required rfl rfl rfl

instance : ReadsBack TokenDetails where
  shape := .variants [
    ("Username", shape UsernameDetails),
    ("X509", shape X509Details),
    ("Saml", shape SamlDetails),
    ("KeyValue", shape KeyValueDetails),
    ("Kerberos", shape KerberosDetails),
    ("Issued", shape IssuedDetails),
    ("SecurityContext", shape SecurityContextDetails),
    ("Https", shape HttpsDetails)]
  reads details _ h := by
    cases details
    all_goals
      obtain ⟨content, rfl, edits⟩ := edits_variant h rfl
      exact congrArg (Option.map _) (reads _ content edits)

/-! ## Events -/

instance : ReadsBack TokenEvent where
  shape := .struct [("token", need TokenId), ("details", need TokenDetails)]
  reads event _ h := by
    obtain ⟨fields, rfl, keeps⟩ := edits_struct h
    exact read_bind rfl <| keeps.required rfl rfl <| keeps.required rfl rfl rfl

instance : ReadsBack ProtectionEvent where
  shape := .struct [
    ("token", need TokenId),
    ("element_path", need ElementPath),
    ("protected", need Bool),
    ("protection_order", orElse ([] : List Protection))]
  reads event _ h := by
    obtain ⟨fields, rfl, keeps⟩ := edits_struct h
    exact read_bind rfl <| keeps.required rfl rfl <| keeps.required rfl rfl <|
      keeps.required rfl rfl <| keeps.defaulted rfl rfl rfl

instance : ReadsBack SecurityEvent where
  shape := .variants [
    ("Token", shape TokenEvent),
    ("SignedElement", shape ProtectionEvent),
    ("EncryptedElement", shape ProtectionEvent),
    ("RequiredElement", .struct [("element_path", need ElementPath)]),
    ("Operation", .struct [("operation", need QName)])]
  reads event _ h := by
    cases event
    case requiredElement path =>
      obtain ⟨content, rfl, edits⟩ := edits_variant h rfl
      obtain ⟨fields, rfl, keeps⟩ := edits_struct edits
      exact read_bind rfl <| read_bind rfl <| congrArg (Option.map _) (keeps.required_eq rfl rfl)
    case operation name =>
      obtain ⟨content, rfl, edits⟩ := edits_variant h rfl
      obtain ⟨fields, rfl, keeps⟩ := edits_struct edits
      exact read_bind rfl <| read_bind rfl <| congrArg (Option.map _) (keeps.required_eq rfl rfl)
    all_goals
      obtain ⟨content, rfl, edits⟩ := edits_variant h rfl
      exact congrArg (Option.map _) (reads _ content edits)

/-! ## Token assertions -/

instance : ReadsBack TokenRole := .ofPlain fun role => by
  cases role with
  | supporting kind => exact congrArg (Option.map _) (ofJson?_toJson kind)
  | _ => rfl

instance : ReadsBack UsernamePolicy where
  shape := .struct [
    ("password_type", orElse (none : Option PasswordRequirement)),
    ("created", orElse false),
    ("nonce", orElse false),
    ("token_type", orElse (none : Option UsernameTokenType))]
  reads policy _ h := by
    obtain ⟨fields, rfl, keeps⟩ := edits_struct h
    exact read_bind rfl <| keeps.defaulted rfl rfl <| keeps.defaulted rfl rfl <|
      keeps.defaulted rfl rfl <| keeps.defaulted rfl rfl rfl

instance : ReadsBack X509Policy where
  shape := .struct [
    ("token_type", orElse (none : Option X509TokenType)),
    ("require_key_identifier_reference", orElse false),
    ("require_issuer_serial_reference", orElse false),
    ("require_embedded_token_reference", orElse false),
    ("require_thumbprint_reference", orElse false)]
  reads policy _ h := by
    obtain ⟨fields, rfl, keeps⟩ := edits_struct h
    exact read_bind rfl <| keeps.defaulted rfl rfl <| keeps.defaulted rfl rfl <|
      keeps.defaulted rfl rfl <| keeps.defaulted rfl rfl <| keeps.defaulted rfl rfl rfl

instance : ReadsBack SamlPolicy where
  shape := .struct [
    ("token_type", orElse (none : Option SamlTokenType)),
    ("require_key_identifier_reference", orElse false)]
  reads policy _ h := by
    obtain ⟨fields, rfl, keeps⟩ := edits_struct h
    exact read_bind rfl <| keeps.defaulted rfl rfl <| keeps.defaulted rfl rfl rfl

instance : ReadsBack KeyValuePolicy where
  shape := .struct [("rsa_key_value", orElse false)]
  reads policy _ h := by
    obtain ⟨fields, rfl, keeps⟩ := edits_struct h
    exact read_bind rfl <| keeps.defaulted rfl rfl rfl

instance : ReadsBack KerberosPolicy where
  shape := .struct [
    ("token_type", orElse (none : Option KerberosTokenType)),
    ("require_key_identifier_reference", orElse false)]
  reads policy _ h := by
    obtain ⟨fields, rfl, keeps⟩ := edits_struct h
    exact read_bind rfl <| keeps.defaulted rfl rfl <| keeps.defaulted rfl rfl rfl

instance : ReadsBack IssuedPolicy where
  shape := .struct [("required_token_type", orElse (none : Option String))]
  reads policy _ h := by
    obtain ⟨fields, rfl, keeps⟩ := edits_struct h
    exact read_bind rfl <| keeps.defaulted rfl rfl rfl

instance : ReadsBack SecurityContextPolicy where
  shape := .struct [("require_external_uri_reference", orElse false)]
  reads policy _ h := by
    obtain ⟨fields, rfl, keeps⟩ := edits_struct h
    exact read_bind rfl <| keeps.defaulted rfl rfl rfl

instance : ReadsBack HttpsPolicy where
  shape := .struct [
    ("require_client_certificate", orElse false),
    ("authentication", orElse (none : Option HttpAuthenticationType))]
  reads policy _ h := by
    obtain ⟨fields, rfl, keeps⟩ := edits_struct h
    exact read_bind rfl <| keeps.defaulted rfl rfl <| keeps.defaulted rfl rfl rfl

instance : ReadsBack TokenKind where
  shape := .variants [
    ("Username", shape UsernamePolicy),
    ("X509", shape X509Policy),
    ("Saml", shape SamlPolicy),
    ("KeyValue", shape KeyValuePolicy),
    ("Kerberos", shape KerberosPolicy),
    ("Issued", shape IssuedPolicy),
    ("SecurityContext", shape SecurityContextPolicy),
    ("Https", shape HttpsPolicy)]
  reads kind _ h := by
    cases kind
    all_goals
      obtain ⟨content, rfl, edits⟩ := edits_variant h rfl
      exact congrArg (Option.map _) (reads _ content edits)

instance : ReadsBack TokenPolicy where
  shape := .struct [
    ("role", need TokenRole),
    ("include_token", orElse IncludeToken.always),
    ("derived_keys", orElse (none : Option DerivedKeys)),
    ("issuer_name", orElse (none : Option String)),
    ("kind", need TokenKind)]
  reads policy _ h := by
    obtain ⟨fields, rfl, keeps⟩ := edits_struct h
    exact read_bind rfl <| keeps.required rfl rfl <| keeps.defaulted rfl rfl <|
      keeps.defaulted rfl rfl <| keeps.defaulted rfl rfl <| keeps.required rfl rfl rfl

/-! ## Other assertions -/

theorem XPath.namespacesOfJson?_toJson (namespaces : List (String × String)) :
    namespacesOfJson? (namespacesToJson namespaces) = some namespaces := by
  show (namespaces.map _).mapM _ = some namespaces
  induction namespaces with
  | nil => rfl
  | cons first namespaces ih =>
    rw [List.map_cons, List.mapM_cons, ih]
    rfl

/-- The prefixes of an expression are not edited.  They may be left out if there are none. -/
instance : ReadsBack XPath where
  shape := .struct [("expression", need String), ("namespaces", .defaulted .plain (.obj []))]
  reads x _ h := by
    obtain ⟨fields, rfl, keeps⟩ := edits_struct h
    have kept := keeps "namespaces" _ (XPath.namespacesToJson x.namespaces) rfl rfl
    refine read_bind rfl <| keeps.required rfl rfl ?_
    cases found : fields.lookup "namespaces" with
    | none =>
      rw [found] at kept
      cases kept with
      | leftOut same edits =>
        cases same
        have empty : x.namespaces = [] :=
          List.map_eq_nil_iff.1 (Json.obj.inj (edits_plain edits)).symm
        rw [← empty]
        rfl
    | some labels =>
      rw [found] at kept
      cases kept with
      | edited edits =>
        rw [edits_plain edits]
        exact read_bind (XPath.namespacesOfJson?_toJson x.namespaces) rfl

instance : ReadsBack ElementsPolicy where
  shape := .struct [("xpaths", need (List XPath))]
  reads policy _ h := by
    obtain ⟨fields, rfl, keeps⟩ := edits_struct h
    exact read_bind rfl <| keeps.required rfl rfl rfl

instance : ReadsBack BindingPolicy where
  shape := .struct [("binding", need BindingType), ("protect_tokens", orElse false)]
  reads policy _ h := by
    obtain ⟨fields, rfl, keeps⟩ := edits_struct h
    exact read_bind rfl <| keeps.required rfl rfl <| keeps.defaulted rfl rfl rfl

instance : ReadsBack PolicyAssertion where
  shape := .variants [
    ("Token", shape TokenPolicy),
    ("SignedElements", shape ElementsPolicy),
    ("EncryptedElements", shape ElementsPolicy),
    ("RequiredElements", shape ElementsPolicy),
    ("Binding", shape BindingPolicy)]
  reads assertion _ h := by
    cases assertion
    all_goals
      obtain ⟨content, rfl, edits⟩ := edits_variant h rfl
      exact congrArg (Option.map _) (reads _ content edits)

/-! ## Policies and contexts -/

instance : ReadsBack Alternative where
  shape := .struct [("assertions", need (List PolicyAssertion))]
  reads alternative _ h := by
    obtain ⟨fields, rfl, keeps⟩ := edits_struct h
    exact read_bind rfl <| keeps.required rfl rfl rfl

instance : ReadsBack Policy where
  shape := .struct [("alternatives", need (List Alternative))]
  reads policy _ h := by
    obtain ⟨fields, rfl, keeps⟩ := edits_struct h
    exact read_bind rfl <| keeps.required rfl rfl rfl

instance : ReadsBack OperationPolicy where
  shape := .struct [("operation", need QName), ("policy", need Policy)]
  reads policy _ h := by
    obtain ⟨fields, rfl, keeps⟩ := edits_struct h
    exact read_bind rfl <| keeps.required rfl rfl <| keeps.required rfl rfl rfl

instance : ReadsBack EnforcerContext where
  shape := .struct [("initiator", orElse false), ("soft_fail", orElse false)]
  reads context _ h := by
    obtain ⟨fields, rfl, keeps⟩ := edits_struct h
    exact read_bind rfl <| keeps.defaulted rfl rfl <| keeps.defaulted rfl rfl rfl

/-! ## Documents -/

/-- Policies, tokens, events and contexts are read back from what was written for them, also after any
number of edits that leave out fields with their defaults and add fields of unknown names, at any
depth. -/
theorem documents_read_back :
    (∀ (policy : Policy) (j : Json), Edits (shape Policy) (toJson policy) j →
      ofJson? j = some policy) ∧
    (∀ (policy : OperationPolicy) (j : Json), Edits (shape OperationPolicy) (toJson policy) j →
      ofJson? j = some policy) ∧
    (∀ (token : SecurityToken) (j : Json), Edits (shape SecurityToken) (toJson token) j →
      ofJson? j = some token) ∧
    (∀ (event : SecurityEvent) (j : Json), Edits (shape SecurityEvent) (toJson event) j →
      ofJson? j = some event) ∧
    (∀ (context : EnforcerContext) (j : Json), Edits (shape EnforcerContext) (toJson context) j →
      ofJson? j = some context) :=
  ⟨reads, reads, reads, reads, reads⟩

/-- An event for an operation without a namespace. -/
def greetEvent : SecurityEvent := .operation { uri := "", localPart := "greet" }

/-- The event written without the empty namespace, and with a language and a trace. -/
def greetDocument : Json :=
  .obj [("Operation", .obj [
    ("operation", .obj [("local", .str "greet"), ("language", .str "en")]),
    ("trace", .null)])]

theorem edits_greetDocument : Edits (shape SecurityEvent) (toJson greetEvent) greetDocument := by
  have unqualified : Edit (shape QName)
      (.obj ([] ++ ("namespace", .str "") :: [("local", .str "greet")]))
      (.obj ([] ++ [("local", .str "greet")])) :=
    .leaveOut rfl (by decide)
  have translated : Edit (shape QName) (.obj ([("local", .str "greet")] ++ []))
      (.obj ([("local", .str "greet")] ++ ("language", .str "en") :: [])) :=
    .add rfl
  have named : Edits (shape QName) (toJson (⟨"", "greet"⟩ : QName))
      (.obj [("local", .str "greet"), ("language", .str "en")]) :=
    .tail (.single unqualified) translated
  have content : Edits (.struct [("operation", need QName)])
      (.obj [("operation", toJson (⟨"", "greet"⟩ : QName))])
      (.obj [("operation", .obj [("local", .str "greet"), ("language", .str "en")])]) :=
    edits_inField [] [] rfl named
  have traced (j : Json) : Edit (.struct [("operation", need QName)])
      (.obj ([("operation", j)] ++ [])) (.obj ([("operation", j)] ++ ("trace", .null) :: [])) :=
    .add rfl
  exact edits_inVariant rfl (.tail content (traced _))

/-- The edited document stands for the event. -/
theorem documents_read_back_greeting : ofJson? greetDocument = some greetEvent :=
  documents_read_back.2.2.2.1 greetEvent greetDocument edits_greetDocument

end SoapPolicy
