import SoapPolicy.Event

/-!
# Token assertions of a policy

A token assertion asks for a token in a role.  It says whether the token itself has to be in the
message, whether keys have to be derived from it, who issued it, and what else is asked of a token
of its family.
-/

namespace SoapPolicy

/-! ## What is asked of every token -/

/-- When a token has to be in a message itself. -/
inductive IncludeToken where
  | never
  | once
  | alwaysToRecipient
  | alwaysToInitiator
  | always
deriving DecidableEq

namespace IncludeToken

/-- The name of an inclusion rule. -/
def name : IncludeToken → String
  | never => "Never"
  | once => "Once"
  | alwaysToRecipient => "AlwaysToRecipient"
  | alwaysToInitiator => "AlwaysToInitiator"
  | always => "Always"

instance : Named IncludeToken where
  all := [never, once, alwaysToRecipient, alwaysToInitiator, always]
  name := name
  mem_all := by intro a; cases a <;> simp
  nodup_names := by simp [name]

/-- The rule a URI stands for.  Every version of the policy language has its own URIs, and they
differ only in what comes before the last two segments. -/
def ofUri? (uri : String) : Option IncludeToken :=
  (Named.all : List IncludeToken).find? fun rule =>
    Text.endsWith uri ("/IncludeToken/" ++ rule.name)

end IncludeToken

/-- The ways to ask for derived keys. -/
inductive DerivedKeys where
  | required
  | explicitRequired
  | impliedRequired
deriving DecidableEq

instance : Named DerivedKeys where
  all := [.required, .explicitRequired, .impliedRequired]
  name
    | .required => "RequireDerivedKeys"
    | .explicitRequired => "RequireExplicitDerivedKeys"
    | .impliedRequired => "RequireImpliedDerivedKeys"
  mem_all := by intro a; cases a <;> simp
  nodup_names := by simp

/-- The assertions that ask for supporting tokens, by the qualifiers they put on the token. -/
inductive SupportingTokens where
  | supporting
  | signed
  | endorsing
  | signedEndorsing
  | encrypted
  | signedEncrypted
  | endorsingEncrypted
  | signedEndorsingEncrypted
deriving DecidableEq

namespace SupportingTokens

instance : Named SupportingTokens where
  all := [supporting, signed, endorsing, signedEndorsing, encrypted, signedEncrypted,
    endorsingEncrypted, signedEndorsingEncrypted]
  name
    | supporting => "Supporting"
    | signed => "Signed"
    | endorsing => "Endorsing"
    | signedEndorsing => "SignedEndorsing"
    | encrypted => "Encrypted"
    | signedEncrypted => "SignedEncrypted"
    | endorsingEncrypted => "EndorsingEncrypted"
    | signedEndorsingEncrypted => "SignedEndorsingEncrypted"
  mem_all := by intro a; cases a <;> simp
  nodup_names := by simp

/-- The element an assertion is written as. -/
def element (kind : SupportingTokens) : String :=
  match kind with
  | supporting => "SupportingTokens"
  | _ => Named.name kind ++ "SupportingTokens"

/-- The assertion an element stands for. -/
def ofElement? (name : String) : Option SupportingTokens :=
  (Named.all : List SupportingTokens).find? fun kind => kind.element == name

end SupportingTokens

/-- The node of a policy that a token assertion stands in. -/
inductive TokenRole where
  | initiator
  | initiatorSignature
  | initiatorEncryption
  | recipient
  | recipientSignature
  | recipientEncryption
  | signature
  | encryption
  | protection
  | transport
  | supporting (kind : SupportingTokens)
deriving DecidableEq

/-- The element a role is written as. -/
def TokenRole.element : TokenRole → String
  | initiator => "InitiatorToken"
  | initiatorSignature => "InitiatorSignatureToken"
  | initiatorEncryption => "InitiatorEncryptionToken"
  | recipient => "RecipientToken"
  | recipientSignature => "RecipientSignatureToken"
  | recipientEncryption => "RecipientEncryptionToken"
  | signature => "SignatureToken"
  | encryption => "EncryptionToken"
  | protection => "ProtectionToken"
  | transport => "TransportToken"
  | supporting kind => kind.element

/-! ## What is asked of one family -/

/-- What is asked of the password of a username token.  Without this, there has to be one. -/
inductive PasswordRequirement where
  | none
  | hashed
deriving DecidableEq

instance : Named PasswordRequirement where
  all := [.none, .hashed]
  name
    | .none => "NoPassword"
    | .hashed => "HashPassword"
  mem_all := by intro a; cases a <;> simp
  nodup_names := by simp

/-- The profile asked of a username token. -/
inductive UsernameTokenType where
  | profile10
  | profile11
deriving DecidableEq

namespace UsernameTokenType

instance : Named UsernameTokenType where
  all := [profile10, profile11]
  name
    | profile10 => "WssUsernameToken10"
    | profile11 => "WssUsernameToken11"
  mem_all := by intro a; cases a <;> simp
  nodup_names := by simp

/-- The profile a token of this type follows. -/
def profile : UsernameTokenType → UsernameProfile
  | profile10 => .v10
  | profile11 => .v11

end UsernameTokenType

/-- What is asked of a username token. -/
structure UsernamePolicy where
  /-- The form of the password. -/
  passwordType : Option PasswordRequirement := none
  /-- Whether the time of creation has to be given, next to a plain password. -/
  created : Bool := false
  /-- Whether a nonce has to be given, next to a plain password. -/
  nonce : Bool := false
  /-- The profile the token has to follow. -/
  tokenType : Option UsernameTokenType := none
deriving DecidableEq

/-- The form asked of an X.509 certificate. -/
inductive X509TokenType where
  | v1Profile11
  | v3Profile10
  | v3Profile11
  | pkcs7Profile10
  | pkcs7Profile11
  | pkiPathProfile10
  | pkiPathProfile11
deriving DecidableEq

namespace X509TokenType

/-- The name of a form. -/
def name : X509TokenType → String
  | v1Profile11 => "WssX509V1Token11"
  | v3Profile10 => "WssX509V3Token10"
  | v3Profile11 => "WssX509V3Token11"
  | pkcs7Profile10 => "WssX509Pkcs7Token10"
  | pkcs7Profile11 => "WssX509Pkcs7Token11"
  | pkiPathProfile10 => "WssX509PkiPathV1Token10"
  | pkiPathProfile11 => "WssX509PkiPathV1Token11"

instance : Named X509TokenType where
  all := [v1Profile11, v3Profile10, v3Profile11, pkcs7Profile10, pkcs7Profile11,
    pkiPathProfile10, pkiPathProfile11]
  name := name
  mem_all := by intro a; cases a <;> simp
  nodup_names := by simp [name]

end X509TokenType

/-- What is asked of an X.509 certificate. -/
structure X509Policy where
  /-- The form of the certificate. -/
  tokenType : Option X509TokenType := none
  /-- Whether it has to be referred to by key identifier. -/
  keyIdentifierReference : Bool := false
  /-- Whether it has to be referred to by issuer and serial number. -/
  issuerSerialReference : Bool := false
  /-- Whether it has to be embedded. -/
  embeddedTokenReference : Bool := false
  /-- Whether it has to be referred to by thumbprint. -/
  thumbprintReference : Bool := false
deriving DecidableEq

/-- The form asked of a SAML assertion. -/
inductive SamlTokenType where
  | v10Profile10
  | v10Profile11
  | v11Profile10
  | v11Profile11
  | v20Profile11
deriving DecidableEq

namespace SamlTokenType

/-- The name of a form. -/
def name : SamlTokenType → String
  | v10Profile10 => "WssSamlV10Token10"
  | v10Profile11 => "WssSamlV10Token11"
  | v11Profile10 => "WssSamlV11Token10"
  | v11Profile11 => "WssSamlV11Token11"
  | v20Profile11 => "WssSamlV20Token11"

instance : Named SamlTokenType where
  all := [v10Profile10, v10Profile11, v11Profile10, v11Profile11, v20Profile11]
  name := name
  mem_all := by intro a; cases a <;> simp
  nodup_names := by simp [name]

/-- The name of the profile of a form. -/
def profileName : SamlTokenType → String
  | v10Profile10 => "SamlVersion10Profile10"
  | v10Profile11 => "SamlVersion10Profile11"
  | v11Profile10 => "SamlVersion11Profile10"
  | v11Profile11 => "SamlVersion11Profile11"
  | v20Profile11 => "SamlVersion20Profile11"

/-- The assertion version a form carries, for the forms that are supported.  Version 1.1 of SAML
under the 1.0 profile carries assertions of version 1.0. -/
def version? : SamlTokenType → Option SamlVersion
  | v10Profile10 | v10Profile11 => none
  | v11Profile10 => some .v10
  | v11Profile11 => some .v11
  | v20Profile11 => some .v20

end SamlTokenType

/-- What is asked of a SAML assertion. -/
structure SamlPolicy where
  /-- The form of the assertion. -/
  tokenType : Option SamlTokenType := none
  /-- Whether it has to be referred to by key identifier. -/
  keyIdentifierReference : Bool := false
deriving DecidableEq

/-- What is asked of a bare key. -/
structure KeyValuePolicy where
  /-- Whether it has to be an RSA key. -/
  rsaKeyValue : Bool := false
deriving DecidableEq

/-- The form asked of a Kerberos ticket. -/
inductive KerberosTokenType where
  | apReq
  | gssApReq
deriving DecidableEq

namespace KerberosTokenType

/-- The name of a form. -/
def name : KerberosTokenType → String
  | apReq => "WssKerberosV5ApReqToken11"
  | gssApReq => "WssGssKerberosV5ApReqToken11"

instance : Named KerberosTokenType where
  all := [apReq, gssApReq]
  name := name
  mem_all := by intro a; cases a <;> simp
  nodup_names := by simp [name]

/-- The ticket a form carries. -/
def ticketType : KerberosTokenType → KerberosTicketType
  | apReq => .apReq
  | gssApReq => .gssApReq

end KerberosTokenType

/-- What is asked of a Kerberos ticket. -/
structure KerberosPolicy where
  /-- The form of the ticket. -/
  tokenType : Option KerberosTokenType := none
  /-- Whether it has to be referred to by key identifier. -/
  keyIdentifierReference : Bool := false
deriving DecidableEq

/-- What is asked of a token issued by a token service. -/
structure IssuedPolicy where
  /-- The token type the issuer has to state. -/
  requiredTokenType : Option String := none
deriving DecidableEq

/-- What is asked of a security context token. -/
structure SecurityContextPolicy where
  /-- Whether it has to be outside the message. -/
  externalUriReference : Bool := false
deriving DecidableEq

/-- How a client has to sign in over HTTPS. -/
inductive HttpAuthenticationType where
  | basic
  | digest
deriving DecidableEq

namespace HttpAuthenticationType

/-- The name of a way to sign in. -/
def name : HttpAuthenticationType → String
  | basic => "HttpBasicAuthentication"
  | digest => "HttpDigestAuthentication"

instance : Named HttpAuthenticationType where
  all := [basic, digest]
  name := name
  mem_all := by intro a; cases a <;> simp
  nodup_names := by simp [name]

/-- The way a client signs in when it does what is asked. -/
def authentication : HttpAuthenticationType → HttpAuthentication
  | basic => .basic
  | digest => .digest

end HttpAuthenticationType

/-- What is asked of an HTTPS connection. -/
structure HttpsPolicy where
  /-- Whether the client has to show a certificate. -/
  clientCertificate : Bool := false
  /-- How the client has to sign in. -/
  authentication : Option HttpAuthenticationType := none
deriving DecidableEq

/-- What is asked of a token, by family. -/
inductive TokenKind where
  | username (policy : UsernamePolicy)
  | x509 (policy : X509Policy)
  | saml (policy : SamlPolicy)
  | keyValue (policy : KeyValuePolicy)
  | kerberos (policy : KerberosPolicy)
  | issued (policy : IssuedPolicy)
  | securityContext (policy : SecurityContextPolicy)
  | https (policy : HttpsPolicy)
deriving DecidableEq

/-- The family of tokens asked for. -/
def TokenKind.family : TokenKind → TokenFamily
  | username _ => .username
  | x509 _ => .x509
  | saml _ => .saml
  | keyValue _ => .keyValue
  | kerberos _ => .kerberos
  | issued _ => .issued
  | securityContext _ => .securityContext
  | https _ => .https

/-! ## Token assertions -/

/-- A token assertion. -/
structure TokenPolicy where
  /-- The node the assertion stands in. -/
  role : TokenRole
  /-- When the token has to be in the message. -/
  includeToken : IncludeToken := .always
  /-- How derived keys are asked for, if they are.  Without this, they are not allowed. -/
  derivedKeys : Option DerivedKeys := none
  /-- The issuer asked for, if any. -/
  issuerName : Option String := none
  /-- What is asked of a token of the family. -/
  kind : TokenKind
deriving DecidableEq

/-- The name of a token assertion: its role and its family. -/
def TokenPolicy.name (policy : TokenPolicy) : String :=
  policy.role.element ++ "/" ++ policy.kind.family.name

end SoapPolicy
