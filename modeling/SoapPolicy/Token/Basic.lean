import SoapPolicy.Named
import SoapPolicy.ElementPath
import SoapPolicy.Text.Search

/-!
# Security tokens

A security token is a credential found in a message: a certificate, a name with a password, a key.
Tokens refer to one another by handle.  A token that encrypts or derives other keys *wraps* them,
and each side of that relation is stored: the tokens a token wraps, and the token that wraps it.
-/

namespace SoapPolicy

/-! ## Types and usages -/

/-- What a token is. -/
inductive TokenType where
  | username
  | x509V1
  | x509V3
  | x509Pkcs7
  | x509PkiPathV1
  | keyValue
  | derivedKey
  | encryptedKey
  | saml10
  | saml11
  | saml20
  | kerberos
  | securityContext
  | issued
  | https
deriving DecidableEq

namespace TokenType

/-- The name of a token type. -/
def name : TokenType → String
  | username => "UsernameToken"
  | x509V1 => "X509V1Token"
  | x509V3 => "X509V3Token"
  | x509Pkcs7 => "X509Pkcs7Token"
  | x509PkiPathV1 => "X509PkiPathV1Token"
  | keyValue => "KeyValueToken"
  | derivedKey => "DerivedKeyToken"
  | encryptedKey => "EncryptedKeyToken"
  | saml10 => "Saml10Token"
  | saml11 => "Saml11Token"
  | saml20 => "Saml20Token"
  | kerberos => "KerberosToken"
  | securityContext => "SecurityContextToken"
  | issued => "IssuedToken"
  | https => "HttpsToken"

instance : Named TokenType where
  all := [username, x509V1, x509V3, x509Pkcs7, x509PkiPathV1, keyValue, derivedKey, encryptedKey,
    saml10, saml11, saml20, kerberos, securityContext, issued, https]
  name := name
  mem_all := by intro a; cases a <;> simp
  nodup_names := by simp [name]

/-- Whether a type is one of the forms of an X.509 certificate. -/
def isX509 : TokenType → Bool
  | x509V1 | x509V3 | x509Pkcs7 | x509PkiPathV1 => true
  | _ => false

end TokenType

/-- The role a token plays in a message.  A token may play several. -/
inductive TokenUsage where
  /-- A signing key, below the level of policy. -/
  | signature
  /-- An encryption key, below the level of policy. -/
  | encryption
  | mainSignature
  | mainEncryption
  | supporting
  | signedSupporting
  | signedEndorsingSupporting
  | signedEncryptedSupporting
  | signedEndorsingEncryptedSupporting
  | endorsingEncryptedSupporting
  | endorsingSupporting
  | encryptedSupporting
deriving DecidableEq

namespace TokenUsage

/-- The name of a usage.  The qualifiers of a supporting token are words of this name. -/
def name : TokenUsage → String
  | signature => "Signature"
  | encryption => "Encryption"
  | mainSignature => "MainSignature"
  | mainEncryption => "MainEncryption"
  | supporting => "SupportingTokens"
  | signedSupporting => "SignedSupportingTokens"
  | signedEndorsingSupporting => "SignedEndorsingSupportingTokens"
  | signedEncryptedSupporting => "SignedEncryptedSupportingTokens"
  | signedEndorsingEncryptedSupporting => "SignedEndorsingEncryptedSupportingTokens"
  | endorsingEncryptedSupporting => "EndorsingEncryptedSupportingTokens"
  | endorsingSupporting => "EndorsingSupportingTokens"
  | encryptedSupporting => "EncryptedSupportingTokens"

instance : Named TokenUsage where
  all := [signature, encryption, mainSignature, mainEncryption, supporting, signedSupporting,
    signedEndorsingSupporting, signedEncryptedSupporting, signedEndorsingEncryptedSupporting,
    endorsingEncryptedSupporting, endorsingSupporting, encryptedSupporting]
  name := name
  mem_all := by intro a; cases a <;> simp
  nodup_names := by simp [name]

/-- A usage that no policy speaks of. -/
def isGeneric : TokenUsage → Bool
  | signature | encryption => true
  | _ => false

/-- The main signature or the main encryption, for which no other token can stand in. -/
def isMain : TokenUsage → Bool
  | mainSignature | mainEncryption => true
  | _ => false

/-- The usage of a supporting token. -/
def isSupporting (usage : TokenUsage) : Bool :=
  !usage.isGeneric && !usage.isMain

/-- Whether the token makes a signature, as main or endorsing signature or below policy. -/
def isSigning (usage : TokenUsage) : Bool :=
  Text.contains usage.name "Signature" || Text.contains usage.name "Endorsing"

/-- Whether the token signs the main signature. -/
def isEndorsing (usage : TokenUsage) : Bool :=
  Text.contains usage.name "Endorsing"

/-- Whether the main signature has to sign the token. -/
def isSigned (usage : TokenUsage) : Bool :=
  Text.startsWith usage.name "Signed"

end TokenUsage

/-- How the signature or encryption that uses a token refers to it. -/
inductive KeyIdentifier where
  | issuerSerial
  | skiKeyIdentifier
  | x509KeyIdentifier
  | x509SubjectName
  | thumbprintIdentifier
  | encryptedKeySha1Identifier
  | kerberosSha1Identifier
  | securityTokenDirectReference
  | embeddedKeyIdentifierRef
  | externalUriReference
  | keyValue
deriving DecidableEq

namespace KeyIdentifier

/-- The name of a kind of reference. -/
def name : KeyIdentifier → String
  | issuerSerial => "IssuerSerial"
  | skiKeyIdentifier => "SkiKeyIdentifier"
  | x509KeyIdentifier => "X509KeyIdentifier"
  | x509SubjectName => "X509SubjectName"
  | thumbprintIdentifier => "ThumbprintIdentifier"
  | encryptedKeySha1Identifier => "EncryptedKeySha1Identifier"
  | kerberosSha1Identifier => "KerberosSha1Identifier"
  | securityTokenDirectReference => "SecurityTokenDirectReference"
  | embeddedKeyIdentifierRef => "EmbeddedKeyIdentifierRef"
  | externalUriReference => "ExternalUriReference"
  | keyValue => "KeyValue"

instance : Named KeyIdentifier where
  all := [issuerSerial, skiKeyIdentifier, x509KeyIdentifier, x509SubjectName,
    thumbprintIdentifier, encryptedKeySha1Identifier, kerberosSha1Identifier,
    securityTokenDirectReference, embeddedKeyIdentifierRef, externalUriReference, keyValue]
  name := name
  mem_all := by intro a; cases a <;> simp
  nodup_names := by simp [name]

end KeyIdentifier

/-! ## Tokens -/

/-- The handle of a token: its place among the tokens of the message. -/
structure TokenId where
  /-- The place, counted from zero. -/
  index : UInt64
deriving DecidableEq

/-- The text of a handle. -/
def TokenId.text (id : TokenId) : String :=
  "token#" ++ toString id.index.toNat

/-- A credential found in a message. -/
structure SecurityToken where
  /-- The identifier the token has in the document, if any. -/
  id : Option String := none
  /-- What the token is. -/
  type : TokenType
  /-- The roles the token plays. -/
  usages : List TokenUsage := []
  /-- Where the token stands in the document.  A token that is only referred to has no place. -/
  path : Option ElementPath := none
  /-- Whether the token itself is in the message. -/
  included : Bool := false
  /-- How the token is referred to. -/
  keyIdentifier : Option KeyIdentifier := none
  /-- The tokens this one wraps. -/
  wrapped : List TokenId := []
  /-- The token that wraps this one. -/
  wrapper : Option TokenId := none
deriving DecidableEq

namespace SecurityToken

/-- Whether the token plays a role. -/
def hasUsage (token : SecurityToken) (usage : TokenUsage) : Bool :=
  token.usages.contains usage

/-- Give the token one more role.  A role it plays already is not repeated. -/
def addUsage (token : SecurityToken) (usage : TokenUsage) : SecurityToken :=
  if token.hasUsage usage then token else { token with usages := token.usages ++ [usage] }

/-- List one more token that the token wraps.  One that is listed already is not repeated. -/
def addWrapped (token : SecurityToken) (inner : TokenId) : SecurityToken :=
  if token.wrapped.contains inner then token else { token with wrapped := token.wrapped ++ [inner] }

/-- Give the token a place in the document.  A token with a place is in the message. -/
def placedAt (token : SecurityToken) (path : ElementPath) : SecurityToken :=
  { token with path := some path, included := true }

/-- The place of the token, empty for a token without one. -/
def place (token : SecurityToken) : ElementPath :=
  token.path.getD []

/-- Whether the token makes a signature. -/
def isSigning (token : SecurityToken) : Bool :=
  token.usages.any TokenUsage.isSigning

/-- Whether the token signs the main signature. -/
def isEndorsing (token : SecurityToken) : Bool :=
  token.usages.any TokenUsage.isEndorsing

/-- Whether the main signature has to sign the token. -/
def isSigned (token : SecurityToken) : Bool :=
  token.usages.any TokenUsage.isSigned

end SecurityToken

end SoapPolicy
