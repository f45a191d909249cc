import SoapPolicy.Token.Basic

/-!
# Security events

An event is a fact about the message that is already established: a token was found, an element was
or was not signed, the operation is known.  Token events come in eight *families*, and say what is
particular to the token.  Events name tokens by handle.
-/

namespace SoapPolicy

/-! ## Kinds of events -/

/-- The families of tokens that policies and events tell apart. -/
inductive TokenFamily where
  | username
  | x509
  | saml
  | keyValue
  | kerberos
  | issued
  | securityContext
  | https
deriving DecidableEq

namespace TokenFamily

/-- The name of a family. -/
def name : TokenFamily → String
  | username => "UsernameToken"
  | x509 => "X509Token"
  | saml => "SamlToken"
  | keyValue => "KeyValueToken"
  | kerberos => "KerberosToken"
  | issued => "IssuedToken"
  | securityContext => "SecurityContextToken"
  | https => "HttpsToken"

instance : Named TokenFamily where
  all := [username, x509, saml, keyValue, kerberos, issued, securityContext, https]
  name := name
  mem_all := by intro a; cases a <;> simp
  nodup_names := by simp [name]

end TokenFamily

/-- The kind of an event, by which it finds the checks that ask for it. -/
inductive EventKind where
  | token (family : TokenFamily)
  | signedElement
  | encryptedElement
  | requiredElement
  | operation
deriving DecidableEq

namespace EventKind

/-- The name of a kind.  A token event goes by the name of its family. -/
def name : EventKind → String
  | token family => family.name
  | signedElement => "SignedElement"
  | encryptedElement => "EncryptedElement"
  | requiredElement => "RequiredElement"
  | operation => "Operation"

instance : Named EventKind where
  all := Named.all.map token ++ [signedElement, encryptedElement, requiredElement, operation]
  name := name
  mem_all := by
    intro a
    cases a with
    | token family => simpa using Named.mem_all family
    | _ => simp
  nodup_names := by simp [Named.all, name, TokenFamily.name]

/-- Whether an event of this kind reports a token. -/
def isToken : EventKind → Bool
  | token _ => true
  | _ => false

end EventKind

/-! ## Details of a token -/

/-- How the password of a username token is given. -/
inductive PasswordType where
  | none
  | digest
  | text
deriving DecidableEq

instance : Named PasswordType where
  all := [.none, .digest, .text]
  name
    | .none => "None"
    | .digest => "Digest"
    | .text => "Text"
  mem_all := by intro a; cases a <;> simp
  nodup_names := by simp

/-- The version of the profile a username token follows. -/
inductive UsernameProfile where
  | v10
  | v11
deriving DecidableEq

namespace UsernameProfile

instance : Named UsernameProfile where
  all := [v10, v11]
  name
    | v10 => "V10"
    | v11 => "V11"
  mem_all := by intro a; cases a <;> simp
  nodup_names := by simp

/-- The version number of a profile. -/
def text : UsernameProfile → String
  | v10 => "1.0"
  | v11 => "1.1"

/-- The profile a namespace stands for. -/
def ofUri? (uri : String) : Option UsernameProfile :=
  if uri = Namespace.usernameProfile10 then some v10
  else if uri = Namespace.usernameProfile11 then some v11
  else none

end UsernameProfile

/-- What a username token holds. -/
structure UsernameDetails where
  /-- How the password is given. -/
  passwordType : PasswordType
  /-- The time of creation, if given. -/
  created : Option String
  /-- The nonce, if given. -/
  nonce : Option String
  /-- The profile the token follows, if known. -/
  profile : Option UsernameProfile
deriving DecidableEq

/-- What an X.509 certificate holds. -/
structure X509Details where
  /-- The name of the issuer. -/
  issuerName : Option String
  /-- The version of the certificate. -/
  version : UInt8
deriving DecidableEq

/-- The version of a SAML assertion. -/
inductive SamlVersion where
  | v10
  | v11
  | v20
deriving DecidableEq

namespace SamlVersion

instance : Named SamlVersion where
  all := [v10, v11, v20]
  name
    | v10 => "V10"
    | v11 => "V11"
    | v20 => "V20"
  mem_all := by intro a; cases a <;> simp
  nodup_names := by simp

/-- The version number. -/
def text : SamlVersion → String
  | v10 => "1.0"
  | v11 => "1.1"
  | v20 => "2.0"

end SamlVersion

/-- What a SAML assertion holds. -/
structure SamlDetails where
  /-- The name of the issuer. -/
  issuerName : Option String
  /-- The version of the assertion. -/
  version : SamlVersion
deriving DecidableEq

/-- The algorithm a bare key is for. -/
inductive KeyValueType where
  | rsa
  | dsa
  | ec
deriving DecidableEq

namespace KeyValueType

instance : Named KeyValueType where
  all := [rsa, dsa, ec]
  name
    | rsa => "Rsa"
    | dsa => "Dsa"
    | ec => "Ec"
  mem_all := by intro a; cases a <;> simp
  nodup_names := by simp

/-- The element a key of this algorithm is written as. -/
def element : KeyValueType → String
  | rsa => "RsaKeyValue"
  | dsa => "DsaKeyValue"
  | ec => "ECKeyValue"

end KeyValueType

/-- What a bare key holds. -/
structure KeyValueDetails where
  /-- The algorithm. -/
  keyType : KeyValueType
deriving DecidableEq

/-- The form of a Kerberos ticket. -/
inductive KerberosTicketType where
  | apReq
  | gssApReq
deriving DecidableEq

namespace KerberosTicketType

/-- The name of a form. -/
def name : KerberosTicketType → String
  | apReq => "KerberosV5ApReq"
  | gssApReq => "GssKerberosV5ApReq"

instance : Named KerberosTicketType where
  all := [apReq, gssApReq]
  name := name
  mem_all := by intro a; cases a <;> simp
  nodup_names := by simp [name]

end KerberosTicketType

/-- What a Kerberos ticket holds. -/
structure KerberosDetails where
  /-- The name of the issuer. -/
  issuerName : Option String
  /-- The form of the ticket. -/
  ticketType : KerberosTicketType
deriving DecidableEq

/-- What a token issued by a token service holds. -/
structure IssuedDetails where
  /-- The address of the issuer. -/
  issuer : Option String
  /-- The token type the issuer states. -/
  tokenType : Option String
deriving DecidableEq

/-- What a security context token holds. -/
structure SecurityContextDetails where
  /-- The name of the issuer. -/
  issuerName : Option String
  /-- Whether the token is outside the message and only referred to. -/
  external : Bool
deriving DecidableEq

/-- How a client signs in over HTTPS. -/
inductive HttpAuthentication where
  | none
  | basic
  | digest
deriving DecidableEq

namespace HttpAuthentication

/-- The name of a way to sign in. -/
def name : HttpAuthentication → String
  | none => "None"
  | basic => "Basic"
  | digest => "Digest"

instance : Named HttpAuthentication where
  all := [none, basic, digest]
  name := name
  mem_all := by intro a; cases a <;> simp
  nodup_names := by simp [name]

end HttpAuthentication

/-- What an HTTPS connection offers as a token. -/
structure HttpsDetails where
  /-- Whether the client showed a certificate. -/
  clientCertificate : Bool
  /-- How the client signed in. -/
  authentication : HttpAuthentication
deriving DecidableEq

/-- What is particular to a token, by family. -/
inductive TokenDetails where
  | username (details : UsernameDetails)
  | x509 (details : X509Details)
  | saml (details : SamlDetails)
  | keyValue (details : KeyValueDetails)
  | kerberos (details : KerberosDetails)
  | issued (details : IssuedDetails)
  | securityContext (details : SecurityContextDetails)
  | https (details : HttpsDetails)
deriving DecidableEq

/-- The family of a token. -/
def TokenDetails.family : TokenDetails → TokenFamily
  | username _ => .username
  | x509 _ => .x509
  | saml _ => .saml
  | keyValue _ => .keyValue
  | kerberos _ => .kerberos
  | issued _ => .issued
  | securityContext _ => .securityContext
  | https _ => .https

/-! ## Events -/

/-- The two ways to protect an element. -/
inductive Protection where
  | signature
  | encryption
deriving DecidableEq

namespace Protection

instance : Named Protection where
  all := [signature, encryption]
  name
    | signature => "Signature"
    | encryption => "Encryption"
  mem_all := by intro a; cases a <;> simp
  nodup_names := by simp

end Protection

/-- A token was found. -/
structure TokenEvent where
  /-- The token. -/
  token : TokenId
  /-- What is particular to it. -/
  details : TokenDetails
deriving DecidableEq

/-- An element was found protected, or found lacking protection. -/
structure ProtectionEvent where
  /-- The token that protects the element. -/
  token : TokenId
  /-- The element. -/
  path : ElementPath
  /-- Whether the element is protected. -/
  isProtected : Bool
  /-- The protections of the element, in the order they were applied. -/
  order : List Protection := []
deriving DecidableEq

/-- A fact established about a message. -/
inductive SecurityEvent where
  /-- A token was found. -/
  | token (event : TokenEvent)
  /-- An element is signed, or is not. -/
  | signedElement (event : ProtectionEvent)
  /-- An element is encrypted, or is not. -/
  | encryptedElement (event : ProtectionEvent)
  /-- An element is present. -/
  | requiredElement (path : ElementPath)
  /-- The message asks for an operation. -/
  | operation (name : QName)
deriving DecidableEq

namespace SecurityEvent

/-- An element that is signed, or is not, by a single protection. -/
def ofSigned (token : TokenId) (path : ElementPath) (signed : Bool) : SecurityEvent :=
  .signedElement ⟨token, path, signed, [.signature]⟩

/-- An element that is encrypted, or is not, by a single protection. -/
def ofEncrypted (token : TokenId) (path : ElementPath) (encrypted : Bool) : SecurityEvent :=
  .encryptedElement ⟨token, path, encrypted, [.encryption]⟩

/-- The kind of an event. -/
def kind : SecurityEvent → EventKind
  | token event => .token event.details.family
  | signedElement _ => .signedElement
  | encryptedElement _ => .encryptedElement
  | requiredElement _ => .requiredElement
  | operation _ => .operation

/-- The token an event speaks of. -/
def token? : SecurityEvent → Option TokenId
  | token event => some event.token
  | signedElement event => some event.token
  | encryptedElement event => some event.token
  | requiredElement _ => none
  | operation _ => none

end SecurityEvent

end SoapPolicy
