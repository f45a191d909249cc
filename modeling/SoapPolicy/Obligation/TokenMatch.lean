import SoapPolicy.Obligation.TokenProperties
import SoapPolicy.Token.Qualifiers
import SoapPolicy.Token.Wrapping

/-!
# Tokens against token assertions

A token event concerns a token assertion if some usage of the token fits the role the assertion
stands in.  Which roles a main signature or encryption fits depends on the side the local party is
on, since the keys of a request and of its response change places.  A token that concerns an
assertion conforms to it if it is in the message as asked, has derived keys exactly if asked, and
has the properties asked of its family.
-/

namespace SoapPolicy

/-! ## Roles -/

namespace TokenRole

/-- Whether the main signature of an incoming message is made with a token in this role. -/
def takesMainSignature (initiator : Bool) : TokenRole → Bool
  | recipient | recipientSignature => initiator
  | TokenRole.initiator | initiatorSignature => !initiator
  | signature | protection | transport => true
  | _ => false

/-- Whether an incoming message is encrypted with a token in this role. -/
def takesMainEncryption (initiator : Bool) : TokenRole → Bool
  | TokenRole.initiator | initiatorEncryption => initiator
  | recipient | recipientEncryption => !initiator
  | encryption | protection | transport => true
  | _ => false

/-- Whether a supporting token of a usage fits this role. -/
def takesSupporting (usage : TokenUsage) : TokenRole → Bool
  | supporting kind => Qualifiers.compatible kind.element usage.name
  | _ => false

/-- Whether a token of a usage fits this role.  A generic usage fits none. -/
def takes (role : TokenRole) (initiator : Bool) (usage : TokenUsage) : Bool :=
  match usage with
  | .mainSignature => role.takesMainSignature initiator
  | .mainEncryption => role.takesMainEncryption initiator
  | .signature | .encryption => false
  | _ => role.takesSupporting usage

end TokenRole

/-! ## Inclusion and derived keys -/

/-- Whether a token has to be in an incoming message, if the rule settles it. -/
def IncludeToken.demand (initiator : Bool) : IncludeToken → Option Bool
  | never => some false
  | once => none
  | alwaysToRecipient => some !initiator
  | alwaysToInitiator => some initiator
  | always => some true

/-- What is asked of the presence of a token. -/
def IncludeToken.shortfall (rule : IncludeToken) (initiator included : Bool) : Option Shortfall :=
  match rule.demand initiator with
  | none => none
  | some true => ask included .tokenNotIncluded
  | some false => ask (!included) .tokenIncluded

/-- What is asked of the keys of a token. -/
def DerivedKeys.shortfall (required : Option DerivedKeys) (derived : Bool) : Option Shortfall :=
  match required with
  | some _ => ask derived .derivedKeyMissing
  | none => ask (!derived) .derivedKeyUsed

/-! ## The verdict on a token -/

/-- What a token means for a token assertion. -/
inductive TokenVerdict where
  /-- The token plays no role the assertion stands in. -/
  | unconcerned
  /-- The token is as asked. -/
  | conforming
  /-- The token is not as asked.  `main` tells a main token, for which there is no substitute. -/
  | adverse (why : Shortfall) (main : Bool)
deriving DecidableEq

namespace TokenPolicy

/-- The first generic usage of a token makes it illegal.  It is named with the assertion. -/
def checkUsages (policy : TokenPolicy) (usages : List TokenUsage) : Except Failure Unit :=
  match usages.find? TokenUsage.isGeneric with
  | some usage =>
    .error (.illegalTokenUsage (usage.name ++ " cannot be asserted against " ++ policy.name))
  | none => .ok ()

/-- What a token falls short of.  A property of its family is named first, then derived keys, then
its presence. -/
def shortfall? (policy : TokenPolicy) (initiator : Bool) (token : SecurityToken) (derived : Bool)
    (details : TokenDetails) : Except Failure (Option Shortfall) := do
  let property ← policy.propertyShortfall token details
  return askAll [
    property,
    DerivedKeys.shortfall policy.derivedKeys derived,
    policy.includeToken.shortfall initiator token.included]

/-- What a token event means for a token assertion. -/
def judge (policy : TokenPolicy) (initiator : Bool) (r : Registry) (event : TokenEvent) :
    Except Failure TokenVerdict := do
  let token ← r.get event.token
  policy.checkUsages token.usages
  if token.usages.any (policy.role.takes initiator) then
    match ← policy.shortfall? initiator token (r.hasDerivedKeys event.token) event.details with
    | none => return .conforming
    | some why => return .adverse why (token.usages.any TokenUsage.isMain)
  else
    return .unconcerned

end TokenPolicy

end SoapPolicy
