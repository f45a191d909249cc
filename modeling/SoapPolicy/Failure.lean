import SoapPolicy.Named

/-!
# Failures

What can go wrong while a message is checked.  A `security` failure says that the message breaks
its policy.  Every other failure says that the policy, an event or a call cannot be used as it is.
`Failure.message` is the one place where failures are put into words.
-/

namespace SoapPolicy

/-- The fault a party reports for a message it does not accept. -/
inductive FaultCode where
  | unsupportedSecurityToken
  | unsupportedAlgorithm
  | invalidSecurity
  | invalidSecurityToken
  | failedAuthentication
  | failedCheck
  | securityTokenUnavailable
  | messageExpired
deriving DecidableEq

namespace FaultCode

/-- The local part of the name of a fault. -/
def name : FaultCode → String
  | unsupportedSecurityToken => "UnsupportedSecurityToken"
  | unsupportedAlgorithm => "UnsupportedAlgorithm"
  | invalidSecurity => "InvalidSecurity"
  | invalidSecurityToken => "InvalidSecurityToken"
  | failedAuthentication => "FailedAuthentication"
  | failedCheck => "FailedCheck"
  | securityTokenUnavailable => "SecurityTokenUnavailable"
  | messageExpired => "MessageExpired"

instance : Named FaultCode where
  all := [unsupportedSecurityToken, unsupportedAlgorithm, invalidSecurity, invalidSecurityToken,
    failedAuthentication, failedCheck, securityTokenUnavailable, messageExpired]
  name := name
  mem_all := by intro a; cases a <;> simp
  nodup_names := by simp [name]

/-- The name of a fault with its usual prefix. -/
def text (code : FaultCode) : String :=
  "wsse:" ++ code.name

/-- The sentence a fault is explained by. -/
def description : FaultCode → String
  | unsupportedSecurityToken => "An unsupported token was provided"
  | unsupportedAlgorithm => "An unsupported signature or encryption algorithm was used"
  | invalidSecurity => "An error was discovered processing the <wsse:Security> header"
  | invalidSecurityToken => "An invalid security token was provided"
  | failedAuthentication => "The security token could not be authenticated or authorized"
  | failedCheck => "The signature or decryption was invalid"
  | securityTokenUnavailable => "Referenced security token could not be retrieved"
  | messageExpired => "The message has expired"

end FaultCode

/-- A reason why a check stops without an answer. -/
inductive Failure where
  /-- The message is not accepted.  The violation says what it breaks. -/
  | security (code : FaultCode) (violation : String)
  /-- A token is used in a way no policy speaks of. -/
  | illegalTokenUsage (detail : String)
  /-- An event reached a check that cannot read it. -/
  | unexpectedEvent (detail : String)
  /-- A policy cannot be evaluated. -/
  | invalidPolicy (detail : String)
  /-- A handle names no token. -/
  | unknownToken (handle : String)
  /-- There is neither a policy for an operation nor a default. -/
  | noOperationPolicy (operation : String)
  /-- The verdict on the message has been given, and no more events are taken. -/
  | finalized
deriving DecidableEq

/-- The text of a failure. -/
def Failure.message : Failure → String
  | security code violation => code.description ++ ": " ++ violation
  | illegalTokenUsage detail => "illegal token usage: " ++ detail
  | unexpectedEvent detail => "unexpected security event: " ++ detail
  | invalidPolicy detail => "invalid policy: " ++ detail
  | unknownToken handle => "unknown security token: " ++ handle
  | noOperationPolicy operation => "no policy found for operation " ++ operation
  | finalized => "policy enforcer already finalized"

end SoapPolicy
