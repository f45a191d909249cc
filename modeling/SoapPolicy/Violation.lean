import SoapPolicy.Failure
import SoapPolicy.Shortfall

/-!
# Violations

A violation is the reason why a message as a whole is not accepted.  A party that reports it does
so as an invalid security header.
-/

namespace SoapPolicy

/-- A reason why a message does not satisfy its policy. -/
inductive Violation where
  /-- The policy has no alternative to satisfy. -/
  | noAlternatives
  /-- An assertion of an alternative still open is not met. -/
  | unmet (assertion : String) (why : Option Shortfall)
  /-- The last open alternative was lost. -/
  | lost (why : Shortfall)
  /-- No alternative is satisfied, for no known reason. -/
  | noneSatisfied
  /-- The message asked for no operation, so there is no policy to check. -/
  | noOperation
  /-- The check stopped with a failure, given by its text. -/
  | stopped (failure : String)
deriving DecidableEq

namespace Violation

/-- The text of a violation. -/
def message : Violation → String
  | noAlternatives => "Policy has no alternatives"
  | unmet assertion none => "Assertion " ++ assertion ++ " not satisfied"
  | unmet assertion (some why) =>
    "Assertion " ++ assertion ++ " not satisfied: " ++ why.message
  | lost why => why.message
  | noneSatisfied => "No policy alternative could be satisfied"
  | noOperation => "No SOAP operation was dispatched"
  | stopped failure => failure

/-- The failure that reports a violation. -/
def failure (violation : Violation) : Failure :=
  .security .invalidSecurity violation.message

end Violation

end SoapPolicy
