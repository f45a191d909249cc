import SoapPolicy.Failure
import SoapPolicy.Shortfall

/-!
# Outcomes

What one event means for one assertion.  A message that falls short may still be mended by a later
event, or it may not, and then the alternative that holds the assertion is lost.
-/

namespace SoapPolicy

/-- What an event means for an assertion. -/
inductive Outcome where
  /-- The event meets the assertion, or the assertion was met before, or it is not concerned. -/
  | pass
  /-- The event falls short, and a later one may not. -/
  | recoverable (why : Shortfall)
  /-- The assertion can no longer be met. -/
  | fatal (why : Shortfall)
deriving DecidableEq

/-- Whether an outcome ends the alternative. -/
def Outcome.isFatal : Outcome → Bool
  | fatal _ => true
  | _ => false

/-- The failure of an event of another kind than an assertion reads. -/
def Failure.misdirected (reader expected : String) (event : SecurityEvent) : Failure :=
  .unexpectedEvent (reader ++ " expects a " ++ expected ++ " event but got " ++ event.kind.name)

end SoapPolicy
