import SoapPolicy.Obligation.TokenMatch
import SoapPolicy.Obligation.TokenProtection
import SoapPolicy.Policy.Basic
import SoapPolicy.XPath.Compile

/-!
# Obligations

An obligation is one assertion of a policy while a message is checked against it: what is demanded,
whether it is met so far, and what the message falls short of.  An obligation hears the events of
certain kinds.  It takes down in place what an event means for it, and answers with an outcome.  Only an
event that it cannot read is a failure.
-/

namespace SoapPolicy

/-! ## Demands -/

/-- What is demanded of a message, with what was seen of it. -/
inductive Demand where
  /-- A token.  `initiator` tells the side of the local party. -/
  | token (policy : TokenPolicy) (initiator : Bool)
  /-- Protected elements. -/
  | protection (protection : Protection) (patterns : List ElementPattern)
  /-- Elements that are present.  Each pattern comes with whether it was seen. -/
  | presence (patterns : List (ElementPattern × Bool))
  /-- Token protection, with the record of the header if the binding asks for it. -/
  | tokenProtection (binding : BindingType) (record : Option HeaderRecord)
deriving DecidableEq

/-- The name of the assertion for a protection. -/
def Protection.assertionName : Protection → String
  | signature => "SignedElements"
  | encryption => "EncryptedElements"

/-- The kind of the events that report a protection. -/
def Protection.eventKind : Protection → EventKind
  | signature => .signedElement
  | encryption => .encryptedElement

/-- What an event reports of a protection. -/
def Protection.report? : Protection → SecurityEvent → Option ProtectionEvent
  | signature, .signedElement event => some event
  | encryption, .encryptedElement event => some event
  | _, _ => none

namespace Demand

/-- The name of a demand. -/
def name : Demand → String
  | token policy _ => policy.name
  | protection kind _ => kind.assertionName
  | presence _ => "RequiredElements"
  | tokenProtection binding _ => binding.name ++ "/ProtectTokens"

/-- The kinds of events that concern a demand. -/
def kinds : Demand → List EventKind
  | token policy _ => [.token policy.kind.family]
  | protection kind _ => [kind.eventKind]
  | presence _ => [.requiredElement]
  | tokenProtection _ (some _) => Named.all.map .token ++ [.signedElement, .operation]
  | tokenProtection _ none => []

end Demand

/-! ## Obligations -/

/-- An assertion while a message is checked against it. -/
structure Obligation where
  /-- What is demanded. -/
  demand : Demand
  /-- Whether the demand is met so far. -/
  met : Bool
  /-- What the message falls short of, if anything is known. -/
  shortfall : Option Shortfall := none
deriving DecidableEq

namespace Obligation

/-- The name of the assertion. -/
def name (o : Obligation) : String := o.demand.name

/-- The kinds of events the obligation reads. -/
def kinds (o : Obligation) : List EventKind := o.demand.kinds

/-- The obligation once it is met. -/
def fulfilled (o : Obligation) : Obligation :=
  { o with met := true, shortfall := none }

/-- The obligation once an event falls short.  Whether it is met stays as it is. -/
def missedBy (o : Obligation) (why : Shortfall) : Obligation :=
  { o with shortfall := some why }

/-- The obligation once it is broken. -/
def broken (o : Obligation) (why : Shortfall) : Obligation :=
  { o with met := false, shortfall := some why }

/-- The obligation to see every pattern.  It is met once each was seen, and until then it falls
short of the first that was not. -/
def ofPresence (patterns : List (ElementPattern × Bool)) : Obligation :=
  match patterns.find? fun (_, seen) => !seen with
  | some (pattern, _) => ⟨.presence patterns, false, some (.elementMissing pattern)⟩
  | none => ⟨.presence patterns, true, none⟩

/-- The patterns of the elements an assertion speaks of. -/
def patternsOf (policy : ElementsPolicy) : Except Failure (List ElementPattern) :=
  policy.xpaths.mapM fun xpath =>
    match xpath.compile with
    | .ok pattern => .ok pattern
    | .error e => .error (.invalidPolicy e.message)

/-- The obligation to protect elements.  Where there are none, it is met. -/
def ofProtection (protection : Protection) (policy : ElementsPolicy) : Except Failure Obligation := do
  let patterns ← patternsOf policy
  return { demand := .protection protection patterns, met := patterns.isEmpty }

/-- The obligation an assertion puts on a message, before any event. -/
def ofAssertion (assertion : PolicyAssertion) (initiator : Bool) : Except Failure Obligation :=
  match assertion with
  | .token policy => .ok { demand := .token policy initiator, met := false }
  | .signedElements policy => ofProtection .signature policy
  | .encryptedElements policy => ofProtection .encryption policy
  | .requiredElements policy => do
    return ofPresence ((← patternsOf policy).map fun pattern => (pattern, false))
  | .binding policy =>
    .ok {
      demand := .tokenProtection policy.binding (if policy.protectTokens then some {} else none)
      met := true }

/-! ## Hearing an event -/

/-- What an obligation does with an event, in place.  It may fail on the way, and then leaves what it has
written. -/
abbrev Hearing := ExceptT Failure (StateM Obligation)

/-- What a hearing comes to: the obligation after it, also if it failed, and the answer. -/
def Hearing.result (hearing : Hearing Outcome) (o : Obligation) : Obligation × Except Failure Outcome :=
  let (answer, o') := hearing.run.run o
  (o', answer)

/-- Write whether the demand is met. -/
def setMet (met : Bool) : Hearing Unit :=
  modifyThe Obligation fun o => { o with met }

/-- Write what the message falls short of. -/
def setShortfall (shortfall : Option Shortfall) : Hearing Unit :=
  modifyThe Obligation fun o => { o with shortfall }

/-- Write what is demanded, with what was seen of it. -/
def setDemand (demand : Demand) : Hearing Unit :=
  modifyThe Obligation fun o => { o with demand }

/-- Write that the demand is met. -/
def fulfill : Hearing Unit := do
  setMet true
  setShortfall none

/-- Write that the demand cannot be met any more. -/
def giveUp (why : Shortfall) : Hearing Unit := do
  setMet false
  setShortfall (some why)

/-- Hear an event for a token.  Once the demand is met, every event passes. -/
def hearToken (policy : TokenPolicy) (initiator : Bool) (r : Registry) (event : SecurityEvent) :
    Hearing Outcome := do
  if (← getThe Obligation).met then return .pass
  match event with
  | .token event =>
    match ← liftExcept (policy.judge initiator r event) with
    | .unconcerned => return .pass
    | .conforming =>
      fulfill
      return .pass
    | .adverse why main =>
      setShortfall (some why)
      return if main then .fatal why else .recoverable why
  | event => throw (.misdirected policy.name "token" event)

/-- Hear an event for a protection.  The first event for a matching element decides. -/
def hearProtection (protection : Protection) (patterns : List ElementPattern)
    (event : SecurityEvent) : Hearing Outcome := do
  match protection.report? event with
  | none => throw (.misdirected protection.assertionName protection.eventKind.name event)
  | some report =>
    if (← getThe Obligation).met then return .pass
    if !patterns.any (·.accepts report.path) then return .pass
    if report.isProtected then
      fulfill
      return .pass
    let why := Shortfall.unprotected protection report.path
    giveUp why
    return .fatal why

/-- Hear an event for elements that have to be present. -/
def hearPresence (patterns : List (ElementPattern × Bool)) (event : SecurityEvent) :
    Hearing Outcome := do
  match event with
  | .requiredElement path =>
    if (← getThe Obligation).met then return .pass
    set (ofPresence (patterns.map fun (pattern, seen) => (pattern, seen || pattern.accepts path)))
    return .pass
  | event => throw (.misdirected "RequiredElements" EventKind.requiredElement.name event)

/-- Hear an event for token protection.  The operation event settles what is on record. -/
def hearHeader (binding : BindingType) (record : HeaderRecord) (r : Registry)
    (event : SecurityEvent) : Hearing Outcome := do
  match event with
  | .token event =>
    setDemand (.tokenProtection binding (record.addToken event.token))
    return .pass
  | .signedElement event =>
    setDemand (.tokenProtection binding (record.addElement event))
    return .pass
  | .operation _ =>
    match ← liftExcept (record.shortfall? r) with
    | none => return .pass
    | some why =>
      giveUp why
      return .fatal why
  | event =>
    throw (.unexpectedEvent ("token protection does not handle " ++ event.kind.name ++ " events"))

/-- Hear an event. -/
def hearEvent (r : Registry) (event : SecurityEvent) : Hearing Outcome := do
  match (← getThe Obligation).demand with
  | .token policy initiator => hearToken policy initiator r event
  | .protection protection patterns => hearProtection protection patterns event
  | .presence patterns => hearPresence patterns event
  | .tokenProtection binding (some record) => hearHeader binding record r event
  | .tokenProtection _ none => return .pass

/-- What an event means for an obligation, with the obligation after it, also if the event could not be
read. -/
def hear (r : Registry) (o : Obligation) (event : SecurityEvent) :
    Obligation × Except Failure Outcome :=
  (hearEvent r event).result o

end Obligation

end SoapPolicy
