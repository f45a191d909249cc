import SoapPolicy.Json.Context
import SoapPolicy.Json.Parser
import SoapPolicy.Json.Policy

/-!
# Recorded messages

A recording holds the tokens and the events of one message.  Checking it against a policy gives a
report: the lines to print and the exit code of the check.
-/

namespace SoapPolicy

open Json

/-- The tokens and events of a message.  Events name tokens by their place. -/
structure Recording where
  /-- How the message is checked. -/
  context : EnforcerContext := {}
  /-- The tokens, in the order of their handles. -/
  tokens : List SecurityToken
  /-- The events, oldest first. -/
  events : List SecurityEvent

instance : Codec Recording where
  toJson r := .obj [
    ("context", toJson r.context),
    ("tokens", toJson r.tokens),
    ("events", toJson r.events)]
  ofJson? j := do
    let fields ← j.fields?
    return {
      context := ← fields.defaulted "context" {}
      tokens := ← fields.required "tokens"
      events := ← fields.required "events" }

/-- What a check prints, and how it ends. -/
structure Report where
  /-- The exit code. -/
  exitCode : Nat
  /-- The lines printed. -/
  lines : List String
deriving DecidableEq

namespace Report

/-- The report of a check with too few arguments. -/
def usage : Report :=
  ⟨2, ["usage: check_policy <policy.json> <recording.json>"]⟩

/-- The report of a check that cannot begin. -/
def unreadable : Report := ⟨101, []⟩

/-- Put a line in front. -/
def after (line : String) (report : Report) : Report :=
  { report with lines := line :: report.lines }

/-- The report of a failure. -/
def ofFailure (f : Failure) : Report := ⟨1, ["FAIL: " ++ f.message]⟩

end Report

/-- The line for an obligation that is not met. -/
def Obligation.line (o : Obligation) : String :=
  "unsatisfied: " ++ o.name ++ ": " ++ (o.shortfall.map Shortfall.message).getD ""

namespace Enforcer

/-- The report of the verdict. -/
def finalReport (e : Enforcer) : Report :=
  match e.finish with
  | (_, .ok true) => ⟨0, ["OK"]⟩
  | (e, .ok false) => ⟨0, e.unmet.map Obligation.line ++ ["FAIL (soft)"]⟩
  | (_, .error f) => .ofFailure f

/-- The report of a check that goes on with these events. -/
def reportOf (e : Enforcer) : List SecurityEvent → Report
  | [] => e.finalReport
  | event :: events =>
    .after ("event: " ++ event.kind.name) <|
      match e.register event with
      | (e, .ok ()) => e.reportOf events
      | (_, .error f) => .ofFailure f

end Enforcer

/-- The report of a check.  A policy that cannot be evaluated leaves nothing to check. -/
def Recording.check (recording : Recording) (policy : Policy) : Report :=
  match Enforcer.ofPolicy policy recording.context with
  | .error _ => .unreadable
  | .ok enforcer => { enforcer with tokens := ⟨recording.tokens⟩ }.reportOf recording.events

/-- The report for the texts that the arguments of a check name: a policy and a recording. -/
def Report.ofTexts : List String → Report
  | policyText :: recordingText :: _ =>
    match (parse? policyText).bind ofJson?, (parse? recordingText).bind ofJson? with
    | some (policy : Policy), some (recording : Recording) => recording.check policy
    | _, _ => .unreadable
  | _ => .usage

end SoapPolicy
