import SoapPolicy.Proofs.Enforcer.Replay
import SoapPolicy.Proofs.Enforcer.Runs
import SoapPolicy.Proofs.TokenProtection.Check

/-!
# Accepted messages and token protection

If every alternative of a policy asks for token protection, a message that is accepted meets its
demands, provided that the operation event is there and ends the header
(`eventsProtected_of_accepted`).  Without that event nothing is looked at, and a message may be
accepted with a token that is not signed (`accepts_unsigned_certificate`).

The invariant of the run is `Watches`: every open alternative has the same record of the header.  An
event that leaves an alternative open puts itself on that record, and an operation event leaves one
open only if the record falls short of nothing.
-/

namespace SoapPolicy

variable {r : Registry} {event : SecurityEvent} {record : HeaderRecord}

/-! ## One event -/

/-- An obligation for token protection that lets an event pass has put it on record.  An operation
event passes only if the record falls short of nothing. -/
theorem Obligation.read_header {o : Obligation} {binding : BindingType}
    (hd : o.demand = .tokenProtection binding (some record))
    (quiet : (o.read r event).2 = .ok none) :
    (o.read r event).1.demand = .tokenProtection binding (some (record.note event)) ∧
      ∀ name, event = .operation name → record.shortfall? r = .ok none := by
  refine ⟨demand_read hd r event, ?_⟩
  rintro name rfl
  obtain ⟨demand, met, shortfall⟩ := o
  cases hd
  rw [read_operation] at quiet
  cases verified : record.shortfall? r with
  | error f =>
    rw [verified] at quiet
    cases quiet
  | ok answer =>
    rw [verified] at quiet
    cases answer with
    | none => rfl
    | some why => cases quiet

/-- An alternative that stays open has put the event on its record. -/
theorem Candidate.observe_header {c : Candidate} {o : Obligation} {binding : BindingType}
    (ho : o ∈ c.obligations) (hd : o.demand = .tokenProtection binding (some record))
    (read : ∃ why, (c.observe r event).2 = .ok why)
    (viable : (c.observe r event).1.isViable = true) :
    (∃ o' ∈ (c.observe r event).1.obligations,
        o'.demand = .tokenProtection binding (some (record.note event))) ∧
      ∀ name, event = .operation name → record.shortfall? r = .ok none := by
  have open_before := isViable_of_observe viable
  obtain ⟨os, _ | why⟩ := c
  · rw [observe_fst_of_open] at viable ⊢
    rw [observe_snd_of_open] at read
    obtain ⟨why, read⟩ := read
    -- a fatal answer would have closed the alternative, so every obligation let the event pass
    have none_lost : why = none := by
      rw [read] at viable
      exact Option.isNone_iff_eq_none.1 viable
    subst none_lost
    have quiet := observeAll_quiet_iff.1 read
    obtain ⟨demand, verified⟩ := Obligation.read_header hd (quiet o ho)
    refine ⟨⟨(o.read r event).1, ?_, demand⟩, verified⟩
    rw [observeAll_fst_of_quiet quiet]
    exact List.mem_map_of_mem ho
  · cases open_before

/-! ## Runs -/

/-- Every open alternative has this record of the header. -/
def Evaluation.Watches (ev : Evaluation) (record : HeaderRecord) : Prop :=
  ∀ c ∈ ev.candidates, c.isViable = true →
    ∃ o ∈ c.obligations, ∃ binding, o.demand = .tokenProtection binding (some record)

namespace Evaluation

variable {ev : Evaluation}

/-- An event is put on the record of every alternative that stays open. -/
theorem watches_observe (h : ev.Watches record) {why : Option Shortfall}
    (read : (ev.observe r event).2 = .ok why) :
    (ev.observe r event).1.Watches (record.note event) ∧
      ∀ name, event = .operation name → (ev.observe r event).1.isSatisfied = true →
        record.shortfall? r = .ok none := by
  have each : ∀ c' ∈ (ev.observe r event).1.candidates, c'.isViable = true →
      (∃ o ∈ c'.obligations, ∃ binding,
        o.demand = .tokenProtection binding (some (record.note event))) ∧
        ∀ name, event = .operation name → record.shortfall? r = .ok none := by
    rw [observe_candidates read]
    intro c' hc' viable
    obtain ⟨c, hc, rfl⟩ := List.mem_map.1 hc'
    obtain ⟨o, ho, binding, hd⟩ := h c hc (Candidate.isViable_of_observe viable)
    obtain ⟨⟨o', ho', hd'⟩, verified⟩ :=
      Candidate.observe_header ho hd (observe_ok_iff.1 ⟨why, read⟩ c hc) viable
    exact ⟨⟨o', ho', binding, hd'⟩, verified⟩
  refine ⟨fun c' hc' viable => (each c' hc' viable).1, fun name hname satisfied => ?_⟩
  obtain ⟨c', hc', viable, -⟩ := isSatisfied_iff.1 satisfied
  exact (each c' hc' viable).2 name hname

theorem watches_observeEach (h : ev.Watches record) {events : List SecurityEvent}
    (unfailing : Unfailing (ev.observeEach r events).2) :
    (ev.observeEach r events).1.Watches (events.foldl HeaderRecord.note record) := by
  induction events generalizing ev record with
  | nil => exact h
  | cons event events ih =>
    rw [observeEach_cons, unfailing_cons] at unfailing
    obtain ⟨⟨why, read⟩, rest⟩ := unfailing
    exact ih (watches_observe h read).1 rest

/-- A policy that is satisfied at the operation event falls short of nothing on record. -/
theorem eventsProtected_of_isSatisfied (h : ev.Watches {}) {events : List SecurityEvent}
    {name : QName}
    (unfailing : Unfailing (ev.observeEach r (events ++ [.operation name])).2)
    (satisfied : (ev.observeEach r (events ++ [.operation name])).1.isSatisfied = true) :
    EventsProtected r (events ++ [.operation name]) := by
  rw [observeEach_append, observeEach_cons] at unfailing satisfied
  have before : Unfailing (ev.observeEach r events).2 :=
    fun a ha => unfailing a (List.mem_append_left _ ha)
  obtain ⟨why, read⟩ := unfailing _ (List.mem_append_right _ (.head _))
  have verified := (watches_observe (watches_observeEach h before) read).2 name rfl satisfied
  refine HeaderRecord.eventsProtected_of_shortfall? ?_
  rw [List.foldl_append]
  exact verified

end Evaluation

/-! ## Policies that ask for token protection -/

/-- Every alternative of a policy has a binding that asks for token protection. -/
def Policy.ProtectsTokens (policy : Policy) : Prop :=
  ∀ alternative ∈ policy.alternatives,
    ∃ binding, .binding binding ∈ alternative.assertions ∧ binding.protectTokens = true

theorem Evaluation.watches_ofPolicy {policy : Policy} {initiator : Bool} {ev : Evaluation}
    (protects : policy.ProtectsTokens) (built : ofPolicy policy initiator = .ok ev) :
    ev.Watches {} := by
  intro c hc viable
  obtain ⟨alternative, halt, hof⟩ := forall₂_exists_left (ofPolicy_eq_ok built) hc
  obtain ⟨os, rfl, assertions⟩ := Candidate.ofAlternative_eq_ok hof
  obtain ⟨binding, hmem, asks⟩ := protects alternative halt
  obtain ⟨o, ho, made⟩ := forall₂_exists_right assertions hmem
  refine ⟨o, ho, binding.binding, ?_⟩
  simp only [Obligation.ofAssertion, asks, if_true, Except.ok.injEq] at made
  rw [← made]

namespace Enforcer

theorem eventsProtected_of_ofPolicy {policy : Policy} {context : EnforcerContext} {direct : Enforcer}
    (protects : policy.ProtectsTokens) (built : ofPolicy policy context = .ok direct)
    (tokens : Registry) {events : List SecurityEvent} {name : QName}
    (accepted : (({ direct with tokens } : Enforcer).registerAll
      (events ++ [.operation name])).1.finish.2 = .ok true) :
    EventsProtected tokens (events ++ [.operation name]) := by
  obtain ⟨ev, hev, rfl⟩ := ofPolicy_eq_ok_iff.1 built
  obtain ⟨unfailing, satisfied⟩ := observeEach_of_accepted rfl rfl rfl accepted
  exact Evaluation.eventsProtected_of_isSatisfied (Evaluation.watches_ofPolicy protects hev)
    unfailing satisfied

/-- A message that ends its header with an operation event is accepted only if it meets the demands of
token protection, provided that every alternative of the enforced policy asks for it. -/
theorem eventsProtected_of_accepted {source : PolicySource} {context : EnforcerContext}
    {e : Enforcer} {policy : Policy} {tokens : Registry} {events : List SecurityEvent} {name : QName}
    (built : ofSource source context = .ok e) (enforced : source.Enforces events policy)
    (protects : policy.ProtectsTokens) (ended : events.getLast? = some (.operation name))
    (accepted : ({ e with tokens }.registerAll events).1.finish.2 = .ok true) :
    EventsProtected tokens events := by
  obtain ⟨before, rfl⟩ := List.getLast?_eq_some_iff.1 ended
  cases enforced with
  | policy => exact eventsProtected_of_ofPolicy protects built tokens accepted
  | operation reported selected =>
    obtain ⟨direct, hdirect, same⟩ := sameCheck_of_operation tokens built reported selected
    rw [same.finish.2] at accepted
    exact eventsProtected_of_ofPolicy protects hdirect tokens accepted
  | default silent =>
    have quiet := List.findSome?_eq_none_iff.1 silent (SecurityEvent.operation name) (by simp)
    cases quiet

/-! ### A certificate that is not signed -/

section Certificate

/-- A policy that asks for token protection. -/
def protectingPolicy : Policy := .single [.binding ⟨.asymmetric, true⟩]

/-- The place of a token in the header. -/
def certificatePath : ElementPath := ElementPath.securityHeader ++ [⟨"", "Certificate"⟩]

/-- The token of the main signature, which is in the message. -/
def mainCertificate : Registry :=
  ⟨[{ type := .x509V3, usages := [.mainSignature], path := some certificatePath, included := true }]⟩

/-- The token is found. -/
def certificateFound : SecurityEvent :=
  .token ⟨⟨0⟩, .x509 ⟨some "CN=signer", 3⟩⟩

theorem protectsTokens_protectingPolicy : protectingPolicy.ProtectsTokens := by
  intro alternative halt
  cases List.mem_singleton.1 halt
  exact ⟨_, .head _, rfl⟩

/-- The default policy of a service, and a token that is signed. -/
theorem eventsProtected_signedCertificate :
    EventsProtected mainCertificate
      [certificateFound, .ofSigned ⟨0⟩ certificatePath true, .operation ⟨"", "greet"⟩] := by
  have built : ofSource (.operations [] (some protectingPolicy)) {} =
      .ok { context := {}, phase := .waiting [] (some protectingPolicy) [] } := rfl
  have selected : Selected [] (some protectingPolicy) ⟨"", "greet"⟩ protectingPolicy :=
    .byDefault (by simp) rfl
  exact eventsProtected_of_accepted built (.operation rfl selected) protectsTokens_protectingPolicy
    rfl rfl

/-- If there is an operation event, it is the last. -/
def OperationLast (events : List SecurityEvent) : Prop :=
  ∀ before name after, events = before ++ .operation name :: after → after = []

/-- The enforced policy asks for token protection, and a message is accepted that does not meet its
demands. -/
structure AcceptsUnprotected (source : PolicySource) (context : EnforcerContext) (policy : Policy)
    (tokens : Registry) (events : List SecurityEvent) : Prop where
  protects : policy.ProtectsTokens
  enforced : source.Enforces events policy
  ordered : OperationLast events
  accepted : ∃ e, ofSource source context = .ok e ∧
    ({ e with tokens }.registerAll events).1.finish.2 = .ok true
  unprotected : ¬ EventsProtected tokens events

theorem operationLast_certificateFound : OperationLast [certificateFound] := by
  intro before name after h
  cases before with
  | nil => cases h
  | cons event before => simp at h

theorem not_eventsProtected_certificateFound :
    ¬ EventsProtected mainCertificate [certificateFound] := by
  intro covered
  obtain ⟨root, token, hroot, htoken, demands⟩ := covered ⟨0⟩ (.head _)
  cases (show some _ = some root from hroot)
  cases (show some _ = some token from htoken)
  obtain ⟨element, hmem, -⟩ := demands.signs_itself rfl (.inl rfl)
  cases hmem

/-- Without an operation event the token is not looked at, whether its policy is fixed or is the
default of a service. -/
theorem accepts_unsigned_certificate :
    AcceptsUnprotected (.policy protectingPolicy) {} protectingPolicy mainCertificate
        [certificateFound] ∧
      AcceptsUnprotected (.operations [] (some protectingPolicy)) {} protectingPolicy
        mainCertificate [certificateFound] := by
  constructor
  · exact ⟨protectsTokens_protectingPolicy, .policy, operationLast_certificateFound,
      ⟨_, rfl, rfl⟩, not_eventsProtected_certificateFound⟩
  · exact ⟨protectsTokens_protectingPolicy, .default rfl, operationLast_certificateFound,
      ⟨_, rfl, rfl⟩, not_eventsProtected_certificateFound⟩

end Certificate

end Enforcer

end SoapPolicy
