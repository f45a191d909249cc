import SoapPolicy.Obligation.Basic

/-!
# What hearing an event comes to

An obligation takes down what an event means for it, one write after the other.  What all the writes come
to is said here for each kind of demand, by the obligation after them (`hear_token`, `hear_protection`,
`hear_presence`, `hear_header`).  None of the writes is done before the last point where the hearing can
fail, so a failed hearing has one of few reasons, and the obligation stays as it is (`hear_error_cases`).
-/

namespace SoapPolicy

/-- Only the events of its kind report a protection. -/
theorem Protection.report?_isSome (protection : Protection) (event : SecurityEvent) :
    (protection.report? event).isSome = true ↔ event.kind = protection.eventKind := by
  cases protection <;> cases event <;> simp [report?, eventKind, SecurityEvent.kind]

namespace Obligation

variable {o : Obligation} {r : Registry} {event : SecurityEvent}

/-! ## Kinds of demands -/

/-- An obligation hears an event as its demand has it. -/
theorem hear_eq_result (o : Obligation) (r : Registry) (event : SecurityEvent) :
    o.hear r event =
      Hearing.result
        (match o.demand with
          | .token policy initiator => hearToken policy initiator r event
          | .protection kind patterns => hearProtection kind patterns event
          | .presence patterns => hearPresence patterns event
          | .tokenProtection binding (some record) => hearHeader binding record r event
          | .tokenProtection _ none => return .pass) o := rfl

/-- What a token event comes to is said by the verdict on the token. -/
theorem hear_token {policy : TokenPolicy} {initiator : Bool} (hd : o.demand = .token policy initiator)
    (r : Registry) (event : SecurityEvent) :
    o.hear r event =
      if o.met then (o, .ok .pass)
      else
        match event with
        | .token found =>
          match policy.judge initiator r found with
          | .error f => (o, .error f)
          | .ok .unconcerned => (o, .ok .pass)
          | .ok .conforming => (o.fulfilled, .ok .pass)
          | .ok (.adverse why main) =>
            (o.missedBy why, .ok (if main then .fatal why else .recoverable why))
        | event => (o, .error (.misdirected policy.name "token" event)) := by
  rw [hear_eq_result, hd]
  obtain ⟨demand, met, shortfall⟩ := o
  dsimp only
  unfold hearToken
  cases met with
  | true => rfl
  | false =>
    cases event with
    | token found =>
      dsimp only
      rcases policy.judge initiator r found with f | _ | _ | ⟨why, main⟩ <;> rfl
    | _ => rfl

/-- What a report comes to is said by the first one for a matching element. -/
theorem hear_protection {kind : Protection} {patterns : List ElementPattern}
    (hd : o.demand = .protection kind patterns) (r : Registry) (event : SecurityEvent) :
    o.hear r event =
      match kind.report? event with
      | none => (o, .error (.misdirected kind.assertionName kind.eventKind.name event))
      | some report =>
        if o.met || !patterns.any (·.accepts report.path) then (o, .ok .pass)
        else if report.isProtected then (o.fulfilled, .ok .pass)
        else
          (o.broken (.unprotected kind report.path), .ok (.fatal (.unprotected kind report.path))) := by
  rw [hear_eq_result, hd]
  obtain ⟨demand, met, shortfall⟩ := o
  dsimp only
  unfold hearProtection
  cases kind.report? event with
  | none => rfl
  | some report =>
    dsimp only
    cases met with
    | true => rfl
    | false =>
      cases patterns.any (·.accepts report.path) with
      | false => rfl
      | true => cases report.isProtected <;> rfl

/-- What an element comes to is said by the patterns that match it. -/
theorem hear_presence {patterns : List (ElementPattern × Bool)} (hd : o.demand = .presence patterns)
    (r : Registry) (event : SecurityEvent) :
    o.hear r event =
      match event with
      | .requiredElement path =>
        if o.met then (o, .ok .pass)
        else
          (ofPresence (patterns.map fun (pattern, seen) => (pattern, seen || pattern.accepts path)),
            .ok .pass)
      | event =>
        (o, .error (.misdirected "RequiredElements" EventKind.requiredElement.name event)) := by
  rw [hear_eq_result, hd]
  obtain ⟨demand, met, shortfall⟩ := o
  cases event with
  | requiredElement path => cases met <;> rfl
  | _ => rfl

/-- What an event of the header comes to is said by the record, and what its end comes to by what is on
record. -/
theorem hear_header {binding : BindingType} {record : HeaderRecord}
    (hd : o.demand = .tokenProtection binding (some record)) (r : Registry) (event : SecurityEvent) :
    o.hear r event =
      match event with
      | .token found =>
        ({ o with demand := .tokenProtection binding (record.addToken found.token) }, .ok .pass)
      | .signedElement report =>
        ({ o with demand := .tokenProtection binding (record.addElement report) }, .ok .pass)
      | .operation _ =>
        match record.shortfall? r with
        | .error f => (o, .error f)
        | .ok none => (o, .ok .pass)
        | .ok (some why) => (o.broken why, .ok (.fatal why))
      | event =>
        (o, .error (.unexpectedEvent
          ("token protection does not handle " ++ event.kind.name ++ " events"))) := by
  rw [hear_eq_result, hd]
  dsimp only
  cases event with
  | operation name =>
    unfold hearHeader
    dsimp only
    rcases record.shortfall? r with f | _ | why <;> rfl
  | _ => rfl

/-- Without token protection every event passes. -/
theorem hear_idle {binding : BindingType} (hd : o.demand = .tokenProtection binding none)
    (r : Registry) (event : SecurityEvent) : o.hear r event = (o, .ok .pass) := by
  rw [hear_eq_result, hd]
  rfl

/-! ## Events that cannot be read -/

/-- Why hearing an event fails: the token that was found cannot be judged, what is on record cannot be
checked, or the obligation does not read events of this kind. -/
inductive Unheard (o : Obligation) (r : Registry) : SecurityEvent → Failure → Prop where
  | token {policy : TokenPolicy} {initiator : Bool} {found : TokenEvent} {f : Failure} :
    o.demand = .token policy initiator → policy.judge initiator r found = .error f →
    Unheard o r (.token found) f
  | operation {binding : BindingType} {record : HeaderRecord} {name : QName} {f : Failure} :
    o.demand = .tokenProtection binding (some record) → record.shortfall? r = .error f →
    Unheard o r (.operation name) f
  | misdirected {event : SecurityEvent} {detail : String} :
    event.kind ∉ o.kinds → Unheard o r event (.unexpectedEvent detail)

/-- Every failure has one of these reasons, and comes before the first write. -/
theorem hear_error_cases {f : Failure} (h : (o.hear r event).2 = .error f) :
    o.Unheard r event f ∧ o.hear r event = (o, .error f) := by
  cases hd : o.demand with
  | token policy initiator =>
    rw [hear_token hd] at h ⊢
    split at h
    next => cases h
    next unmet =>
      rw [if_neg unmet]
      cases event with
      | token found =>
        dsimp only at h ⊢
        rcases judged : policy.judge initiator r found with g | _ | _ | _ <;> rw [judged] at h <;>
          cases h
        exact ⟨.token hd judged, rfl⟩
      | _ =>
        cases h
        exact ⟨.misdirected (by simp [kinds, hd, Demand.kinds, SecurityEvent.kind]), rfl⟩
  | protection kind patterns =>
    rw [hear_protection hd] at h ⊢
    cases reported : kind.report? event with
    | none =>
      rw [reported] at h
      cases h
      have other : event.kind ≠ kind.eventKind := by
        rw [Ne, ← kind.report?_isSome, reported]
        simp
      exact ⟨.misdirected (by simpa [kinds, hd, Demand.kinds] using other), rfl⟩
    | some report =>
      rw [reported] at h
      dsimp only at h
      split at h
      · cases h
      · split at h <;> cases h
  | presence patterns =>
    rw [hear_presence hd] at h ⊢
    cases event with
    | requiredElement path =>
      dsimp only at h
      split at h <;> cases h
    | _ =>
      cases h
      exact ⟨.misdirected (by simp [kinds, hd, Demand.kinds, SecurityEvent.kind]), rfl⟩
  | tokenProtection binding record =>
    cases record with
    | none =>
      rw [hear_idle hd] at h
      cases h
    | some record =>
      rw [hear_header hd] at h ⊢
      cases event with
      | operation name =>
        dsimp only at h ⊢
        rcases settled : record.shortfall? r with g | _ | _ <;> rw [settled] at h <;> cases h
        exact ⟨.operation hd settled, rfl⟩
      | token found => cases h
      | signedElement report => cases h
      | _ =>
        cases h
        exact ⟨.misdirected (by simp [kinds, hd, Demand.kinds, SecurityEvent.kind]), rfl⟩

/-- An obligation that cannot read an event stays as it is. -/
theorem hear_of_error {f : Failure} (h : (o.hear r event).2 = .error f) :
    o.hear r event = (o, .error f) :=
  (hear_error_cases h).2

end Obligation

end SoapPolicy
