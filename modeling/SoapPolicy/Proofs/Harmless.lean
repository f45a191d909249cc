import SoapPolicy.Proofs.Alternatives
import SoapPolicy.Proofs.TokenProtection.Check

/-!
# Harmless events

An event breaks nothing if a fresh obligation that reads it neither fails nor is lost
(`Obligation.Endures`).  After such events an obligation depends only on which of them there were,
and the record of token protection on their tokens and signed elements.  `Heard` says what becomes
of each kind of demand:

* a token is there once some event conforms,
* elements are protected once some event for a matching element says so,
* elements are present once each pattern was seen,
* the header is on record, and nothing is settled yet.

One more event keeps this (`Heard.read`), whatever the obligation has read before.
-/

namespace SoapPolicy

variable {r : Registry} {event : SecurityEvent} {events : List SecurityEvent}

/-! ## Events that break nothing -/

/-- The obligation can read the event and is not lost by it. -/
def Obligation.Endures (r : Registry) (event : SecurityEvent) (o : Obligation) : Prop :=
  event.kind ∈ o.kinds →
    ∃ outcome o', o.hear r event = (o', .ok outcome) ∧ outcome.isFatal = false

@[simp] theorem Obligation.demand_ofPresence (patterns : List (ElementPattern × Bool)) :
    (ofPresence patterns).demand = .presence patterns := by
  unfold ofPresence
  split <;> rfl

@[simp] theorem Obligation.kinds_token (policy : TokenPolicy) (initiator met : Bool)
    (shortfall : Option Shortfall) :
    kinds ⟨.token policy initiator, met, shortfall⟩ = [.token policy.kind.family] := rfl

@[simp] theorem Obligation.kinds_protection (kind : Protection) (patterns : List ElementPattern)
    (met : Bool) (shortfall : Option Shortfall) :
    kinds ⟨.protection kind patterns, met, shortfall⟩ = [kind.eventKind] := rfl

@[simp] theorem Obligation.kinds_ofPresence (patterns : List (ElementPattern × Bool)) :
    (ofPresence patterns).kinds = [.requiredElement] := by
  simp [kinds, demand_ofPresence, Demand.kinds]

theorem Obligation.read_of_hear {o o' : Obligation} (outcome : Outcome)
    (mild : outcome.isFatal = false) (reads : event.kind ∈ o.kinds)
    (h : o.hear r event = (o', .ok outcome)) : o.read r event = (o', .ok none) := by
  rw [read_of_mem reads, h]
  cases outcome with
  | fatal why => cases mild
  | pass => rfl
  | recoverable why => rfl

namespace Demand

/-- The obligation with a demand before any event. -/
def fresh : Demand → Obligation
  | token policy initiator => ⟨.token policy initiator, false, none⟩
  | protection kind patterns => ⟨.protection kind patterns, patterns.isEmpty, none⟩
  | presence patterns => .ofPresence patterns
  | tokenProtection binding record => ⟨.tokenProtection binding record, true, none⟩

end Demand

/-! ## What events show -/

namespace SecurityEvent

/-- A token is found that is as asked. -/
def Conforms (policy : TokenPolicy) (initiator : Bool) (r : Registry) : SecurityEvent → Prop
  | token event =>
    event.details.family = policy.kind.family ∧ policy.judge initiator r event = .ok .conforming
  | _ => False

/-- A matching element is found protected. -/
def Protects (protection : Protection) (patterns : List ElementPattern) (event : SecurityEvent) :
    Prop :=
  ∃ report, protection.report? event = some report ∧ report.isProtected = true ∧
    patterns.any (·.accepts report.path) = true

/-- Whether a matching element is found. -/
def shows (pattern : ElementPattern) : SecurityEvent → Bool
  | requiredElement path => pattern.accepts path
  | _ => false

theorem Conforms.kind {policy : TokenPolicy} {initiator : Bool}
    (h : event.Conforms policy initiator r) : event.kind = .token policy.kind.family := by
  cases event with
  | token found => exact congrArg EventKind.token h.1
  | _ => exact h.elim

theorem kind_of_shows {pattern : ElementPattern} (h : event.shows pattern = true) :
    event.kind = .requiredElement := by
  cases event with
  | requiredElement path => rfl
  | _ => cases h

end SecurityEvent

theorem Protection.kind_of_report? {protection : Protection} {report : ProtectionEvent}
    (reported : protection.report? event = some report) : event.kind = protection.eventKind :=
  (protection.report?_isSome event).1 (by rw [reported]; rfl)

/-- What an obligation is once it has read events that break nothing. -/
inductive Heard (r : Registry) (events : List SecurityEvent) : Demand → Obligation → Prop where
  | token {policy : TokenPolicy} {initiator met : Bool} {shortfall : Option Shortfall} :
    (met = true ↔ ∃ event ∈ events, event.Conforms policy initiator r) →
    Heard r events (.token policy initiator) ⟨.token policy initiator, met, shortfall⟩
  | protection {kind : Protection} {patterns : List ElementPattern} {met : Bool}
    {shortfall : Option Shortfall} :
    (met = true ↔ patterns.isEmpty = true ∨ ∃ event ∈ events, event.Protects kind patterns) →
    Heard r events (.protection kind patterns) ⟨.protection kind patterns, met, shortfall⟩
  | presence (patterns : List (ElementPattern × Bool)) :
    Heard r events (.presence patterns)
      (.ofPresence (patterns.map fun (pattern, seen) =>
        (pattern, seen || events.any (·.shows pattern))))
  | header (binding : BindingType) :
    Heard r events (.tokenProtection binding (some {}))
      ⟨.tokenProtection binding (some (events.foldl HeaderRecord.note {})), true, none⟩
  | idle (binding : BindingType) :
    Heard r events (.tokenProtection binding none) ⟨.tokenProtection binding none, true, none⟩

theorem Obligation.met_ofPresence {patterns : List (ElementPattern × Bool)} :
    (ofPresence patterns).met = true ↔ ∀ p ∈ patterns, p.2 = true := by
  unfold ofPresence
  split
  next pattern seen found =>
    have missing := List.find?_some found
    have hmem := List.mem_of_find?_eq_some found
    refine iff_of_false Bool.false_ne_true fun all => ?_
    cases all _ hmem
    cases missing
  next none_missing => simpa using none_missing

/-- The obligation for an assertion is fresh, and it has heard nothing. -/
theorem heard_ofAssertion {a : PolicyAssertion} {initiator : Bool} {o : Obligation}
    (h : Obligation.ofAssertion a initiator = .ok o) :
    o = o.demand.fresh ∧ Heard r [] o.demand o := by
  have protection {kind : Protection} {policy : ElementsPolicy}
      (h : Obligation.ofProtection kind policy = .ok o) :
      o = o.demand.fresh ∧ Heard r [] o.demand o := by
    rw [Obligation.ofProtection] at h
    cases hp : Obligation.patternsOf policy with
    | error f => rw [hp] at h; cases h
    | ok patterns =>
      rw [hp] at h
      cases h
      exact ⟨rfl, .protection (by simp)⟩
  cases a with
  | token policy =>
    cases h
    exact ⟨rfl, .token (by simp)⟩
  | signedElements policy => exact protection h
  | encryptedElements policy => exact protection h
  | requiredElements policy =>
    rw [Obligation.ofAssertion] at h
    cases hp : Obligation.patternsOf policy with
    | error f => rw [hp] at h; cases h
    | ok patterns =>
      rw [hp] at h
      cases h
      rw [Obligation.demand_ofPresence]
      refine ⟨rfl, ?_⟩
      have heard : Heard r [] _ _ := .presence (patterns.map fun p => (p, false))
      rwa [List.map_map] at heard
  | binding policy =>
    cases h
    cases hp : policy.protectTokens with
    | true => exact ⟨rfl, .header policy.binding⟩
    | false => exact ⟨rfl, .idle policy.binding⟩

/-! ## One event -/

namespace Obligation

/-- A token demand that is met lets every token event for it pass. -/
theorem read_met_token {policy : TokenPolicy} {initiator : Bool} {found : TokenEvent}
    (family : found.details.family = policy.kind.family) (shortfall : Option Shortfall) :
    read r (.token found) ⟨.token policy initiator, true, shortfall⟩ =
      (⟨.token policy initiator, true, shortfall⟩, .ok none) :=
  read_of_hear .pass rfl (by simp [SecurityEvent.kind, family]) rfl

/-- What a token event does to a token demand that is not met. -/
theorem read_unmet_token {policy : TokenPolicy} {initiator : Bool} {found : TokenEvent}
    (family : found.details.family = policy.kind.family) (shortfall : Option Shortfall) :
    read r (.token found) ⟨.token policy initiator, false, shortfall⟩ =
      match policy.judge initiator r found with
      | .error f => (⟨.token policy initiator, false, shortfall⟩, .error f)
      | .ok .unconcerned => (⟨.token policy initiator, false, shortfall⟩, .ok none)
      | .ok .conforming => (⟨.token policy initiator, true, none⟩, .ok none)
      | .ok (.adverse why main) =>
        (⟨.token policy initiator, false, some why⟩, .ok (if main then some why else none)) := by
  rw [read_of_mem (by simp [SecurityEvent.kind, family]), hear_token rfl]
  dsimp only
  rcases policy.judge initiator r found with f | _ | _ | ⟨why, _ | _⟩ <;> rfl

/-- What a report does to a demand for the protection it reports. -/
theorem read_report {kind : Protection} {report : ProtectionEvent}
    (reported : kind.report? event = some report) (patterns : List ElementPattern) (met : Bool)
    (shortfall : Option Shortfall) :
    read r event ⟨.protection kind patterns, met, shortfall⟩ =
      if met || !patterns.any (·.accepts report.path) then
        (⟨.protection kind patterns, met, shortfall⟩, .ok none)
      else if report.isProtected then (⟨.protection kind patterns, true, none⟩, .ok none)
      else
        (⟨.protection kind patterns, false, some (.unprotected kind report.path)⟩,
          .ok (some (.unprotected kind report.path))) := by
  rw [read_of_mem (by simp [Protection.kind_of_report? reported]), hear_protection rfl, reported]
  dsimp only
  cases met || !patterns.any (·.accepts report.path) with
  | true => rfl
  | false => cases report.isProtected <;> rfl

/-- An element that is found is marked in every pattern that matches it. -/
theorem hear_ofPresence (r : Registry) (patterns : List (ElementPattern × Bool))
    (path : ElementPath) :
    (ofPresence patterns).hear r (.requiredElement path) =
      (ofPresence (patterns.map fun (pattern, seen) => (pattern, seen || pattern.accepts path)),
        .ok .pass) := by
  rw [hear_presence (demand_ofPresence patterns)]
  dsimp only
  split
  next met =>
    -- everything was seen before
    have all := met_ofPresence.1 met
    have same : (patterns.map fun (pattern, seen) => (pattern, seen || pattern.accepts path)) =
        patterns := by
      refine (List.map_congr_left fun p hp => ?_).trans (List.map_id patterns)
      obtain ⟨pattern, seen⟩ := p
      cases all _ hp
      rfl
    rw [same]
  next => rfl

theorem read_presence (patterns : List (ElementPattern × Bool)) (path : ElementPath) :
    read r (.requiredElement path) (ofPresence patterns) =
      (ofPresence (patterns.map fun (pattern, seen) => (pattern, seen || pattern.accepts path)),
        .ok none) := by
  rw [read_of_mem (by simp [SecurityEvent.kind]), hear_ofPresence]
  rfl

end Obligation

/-! ## One more event -/

namespace Obligation

/-- A token event that a fresh obligation endures is no adverse main token. -/
theorem judge_of_endures {policy : TokenPolicy} {initiator : Bool} {found : TokenEvent}
    (family : found.details.family = policy.kind.family)
    (endures : (Demand.token policy initiator).fresh.Endures r (.token found)) :
    ∃ verdict, policy.judge initiator r found = .ok verdict ∧
      ∀ why, verdict ≠ .adverse why true := by
  have reads : (SecurityEvent.token found).kind ∈ (Demand.token policy initiator).fresh.kinds := by
    simp [Demand.fresh, SecurityEvent.kind, family]
  obtain ⟨outcome, o', heard, mild⟩ := endures reads
  rw [hear_token rfl] at heard
  simp only [Demand.fresh, Bool.false_eq_true, if_false] at heard
  cases judged : policy.judge initiator r found with
  | error f =>
    rw [judged] at heard
    cases heard
  | ok verdict =>
    refine ⟨verdict, rfl, ?_⟩
    rintro why rfl
    rw [judged] at heard
    cases heard
    cases mild

/-- A token event meets the demand if the token conforms, and breaks nothing otherwise. -/
theorem read_token {policy : TokenPolicy} {initiator : Bool} {found : TokenEvent}
    (family : found.details.family = policy.kind.family)
    (endures : (Demand.token policy initiator).fresh.Endures r (.token found)) (met : Bool)
    (shortfall : Option Shortfall) :
    ∃ shortfall', read r (.token found) ⟨.token policy initiator, met, shortfall⟩ =
      (⟨.token policy initiator,
        met || decide (policy.judge initiator r found = .ok .conforming), shortfall'⟩,
        .ok none) := by
  cases met with
  | true => exact ⟨shortfall, read_met_token family shortfall⟩
  | false =>
    obtain ⟨verdict, judged, notMain⟩ := judge_of_endures family endures
    rw [read_unmet_token family, judged]
    cases verdict with
    | unconcerned => exact ⟨shortfall, rfl⟩
    | conforming => exact ⟨none, rfl⟩
    | adverse why main =>
      cases main with
      | true => exact absurd rfl (notMain why)
      | false => exact ⟨some why, rfl⟩

/-- An event for a matching element meets the demand, and one for another element does nothing. -/
theorem read_protection {kind : Protection} {patterns : List ElementPattern}
    {report : ProtectionEvent} (reported : kind.report? event = some report)
    (endures : (Demand.protection kind patterns).fresh.Endures r event) {met : Bool}
    (met_of_empty : patterns.isEmpty = true → met = true) (shortfall : Option Shortfall) :
    ∃ shortfall', read r event ⟨.protection kind patterns, met, shortfall⟩ =
      (⟨.protection kind patterns,
        met || (report.isProtected && patterns.any (·.accepts report.path)), shortfall'⟩,
        .ok none) := by
  have reads : event.kind ∈ (Demand.protection kind patterns).fresh.kinds := by
    simp [Demand.fresh, Protection.kind_of_report? reported]
  rw [read_report reported]
  cases met with
  | true => exact ⟨shortfall, rfl⟩
  | false =>
    cases accepted : patterns.any (·.accepts report.path) with
    | false => exact ⟨shortfall, by simp⟩
    | true =>
      cases guarded : report.isProtected with
      | true => exact ⟨none, rfl⟩
      | false =>
        -- the first event for a matching element decides, so a fresh obligation would be lost
        have nonempty : patterns.isEmpty = false := by
          cases empty : patterns.isEmpty with
          | false => rfl
          | true => cases met_of_empty empty
        have lost : (Demand.protection kind patterns).fresh.hear r event =
            (broken ⟨.protection kind patterns, false, none⟩ (.unprotected kind report.path),
              .ok (.fatal (.unprotected kind report.path))) := by
          rw [hear_protection rfl, reported]
          simp [Demand.fresh, accepted, guarded, nonempty]
        obtain ⟨outcome, o', heard, mild⟩ := endures reads
        rw [lost] at heard
        cases heard
        cases mild

end Obligation

namespace Heard

variable {d : Demand} {o : Obligation}

theorem exists_mem_snoc {p : SecurityEvent → Prop} :
    (∃ e ∈ events ++ [event], p e) ↔ (∃ e ∈ events, p e) ∨ p event := by
  simp [or_and_right, exists_or]

/-- An event that breaks nothing leaves an obligation as that event and those before make it. -/
theorem read (h : Heard r events d o) (endures : d.fresh.Endures r event)
    (before : event.kind ≠ .operation) :
    ∃ o', o.read r event = (o', .ok none) ∧ Heard r (events ++ [event]) d o' := by
  cases h with
  | @token policy initiator met shortfall seen =>
    by_cases reads : event.kind = .token policy.kind.family
    · cases event with
      | token found =>
        have family : found.details.family = policy.kind.family := EventKind.token.inj reads
        obtain ⟨shortfall', h⟩ := Obligation.read_token family endures met shortfall
        refine ⟨_, h, .token ?_⟩
        rw [exists_mem_snoc, ← seen]
        simp [SecurityEvent.Conforms, family]
      | _ => cases reads
    · refine ⟨_, Obligation.read_of_not_mem (by simpa using reads), .token ?_⟩
      rw [exists_mem_snoc, ← seen]
      exact (or_iff_left fun conforms => reads conforms.kind).symm
  | @protection kind patterns met shortfall seen =>
    cases reported : kind.report? event with
    | some report =>
      have met_of_empty (empty : patterns.isEmpty = true) : met = true := seen.2 (.inl empty)
      obtain ⟨shortfall', h⟩ :=
        Obligation.read_protection reported endures met_of_empty shortfall
      refine ⟨_, h, .protection ?_⟩
      rw [exists_mem_snoc, ← or_assoc, ← seen]
      simp [SecurityEvent.Protects, reported]
    | none =>
      have reads : event.kind ≠ kind.eventKind := by
        rw [Ne, ← Protection.report?_isSome, reported]
        decide
      refine ⟨_, Obligation.read_of_not_mem (by simpa using reads), .protection ?_⟩
      rw [exists_mem_snoc, ← or_assoc, ← seen]
      simp [SecurityEvent.Protects, reported]
  | presence patterns =>
    have heard : Heard r (events ++ [event]) _ _ := .presence patterns
    by_cases reads : event.kind = .requiredElement
    · cases event with
      | requiredElement path =>
        refine ⟨_, Obligation.read_presence _ path, ?_⟩
        rw [List.map_map]
        simpa [Function.comp_def, Bool.or_assoc, SecurityEvent.shows] using heard
      | _ => cases reads
    · have unseen (pattern : ElementPattern) : event.shows pattern = false :=
        Bool.eq_false_iff.2 fun shown => reads (SecurityEvent.kind_of_shows shown)
      refine ⟨_, Obligation.read_of_not_mem (by simpa using reads), ?_⟩
      simpa [unseen] using heard
  | header binding =>
    refine ⟨_, Obligation.read_tokenProtection binding _ true none before, ?_⟩
    have heard : Heard r (events ++ [event]) _ _ := .header binding
    rwa [List.foldl_append] at heard
  | idle binding => exact ⟨_, Obligation.read_of_not_mem List.not_mem_nil, .idle binding⟩

end Heard

end SoapPolicy
