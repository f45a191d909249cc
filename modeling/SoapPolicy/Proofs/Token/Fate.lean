import SoapPolicy.Proofs.Harmless
import SoapPolicy.Proofs.Surviving

/-!
# The fate of a token assertion

What becomes of a token assertion while the tokens of a message are found one after the other.  A token
that plays a role of the assertion either conforms to it or is adverse (`Sighting.judge_cases`), and
then it lacks one thing, of which a property of its family is named first, derived keys next and its
presence last (`Sighting.Lacks`).

One conforming token meets the assertion for good, wherever it comes.  Until then the assertion
remembers what the last adverse token lacked, and an adverse token is fatal only if it is the main
signature or the main encryption.  `Stands` is this invariant, which every event keeps
(`Stands.hear`).  So a policy that asks for the token alone is satisfied exactly if a conforming token
comes before any adverse main token (`ofPolicy_single_sightings`).
-/

namespace SoapPolicy

variable {policy : TokenPolicy} {initiator : Bool} {r : Registry}

/-! ## Sightings -/

/-- The rule allows a token to be in an incoming message, or to be only referred to. -/
def IncludeToken.Allows (initiator included : Bool) : IncludeToken → Prop
  | never => included = false
  | once => True
  | alwaysToRecipient => included = !initiator
  | alwaysToInitiator => included = initiator
  | always => included = true

/-- A token event that a token assertion can read. -/
structure Sighting (policy : TokenPolicy) (r : Registry) where
  /-- The event. -/
  event : TokenEvent
  /-- The token that was found. -/
  token : SecurityToken
  known : r.get? event.token = some token
  family : event.details.family = policy.kind.family
  specific : ∀ usage ∈ token.usages, usage ≠ .signature ∧ usage ≠ .encryption
  certificate : policy.kind.family = .x509 → token.type.isX509 = true

namespace Sighting

/-- The event as an assertion gets it. -/
def toEvent (s : Sighting policy r) : SecurityEvent := .token s.event

/-- Some usage of the token fits the role that the assertion stands in. -/
def Concerns (initiator : Bool) (s : Sighting policy r) : Prop :=
  ∃ usage ∈ s.token.usages, policy.role.takes initiator usage = true

/-- The token is as asked. -/
structure Conforms (initiator : Bool) (s : Sighting policy r) : Prop where
  concerns : s.Concerns initiator
  included : policy.includeToken.Allows initiator s.token.included
  derived : r.hasDerivedKeys s.event.token = policy.derivedKeys.isSome
  property : policy.propertyShortfall s.token s.event.details = .ok none

/-- The token fits the role and is not as asked. -/
def Adverse (initiator : Bool) (s : Sighting policy r) : Prop :=
  s.Concerns initiator ∧ ¬ s.Conforms initiator

/-- The token makes the main signature or the main encryption. -/
def Main (s : Sighting policy r) : Prop :=
  .mainSignature ∈ s.token.usages ∨ .mainEncryption ∈ s.token.usages

instance (s : Sighting policy r) : Decidable s.Main :=
  inferInstanceAs (Decidable (_ ∨ _))

/-- What a token that is not as asked falls short of. -/
inductive Lacks (initiator : Bool) (s : Sighting policy r) : Shortfall → Prop where
  | property {why : Shortfall} :
    policy.propertyShortfall s.token s.event.details = .ok (some why) → Lacks initiator s why
  | derivedKeyMissing :
    policy.propertyShortfall s.token s.event.details = .ok none →
    policy.derivedKeys.isSome = true → r.hasDerivedKeys s.event.token = false →
    Lacks initiator s .derivedKeyMissing
  | derivedKeyUsed :
    policy.propertyShortfall s.token s.event.details = .ok none →
    policy.derivedKeys.isSome = false → r.hasDerivedKeys s.event.token = true →
    Lacks initiator s .derivedKeyUsed
  | notIncluded :
    policy.propertyShortfall s.token s.event.details = .ok none →
    r.hasDerivedKeys s.event.token = policy.derivedKeys.isSome →
    ¬ policy.includeToken.Allows initiator s.token.included → s.token.included = false →
    Lacks initiator s .tokenNotIncluded
  | included :
    policy.propertyShortfall s.token s.event.details = .ok none →
    r.hasDerivedKeys s.event.token = policy.derivedKeys.isSome →
    ¬ policy.includeToken.Allows initiator s.token.included → s.token.included = true →
    Lacks initiator s .tokenIncluded

end Sighting

/-! ## The verdict on one token -/

theorem IncludeToken.shortfall_of_allows {rule : IncludeToken} {included : Bool}
    (allows : rule.Allows initiator included) : rule.shortfall initiator included = none := by
  cases rule <;> cases initiator <;> cases included <;> first | rfl | cases allows

theorem IncludeToken.shortfall_of_not_allows {rule : IncludeToken} {included : Bool}
    (refuses : ¬ rule.Allows initiator included) :
    rule.shortfall initiator included =
      some (if included then .tokenIncluded else .tokenNotIncluded) := by
  cases rule <;> cases initiator <;> cases included <;>
    first | rfl | exact absurd rfl refuses | exact absurd trivial refuses

theorem DerivedKeys.shortfall_eq_none_iff {required : Option DerivedKeys} {derived : Bool} :
    DerivedKeys.shortfall required derived = none ↔ derived = required.isSome := by
  cases required <;> simp [shortfall]

theorem DerivedKeys.shortfall_of_ne {required : Option DerivedKeys} {derived : Bool}
    (other : derived ≠ required.isSome) :
    DerivedKeys.shortfall required derived =
      some (if derived then .derivedKeyUsed else .derivedKeyMissing) := by
  cases required <;> cases derived <;> first | rfl | exact absurd rfl other

/-- The properties of a token of the family that a policy asks for can be told. -/
theorem TokenPolicy.exists_propertyShortfall {token : SecurityToken} {details : TokenDetails}
    (family : details.family = policy.kind.family)
    (certificate : policy.kind.family = .x509 → token.type.isX509 = true) :
    ∃ property, policy.propertyShortfall token details = .ok property := by
  unfold propertyShortfall
  cases hk : policy.kind <;> rw [hk] at family certificate <;> cases details <;> cases family
  case x509 => exact ⟨_, if_pos (certificate rfl)⟩
  all_goals exact ⟨_, rfl⟩

namespace Sighting

variable (initiator) (s : Sighting policy r)

theorem exists_property :
    ∃ property, policy.propertyShortfall s.token s.event.details = .ok property :=
  TokenPolicy.exists_propertyShortfall s.family s.certificate

theorem checkUsages_eq : policy.checkUsages s.token.usages = .ok () := by
  have specific : s.token.usages.find? TokenUsage.isGeneric = none := by
    refine List.find?_eq_none.2 fun usage hmem generic => ?_
    obtain ⟨notSignature, notEncryption⟩ := s.specific usage hmem
    cases usage with
    | signature => exact notSignature rfl
    | encryption => exact notEncryption rfl
    | _ => cases generic
  rw [TokenPolicy.checkUsages, specific]

theorem main_iff : s.token.usages.any TokenUsage.isMain = true ↔ s.Main := by
  rw [List.any_eq_true]
  constructor
  · rintro ⟨usage, hmem, main⟩
    cases usage with
    | mainSignature => exact .inl hmem
    | mainEncryption => exact .inr hmem
    | _ => cases main
  · rintro (hmem | hmem)
    · exact ⟨_, hmem, rfl⟩
    · exact ⟨_, hmem, rfl⟩

/-- What the token lacks, in the order in which it is named. -/
def lack? (property : Option Shortfall) : Option Shortfall :=
  askAll [
    property,
    DerivedKeys.shortfall policy.derivedKeys (r.hasDerivedKeys s.event.token),
    policy.includeToken.shortfall initiator s.token.included]

theorem lack?_cases {property : Option Shortfall}
    (told : policy.propertyShortfall s.token s.event.details = .ok property) :
    s.lack? initiator property = none ∧
        policy.includeToken.Allows initiator s.token.included ∧
        r.hasDerivedKeys s.event.token = policy.derivedKeys.isSome ∧ property = none ∨
      ∃ why, s.lack? initiator property = some why ∧ s.Lacks initiator why ∧
        ¬ s.Conforms initiator := by
  cases property with
  | some why =>
    refine .inr ⟨why, rfl, .property told, fun conforms => ?_⟩
    rw [conforms.property] at told
    cases told
  | none =>
    by_cases derived : r.hasDerivedKeys s.event.token = policy.derivedKeys.isSome
    · have keys := DerivedKeys.shortfall_eq_none_iff.2 derived
      by_cases allows : policy.includeToken.Allows initiator s.token.included
      · refine .inl ⟨?_, allows, derived, rfl⟩
        rw [lack?, keys, IncludeToken.shortfall_of_allows allows]
        rfl
      · have presence := IncludeToken.shortfall_of_not_allows allows
        refine .inr ⟨if s.token.included then .tokenIncluded else .tokenNotIncluded, ?_, ?_,
          fun conforms => allows conforms.included⟩
        · rw [lack?, keys, presence]
          rfl
        · cases included : s.token.included with
          | true => exact .included told derived allows included
          | false => exact .notIncluded told derived allows included
    · have keys := DerivedKeys.shortfall_of_ne derived
      refine .inr ⟨if r.hasDerivedKeys s.event.token then .derivedKeyUsed else .derivedKeyMissing,
        ?_, ?_, fun conforms => derived conforms.derived⟩
      · rw [lack?, keys]
        rfl
      · cases used : r.hasDerivedKeys s.event.token with
        | true =>
          have unasked : policy.derivedKeys.isSome ≠ true :=
            fun asked => derived (used.trans asked.symm)
          exact .derivedKeyUsed told (Bool.eq_false_iff.2 unasked) used
        | false =>
          have asked : policy.derivedKeys.isSome ≠ false :=
            fun unasked => derived (used.trans unasked.symm)
          exact .derivedKeyMissing told (Bool.ne_false_iff.1 asked) used

/-- What a token means for an assertion that it is read for. -/
theorem judge_cases :
    ¬ s.Concerns initiator ∧ policy.judge initiator r s.event = .ok .unconcerned ∨
      s.Conforms initiator ∧ policy.judge initiator r s.event = .ok .conforming ∨
      s.Adverse initiator ∧ ∃ why, s.Lacks initiator why ∧
        policy.judge initiator r s.event =
          .ok (.adverse why (s.token.usages.any TokenUsage.isMain)) := by
  obtain ⟨property, told⟩ := s.exists_property
  have found := Registry.get_eq_ok_iff.2 s.known
  by_cases fits : s.token.usages.any (policy.role.takes initiator) = true
  case neg =>
    refine .inl ⟨fun concerns => fits (List.any_eq_true.2 concerns), ?_⟩
    simp [TokenPolicy.judge, found, s.checkUsages_eq, fits, bind, Except.bind, pure, Except.pure]
  have concerns : s.Concerns initiator := List.any_eq_true.1 fits
  rcases s.lack?_cases initiator told with ⟨clear, included, derived, rfl⟩ | ⟨why, asks, lacks, unfit⟩
  · rw [lack?] at clear
    refine .inr (.inl ⟨⟨concerns, included, derived, told⟩, ?_⟩)
    simp [TokenPolicy.judge, TokenPolicy.shortfall?, found, s.checkUsages_eq, told, fits, clear,
      bind, Except.bind, pure, Except.pure]
  · rw [lack?] at asks
    refine .inr (.inr ⟨⟨concerns, unfit⟩, why, lacks, ?_⟩)
    simp [TokenPolicy.judge, TokenPolicy.shortfall?, found, s.checkUsages_eq, told, fits, asks,
      bind, Except.bind, pure, Except.pure]

end Sighting

/-! ## One more event -/

namespace Sighting

variable {s : Sighting policy r} {seen : List (Sighting policy r)} {why? : Option Shortfall}

/-- What the last adverse token lacked, if there was one. -/
inductive LastLack (initiator : Bool) : List (Sighting policy r) → Option Shortfall → Prop where
  | none {seen : List (Sighting policy r)} :
    (∀ s ∈ seen, ¬ s.Adverse initiator) → LastLack initiator seen none
  | some {before after : List (Sighting policy r)} {s : Sighting policy r} {why : Shortfall} :
    s.Adverse initiator → s.Lacks initiator why → (∀ later ∈ after, ¬ later.Adverse initiator) →
    LastLack initiator (before ++ s :: after) (some why)

theorem LastLack.snoc (h : LastLack initiator seen why?) (harmless : ¬ s.Adverse initiator) :
    LastLack initiator (seen ++ [s]) why? := by
  cases h with
  | none quiet =>
    refine .none fun e he => ?_
    rcases List.mem_append.1 he with he | he
    · exact quiet e he
    · exact List.mem_singleton.1 he ▸ harmless
  | @some before after found why adverse lacks quiet =>
    rw [List.append_assoc, List.cons_append]
    refine .some adverse lacks fun e he => ?_
    rcases List.mem_append.1 he with he | he
    · exact quiet e he
    · exact List.mem_singleton.1 he ▸ harmless

/-- What a sighting means for an assertion after others. -/
inductive Yields (initiator : Bool) (before : List (Sighting policy r)) (s : Sighting policy r) :
    Outcome → Prop where
  /-- The assertion is met already. -/
  | met {e : Sighting policy r} : e ∈ before → e.Conforms initiator → Yields initiator before s .pass
  /-- The token is as asked, or does not concern the assertion. -/
  | harmless : ¬ s.Adverse initiator → Yields initiator before s .pass
  | recoverable {why : Shortfall} :
    (∀ e ∈ before, ¬ e.Conforms initiator) → s.Adverse initiator → ¬ s.Main →
    s.Lacks initiator why → Yields initiator before s (.recoverable why)
  | fatal {why : Shortfall} :
    (∀ e ∈ before, ¬ e.Conforms initiator) → s.Adverse initiator → s.Main →
    s.Lacks initiator why → Yields initiator before s (.fatal why)

/-- The token is adverse, and there is no substitute for it. -/
def Ruins (initiator : Bool) (s : Sighting policy r) : Prop :=
  s.Adverse initiator ∧ s.Main

theorem Yields.isFatal_iff {before : List (Sighting policy r)} {outcome : Outcome}
    (h : Yields initiator before s outcome) :
    outcome.isFatal = true ↔ s.Ruins initiator ∧ ∀ e ∈ before, ¬ e.Conforms initiator := by
  cases h with
  | met he conforms => exact iff_of_false nofun fun h => h.2 _ he conforms
  | harmless harmless => exact iff_of_false nofun fun h => harmless h.1.1
  | recoverable _ _ other _ => exact iff_of_false nofun fun h => other h.1.2
  | fatal unmet adverse main _ => exact iff_of_true rfl ⟨⟨adverse, main⟩, unmet⟩

/-- A token assertion after some sightings. -/
structure Stands (initiator : Bool) (seen : List (Sighting policy r)) (o : Obligation) : Prop where
  demand : o.demand = .token policy initiator
  met_iff : o.met = true ↔ ∃ s ∈ seen, s.Conforms initiator
  lack : o.met = false → LastLack initiator seen o.shortfall

theorem stands_nil :
    Stands initiator ([] : List (Sighting policy r)) (Demand.token policy initiator).fresh where
  demand := rfl
  met_iff := by simp [Demand.fresh]
  lack _ := .none fun _ h => absurd h List.not_mem_nil

theorem hear_unmet (found : TokenEvent) (shortfall : Option Shortfall) :
    Obligation.hear r ⟨.token policy initiator, false, shortfall⟩ (.token found) =
      match policy.judge initiator r found with
      | .error f => (⟨.token policy initiator, false, shortfall⟩, .error f)
      | .ok .unconcerned => (⟨.token policy initiator, false, shortfall⟩, .ok .pass)
      | .ok .conforming => (⟨.token policy initiator, true, none⟩, .ok .pass)
      | .ok (.adverse why main) =>
        (⟨.token policy initiator, false, some why⟩,
          .ok (if main then .fatal why else .recoverable why)) := by
  rw [Obligation.hear_token rfl]
  dsimp only
  rcases policy.judge initiator r found with f | _ | _ | ⟨why, main⟩ <;> rfl

/-- One more sighting keeps the invariant, and means what it has to. -/
theorem Stands.hear {o : Obligation} (h : Stands initiator seen o) (s : Sighting policy r) :
    ∃ outcome, (o.hear r s.toEvent).2 = .ok outcome ∧ Yields initiator seen s outcome ∧
      Stands initiator (seen ++ [s]) (o.hear r s.toEvent).1 := by
  obtain ⟨demand, met, shortfall⟩ := o
  obtain ⟨rfl, met_iff, lack⟩ := h
  cases met with
  | true =>
    obtain ⟨e, he, conforms⟩ := met_iff.1 rfl
    refine ⟨.pass, rfl, .met he conforms, rfl, ?_, nofun⟩
    exact iff_of_true rfl ⟨e, List.mem_append_left _ he, conforms⟩
  | false =>
    have unmet : ∀ e ∈ seen, ¬ e.Conforms initiator :=
      fun e he conforms => Bool.false_ne_true (met_iff.2 ⟨e, he, conforms⟩)
    have still (not : ¬ s.Conforms initiator) :
        false = true ↔ ∃ e ∈ seen ++ [s], e.Conforms initiator := by
      simpa [or_and_right, exists_or, not] using unmet
    rw [toEvent, hear_unmet]
    rcases s.judge_cases initiator with
      ⟨aside, judged⟩ | ⟨conforms, judged⟩ | ⟨adverse, why, lacks, judged⟩
    · rw [judged]
      have harmless : ¬ s.Adverse initiator := fun adverse => aside adverse.1
      exact ⟨.pass, rfl, .harmless harmless, rfl, still fun conforms => aside conforms.concerns,
        fun _ => (lack rfl).snoc harmless⟩
    · rw [judged]
      refine ⟨.pass, rfl, .harmless fun adverse => adverse.2 conforms, rfl, ?_, nofun⟩
      exact iff_of_true rfl ⟨s, List.mem_append_right _ (List.mem_singleton_self s), conforms⟩
    · rw [judged]
      have last : LastLack initiator (seen ++ [s]) (some why) :=
        .some adverse lacks fun _ h => absurd h List.not_mem_nil
      refine ⟨_, rfl, ?_, rfl, still adverse.2, fun _ => last⟩
      split
      next main => exact .fatal unmet adverse (s.main_iff.1 main) lacks
      next other => exact .recoverable unmet adverse (mt s.main_iff.2 other) lacks

/-! ## Any number of events -/

/-- A run of sightings keeps the invariant, and each of them means what it has to after those before. -/
theorem Stands.feed {o : Obligation} (h : Stands initiator seen o) (later : List (Sighting policy r)) :
    Stands initiator (seen ++ later) (feed (Obligation.hear r) o (later.map toEvent)).1 ∧
      ∀ before s after, later = before ++ s :: after →
        ∃ outcome, (SoapPolicy.feed (Obligation.hear r) o (later.map toEvent)).2[before.length]? =
            some (.ok outcome) ∧ Yields initiator (seen ++ before) s outcome := by
  induction later generalizing seen o with
  | nil =>
    refine ⟨by simpa using h, fun before s after split => ?_⟩
    cases before <;> cases split
  | cons s later ih =>
    obtain ⟨outcome, answered, yields, next⟩ := h.hear s
    obtain ⟨stands, answers⟩ := ih next
    rw [List.append_assoc, List.singleton_append] at stands
    refine ⟨stands, fun before e after split => ?_⟩
    cases before with
    | nil =>
      cases split
      refine ⟨outcome, congrArg some answered, ?_⟩
      rwa [List.append_nil]
    | cons first before =>
      cases split
      obtain ⟨outcome', answered', yields'⟩ := answers before e after rfl
      rw [List.append_assoc, List.singleton_append] at yields'
      exact ⟨outcome', answered', yields'⟩

end Sighting

/-! ## What comes first -/

/-- Some element of a list has the one property, and all before it have the other. -/
def Reaches {α : Type} (goal way : α → Prop) (l : List α) : Prop :=
  ∃ before a after, l = before ++ a :: after ∧ goal a ∧ ∀ e ∈ before, way e

section
variable {α : Type} {goal way harm : α → Prop} {a : α} {l : List α}

theorem not_reaches_nil : ¬ Reaches goal way [] := by
  rintro ⟨before, a, after, split, -⟩
  cases before <;> cases split

theorem reaches_cons : Reaches goal way (a :: l) ↔ goal a ∨ way a ∧ Reaches goal way l := by
  constructor
  · rintro ⟨before, found, after, split, reached, passed⟩
    cases before with
    | nil =>
      cases split
      exact .inl reached
    | cons first before =>
      cases split
      obtain ⟨first, rest⟩ := List.forall_mem_cons.1 passed
      exact .inr ⟨first, before, found, after, rfl, reached, rest⟩
  · rintro (reached | ⟨first, before, found, after, rfl, reached, passed⟩)
    · exact ⟨[], a, l, rfl, reached, fun _ h => absurd h List.not_mem_nil⟩
    · exact ⟨a :: before, found, after, rfl, reached, List.forall_mem_cons.2 ⟨first, passed⟩⟩

/-- What does no harm is reached before any harm exactly if it is there and no harm comes before it. -/
theorem reaches_before_iff (harmless : ∀ a, goal a → ¬ harm a) :
    Reaches goal (fun a => ¬ harm a) l ↔
      ¬ Reaches harm (fun a => ¬ goal a) l ∧ ∃ a ∈ l, goal a := by
  induction l with
  | nil => simp [not_reaches_nil]
  | cons a l ih =>
    rw [reaches_cons, reaches_cons, ih, List.exists_mem_cons_iff]
    have := harmless a
    tauto

end

/-! ## A policy that asks for one token -/

theorem Candidate.unfailing_of_retired {c : Candidate} {events : List SecurityEvent}
    (lost : c.isViable = false) : Unfailing (c.observeEach r events).2 := by
  induction events with
  | nil => exact unfailing_nil
  | cons event events ih =>
    rw [observeEach_cons, observe_of_retired lost, unfailing_cons]
    exact ⟨⟨none, rfl⟩, ih⟩

theorem Candidate.isViable_alone_iff {o : Obligation} {events : List SecurityEvent}
    (reads : Unfailing ((alone o).observeEach r events).2) :
    ((alone o).observeEach r events).1.isViable = true ↔ o.Passes r events :=
  (and_iff_right reads).symm.trans (survives_iff.trans List.forall_mem_singleton)

namespace Sighting

variable {s : Sighting policy r} {seen : List (Sighting policy r)} {o : Obligation}

theorem kind_mem_kinds (demand : o.demand = .token policy initiator) (s : Sighting policy r) :
    s.toEvent.kind ∈ o.kinds := by
  simp [Obligation.kinds, demand, Demand.kinds, toEvent, SecurityEvent.kind, s.family]

/-- One more sighting breaks the obligation for good if the token ruins it before it is met. -/
theorem Stands.read (h : Stands initiator seen o) (s : Sighting policy r) :
    ∃ loss, (o.read r s.toEvent).2 = .ok loss ∧
      (loss = none ↔ ¬ (s.Ruins initiator ∧ ∀ e ∈ seen, ¬ e.Conforms initiator)) ∧
      Stands initiator (seen ++ [s]) (o.read r s.toEvent).1 := by
  obtain ⟨outcome, answered, yields, next⟩ := h.hear s
  rw [Obligation.read_of_mem (kind_mem_kinds h.demand s), answered]
  exact ⟨outcome.loss?, rfl, Outcome.loss?_eq_none_iff.trans (not_congr yields.isFatal_iff), next⟩

theorem Stands.readAll (h : Stands initiator seen o) (later : List (Sighting policy r)) :
    Stands initiator (seen ++ later) (o.readAll r (later.map toEvent)) := by
  induction later generalizing seen o with
  | nil => simpa [Obligation.readAll] using h
  | cons s later ih =>
    obtain ⟨-, -, -, next⟩ := h.read s
    have rest := ih next
    rwa [List.append_assoc] at rest

/-- The obligation lets all sightings pass unless one ruins it before it is met. -/
theorem Stands.passes_iff (h : Stands initiator seen o) (later : List (Sighting policy r)) :
    o.Passes r (later.map toEvent) ↔
      ¬ (Reaches (Ruins initiator) (fun e => ¬ e.Conforms initiator) later ∧
        ∀ e ∈ seen, ¬ e.Conforms initiator) := by
  induction later generalizing seen o with
  | nil => exact iff_of_true o.passes_nil fun ruined => not_reaches_nil ruined.1
  | cons s later ih =>
    obtain ⟨loss, answered, passes, next⟩ := h.read s
    have snoc : (∀ e ∈ seen ++ [s], ¬ e.Conforms initiator) ↔
        (∀ e ∈ seen, ¬ e.Conforms initiator) ∧ ¬ s.Conforms initiator :=
      List.forall_mem_append.trans (and_congr_right' List.forall_mem_singleton)
    rw [List.map_cons, Obligation.Passes, answered, Except.ok.injEq, passes, ih next, reaches_cons,
      snoc, ← not_or, not_iff_not]
    constructor
    · rintro (⟨ruins, unmet⟩ | ⟨rest, unmet, other⟩)
      · exact ⟨.inl ruins, unmet⟩
      · exact ⟨.inr ⟨other, rest⟩, unmet⟩
    · rintro ⟨ruins | ⟨other, rest⟩, unmet⟩
      · exact .inl ⟨ruins, unmet⟩
      · exact .inr ⟨rest, unmet, other⟩

/-- A candidate for the obligation reads all sightings. -/
theorem Stands.unfailing (h : Stands initiator seen o) (later : List (Sighting policy r)) :
    Unfailing ((Candidate.alone o).observeEach r (later.map toEvent)).2 := by
  induction later generalizing seen o with
  | nil => exact unfailing_nil
  | cons s later ih =>
    obtain ⟨loss, answered, -, next⟩ := h.read s
    rw [List.map_cons, Candidate.observeEach_cons, Candidate.observe_alone, answered, unfailing_cons]
    refine ⟨⟨loss, rfl⟩, ?_⟩
    cases loss with
    | none => exact ih next
    | some why => exact Candidate.unfailing_of_retired rfl

end Sighting

/-- What becomes of a policy that asks for one token alone. -/
theorem ofPolicy_single_sightings {o : Obligation} {ev : Evaluation} {seen : List (Sighting policy r)}
    (made : Obligation.ofAssertion (.token policy) initiator = .ok o)
    (built : Evaluation.ofPolicy (.single [.token policy]) initiator = .ok ev) :
    Unfailing (ev.observeEach r (seen.map Sighting.toEvent)).2 ∧
    ((ev.observeEach r (seen.map Sighting.toEvent)).1.isSatisfied = true ↔
      Reaches (·.Conforms initiator) (fun s => ¬ s.Ruins initiator) seen) ∧
    ((ev.observeEach r (seen.map Sighting.toEvent)).1.viable = [] ↔
      Reaches (·.Ruins initiator) (fun s => ¬ s.Conforms initiator) seen) := by
  have stands : Sighting.Stands initiator ([] : List (Sighting policy r)) o := by
    cases made
    exact Sighting.stands_nil
  have passes := stands.passes_iff seen
  rw [and_iff_left fun _ h => absurd h List.not_mem_nil] at passes
  have met := (stands.readAll seen).met_iff
  rw [List.nil_append] at met
  have reads := stands.unfailing seen
  rw [Evaluation.ofPolicy_single made] at built
  cases built
  have unfailing :
      Unfailing (Evaluation.observeEach r ⟨[⟨[o], none⟩], none⟩ (seen.map Sighting.toEvent)).2 :=
    Evaluation.observeEach_unfailing_iff.2 (List.forall_mem_singleton.2 reads)
  refine ⟨unfailing, ?_, ?_⟩
  · rw [Evaluation.isSatisfied_observeEach_iff unfailing]
    have conforming : ∀ s : Sighting policy r, s.Conforms initiator → ¬ s.Ruins initiator :=
      fun s conforms ruins => ruins.1.2 conforms
    rw [reaches_before_iff conforming, ← passes, ← met]
    simp [Candidate.isViable]
  · have survives := Candidate.isViable_alone_iff reads
    rw [passes] at survives
    rw [Evaluation.viable, Evaluation.observeEach_candidates unfailing, List.filter_eq_nil_iff]
    refine List.forall_mem_singleton.trans ((not_congr survives).trans not_not)

/-- What becomes of the assertion for a token, and of a policy that asks for nothing else, while tokens
are found one after the other.

* The assertion is met exactly if some token conforms.  If it is not met, it tells what the last adverse
  token lacks, and nothing if there was none.
* An event is fatal exactly if its token is adverse and main and no token before it conforms.
* The policy is satisfied exactly if a token conforms before an adverse main one is found, and it is
  lost exactly if it is the other way round.  No event fails. -/
theorem sightings_decide_token (policy : TokenPolicy) (initiator : Bool) (r : Registry)
    (seen : List (Sighting policy r)) :
    ∃ o ev, Obligation.ofAssertion (.token policy) initiator = .ok o ∧
      Evaluation.ofPolicy (.single [.token policy]) initiator = .ok ev ∧
      ((feed (Obligation.hear r) o (seen.map Sighting.toEvent)).1.met = true ↔
        ∃ s ∈ seen, s.Conforms initiator) ∧
      ((feed (Obligation.hear r) o (seen.map Sighting.toEvent)).1.met = false →
        Sighting.LastLack initiator seen
          (feed (Obligation.hear r) o (seen.map Sighting.toEvent)).1.shortfall) ∧
      (∀ before s after, seen = before ++ s :: after → ∃ outcome,
        (feed (Obligation.hear r) o (seen.map Sighting.toEvent)).2[before.length]? =
          some (.ok outcome) ∧
        Sighting.Yields initiator before s outcome ∧
        (outcome.isFatal = true ↔ s.Ruins initiator ∧ ∀ e ∈ before, ¬ e.Conforms initiator)) ∧
      Unfailing (ev.observeEach r (seen.map Sighting.toEvent)).2 ∧
      ((ev.observeEach r (seen.map Sighting.toEvent)).1.isSatisfied = true ↔
        Reaches (·.Conforms initiator) (fun s => ¬ s.Ruins initiator) seen) ∧
      ((ev.observeEach r (seen.map Sighting.toEvent)).1.viable = [] ↔
        Reaches (·.Ruins initiator) (fun s => ¬ s.Conforms initiator) seen) := by
  have made : Obligation.ofAssertion (.token policy) initiator =
    .ok (Demand.token policy initiator).fresh := rfl
  have built := Evaluation.ofPolicy_single made
  obtain ⟨stands, answers⟩ := Sighting.stands_nil.feed seen
  refine ⟨_, _, made, built, stands.met_iff, stands.lack, fun before s after split => ?_,
    ofPolicy_single_sightings made built⟩
  obtain ⟨outcome, answered, yields⟩ := answers before s after split
  exact ⟨outcome, answered, yields, yields.isFatal_iff⟩

/-- Asks for a supporting username token in the message. -/
def supportingUser : TokenPolicy :=
  { role := .supporting .supporting, kind := .username {} }

/-- A username token that is only referred to, one in the message, and one without a password that also
makes the main signature. -/
def usersFound : Registry :=
  ⟨[{ type := .username, usages := [.supporting] },
    { type := .username, usages := [.supporting], included := true },
    { type := .username, usages := [.supporting, .mainSignature], included := true }]⟩

/-- The finding of a username token with or without a password. -/
def userDetails (password : PasswordType) : TokenDetails :=
  .username { passwordType := password, created := none, nonce := none, profile := none }

/-- The token that is only referred to. -/
def absentUser : Sighting supportingUser usersFound where
  event := ⟨⟨0⟩, userDetails .text⟩
  token := _
  known := rfl
  family := rfl
  specific := by decide
  certificate := nofun

/-- The token that is as asked. -/
def properUser : Sighting supportingUser usersFound where
  event := ⟨⟨1⟩, userDetails .text⟩
  token := _
  known := rfl
  family := rfl
  specific := by decide
  certificate := nofun

/-- The token that makes the main signature. -/
def signingUser : Sighting supportingUser usersFound where
  event := ⟨⟨2⟩, userDetails .none⟩
  token := _
  known := rfl
  family := rfl
  specific := by decide
  certificate := nofun

theorem properUser_conforms : properUser.Conforms false where
  concerns := ⟨.supporting, by decide, by decide⟩
  included := rfl
  derived := by decide
  property := rfl

theorem absentUser_not_conforms : ¬ absentUser.Conforms false :=
  fun conforms => Bool.false_ne_true conforms.included

theorem signingUser_ruins : signingUser.Ruins false := by
  refine ⟨⟨⟨.supporting, by decide, by decide⟩, fun conforms => ?_⟩, .inl (by decide)⟩
  cases conforms.property

/-- With the proper token before the signing one the policy is satisfied, and the other way round it is
lost. -/
theorem sightings_decide_supportingUser :
    ∃ ev, Evaluation.ofPolicy (.single [.token supportingUser]) false = .ok ev ∧
      (ev.observeEach usersFound
        ([absentUser, properUser, signingUser].map Sighting.toEvent)).1.isSatisfied = true ∧
      (ev.observeEach usersFound
        ([absentUser, signingUser, properUser].map Sighting.toEvent)).1.viable = [] := by
  obtain ⟨o, ev, -, built, -, -, -, -, satisfied, -⟩ :=
    sightings_decide_token supportingUser false usersFound [absentUser, properUser, signingUser]
  obtain ⟨o', ev', -, built', -, -, -, -, -, lost⟩ :=
    sightings_decide_token supportingUser false usersFound [absentUser, signingUser, properUser]
  cases built.symm.trans built'
  refine ⟨ev, built, satisfied.2 ⟨[absentUser], properUser, _, rfl, properUser_conforms, ?_⟩,
    lost.2 ⟨[absentUser], signingUser, _, rfl, signingUser_ruins, ?_⟩⟩
  · exact List.forall_mem_singleton.2 fun ruins => absurd ruins.2 (by decide)
  · exact List.forall_mem_singleton.2 absentUser_not_conforms

end SoapPolicy
