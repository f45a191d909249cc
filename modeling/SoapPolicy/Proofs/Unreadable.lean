import SoapPolicy.Proofs.Repetition

/-!
# Events that cannot be read

An event goes only to obligations that understand it (`Demand.understands_of_mem_kinds`).  So the
fault lies with the message whenever one of them cannot read it: a token is not known, a token is used
in a way no policy speaks of, or the details of a certificate come with a token that is none
(`Unreadable`).  An event that cannot be read is `Stuck` at an obligation (`Evaluation.exists_stuck`), and
wherever in the policy that stands, the obligation stays as it is (`Evaluation.Stuck.obligation?_observe`).
-/

namespace SoapPolicy

/-! ## What an obligation understands -/

/-- A demand is about events like this one. -/
inductive Demand.Understands : Demand → SecurityEvent → Prop where
  | token {policy : TokenPolicy} {initiator : Bool} {found : TokenEvent} :
    found.details.family = policy.kind.family →
    Understands (.token policy initiator) (.token found)
  | protection {kind : Protection} {patterns : List ElementPattern} {event : SecurityEvent}
    {report : ProtectionEvent} :
    kind.report? event = some report → Understands (.protection kind patterns) event
  | presence {patterns : List (ElementPattern × Bool)} {path : ElementPath} :
    Understands (.presence patterns) (.requiredElement path)
  | foundToken {binding : BindingType} {record : HeaderRecord} {found : TokenEvent} :
    Understands (.tokenProtection binding (some record)) (.token found)
  | signedElement {binding : BindingType} {record : HeaderRecord} {report : ProtectionEvent} :
    Understands (.tokenProtection binding (some record)) (.signedElement report)
  | operation {binding : BindingType} {record : HeaderRecord} {name : QName} :
    Understands (.tokenProtection binding (some record)) (.operation name)

variable {r : Registry} {event : SecurityEvent} {o : Obligation} {f : Failure}

/-- An event of a kind that concerns a demand is one that the demand is about. -/
theorem Demand.understands_of_mem_kinds {demand : Demand} (reads : event.kind ∈ demand.kinds) :
    demand.Understands event := by
  cases demand with
  | token policy initiator =>
    have kind := List.mem_singleton.1 reads
    cases event with
    | token found => exact .token (EventKind.token.inj kind)
    | _ => cases kind
  | protection kind patterns =>
    obtain ⟨report, reported⟩ := Option.isSome_iff_exists.1
      ((kind.report?_isSome event).2 (List.mem_singleton.1 reads))
    exact .protection reported
  | presence patterns =>
    have kind := List.mem_singleton.1 reads
    cases event with
    | requiredElement path => exact .presence
    | _ => cases kind
  | tokenProtection binding record =>
    cases record with
    | none => cases reads
    | some record =>
      cases event with
      | token found => exact .foundToken
      | signedElement report => exact .signedElement
      | operation name => exact .operation
      | _ => simp [kinds, SecurityEvent.kind] at reads

/-! ## What makes an event unreadable -/

/-- The tokens that an obligation has on record. -/
def Obligation.tokensOnRecord (o : Obligation) : List TokenId :=
  match o.demand with
  | .tokenProtection _ (some record) => record.tokens
  | _ => []

/-- Why an obligation cannot read an event, and the failure that says so. -/
inductive Unreadable (r : Registry) (o : Obligation) : SecurityEvent → Failure → Prop where
  /-- The obligation asks for a token, and the one that was found is not known. -/
  | unknownToken {policy : TokenPolicy} {initiator : Bool} {found : TokenEvent} :
    o.demand = .token policy initiator → r.get? found.token = none →
    Unreadable r o (.token found) (.unknownToken found.token.text)
  /-- The root of a token on record is not known. -/
  | unknownRoot {id : TokenId} {name : QName} :
    id ∈ o.tokensOnRecord → r.get? (r.root id) = none →
    Unreadable r o (.operation name) (.unknownToken (r.root id).text)
  /-- The obligation asks for a token, and the one that was found is used below the level of policy. -/
  | genericUsage {policy : TokenPolicy} {initiator : Bool} {found : TokenEvent}
    {token : SecurityToken} {usage : TokenUsage} :
    o.demand = .token policy initiator → r.get? found.token = some token → usage ∈ token.usages →
    usage = .signature ∨ usage = .encryption →
    Unreadable r o (.token found)
      (.illegalTokenUsage (usage.name ++ " cannot be asserted against " ++ o.name))
  /-- The obligation asks for a token, and the one that was found comes with the details of a
  certificate and is none. -/
  | notCertificate {policy : TokenPolicy} {initiator : Bool} {id : TokenId} {details : X509Details}
    {token : SecurityToken} :
    o.demand = .token policy initiator → r.get? id = some token → token.type.isX509 = false →
    Unreadable r o (.token ⟨id, .x509 details⟩)
      (.unexpectedEvent ("Expected a X509 token but got " ++ token.type.name))

/-- The only failure of a look-up is that the handle names no token. -/
theorem Registry.get_failsOnly (r : Registry) (id : TokenId) :
    FailsOnly (fun f => r.get? id = none ∧ f = .unknownToken id.text) (r.get id) := by
  unfold get
  cases r.get? id with
  | none => exact FailsOnly.error.2 ⟨rfl, rfl⟩
  | some token => exact FailsOnly.ok token

/-! ## Tokens -/

namespace TokenPolicy

variable {policy : TokenPolicy} {initiator : Bool} {found : TokenEvent} {token : SecurityToken}

theorem checkUsages_unreadable (hd : o.demand = .token policy initiator)
    (known : r.get? found.token = some token) :
    FailsOnly (Unreadable r o (.token found)) (policy.checkUsages token.usages) := by
  have own : o.name = policy.name := congrArg Demand.name hd
  rw [checkUsages, ← own]
  split
  next usage first =>
    refine FailsOnly.error.2 (.genericUsage hd known (List.mem_of_find?_eq_some first) ?_)
    have generic := List.find?_some first
    cases usage with
    | signature => exact .inl rfl
    | encryption => exact .inr rfl
    | _ => cases generic
  next => exact FailsOnly.ok _

/-- Details of the family that a policy asks for can be read, unless a certificate is none. -/
theorem propertyShortfall_unreadable (hd : o.demand = .token policy initiator)
    (known : r.get? found.token = some token)
    (family : found.details.family = policy.kind.family) :
    FailsOnly (Unreadable r o (.token found)) (policy.propertyShortfall token found.details) := by
  obtain ⟨id, details⟩ := found
  unfold propertyShortfall
  cases hk : policy.kind <;> rw [hk] at family <;> cases details <;> cases family
  case x509 =>
    dsimp only
    split
    next => exact FailsOnly.ok _
    next other => exact FailsOnly.error.2 (.notCertificate hd known (Bool.eq_false_iff.2 other))
  all_goals exact FailsOnly.ok _

theorem judge_unreadable (hd : o.demand = .token policy initiator)
    (family : found.details.family = policy.kind.family) :
    FailsOnly (Unreadable r o (.token found)) (policy.judge initiator r found) := by
  unfold judge
  refine FailsOnly.bind_of_ok ((r.get_failsOnly found.token).mono ?_) fun token known => ?_
  · rintro _ ⟨unknown, rfl⟩
    exact .unknownToken hd unknown
  have known := Registry.get_eq_ok_iff.1 known
  refine (checkUsages_unreadable hd known).bind fun _ => ?_
  split
  · refine FailsOnly.bind ?_ fun answer => ?_
    · exact (propertyShortfall_unreadable hd known family).bind fun _ => FailsOnly.pure _
    · cases answer with
      | none => exact FailsOnly.pure _
      | some why => exact FailsOnly.pure _
  · exact FailsOnly.pure _

end TokenPolicy

/-! ## Headers -/

namespace HeaderRecord

/-- The root of one of these tokens is not known. -/
def RootUnknown (r : Registry) (ids : List TokenId) (f : Failure) : Prop :=
  ∃ id ∈ ids, r.get? (r.root id) = none ∧ f = .unknownToken (r.root id).text

variable {record : HeaderRecord} {ids : List TokenId}

theorem signsAll_rootUnknown (signer : TokenId) (known : ids ⊆ record.tokens)
    (elements : List SignedElement) :
    FailsOnly (RootUnknown r record.tokens) (signsAll r signer ids elements) := by
  induction ids generalizing elements with
  | nil => exact FailsOnly.ok true
  | cons id ids ih =>
    obtain ⟨hid, hids⟩ := List.cons_subset.1 known
    rw [signsAll]
    refine FailsOnly.bind ((r.get_failsOnly id).mono ?_) fun token => ?_
    · rintro _ ⟨unknown, rfl⟩
      -- a token that is not known is its own root
      have outermost : r.root id = id := Registry.root_eq_self (by simp [Registry.wrapper?, unknown])
      exact ⟨id, hid, by rw [outermost]; exact unknown, by rw [outermost]⟩
    · split
      · dsimp only
        split
        · exact ih hids _
        · exact FailsOnly.pure false
      · exact ih hids elements

theorem tokenShortfall_rootUnknown {id : TokenId} (hid : id ∈ record.tokens) :
    FailsOnly (RootUnknown r record.tokens) (record.tokenShortfall r id) := by
  unfold tokenShortfall
  refine FailsOnly.bind_of_ok ((r.get_failsOnly _).mono ?_) fun root hroot => ?_
  · rintro _ ⟨unknown, rfl⟩
    exact ⟨id, hid, unknown, rfl⟩
  obtain ⟨signer, hsigner⟩ := Registry.exists_signer_of_root (Registry.get_eq_ok_iff.1 hroot)
  dsimp only
  rw [Registry.get_eq_ok_iff.2 hsigner]
  refine FailsOnly.bind (FailsOnly.ok signer) fun token => ?_
  split
  · exact FailsOnly.pure _
  split
  · exact FailsOnly.pure _
  split
  · exact (signsAll_rootUnknown _ (List.Subset.refl _) _).bind fun _ => FailsOnly.pure _
  · exact FailsOnly.pure _

theorem firstShortfall_rootUnknown (known : ids ⊆ record.tokens) :
    FailsOnly (RootUnknown r record.tokens) (record.firstShortfall r ids) := by
  induction ids with
  | nil => exact FailsOnly.ok none
  | cons id ids ih =>
    obtain ⟨hid, hids⟩ := List.cons_subset.1 known
    rw [firstShortfall]
    refine (tokenShortfall_rootUnknown hid).bind fun answer => ?_
    cases answer with
    | none => exact ih hids
    | some why => exact FailsOnly.pure _

end HeaderRecord

/-! ## Obligations -/

/-- An obligation fails to hear an event of a kind that it reads only for a fault of the message. -/
theorem Obligation.hear_unreadable (reads : event.kind ∈ o.kinds) :
    FailsOnly (Unreadable r o event) (o.hear r event).2 := by
  intro f failed
  cases (hear_error_cases failed).1 with
  | @token policy initiator found _ hd judged =>
    have kind : EventKind.token found.details.family = .token policy.kind.family := by
      simpa [kinds, hd, Demand.kinds, SecurityEvent.kind] using reads
    exact TokenPolicy.judge_unreadable hd (EventKind.token.inj kind) f judged
  | @operation binding record name _ hd settled =>
    obtain ⟨id, hid, unknown, rfl⟩ :=
      HeaderRecord.firstShortfall_rootUnknown (List.Subset.refl _) f settled
    exact .unknownRoot (by rwa [tokensOnRecord, hd]) unknown
  | misdirected other => exact absurd reads other

/-- An obligation that cannot read an event is one that the event went to. -/
theorem Obligation.read_eq_error (h : (o.read r event).2 = .error f) :
    event.kind ∈ o.kinds ∧ (o.hear r event).2 = .error f := by
  by_cases reads : event.kind ∈ o.kinds
  case neg =>
    rw [read_of_not_mem reads] at h
    cases h
  rw [read_of_mem reads] at h
  refine ⟨reads, ?_⟩
  cases answer : (o.hear r event).2 with
  | ok outcome =>
    rw [answer] at h
    cases h
  | error g =>
    rw [answer] at h
    exact congrArg Except.error (Except.error.inj h)

/-! ## What is on record -/

/-- The obligation is that for an assertion, and has no tokens on record but these. -/
structure RecordsOnly (found : List TokenId) (initiator : Bool) (o : Obligation) : Prop where
  carries : ∃ a, Carries initiator a o
  known : o.tokensOnRecord ⊆ found

section
variable {found : List TokenId} {initiator : Bool}

theorem Carries.tokensOnRecord_eq_nil {a : PolicyAssertion} (h : Carries initiator a o)
    (plain : a.watchesHeader = false) : o.tokensOnRecord = [] := by
  rw [Obligation.tokensOnRecord]
  split
  next binding record hd =>
    rw [h.watchesHeader_iff.2 ⟨binding, record, hd⟩] at plain
    cases plain
  next => rfl

/-- Before any event there is nothing on record. -/
theorem recordsOnly_ofAssertion {a : PolicyAssertion} (made : Obligation.ofAssertion a initiator = .ok o) :
    RecordsOnly found initiator o := by
  have carries := carries_ofAssertion made
  refine ⟨⟨a, carries⟩, ?_⟩
  cases a with
  | binding policy =>
    cases made
    cases asks : policy.protectTokens <;> simp [Obligation.tokensOnRecord]
  | _ => simp [carries.tokensOnRecord_eq_nil rfl]

theorem RecordsOnly.read (h : RecordsOnly found initiator o) (ok : FindsOnly found event)
    (r : Registry) : RecordsOnly found initiator (o.read r event).1 := by
  obtain ⟨a, carries⟩ := h.carries
  have after := carries.read r event
  refine ⟨⟨a, after⟩, ?_⟩
  cases watches : a.watchesHeader with
  | false => simp [after.tokensOnRecord_eq_nil watches]
  | true =>
    obtain ⟨binding, record, hd⟩ := carries.watchesHeader_iff.1 watches
    have earlier := h.known
    simp only [Obligation.tokensOnRecord, hd, Obligation.demand_read hd] at earlier ⊢
    intro id hid
    rcases HeaderRecord.mem_note_tokens.1 hid with old | new
    · exact earlier old
    · exact ok id new

end

/-! ## Policies -/

namespace Candidate

/-- Each obligation reads the event or, behind an answer that is more than a pass, stays as it is. -/
theorem observeAll_each (r : Registry) (event : SecurityEvent) (os : List Obligation) :
    List.Forall₂ (fun o o' => o' = (o.read r event).1 ∨ o' = o) os (observeAll r event os).1 := by
  induction os with
  | nil => exact .nil
  | cons o os ih =>
    rw [observeAll_cons]
    rcases hread : o.read r event with ⟨o', f | _ | why⟩
    · exact .cons (.inl (by rw [hread])) (List.forall₂_same.2 fun _ _ => .inr rfl)
    · exact .cons (.inl (by rw [hread])) ih
    · exact .cons (.inl (by rw [hread])) (List.forall₂_same.2 fun _ _ => .inr rfl)

theorem observe_each (r : Registry) (event : SecurityEvent) (c : Candidate) :
    List.Forall₂ (fun o o' => o' = (o.read r event).1 ∨ o' = o) c.obligations
      (c.observe r event).1.obligations := by
  obtain ⟨os, _ | why⟩ := c
  · rw [observe_fst_of_open]
    exact observeAll_each r event os
  · rw [observe_of_retired rfl]
    exact List.forall₂_same.2 fun _ _ => .inr rfl

end Candidate

namespace Evaluation

/-- The obligation for the assertion at a place of the policy: its alternative, and its place there. -/
def obligation? (ev : Evaluation) (place : Nat × Nat) : Option Obligation :=
  ev.candidates[place.1]?.bind (·.obligations[place.2]?)

theorem Each.of_obligation? {P : Obligation → Prop} {ev : Evaluation} (h : ev.Each P)
    {place : Nat × Nat} (found : ev.obligation? place = some o) : P o := by
  obtain ⟨c, hc, ho⟩ := Option.bind_eq_some_iff.1 found
  exact h c (List.mem_of_getElem? hc) o (List.mem_of_getElem? ho)

/-- An event is stuck at an obligation.  This stands in an alternative that is open and reads events of
its kind, so the event goes to it, and it cannot read the event. -/
structure Stuck (ev : Evaluation) (r : Registry) (event : SecurityEvent) (f : Failure)
    (place : Nat × Nat) (o : Obligation) : Prop where
  stands : ev.obligation? place = some o
  isOpen : ∃ c, ev.candidates[place.1]? = some c ∧ c.isViable = true
  reads : event.kind ∈ o.kinds
  fails : (o.hear r event).2 = .error f

variable {ev : Evaluation} {place : Nat × Nat}

/-- If an event cannot be read, it is stuck at an obligation. -/
theorem exists_stuck (h : (ev.observe r event).2 = .error f) :
    ∃ place o, ev.Stuck r event f place o := by
  have stopped : (observeAll r event ev.candidates).2.2 = some f := by
    rw [observe_snd] at h
    split at h
    next g hg => rw [hg, Except.error.inj h]
    next => cases h
  obtain ⟨⟨os, _ | why⟩, hc, failed⟩ := observeAll_failure stopped
  · rw [Candidate.observe_snd_of_open] at failed
    obtain ⟨o, ho, hread⟩ := Candidate.exists_read_of_observeAll failed (by simp)
    obtain ⟨reads, fails⟩ := Obligation.read_eq_error hread
    obtain ⟨i, hi⟩ := List.getElem?_of_mem hc
    obtain ⟨j, hj⟩ := List.getElem?_of_mem ho
    exact ⟨(i, j), o, Option.bind_eq_some_iff.2 ⟨_, hi, hj⟩, ⟨_, hi, rfl⟩, reads, fails⟩
  · rw [Candidate.observe_of_retired rfl] at failed
    cases failed

/-- An obligation that an event is stuck at is left as it is by the event. -/
theorem Stuck.hear_eq (h : ev.Stuck r event f place o) : o.hear r event = (o, .error f) :=
  Obligation.hear_of_error h.fails

/-- An obligation that an event is stuck at stays where it is and as it is, whichever obligation the
reading of the event stops at. -/
theorem Stuck.obligation?_observe (h : ev.Stuck r event f place o) :
    (ev.observe r event).1.obligation? place = some o := by
  obtain ⟨c, hc, ho⟩ := Option.bind_eq_some_iff.1 h.stands
  obtain ⟨c', hc', read⟩ := forall₂_get? (observeAll_each r event ev.candidates) hc
  have unchanged : (o.read r event).1 = o := by rw [Obligation.read_of_mem h.reads, h.hear_eq]
  have stays : c'.obligations[place.2]? = some o := by
    rcases read with rfl | rfl
    · obtain ⟨o', ho', heard⟩ := forall₂_get? (c.observe_each r event) ho
      rw [unchanged, or_self] at heard
      rw [ho', heard]
    · exact ho
  rw [observe_fst]
  exact Option.bind_eq_some_iff.2 ⟨c', hc', stays⟩

/-- An event is stuck at an obligation only for a fault of the message. -/
theorem Stuck.unreadable (h : ev.Stuck r event f place o) : Unreadable r o event f :=
  Obligation.hear_unreadable h.reads f h.fails

/-- All tokens on record were found by events of the history. -/
theorem each_recordsOnly {policy : Policy} {initiator : Bool} {ev : Evaluation}
    (built : ofPolicy policy initiator = .ok ev) (history : List (Registry × SecurityEvent)) :
    (ev.observeOver history).1.Each
      (RecordsOnly (history.filterMap (·.2.foundToken?)) initiator) := by
  have fresh : ev.Each (RecordsOnly (history.filterMap (·.2.foundToken?)) initiator) := by
    intro c hc o ho
    obtain ⟨-, -, a, -, made⟩ := each_ofAssertion built c hc o ho
    exact recordsOnly_ofAssertion made
  refine fresh.observeOver fun input hinput o ho => ho.read (fun id hid => ?_) input.1
  exact List.mem_filterMap.2 ⟨input, hinput, hid⟩

end Evaluation

end SoapPolicy
