import SoapPolicy.Proofs.Carrying
import SoapPolicy.Proofs.TokenProtection.Repetition

/-!
# Events that come twice

An obligation that has read an event answers it in the same way when it comes again, and it does not
change by it (`Carries.read_again`).  The one exception is token protection, which records a signed
element once more.  `Repeats` relates an obligation to itself and to one with such an extra copy on
record.  As long as the element is not contested, no event tells the two apart (`likeness_repeats`),
so an evaluation that has read an event absorbs it when it comes again (`Evaluation.absorbs_again`).
-/

namespace SoapPolicy

variable {r : Registry} {event : SecurityEvent} {initiator : Bool} {a : PolicyAssertion}
  {o o' : Obligation}

/-! ## Reading twice -/

/-- An obligation that has read an event answers it alike when it comes again, and stays as it is,
unless it watches the header. -/
theorem Carries.read_again (h : Carries initiator a o) (plain : a.watchesHeader = false) :
    (o.read r event).1.read r event = o.read r event := by
  by_cases reads : event.kind ∈ o.kinds
  case neg =>
    rw [Obligation.read_of_not_mem reads]
    exact Obligation.read_of_not_mem reads
  cases h with
  | @token policy met shortfall quiet =>
    cases event with
    | token found =>
      have family : found.details.family = policy.kind.family :=
        EventKind.token.inj (List.mem_singleton.1 reads)
      cases met with
      | true => rw [Obligation.read_met_token family, Obligation.read_met_token family]
      | false =>
        have unmet (shortfall : Option Shortfall) :=
          @Obligation.read_unmet_token r policy initiator found family shortfall
        rw [unmet]
        cases judged : policy.judge initiator r found with
        | error f => simp only [unmet, judged]
        | ok verdict =>
          cases verdict with
          | unconcerned => simp only [unmet, judged]
          | conforming => exact Obligation.read_met_token family none
          | adverse why main => simp only [unmet, judged]
    | _ => cases List.mem_singleton.1 reads
  | @protection _ kind policy patterns met shortfall asked compiled quiet =>
    rw [Obligation.kinds_protection, List.mem_singleton, ← Protection.report?_isSome] at reads
    obtain ⟨report, reported⟩ := Option.isSome_iff_exists.1 reads
    have read := Obligation.read_report (r := r) reported patterns
    rw [read]
    split
    next idle => rw [read, if_pos idle]
    next decisive =>
      split
      next => rw [read, Bool.true_or, if_pos rfl]
      next unguarded =>
        have concerned := (Bool.or_eq_false_iff.1 (Bool.eq_false_iff.2 decisive)).2
        rw [read, Bool.false_or, concerned, if_neg Bool.false_ne_true, if_neg unguarded]
  | presence patterns =>
    rw [Obligation.kinds_ofPresence, List.mem_singleton] at reads
    cases event with
    | requiredElement path =>
      rw [Obligation.read_presence, Obligation.read_presence, List.map_map]
      simp only [Function.comp_def, Bool.or_assoc, Bool.or_self]
    | _ => cases reads
  | header record met shortfall asks =>
    rw [PolicyAssertion.watchesHeader, asks] at plain
    cases plain
  | idle => cases reads

/-! ## Extra copies -/

/-- If an event reports a signed element, the element is not contested by the tokens found. -/
def Uncontested (r : Registry) (found : List TokenId) (event : SecurityEvent) : Prop :=
  ∀ element, event.signedElement? = some element → ¬ Contested r found element

/-- An event finds no tokens but these. -/
def FindsOnly (found : List TokenId) (event : SecurityEvent) : Prop :=
  ∀ id, event.foundToken? = some id → id ∈ found

/-- The obligation is that for an assertion, and if it watches the header, the tokens on record are
each found once and do not contest the event. -/
structure OnRecord (r : Registry) (found : List TokenId) (event : SecurityEvent)
    (initiator : Bool) (o : Obligation) : Prop where
  carries : ∃ a, Carries initiator a o
  header : ∀ binding record, o.demand = .tokenProtection binding (some record) →
    record.tokens.Nodup ∧ record.tokens ⊆ found ∧ Uncontested r found event

/-- The second obligation has a signed element on record once more than the first. -/
inductive ExtraCopy (event : SecurityEvent) : Obligation → Obligation → Prop where
  | header {element : SignedElement} {before : List SignedElement} (binding : BindingType)
    (tokens : List TokenId) (after : List SignedElement) (met : Bool)
    (shortfall : Option Shortfall) :
    event.signedElement? = some element → element ∈ before →
    ExtraCopy event ⟨.tokenProtection binding (some ⟨tokens, before ++ after⟩), met, shortfall⟩
      ⟨.tokenProtection binding (some ⟨tokens, before ++ element :: after⟩), met, shortfall⟩

/-- The second obligation is the first, or has an extra copy on record. -/
def Repeats (r : Registry) (found : List TokenId) (event : SecurityEvent) (initiator : Bool)
    (o o' : Obligation) : Prop :=
  OnRecord r found event initiator o ∧ (o' = o ∨ ExtraCopy event o o')

variable {found : List TokenId}

theorem Carries.watchesHeader_iff (h : Carries initiator a o) :
    a.watchesHeader = true ↔
      ∃ binding record, o.demand = .tokenProtection binding (some record) := by
  cases h with
  | token policy quiet => simp [PolicyAssertion.watchesHeader]
  | @protection _ kind policy patterns met shortfall asked compiled quiet =>
    cases a <;> simp_all [PolicyAssertion.watchesHeader, PolicyAssertion.protection?]
  | presence patterns compiled => simp [PolicyAssertion.watchesHeader]
  | header record met shortfall asks => simp [PolicyAssertion.watchesHeader, asks]
  | idle silent => simp [PolicyAssertion.watchesHeader, silent]

theorem OnRecord.read (h : OnRecord r found event initiator o) {other : SecurityEvent}
    (ok : FindsOnly found other) : OnRecord r found event initiator (o.read r other).1 := by
  obtain ⟨a, carries⟩ := h.carries
  refine ⟨⟨a, carries.read r other⟩, fun binding record hd => ?_⟩
  obtain ⟨binding', earlier, hd'⟩ :=
    carries.watchesHeader_iff.1 ((carries.read r other).watchesHeader_iff.2 ⟨binding, record, hd⟩)
  obtain ⟨distinct, known, uncontested⟩ := h.header binding' earlier hd'
  rw [Obligation.demand_read hd'] at hd
  cases hd
  refine ⟨HeaderRecord.nodup_note_tokens distinct other, fun id hid => ?_, uncontested⟩
  rcases HeaderRecord.mem_note_tokens.1 hid with old | new
  · exact known old
  · exact ok id new

/-- Before any event there is nothing on record. -/
theorem onRecord_ofAssertion (made : Obligation.ofAssertion a initiator = .ok o)
    (spare : a.watchesHeader = true → Uncontested r found event) :
    OnRecord r found event initiator o := by
  have carries := carries_ofAssertion made
  refine ⟨⟨a, carries⟩, fun binding record hd => ?_⟩
  have watches := carries.watchesHeader_iff.2 ⟨binding, record, hd⟩
  cases a with
  | binding policy =>
    have asks : policy.protectTokens = true := watches
    simp only [Obligation.ofAssertion, asks, if_true] at made
    cases made
    cases hd
    exact ⟨List.nodup_nil, List.nil_subset found, spare watches⟩
  | _ => cases watches

/-- An event keeps an extra copy and is answered alike. -/
theorem ExtraCopy.read (copy : ExtraCopy event o o') (h : OnRecord r found event initiator o)
    (other : SecurityEvent) :
    (o.read r other).2 = (o'.read r other).2 ∧
      ExtraCopy event (o.read r other).1 (o'.read r other).1 := by
  cases copy with
  | @header element before binding tokens after met shortfall reported present =>
    obtain ⟨distinct, known, uncontested⟩ := h.header binding _ rfl
    by_cases ends : other.kind = .operation
    · cases other with
      | operation name =>
        rw [Obligation.read_operation, Obligation.read_operation,
          HeaderRecord.shortfall?_extraCopy distinct known present (uncontested element reported)]
        rcases HeaderRecord.shortfall? ⟨tokens, before ++ after⟩ r with f | _ | why
        · exact ⟨rfl, .header binding tokens after met shortfall reported present⟩
        · exact ⟨rfl, .header binding tokens after met shortfall reported present⟩
        · exact ⟨rfl, .header binding tokens after false (some why) reported present⟩
      | _ => cases ends
    · obtain ⟨tokens', after', without, with_copy⟩ :=
        HeaderRecord.note_extraCopy tokens element before after other
      rw [Obligation.read_tokenProtection binding _ met shortfall ends,
        Obligation.read_tokenProtection binding _ met shortfall ends, without, with_copy]
      exact ⟨rfl, .header binding tokens' after' met shortfall reported present⟩

/-- Nobody can tell an obligation from one with an extra copy on record. -/
theorem likeness_repeats : Likeness r (FindsOnly found) (Repeats r found event initiator) where
  name := by
    rintro o o' ⟨-, rfl | copy⟩
    · rfl
    · cases copy; rfl
  met := by
    rintro o o' ⟨-, rfl | copy⟩
    · rfl
    · cases copy; rfl
  shortfall := by
    rintro o o' ⟨-, rfl | copy⟩
    · rfl
    · cases copy; rfl
  read := by
    rintro o o' ⟨h, rfl | copy⟩ other ok
    · exact ⟨rfl, h.read ok, .inl rfl⟩
    · obtain ⟨same, after⟩ := copy.read h other
      exact ⟨same, h.read ok, .inr after⟩

/-! ## Reading again -/

/-- An obligation that has read an event answers it alike when it comes again.  It stays as it is, or
has an extra copy on record. -/
theorem OnRecord.read_again (h : OnRecord r found event initiator o) (ok : FindsOnly found event) :
    ((o.read r event).1.read r event).2 = (o.read r event).2 ∧
      Repeats r found event initiator (o.read r event).1 ((o.read r event).1.read r event).1 := by
  have after := h.read ok
  obtain ⟨a, carries⟩ := h.carries
  cases plain : a.watchesHeader with
  | false =>
    rw [carries.read_again plain]
    exact ⟨rfl, after, .inl rfl⟩
  | true =>
    obtain ⟨binding, record, hd⟩ := carries.watchesHeader_iff.1 plain
    obtain ⟨demand, met, shortfall⟩ := o
    cases hd
    by_cases ends : event.kind = .operation
    · cases event with
      | operation name =>
        rw [Obligation.read_operation] at after ⊢
        rcases settled : record.shortfall? r with f | _ | why
        all_goals
          simp only [settled, Obligation.read_operation] at after ⊢
          exact ⟨trivial, after, .inl rfl⟩
      | _ => cases ends
    · rw [Obligation.read_tokenProtection binding record met shortfall ends] at after ⊢
      rw [Obligation.read_tokenProtection binding (record.note event) met shortfall ends]
      refine ⟨rfl, after, ?_⟩
      rcases record.note_again event with
        same | ⟨tokens, before, element, reported, present, once, twice⟩
      · rw [same]
        exact .inl rfl
      · rw [twice, once]
        exact .inr (.header binding tokens [] met shortfall reported present)

/-! ## Alternatives and policies -/

/-- An alternative that has read an event absorbs it when it comes again. -/
theorem Candidate.absorbs_again {c : Candidate} {why : Option Shortfall}
    (h : Alike (Repeats r found event initiator) c c) (ok : FindsOnly found event)
    (read : (c.observe r event).2 = .ok why) :
    ((c.observe r event).1.observe r event).2 = .ok none ∧
      Alike (Repeats r found event initiator) (c.observe r event).1
        ((c.observe r event).1.observe r event).1 := by
  refine absorbs (h.observe likeness_repeats ok).2 fun viable o₁ ho₁ => ?_
  have before := isViable_of_observe viable
  obtain ⟨os, _ | lost⟩ := c
  case some => cases before
  -- the alternative is still open, so all its obligations have let the event pass
  rw [observe_snd_of_open] at read
  rw [observe_fst_of_open, read] at viable
  cases why with
  | some why => cases viable
  | none =>
    have quiet := observeAll_quiet_iff.1 read
    rw [observe_fst_of_open, observeAll_fst_of_quiet quiet] at ho₁
    obtain ⟨o, ho, rfl⟩ := List.mem_map.1 ho₁
    obtain ⟨answer, repeats⟩ := (alike_self_iff.1 h o ho).1.read_again ok
    exact ⟨answer.trans (quiet o ho), repeats⟩

/-- A policy that has read an event absorbs it when it comes again. -/
theorem Evaluation.absorbs_again {ev ev' : Evaluation} {why : Option Shortfall}
    (h : Alike (Repeats r found event initiator) ev ev) (ok : FindsOnly found event)
    (read : ev.observe r event = (ev', .ok why)) :
    ev'.Absorbs r (Repeats r found event initiator) event := by
  have answered : (ev.observe r event).2 = .ok why := by rw [read]
  have candidates := observe_candidates answered
  rw [read] at candidates
  refine absorbs fun c' hc' => ?_
  rw [candidates] at hc'
  obtain ⟨c, hc, rfl⟩ := List.mem_map.1 hc'
  obtain ⟨why', passed⟩ := observe_ok_iff.1 ⟨why, answered⟩ c hc
  exact Candidate.absorbs_again (List.forall₂_same.1 h.candidates c hc) ok passed

/-! ## One obligation by itself -/

namespace Obligation

/-- What an obligation is after events that it reads one after the other. -/
def readAll (r : Registry) (o : Obligation) (events : List SecurityEvent) : Obligation :=
  (feed (fun o event => o.read r event) o events).1

theorem readAll_append (o : Obligation) (xs ys : List SecurityEvent) :
    o.readAll r (xs ++ ys) = (o.readAll r xs).readAll r ys := by
  rw [readAll, feed_append]
  rfl

end Obligation

theorem repeats_readAll {events : List SecurityEvent} (h : Repeats r found event initiator o o')
    (ok : ∀ other ∈ events, FindsOnly found other) :
    Repeats r found event initiator (o.readAll r events) (o'.readAll r events) := by
  induction events generalizing o o' with
  | nil => exact h
  | cons other events ih =>
    obtain ⟨first, others⟩ := List.forall_mem_cons.1 ok
    exact ih (likeness_repeats.read h first).2 others

/-- Whether an obligation is met does not depend on whether an event comes once or twice. -/
theorem OnRecord.met_readAll (h : OnRecord r found event initiator o) {xs ys : List SecurityEvent}
    (ok : ∀ other ∈ xs ++ event :: ys, FindsOnly found other) :
    (o.readAll r (xs ++ event :: event :: ys)).met = (o.readAll r (xs ++ event :: ys)).met := by
  obtain ⟨earlier, rest⟩ := List.forall_mem_append.1 ok
  obtain ⟨found_event, later⟩ := List.forall_mem_cons.1 rest
  have before := repeats_readAll ⟨h, .inl rfl⟩ earlier
  have again := (before.1.read_again found_event).2
  rw [Obligation.readAll_append, Obligation.readAll_append]
  exact (likeness_repeats.met (repeats_readAll again later)).symm

end SoapPolicy
