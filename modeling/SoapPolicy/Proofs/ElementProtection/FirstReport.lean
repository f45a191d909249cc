import SoapPolicy.Proofs.ElementProtection
import SoapPolicy.Proofs.Irrevocable

/-!
# The first report of an element is the last

What becomes of a policy that asks for protected elements and for nothing else.  Events that report no
listed element pass it by.  The first one that reports such an element decides: it meets the assertion,
or it loses the alternative.  In either case no event changes anything any more
(`firstReport_decides_protection`).  The tokens do not matter for any of this, so they may be others at
every event.
-/

namespace SoapPolicy

variable {kind : Protection} {elements : ElementsPolicy} {patterns : List ElementPattern}
  {history : List (Registry × SecurityEvent)}

/-! ## A policy with one obligation -/

namespace Evaluation

/-- A policy with one obligation, and why it is lost, if it is. -/
def alone (o : Obligation) (lost : Option Shortfall) : Evaluation :=
  ⟨[⟨[o], lost⟩], lost⟩

/-- As long as the policy is open, its obligation reads the event. -/
theorem observe_alone (o : Obligation) (r : Registry) (event : SecurityEvent) :
    (alone o none).observe r event =
      (alone (o.read r event).1 (o.read r event).2.toOption.join, (o.read r event).2) := by
  have single := Candidate.observe_alone r event o
  rw [Candidate.alone] at single
  rcases hread : o.read r event with ⟨o', f | _ | why⟩ <;> rw [hread] at single
  all_goals simp [alone, observe, observeAll, single, viable, Candidate.isViable, Except.toOption]

/-- A run up to an event that ends what it changes is over with that event. -/
theorem observeOver_of_decisive {ev ev' : Evaluation} {answer : Except Failure (Option Shortfall)}
    {before after : List (Registry × SecurityEvent)} {input : Registry × SecurityEvent}
    (waiting : ∀ input ∈ before, ev.observe input.1 input.2 = (ev, .ok none))
    (decides : ev.observe input.1 input.2 = (ev', answer))
    (settled : ∀ r event, ev'.observe r event = (ev', .ok none)) :
    ev.observeOver (before ++ input :: after) =
      (ev', (before.map fun _ => .ok none) ++ answer :: after.map fun _ => .ok none) := by
  have earlier := observeOver_of_idle waiting
  have later : ev'.observeOver after = (ev', after.map fun _ => .ok none) :=
    observeOver_of_idle fun input _ => settled input.1 input.2
  rw [observeOver_append, earlier, observeOver_cons, decides, later]

end Evaluation

/-! ## Protected elements alone -/

/-- A policy that asks for some protected elements alone begins with an obligation that is not met. -/
theorem Evaluation.ofPolicy_protection {a : PolicyAssertion}
    (asks : a.protection? = some (kind, elements)) (listed : elements.xpaths ≠ []) {initiator : Bool}
    {ev : Evaluation} (built : ofPolicy (.single [a]) initiator = .ok ev) :
    ∃ patterns, Obligation.patternsOf elements = .ok patterns ∧
      ev = alone ⟨.protection kind patterns, false, none⟩ none := by
  obtain ⟨o, made, rfl⟩ := exists_obligation_of_single built
  obtain ⟨patterns, compiled, rfl⟩ := Obligation.ofAssertion_protection asks made
  rw [Obligation.isEmpty_patterns compiled listed]
  exact ⟨patterns, compiled, rfl⟩

/-- An obligation for protected elements that is met is settled. -/
theorem Obligation.settled_protection {a : PolicyAssertion}
    (asks : a.protection? = some (kind, elements))
    (compiled : patternsOf elements = .ok patterns) :
    Settled ⟨.protection kind patterns, true, none⟩ := by
  have plain : a.watchesHeader = false := by
    cases a with
    | binding policy => cases asks
    | _ => rfl
  have carries : Carries false a ⟨.protection kind patterns, true, none⟩ :=
    .protection asks compiled fun _ => rfl
  exact carries.settled plain rfl

/-- What becomes of a policy that asks for the protection of some elements and for nothing else.

* As long as no event reports a listed element, the assertion is not met and falls short of nothing, and
  the alternative is open.
* If the first event that does so says that the element is protected, the assertion is met from then on.
* If it says that the element is not, the alternative is lost from then on, and the message names this
  element.

No event fails, and none after the first report changes anything. -/
theorem firstReport_decides_protection {a : PolicyAssertion}
    (asks : a.protection? = some (kind, elements)) (listed : elements.xpaths ≠ []) {initiator : Bool}
    {ev : Evaluation} (built : Evaluation.ofPolicy (.single [a]) initiator = .ok ev) :
    ∃ demand, ev = .alone ⟨demand, false, none⟩ none ∧
      (∀ history : List (Registry × SecurityEvent),
        (∀ input ∈ history, ∀ isProtected, ¬ input.2.Reports kind elements isProtected) →
        ev.observeOver history = (ev, history.map fun _ => .ok none)) ∧
      ∀ (before after : List (Registry × SecurityEvent)) (r : Registry) (event : SecurityEvent)
        (report : ProtectionEvent),
        (∀ input ∈ before, ∀ isProtected, ¬ input.2.Reports kind elements isProtected) →
        kind.report? event = some report → event.Reports kind elements report.isProtected →
        (report.isProtected = true →
          ev.observeOver (before ++ (r, event) :: after) =
            (.alone ⟨demand, true, none⟩ none,
              (before.map fun _ => .ok none) ++ .ok none :: after.map fun _ => .ok none)) ∧
        (report.isProtected = false → ∃ why : Shortfall,
          why.message = "Element " ++ report.path.text ++ " must be " ++ kind.participle ∧
          ev.observeOver (before ++ (r, event) :: after) =
            (.alone ⟨demand, false, some why⟩ (some why),
              (before.map fun _ => .ok none) ++
                .ok (some why) :: after.map fun _ => .ok none)) := by
  obtain ⟨patterns, compiled, rfl⟩ := Evaluation.ofPolicy_protection asks listed built
  -- until an event reports a listed element, the policy stays as it began
  have waiting : ∀ history : List (Registry × SecurityEvent),
      (∀ input ∈ history, ∀ isProtected, ¬ input.2.Reports kind elements isProtected) →
      ∀ input ∈ history,
        (Evaluation.alone ⟨.protection kind patterns, false, none⟩ none).observe input.1 input.2 =
          (.alone ⟨.protection kind patterns, false, none⟩ none, .ok none) := by
    intro history silent input hinput
    rw [Evaluation.observe_alone, Obligation.read_of_silent compiled (silent input hinput)]
    rfl
  refine ⟨.protection kind patterns, rfl,
    fun history silent => Evaluation.observeOver_of_idle (waiting history silent),
    fun before after r event report silent reported reports => ⟨fun guarded => ?_, fun unguarded => ?_⟩⟩
  · refine Evaluation.observeOver_of_decisive (waiting before silent) ?_ fun r event => ?_
    · rw [Evaluation.observe_alone, Obligation.read_of_reports compiled reported reports, guarded]
      rfl
    · rw [Evaluation.observe_alone, (Obligation.settled_protection asks compiled).read]
      rfl
  · refine ⟨.unprotected kind report.path, rfl, ?_⟩
    refine Evaluation.observeOver_of_decisive (waiting before silent) ?_ fun r event => ?_
    · rw [Evaluation.observe_alone, Obligation.read_of_reports compiled reported reports, unguarded]
      rfl
    · exact Evaluation.observe_of_viable_eq_nil rfl

/-- Asks for the encryption of two kinds of elements. -/
def eitherEncrypted : ElementsPolicy := ⟨[⟨"//a", []⟩, ⟨"/b", []⟩]⟩

/-- A listed element that is signed, and an element that is not listed. -/
def nothingListed : List (Registry × SecurityEvent) :=
  [({}, .ofSigned ⟨0⟩ [⟨"", "a"⟩] true), ({}, .ofEncrypted ⟨0⟩ [⟨"", "b"⟩, ⟨"", "c"⟩] true)]

theorem silent_nothingListed : ∀ input ∈ nothingListed, ∀ isProtected,
    ¬ input.2.Reports .encryption eitherEncrypted isProtected := by
  refine List.forall_mem_cons.2 ⟨?_, List.forall_mem_singleton.2 ?_⟩
  · rintro isProtected ⟨report, reported, -⟩
    cases reported
  · rintro isProtected ⟨report, reported, -, xpath, hxpath, pattern, compiled, accepts⟩
    cases reported
    rcases List.mem_pair.1 hxpath with rfl | rfl
    · cases compiled
      cases accepts
    · cases compiled
      cases accepts

/-- A listed element is not encrypted. -/
def plainElement : ProtectionEvent := ⟨⟨0⟩, [⟨"", "x"⟩, ⟨"", "a"⟩], false, [.encryption]⟩

/-- The element is found not encrypted, and then encrypted. -/
def encryptedTooLate : List (Registry × SecurityEvent) :=
  [({}, .encryptedElement plainElement),
    ({}, .encryptedElement { plainElement with isProtected := true })]

/-- The alternative is lost by the first report of a listed element, whatever is reported later. -/
theorem firstReport_decides_eitherEncrypted :
    ∃ ev demand why,
      Evaluation.ofPolicy (.single [.encryptedElements eitherEncrypted]) false = .ok ev ∧
      why.message = "Element /x/a must be encrypted" ∧
      ev.observeOver (nothingListed ++ encryptedTooLate) =
        (.alone ⟨demand, false, some why⟩ (some why),
          [.ok none, .ok none, .ok (some why), .ok none]) := by
  have built : Evaluation.ofPolicy (.single [.encryptedElements eitherEncrypted]) false = .ok _ := rfl
  have asks : (PolicyAssertion.encryptedElements eitherEncrypted).protection? =
    some (.encryption, eitherEncrypted) := rfl
  obtain ⟨demand, -, -, decides⟩ :=
    firstReport_decides_protection asks (List.cons_ne_nil _ _) built
  have reports : (SecurityEvent.encryptedElement plainElement).Reports .encryption eitherEncrypted
      false := ⟨_, rfl, rfl, _, .head _, _, rfl, by decide⟩
  obtain ⟨why, message, lost⟩ :=
    (decides nothingListed _ {} _ plainElement silent_nothingListed rfl reports).2 rfl
  exact ⟨_, demand, why, built, message.trans (by decide), lost⟩

end SoapPolicy
