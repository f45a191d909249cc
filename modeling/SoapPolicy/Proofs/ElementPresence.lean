import SoapPolicy.Proofs.ElementProtection

/-!
# Elements that are present

An assertion for elements that are present keeps a mark for each of its patterns.  An event marks every
pattern that matches, and the assertion falls short of the first pattern without a mark.  After any run
the marks are those of the patterns that match one of the elements found (`findEach_ofPresence`), so
which elements were found is all that matters: not their order, and not how often they were found
(`coverage_decides_presence`).
-/

namespace SoapPolicy

variable {patterns : List ElementPattern} {found : List (Registry × ElementPath)}

/-- The pattern matches one of the elements. -/
def ElementPattern.CoveredBy (found : List (Registry × ElementPath)) (pattern : ElementPattern) :
    Prop :=
  ∃ input ∈ found, pattern.accepts input.2 = true

namespace Obligation

/-! ## Marks -/

/-- An obligation falls short of the first pattern that was not seen. -/
theorem shortfall_ofPresence (patterns : List (ElementPattern × Bool)) :
    (ofPresence patterns).shortfall =
      (patterns.find? fun p => !p.2).map fun p => .elementMissing p.1 := by
  unfold ofPresence
  cases patterns.find? fun p => !p.2 <;> rfl

/-- An obligation that is not met names the first pattern that was not seen. -/
theorem shortfall_presence_of_not_met {patterns : List (ElementPattern × Bool)}
    (unmet : (ofPresence patterns).met = false) :
    ∃ before pattern after, patterns = before ++ (pattern, false) :: after ∧
      (∀ other ∈ before, other.2 = true) ∧
      (ofPresence patterns).shortfall = some (.elementMissing pattern) := by
  rw [shortfall_ofPresence]
  cases first : patterns.find? fun p => !p.2 with
  | none =>
    have met : (ofPresence patterns).met = true :=
      met_ofPresence.2 fun p hp => by simpa using List.find?_eq_none.1 first p hp
    rw [met] at unmet
    cases unmet
  | some missing =>
    obtain ⟨unseen, before, after, rfl, seen⟩ := List.find?_eq_some_iff_append.1 first
    obtain ⟨pattern, mark⟩ := missing
    cases mark with
    | true => cases unseen
    | false =>
      refine ⟨before, pattern, after, rfl, fun other hother => ?_, rfl⟩
      simpa using seen other hother

theorem shortfall_presence_of_met {patterns : List (ElementPattern × Bool)}
    (met : (ofPresence patterns).met = true) : (ofPresence patterns).shortfall = none := by
  have unseen : (patterns.find? fun p => !p.2) = none :=
    List.find?_eq_none.2 fun p hp => by simp [met_ofPresence.1 met p hp]
  rw [shortfall_ofPresence, unseen, Option.map_none]

/-! ## Runs -/

/-- Let an obligation hear of elements one after the other, each with the tokens as they are by then. -/
def findEach (o : Obligation) (found : List (Registry × ElementPath)) :
    Obligation × List (Except Failure Outcome) :=
  feed (fun o input => o.hear input.1 (.requiredElement input.2)) o found

/-- After a run, a pattern is marked if it was before, or if it matches an element that was found. -/
theorem findEach_ofPresence (patterns : List (ElementPattern × Bool)) :
    (ofPresence patterns).findEach found =
      (ofPresence (patterns.map fun (pattern, seen) =>
          (pattern, seen || found.any (pattern.accepts ·.2))),
        found.map fun _ => .ok .pass) := by
  induction found generalizing patterns with
  | nil => simp [findEach]
  | cons input found ih =>
    rw [findEach, feed_cons, hear_ofPresence, ← findEach, ih, List.map_map]
    simp only [Function.comp_def, List.any_cons, Bool.or_assoc, List.map_cons]

/-- From the start, the marks are those of the patterns that are covered. -/
theorem findEach_fresh (patterns : List ElementPattern) (found : List (Registry × ElementPath)) :
    (ofPresence (patterns.map fun pattern => (pattern, false))).findEach found =
      (ofPresence (patterns.map fun pattern => (pattern, found.any (pattern.accepts ·.2))),
        found.map fun _ => .ok .pass) := by
  rw [findEach_ofPresence, List.map_map]
  simp only [Function.comp_def, Bool.false_or]

end Obligation

/-! ## Coverage -/

theorem ElementPattern.coveredBy_iff {pattern : ElementPattern} :
    pattern.CoveredBy found ↔ found.any (pattern.accepts ·.2) = true :=
  List.any_eq_true.symm

/-- A pattern that is covered stays covered by any elements that include the same ones. -/
theorem ElementPattern.CoveredBy.mono {pattern : ElementPattern} (covered : pattern.CoveredBy found)
    {found' : List (Registry × ElementPath)}
    (included : ∀ path ∈ found.map Prod.snd, path ∈ found'.map Prod.snd) :
    pattern.CoveredBy found' := by
  obtain ⟨input, hinput, accepts⟩ := covered
  obtain ⟨input', hinput', same⟩ := List.mem_map.1 (included _ (List.mem_map_of_mem hinput))
  exact ⟨input', hinput', same ▸ accepts⟩

/-- What becomes of an assertion for elements that are present.  It lets every event for such an element
pass.  It is met once each of its patterns matches some element that was found, and then it falls short
of nothing.  Until then the message names the first pattern that matches none.  The order of the events
and their number do not matter. -/
theorem coverage_decides_presence {elements : ElementsPolicy}
    (compiled : List.Forall₂ (fun xpath pattern => XPath.compile xpath = .ok pattern)
      elements.xpaths patterns) (initiator : Bool) :
    ∃ o, Obligation.ofAssertion (.requiredElements elements) initiator = .ok o ∧
      ∀ found : List (Registry × ElementPath),
        (o.findEach found).2 = found.map (fun _ => .ok .pass) ∧
        ((o.findEach found).1.met = true ↔ ∀ pattern ∈ patterns, pattern.CoveredBy found) ∧
        ((o.findEach found).1.met = true → (o.findEach found).1.shortfall = none) ∧
        ((o.findEach found).1.met = false → ∃ before pattern after why,
          patterns = before ++ pattern :: after ∧ (∀ other ∈ before, other.CoveredBy found) ∧
          ¬ pattern.CoveredBy found ∧ (o.findEach found).1.shortfall = some why ∧
          why.message = "Element " ++ pattern.text ++ " must be present") ∧
        ∀ found' : List (Registry × ElementPath),
          (∀ path, path ∈ found'.map Prod.snd ↔ path ∈ found.map Prod.snd) →
          (o.findEach found').1 = (o.findEach found).1 := by
  have made : Obligation.ofAssertion (.requiredElements elements) initiator =
      .ok (.ofPresence (patterns.map fun pattern => (pattern, false))) := by
    rw [Obligation.ofAssertion, Obligation.patternsOf_eq_ok_iff.2 compiled]
    rfl
  refine ⟨_, made, fun found => ?_⟩
  simp only [Obligation.findEach_fresh]
  refine ⟨trivial, ?_, Obligation.shortfall_presence_of_met, fun unmet => ?_, fun found' same => ?_⟩
  · rw [Obligation.met_ofPresence, List.forall_mem_map]
    simp only [ElementPattern.coveredBy_iff]
  · obtain ⟨before, pattern, after, split, seen, short⟩ :=
      Obligation.shortfall_presence_of_not_met unmet
    obtain ⟨before, rest, rfl, rfl, tail⟩ := List.map_eq_append_iff.1 split
    obtain ⟨first, after, rfl, head, rfl⟩ := List.map_eq_cons_iff.1 tail
    obtain ⟨rfl, unseen⟩ := Prod.mk.inj head
    refine ⟨before, first, after, _, rfl, fun other hother => ?_, fun covered => ?_, short, rfl⟩
    · exact ElementPattern.coveredBy_iff.2 (seen _ (List.mem_map_of_mem hother))
    · rw [ElementPattern.coveredBy_iff, unseen] at covered
      cases covered
  · have marks (pattern : ElementPattern) : found'.any (pattern.accepts ·.2) =
        found.any (pattern.accepts ·.2) := by
      rw [Bool.eq_iff_iff, ← ElementPattern.coveredBy_iff, ← ElementPattern.coveredBy_iff]
      exact ⟨fun covered => covered.mono fun path => (same path).1,
        fun covered => covered.mono fun path => (same path).2⟩
    simp only [marks]

/-- Asks for a security header and for a time stamp. -/
def headerAndTimestamp : ElementsPolicy :=
  ⟨[⟨"//s:Security", [("s", Namespace.securityExtension)]⟩, ⟨"//u:Timestamp", [("u", "urn:u")]⟩]⟩

/-- The time stamp in the security header is found. -/
def timestampFound : Registry × ElementPath :=
  ({}, ElementPath.securityHeader ++ [⟨"urn:u", "Timestamp"⟩])

/-- The security header is found. -/
def headerFound : Registry × ElementPath := ({}, ElementPath.securityHeader)

/-- A time stamp inside a security header is no security header, so both have to be found, in any
order. -/
theorem coverage_decides_headerAndTimestamp :
    ∃ o, Obligation.ofAssertion (.requiredElements headerAndTimestamp) true = .ok o ∧
      (o.findEach [timestampFound]).1.met = false ∧
      (o.findEach [timestampFound, headerFound]).1.met = true ∧
      (o.findEach [headerFound, timestampFound, headerFound]).1 =
        (o.findEach [timestampFound, headerFound]).1 := by
  have compiled : List.Forall₂ (fun xpath pattern => XPath.compile xpath = .ok pattern)
      headerAndTimestamp.xpaths _ := .cons rfl (.cons rfl .nil)
  obtain ⟨o, made, fate⟩ := coverage_decides_presence compiled true
  obtain ⟨-, early, -⟩ := fate [timestampFound]
  obtain ⟨-, late, -, -, sameAs⟩ := fate [timestampFound, headerFound]
  refine ⟨o, made, ?_, late.2 ?_, sameAs _ fun path => ?_⟩
  · rw [← Bool.not_eq_true, early]
    intro covered
    have header := ElementPattern.coveredBy_iff.1 (covered _ (.head _))
    revert header
    decide
  · simp only [List.forall_mem_cons, ElementPattern.coveredBy_iff]
    decide
  · rw [List.map_cons, List.mem_cons]
    exact or_iff_right_of_imp fun first => first ▸ .tail _ (.head _)

end SoapPolicy
