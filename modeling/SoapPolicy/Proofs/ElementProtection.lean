import SoapPolicy.Proofs.Surviving

/-!
# The first report of an element decides

An assertion for protected elements lists expressions, and its obligation keeps one flag for all of
them.  The first event that reports an element selected by any of the expressions sets the flag or
retires the alternative, and no later event is looked at.  So the assertion holds of a run only if that
first report says that the element is protected (`PolicyAssertion.Holds.firstProtected`).
-/

namespace SoapPolicy

/-- The expression selects the element at a path. -/
def XPath.Selects (xpath : XPath) (path : ElementPath) : Prop :=
  ∃ pattern, xpath.compile = .ok pattern ∧ pattern.accepts path = true

/-- The event reports an element that some expression of the list selects, as protected or not. -/
def SecurityEvent.Reports (kind : Protection) (elements : ElementsPolicy) (isProtected : Bool)
    (event : SecurityEvent) : Prop :=
  ∃ report, kind.report? event = some report ∧ report.isProtected = isProtected ∧
    ∃ xpath ∈ elements.xpaths, xpath.Selects report.path

/-- The first event that reports an element of the list says that it is protected. -/
def FirstProtected (kind : Protection) (elements : ElementsPolicy) (events : List SecurityEvent) :
    Prop :=
  ∃ before event after, events = before ++ event :: after ∧ event.Reports kind elements true ∧
    ∀ other ∈ before, ∀ isProtected, ¬ other.Reports kind elements isProtected

variable {r : Registry} {kind : Protection} {elements : ElementsPolicy}
  {patterns : List ElementPattern} {events : List SecurityEvent}

theorem FirstProtected.cons (h : FirstProtected kind elements events) {event : SecurityEvent}
    (silent : ∀ isProtected, ¬ event.Reports kind elements isProtected) :
    FirstProtected kind elements (event :: events) := by
  obtain ⟨before, first, after, rfl, protects, unreported⟩ := h
  exact ⟨event :: before, first, after, rfl, protects, List.forall_mem_cons.2 ⟨silent, unreported⟩⟩

namespace Obligation

/-- The patterns of a list are those that its expressions compile to. -/
theorem patternsOf_eq_ok_iff :
    patternsOf elements = .ok patterns ↔
      List.Forall₂ (fun xpath pattern => XPath.compile xpath = .ok pattern) elements.xpaths patterns := by
  rw [patternsOf, mapM_eq_ok_iff]
  constructor
  · refine List.Forall₂.imp fun xpath pattern h => ?_
    cases hx : xpath.compile with
    | error f =>
      rw [hx] at h
      cases h
    | ok found =>
      rw [hx] at h
      cases h
      rfl
  · refine List.Forall₂.imp fun xpath pattern h => ?_
    rw [h]

theorem any_accepts_iff (compiled : patternsOf elements = .ok patterns) (path : ElementPath) :
    patterns.any (·.accepts path) = true ↔ ∃ xpath ∈ elements.xpaths, xpath.Selects path := by
  rw [List.any_eq_true]
  constructor
  · rintro ⟨pattern, hpattern, accepts⟩
    obtain ⟨xpath, hxpath, made⟩ := forall₂_exists_left (patternsOf_eq_ok_iff.1 compiled) hpattern
    exact ⟨xpath, hxpath, pattern, made, accepts⟩
  · rintro ⟨xpath, hxpath, pattern, made, accepts⟩
    obtain ⟨pattern', hpattern, made'⟩ := forall₂_exists_right (patternsOf_eq_ok_iff.1 compiled) hxpath
    rw [made] at made'
    cases made'
    exact ⟨pattern, hpattern, accepts⟩

theorem isEmpty_patterns (compiled : patternsOf elements = .ok patterns)
    (listed : elements.xpaths ≠ []) : patterns.isEmpty = false := by
  rw [List.isEmpty_eq_false_iff]
  rintro rfl
  exact listed (List.forall₂_nil_right_iff.1 (patternsOf_eq_ok_iff.1 compiled))

/-- The obligation for protected elements has a pattern for each expression. -/
theorem ofAssertion_protection {a : PolicyAssertion} (asks : a.protection? = some (kind, elements))
    {initiator : Bool} {o : Obligation} (made : ofAssertion a initiator = .ok o) :
    ∃ patterns, patternsOf elements = .ok patterns ∧
      o = ⟨.protection kind patterns, patterns.isEmpty, none⟩ := by
  have built (made : ofProtection kind elements = .ok o) :
      ∃ patterns, patternsOf elements = .ok patterns ∧
        o = ⟨.protection kind patterns, patterns.isEmpty, none⟩ := by
    rw [ofProtection] at made
    cases compiled : patternsOf elements with
    | error f =>
      rw [compiled] at made
      cases made
    | ok patterns =>
      rw [compiled] at made
      cases made
      exact ⟨patterns, rfl, rfl⟩
  cases a <;> cases asks
  · exact built made
  · exact built made

/-- An event that reports no listed element passes an obligation by. -/
theorem read_of_silent (compiled : patternsOf elements = .ok patterns) {event : SecurityEvent}
    (silent : ∀ isProtected, ¬ event.Reports kind elements isProtected) (r : Registry) (met : Bool)
    (shortfall : Option Shortfall) :
    read r event ⟨.protection kind patterns, met, shortfall⟩ =
      (⟨.protection kind patterns, met, shortfall⟩, .ok none) := by
  cases reported : kind.report? event with
  | none =>
    refine read_of_not_mem ?_
    rw [kinds_protection, List.mem_singleton, ← Protection.report?_isSome, reported]
    decide
  | some report =>
    have unselected : patterns.any (·.accepts report.path) = false := by
      rw [← Bool.not_eq_true, any_accepts_iff compiled]
      exact fun selected => silent _ ⟨report, reported, rfl, selected⟩
    rw [read_report reported, unselected, Bool.not_false, Bool.or_true, if_pos rfl]

/-- An event that reports a listed element meets an obligation, or breaks it for good. -/
theorem read_of_reports (compiled : patternsOf elements = .ok patterns) {event : SecurityEvent}
    {report : ProtectionEvent} (reported : kind.report? event = some report)
    (reports : event.Reports kind elements report.isProtected) (r : Registry)
    (shortfall : Option Shortfall) :
    read r event ⟨.protection kind patterns, false, shortfall⟩ =
      if report.isProtected then (⟨.protection kind patterns, true, none⟩, .ok none)
      else
        (⟨.protection kind patterns, false, some (.unprotected kind report.path)⟩,
          .ok (some (.unprotected kind report.path))) := by
  obtain ⟨report', reported', -, selects⟩ := reports
  rw [reported] at reported'
  cases reported'
  have selected := (any_accepts_iff compiled report.path).2 selects
  rw [read_report reported, selected, Bool.not_true, Bool.or_false, if_neg Bool.false_ne_true]

/-- As long as nothing is decided, an obligation passes over events that report none of its elements,
and lets the first one pass that does only if it says that the element is protected. -/
theorem firstProtected_of_met (compiled : patternsOf elements = .ok patterns)
    (passes : Passes r ⟨.protection kind patterns, false, none⟩ events)
    (met : (readAll r ⟨.protection kind patterns, false, none⟩ events).met = true) :
    FirstProtected kind elements events := by
  induction events with
  | nil => cases met
  | cons event events ih =>
    rw [readAll_cons] at met
    obtain ⟨passed, rest⟩ := passes
    by_cases silent : ∀ isProtected, ¬ event.Reports kind elements isProtected
    · rw [read_of_silent compiled silent] at rest met
      exact (ih rest met).cons silent
    · obtain ⟨isProtected, reports⟩ := not_forall_not.1 silent
      obtain ⟨report, reported, rfl, -⟩ := id reports
      rw [read_of_reports compiled reported reports] at passed
      cases guarded : report.isProtected with
      | false => simp [guarded] at passed
      | true =>
        exact ⟨[], event, events, rfl, guarded ▸ reports,
          fun other hother => absurd hother List.not_mem_nil⟩

end Obligation

/-- An assertion for protected elements holds of a run only if the first report of one of them says
that it is protected. -/
theorem PolicyAssertion.Holds.firstProtected {initiator : Bool} {a : PolicyAssertion}
    (holds : a.Holds initiator r events) (asks : a.protection? = some (kind, elements))
    (listed : elements.xpaths ≠ []) : FirstProtected kind elements events := by
  obtain ⟨o, made, passes, met⟩ := holds
  obtain ⟨patterns, compiled, rfl⟩ := Obligation.ofAssertion_protection asks made
  rw [Obligation.isEmpty_patterns compiled listed] at passes met
  exact Obligation.firstProtected_of_met compiled passes met

end SoapPolicy
