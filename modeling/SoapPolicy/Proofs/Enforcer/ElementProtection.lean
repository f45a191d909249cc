import SoapPolicy.Proofs.ElementProtection
import SoapPolicy.Proofs.Enforcer.Surviving

/-!
# Accepted messages and protected elements

If a policy has a single alternative, a message is accepted only if the first report of any element
that an assertion lists says that the element is protected (`firstProtected_of_accepts`).  This is one
report for the whole list, and not one for each expression of it (`not_each_protected`).
-/

namespace SoapPolicy.Enforcer

/-- The first report of an element that a policy wants protected says that it is. -/
theorem firstProtected_of_accepts {assertions : List PolicyAssertion} {context : EnforcerContext}
    {tokens : Registry} {events : List SecurityEvent}
    (accepted : Accepts (.single assertions) context tokens events) {a : PolicyAssertion}
    (ha : a ∈ assertions) {kind : Protection} {elements : ElementsPolicy}
    (asks : a.protection? = some (kind, elements)) (listed : elements.xpaths ≠ []) :
    FirstProtected kind elements events := by
  obtain ⟨alternative, halternative, holds⟩ := holds_of_accepts accepted
  cases List.mem_singleton.1 halternative
  exact (holds a ha).firstProtected asks listed

/-- A list of two kinds of elements. -/
def eitherElement : ElementsPolicy := ⟨[⟨"//a", []⟩, ⟨"//b", []⟩]⟩

/-- An element of the first kind is signed. -/
def firstSigned : SecurityEvent := .ofSigned ⟨0⟩ [⟨"", "a"⟩] true

/-- The element is the first that is reported, and it is signed. -/
theorem firstProtected_firstSigned :
    Accepts (.single [.signedElements eitherElement]) {} {} [firstSigned] ∧
      FirstProtected .signature eitherElement [firstSigned] := by
  have accepted : Accepts (.single [.signedElements eitherElement]) {} {} [firstSigned] :=
    ⟨_, rfl, rfl⟩
  exact ⟨accepted, firstProtected_of_accepts accepted (.head _) rfl (by simp [eitherElement])⟩

/-- A message can be accepted although no element of some listed kind is protected. -/
theorem not_each_protected :
    ¬ ∀ assertions context tokens events, Accepts (.single assertions) context tokens events →
      ∀ a ∈ assertions, ∀ kind elements, a.protection? = some (kind, elements) →
        ∀ xpath ∈ elements.xpaths, ∃ event ∈ events, event.Reports kind ⟨[xpath]⟩ true := by
  intro all
  have accepted : Accepts (.single [.signedElements eitherElement]) {} {} [firstSigned] :=
    ⟨_, rfl, rfl⟩
  obtain ⟨event, hevent, report, reported, -, xpath, hxpath, pattern, compiled, accepts⟩ :=
    all _ _ _ _ accepted _ (.head _) _ _ rfl ⟨"//b", []⟩ (.tail _ (.head _))
  -- the only event reports the other kind of element
  cases List.mem_singleton.1 hevent
  cases List.mem_singleton.1 hxpath
  cases reported
  cases compiled
  cases accepts

end SoapPolicy.Enforcer
