import Mathlib.Data.List.Chain
import SoapPolicy.Proofs.XPath.Compiling
import SoapPolicy.Proofs.XPath.Matching
import SoapPolicy.Text.Search

/-!
# The form of compiled patterns

However many slashes an expression has, and wherever they stand, its pattern ends in a name test and has
no gap beside another gap (`Canonical`).  It starts with a gap exactly if the expression does not start
with one slash alone.

So a pattern asks for an element at least.  It does not match the path without names, and no expression is
refused for having gaps only, although compiling looks for that (`compile_canonical`).
-/

namespace SoapPolicy.XPath

open ElementPattern (cutBy_nil_path_iff stepsAccept stepsAccept_iff_cutBy)

variable {xpath : XPath} {gapBefore : Bool} {seg cs test : List Char} {segs : List (List Char)}
  {steps : List PatternStep} {error : XPathError} {written expression : String}

/-- No gap stands beside another gap. -/
def GapsApart (steps : List PatternStep) : Prop :=
  steps.IsChain fun step next => ¬ (step = .gap ∧ next = .gap)

/-- Steps that end in a name test and do not repeat a gap. -/
structure Canonical (steps : List PatternStep) : Prop where
  ends_in_test : ∃ front uri localPart, steps = front ++ [.name uri localPart]
  gaps_apart : GapsApart steps

/-- A name test at the end has to take a name. -/
theorem Canonical.not_stepsAccept_nil (h : Canonical steps) : stepsAccept steps [] = false := by
  obtain ⟨front, uri, localPart, rfl⟩ := h.ends_in_test
  rw [Bool.eq_false_iff, ne_eq, stepsAccept_iff_cutBy, cutBy_nil_path_iff]
  intro gaps
  cases gaps _ List.mem_concat_self

/-! ## Gaps -/

/-- The gap that stands before the segments, if there is one, is not beside another gap either. -/
theorem Builds.gaps_apart (h : Builds xpath gapBefore segs steps) :
    GapsApart (cond gapBefore (.gap :: steps) steps) := by
  induction h with
  | @nil gapBefore =>
    cases gapBefore with
    | false => exact .nil
    | true => exact .singleton _
  | gap _ _ ih => exact ih
  | sameGap _ _ ih => exact ih
  | @step gapBefore _ _ step steps made _ ih =>
    have test : step ≠ .gap := ne_gap_of_compileStep made
    have apart : GapsApart (step :: steps) := List.isChain_cons.2 ⟨fun _ _ both => test both.1, ih⟩
    cases gapBefore with
    | false => exact apart
    | true => exact .cons_cons (fun both => test both.2) apart

theorem Compiles.canonical (h : Compiles xpath segs steps) : Canonical steps where
  ends_in_test := by
    obtain ⟨front, step, rfl, test⟩ := h.exists_last
    cases step with
    | name uri localPart => exact ⟨front, uri, localPart, rfl⟩
    | gap => exact absurd rfl test
  gaps_apart := by
    cases h with
    | absolute _ built => exact built.gaps_apart
    | relative _ built => exact built.gaps_apart

/-! ## The first step -/

/-- An expression starts with a slash exactly if its first segment has no text and is not the only one. -/
theorem slash_prefix_iff (cut : segments cs = seg :: segs) : ['/'] <+: cs ↔ seg = [] ∧ segs ≠ [] := by
  cases cs with
  | nil =>
    cases cut
    simp
  | cons c cs =>
    by_cases slash : c = '/'
    · subst slash
      have rest : segments ('/' :: cs) = [] :: segments cs := rfl
      obtain ⟨rfl, rfl⟩ := List.cons.inj (rest.symm.trans cut)
      obtain ⟨seg, segs, more, -⟩ := exists_first_segment cs
      simp [more]
    · have text : ∃ seg segs, segments (c :: cs) = (c :: seg) :: segs := by
        rw [segments, segmentsFrom_cons fun _ => by simpa using slash]
        cases segmentsFrom (Scan.next {} c) cs <;> exact ⟨_, _, rfl⟩
      obtain ⟨seg, segs, text⟩ := text
      obtain ⟨rfl, rfl⟩ := List.cons.inj (text.symm.trans cut)
      simp [Ne.symm slash]

theorem Builds.head_eq_gap_iff (h : Builds xpath false (seg :: segs) steps) :
    steps.head? = some .gap ↔ seg = [] ∧ segs ≠ [] := by
  cases h with
  | gap more _ => exact iff_of_true rfl ⟨rfl, more⟩
  | step made _ =>
    refine iff_of_false (fun same => ne_gap_of_compileStep made (Option.some.inj same)) ?_
    rintro ⟨rfl, -⟩
    exact compileStep_nil_ne_ok made

/-- The first step is a gap unless the expression starts with one slash alone. -/
theorem Compiles.head_eq_gap_iff (h : Compiles xpath (segments cs) steps) :
    steps.head? = some .gap ↔ ¬ ['/'] <+: cs ∨ ['/', '/'] <+: cs := by
  generalize cut : segments cs = all at h
  cases h with
  | @absolute segs _ more built =>
    obtain ⟨cs, rfl⟩ := (slash_prefix_iff cut).2 ⟨rfl, more⟩
    have cut : segments cs = segs := (List.cons.inj cut).2
    obtain ⟨seg, segs, rfl⟩ := List.exists_cons_of_ne_nil more
    rw [built.head_eq_gap_iff, ← slash_prefix_iff cut]
    simp
  | relative text _ => exact iff_of_true rfl (.inl fun slash => text ((slash_prefix_iff cut).1 slash).1)

/-! ## Reasons to refuse an expression -/

/-- A name test is refused for its prefix only. -/
theorem testStep_ne_noElement : testStep xpath test ≠ .error (.noElement expression) := by
  by_cases colon : ':' ∈ test
  · obtain ⟨label, localPart, rfl, plain⟩ := List.eq_append_cons_of_mem colon
    rw [testStep_prefixed plain]
    cases xpath.uri? (String.ofList label) <;> simp
  · simp [testStep_plain colon]

theorem compileStep_ne_noElement : compileStep xpath seg ≠ .error (.noElement expression) := by
  rw [compileStep]
  split
  · simp
  · exact testStep_ne_noElement

/-- Segments are refused for one that is no step, or for the last one if it has no text. -/
theorem compileSegments_ne_noElement :
    compileSegments xpath written gapBefore segs ≠ .error (.noElement expression) := by
  induction segs generalizing gapBefore with
  | nil => simp [compileSegments]
  | cons seg segs ih =>
    cases seg with
    | nil =>
      rw [compileSegments]
      split
      · simp
      split
      · exact ih
      · exact bind_ne_error ih fun _ => pure_ne_error
    | cons c seg =>
      rw [compileSegments]
      · refine bind_ne_error compileStep_ne_noElement fun step => ?_
        exact bind_ne_error ih fun _ => pure_ne_error
      · exact List.cons_ne_nil c seg

theorem compileSteps_ne_noElement : compileSteps xpath cs ≠ .error (.noElement expression) := by
  rw [compileSteps]
  split
  · exact compileSegments_ne_noElement
  · exact bind_ne_error compileSegments_ne_noElement fun _ => pure_ne_error

/-- Some step of an expression is always a name test, so the last check of compiling never fails. -/
theorem compile_ne_noElement : compile xpath ≠ .error (.noElement expression) := by
  rw [compile_eq]
  split
  · simp
  · have made : compileSteps xpath (Text.trim xpath.expression.toList) ≠
        .error (.noElement expression) := compileSteps_ne_noElement
    cases h : compileSteps xpath (Text.trim xpath.expression.toList) with
    | error e => simpa [h, Except.map] using made
    | ok steps => simp [Except.map]

/-- The reason for having gaps only is told from the others by its first words. -/
theorem startsWith_message_iff :
    Text.startsWith error.message "XPath expression selects no element" = true ↔
      ∃ expression, error = .noElement expression := by
  cases error with
  | empty =>
    show Text.startsWith "empty XPath expression" _ = true ↔ _
    rw [Text.startsWith_iff]
    exact iff_of_false (by decide) (by simp)
  | endsWithSlash expression =>
    show Text.startsWith ("XPath expression ends with '/': " ++ expression) _ = true ↔ _
    rw [Text.not_startsWith_append (by decide) (by decide)]
    simp
  | unsupportedStep step expression =>
    show Text.startsWith ("unsupported XPath step '" ++ step ++ "' in " ++ expression) _ = true ↔ _
    rw [String.append_assoc, String.append_assoc,
      Text.not_startsWith_append (by decide) (by decide)]
    simp
  | unknownLabel label =>
    show Text.startsWith ("Unknown namespace prefix " ++ label) _ = true ↔ _
    rw [Text.not_startsWith_append (by decide) (by decide)]
    simp
  | noElement expression =>
    show Text.startsWith ("XPath expression selects no element: " ++ expression) _ = true ↔ _
    rw [Text.startsWith_iff, String.toList_append]
    exact iff_of_true (List.IsPrefix.trans (by decide) (List.prefix_append _ _)) ⟨expression, rfl⟩

/-! ## Compiled patterns -/

/-- An expression that compiles has canonical steps, which start with a gap unless the expression starts
with one slash alone, and which do not match the path without names.  No expression is refused for having
gaps only. -/
theorem compile_canonical (xpath : XPath) :
    (∀ pattern, compile xpath = .ok pattern →
      Canonical pattern.steps ∧
        (pattern.steps.head? = some .gap ↔
          ¬ ['/'] <+: xpath.trimmed ∨ ['/', '/'] <+: xpath.trimmed) ∧
        pattern.accepts [] = false) ∧
      ∀ error, compile xpath = .error error →
        Text.startsWith error.message "XPath expression selects no element" = false := by
  constructor
  · intro pattern compiled
    have steps := compile_eq_ok_iff.1 compiled
    exact ⟨steps.canonical, steps.head_eq_gap_iff, steps.canonical.not_stepsAccept_nil⟩
  · intro error refused
    rw [Bool.eq_false_iff, ne_eq, startsWith_message_iff]
    rintro ⟨expression, rfl⟩
    exact compile_ne_noElement refused

/-- What is left of an expression with more slashes than it needs. -/
def orderAnywhere : ElementPattern :=
  ⟨[.gap, .name (some "") (some "Body"), .gap, .name (some "") (some "Order")]⟩

/-- Slashes in a predicate make no gap, three of them make one, and two alone make no pattern. -/
theorem compile_canonical_orderAnywhere :
    compile ⟨" Body[a//b]///Order ", []⟩ = .ok orderAnywhere ∧ Canonical orderAnywhere.steps ∧
      orderAnywhere.steps.head? = some .gap ∧ orderAnywhere.accepts [] = false ∧
      compile ⟨"//", []⟩ = .error (.endsWithSlash "//") ∧
      Text.startsWith (XPathError.endsWithSlash "//").message "XPath expression selects no element" =
        false := by
  have compiled : compile ⟨" Body[a//b]///Order ", []⟩ = .ok orderAnywhere := by rfl
  have refused : compile ⟨"//", []⟩ = .error (.endsWithSlash "//") := by rfl
  have relative : ¬ ['/'] <+: trimmed ⟨" Body[a//b]///Order ", []⟩ := by decide
  obtain ⟨canonical, starts, something⟩ := (compile_canonical _).1 orderAnywhere compiled
  exact ⟨compiled, canonical, starts.2 (.inl relative), something, refused,
    (compile_canonical _).2 _ refused⟩

end SoapPolicy.XPath
