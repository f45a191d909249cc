import Mathlib.Data.List.Forall2
import Mathlib.Data.List.TakeWhile
import SoapPolicy.Proofs.XPath.Segments

/-!
# What segments compile to

`Builds` says which steps the segments of an expression give, one rule for each kind of segment, and
`Compiles` adds what depends on how an expression starts.  Compiling succeeds with exactly these steps
(`compile_eq_ok_iff`).  The rules leave out the text of the expression, which only failures mention, so
a step depends on its own segment and on the prefixes that are bound, and on nothing else
(`compileStep_congr`).
-/

namespace SoapPolicy.XPath

variable {xpath xpath' : XPath} {gapBefore : Bool} {seg seg' rest last cs test label : List Char}
  {segs : List (List Char)} {step : PatternStep} {steps : List PatternStep} {pattern : ElementPattern}

/-- A computation in two parts succeeds exactly if the first part does, and then the second one. -/
theorem bind_eq_ok_iff {ε α β : Type} {x : Except ε α} {f : α → Except ε β} {b : β} :
    (x >>= f) = .ok b ↔ ∃ a, x = .ok a ∧ f a = .ok b := by
  constructor
  · intro h
    cases x with
    | error e => cases h
    | ok a => exact ⟨a, rfl, h⟩
  · rintro ⟨a, rfl, made⟩
    exact made

theorem pure_ne_error {ε α : Type} {a : α} {e : ε} : (pure a : Except ε α) ≠ .error e := by
  intro same
  cases same

/-- A computation in two parts fails for the reasons of its parts. -/
theorem bind_ne_error {ε α β : Type} {x : Except ε α} {f : α → Except ε β} {e : ε}
    (hx : x ≠ .error e) (hf : ∀ a, f a ≠ .error e) : (x >>= f) ≠ .error e := by
  cases x with
  | error e' =>
    intro same
    cases same
    exact hx rfl
  | ok a => exact hf a

/-- Passing over the other characters goes past a text that does not have the one it looks for. -/
theorem bne_of_not_mem {c : Char} (h : c ∉ cs) : ∀ b ∈ cs, (b != c) = true :=
  fun _ hb => bne_iff_ne.2 fun same => h (same ▸ hb)

/-! ## Steps -/

/-- A name test without a colon is made into a step whatever prefixes are bound. -/
theorem testStep_plain (plain : ':' ∉ test) :
    testStep xpath test =
      .ok (if test = ['*'] then .name none none else .name (some "") (some (String.ofList test))) := by
  rw [testStep, List.dropWhile_eq_nil_iff.2 (bne_of_not_mem plain)]
  by_cases star : test = ['*'] <;> simp [star]

/-- The first colon of a name test ends its prefix. -/
theorem testStep_prefixed (plain : ':' ∉ label) (localPart : List Char) :
    testStep xpath (label ++ ':' :: localPart) =
      match xpath.uri? (String.ofList label) with
      | none => .error (.unknownLabel (String.ofList label))
      | some uri => .ok (.name (some uri)
          (if localPart = ['*'] then none else some (String.ofList localPart))) := by
  rw [testStep, List.dropWhile_append_of_pos (bne_of_not_mem plain),
    List.takeWhile_append_of_pos (bne_of_not_mem plain)]
  cases bound : xpath.uri? (String.ofList label) <;> simp [bound]

/-- A segment without text is no step. -/
theorem compileStep_nil_ne_ok : compileStep xpath [] ≠ .ok step := by
  intro h
  cases h

theorem compileStep_eq_ok_iff :
    compileStep xpath seg = .ok step ↔
      isUnsupported (nameTest seg) = false ∧ testStep xpath (nameTest seg) = .ok step := by
  rw [compileStep]
  cases isUnsupported (nameTest seg) <;> simp

/-- A step depends on the name test of its segment and on the prefixes that are bound. -/
theorem compileStep_congr (test : nameTest seg' = nameTest seg)
    (bound : xpath'.namespaces = xpath.namespaces) (h : compileStep xpath seg = .ok step) :
    compileStep xpath' seg' = .ok step := by
  rw [compileStep_eq_ok_iff] at h ⊢
  simp only [testStep, uri?] at h ⊢
  rwa [test, bound]

/-- A segment is never a gap if it has text. -/
theorem ne_gap_of_compileStep (h : compileStep xpath seg = .ok step) : step ≠ .gap := by
  rintro rfl
  obtain ⟨-, h⟩ := compileStep_eq_ok_iff.1 h
  by_cases colon : ':' ∈ nameTest seg
  · obtain ⟨label, localPart, split, plain⟩ := List.eq_append_cons_of_mem colon
    rw [split, testStep_prefixed plain] at h
    cases bound : xpath.uri? (String.ofList label) <;> simp [bound] at h
  · rw [testStep_plain colon] at h
    split at h <;> cases h

/-! ## Segments -/

/-- The steps of segments, told whether a gap stands before them.  A segment without text is a gap.
A gap is not repeated, and some segment has to follow it. -/
inductive Builds (xpath : XPath) : Bool → List (List Char) → List PatternStep → Prop where
  | nil {gapBefore : Bool} : Builds xpath gapBefore [] []
  | gap {segs : List (List Char)} {steps : List PatternStep} :
    segs ≠ [] → Builds xpath true segs steps → Builds xpath false ([] :: segs) (.gap :: steps)
  | sameGap {segs : List (List Char)} {steps : List PatternStep} :
    segs ≠ [] → Builds xpath true segs steps → Builds xpath true ([] :: segs) steps
  | step {gapBefore : Bool} {seg : List Char} {segs : List (List Char)} {step : PatternStep}
      {steps : List PatternStep} :
    compileStep xpath seg = .ok step → Builds xpath false segs steps →
    Builds xpath gapBefore (seg :: segs) (step :: steps)

theorem Builds.compileSegments_eq (h : Builds xpath gapBefore segs steps) (trimmed : String) :
    compileSegments xpath trimmed gapBefore segs = .ok steps := by
  induction h with
  | nil => rfl
  | gap more _ ih =>
    rw [compileSegments, if_neg (mt List.isEmpty_iff.1 more), if_neg Bool.false_ne_true, ih]
    rfl
  | sameGap more _ ih => rw [compileSegments, if_neg (mt List.isEmpty_iff.1 more), if_pos rfl, ih]
  | @step _ seg _ _ _ made _ ih =>
    cases seg with
    | nil => exact absurd made compileStep_nil_ne_ok
    | cons c seg =>
      rw [compileSegments, made, ih]
      · rfl
      · exact List.cons_ne_nil c seg

theorem builds_of_compileSegments {trimmed : String}
    (h : compileSegments xpath trimmed gapBefore segs = .ok steps) :
    Builds xpath gapBefore segs steps := by
  induction segs generalizing gapBefore steps with
  | nil =>
    cases h
    exact .nil
  | cons seg segs ih =>
    cases seg with
    | nil =>
      rw [compileSegments] at h
      by_cases more : segs = []
      · rw [if_pos (List.isEmpty_iff.2 more)] at h
        cases h
      rw [if_neg (mt List.isEmpty_iff.1 more)] at h
      cases gapBefore with
      | true => exact .sameGap more (ih h)
      | false =>
        obtain ⟨steps', rest, made⟩ := bind_eq_ok_iff.1 h
        cases made
        exact .gap more (ih rest)
    | cons c seg =>
      rw [compileSegments] at h
      · obtain ⟨step, made, h⟩ := bind_eq_ok_iff.1 h
        obtain ⟨steps', rest, h⟩ := bind_eq_ok_iff.1 h
        cases h
        exact .step made (ih rest)
      · exact List.cons_ne_nil c seg

namespace Builds

/-- The last step is no gap, unless there are no segments. -/
theorem exists_last (h : Builds xpath gapBefore segs steps) (nonempty : segs ≠ []) :
    ∃ front step, steps = front ++ [step] ∧ step ≠ .gap := by
  induction h with
  | nil => exact absurd rfl nonempty
  | gap more _ ih =>
    obtain ⟨front, step, rfl, test⟩ := ih more
    exact ⟨.gap :: front, step, rfl, test⟩
  | sameGap more _ ih => exact ih more
  | @step _ _ segs step _ made rest ih =>
    by_cases more : segs = []
    · subst more
      cases rest
      exact ⟨[], step, rfl, ne_gap_of_compileStep made⟩
    · obtain ⟨front, last, rfl, test⟩ := ih more
      exact ⟨step :: front, last, rfl, test⟩

/-- Each segment with text has its own step among those that are no gaps, in the same order. -/
theorem forall₂ (h : Builds xpath gapBefore segs steps) :
    List.Forall₂ (fun seg step => compileStep xpath seg = .ok step) (segs.filter (· ≠ []))
      (steps.filter (· ≠ .gap)) := by
  induction h with
  | nil => exact .nil
  | gap _ _ ih => exact ih
  | sameGap _ _ ih => exact ih
  | @step _ seg _ step _ made _ ih =>
    have text : seg ≠ [] := by
      rintro rfl
      exact compileStep_nil_ne_ok made
    have test : step ≠ .gap := ne_gap_of_compileStep made
    rw [List.filter_cons_of_pos (by simpa using text), List.filter_cons_of_pos (by simpa using test)]
    exact .cons made ih

end Builds

/-! ## Expressions -/

/-- The expression without the blank characters at its ends. -/
def trimmed (xpath : XPath) : List Char :=
  Text.trim xpath.expression.toList

/-- The steps of an expression.  Its first segment has no text if it starts with a slash, and else it
starts with a gap. -/
inductive Compiles (xpath : XPath) : List (List Char) → List PatternStep → Prop where
  | absolute {segs : List (List Char)} {steps : List PatternStep} :
    segs ≠ [] → Builds xpath false segs steps → Compiles xpath ([] :: segs) steps
  | relative {seg : List Char} {segs : List (List Char)} {steps : List PatternStep} :
    seg ≠ [] → Builds xpath true (seg :: segs) steps → Compiles xpath (seg :: segs) (.gap :: steps)

theorem Compiles.exists_last (h : Compiles xpath segs steps) :
    ∃ front step, steps = front ++ [step] ∧ step ≠ .gap := by
  cases h with
  | absolute more built => exact built.exists_last more
  | relative _ built =>
    obtain ⟨front, step, rfl, test⟩ := built.exists_last (List.cons_ne_nil _ _)
    exact ⟨.gap :: front, step, rfl, test⟩

theorem Compiles.forall₂ (h : Compiles xpath segs steps) :
    List.Forall₂ (fun seg step => compileStep xpath seg = .ok step) (segs.filter (· ≠ []))
      (steps.filter (· ≠ .gap)) := by
  cases h with
  | absolute _ built => exact built.forall₂
  | relative _ built => exact built.forall₂

/-- An expression has a first segment.  If that is the only one and has no text, the expression has
none. -/
theorem exists_first_segment (cs : List Char) :
    ∃ seg segs, segments cs = seg :: segs ∧ (seg = [] → segs = [] → cs = []) := by
  obtain ⟨segs, last, scan', rfl, closed, reads⟩ := exists_joined cs
  rw [segments_joined closed reads]
  cases segs with
  | nil => exact ⟨last, [], rfl, fun noText _ => noText⟩
  | cons seg segs => exact ⟨seg, segs ++ [last], rfl, fun _ alone => by simp at alone⟩

theorem compileSteps_eq_ok_iff (text : cs ≠ []) :
    compileSteps xpath cs = .ok steps ↔ Compiles xpath (segments cs) steps := by
  obtain ⟨seg, segs, cut, alone⟩ := exists_first_segment cs
  rw [compileSteps, cut]
  cases seg with
  | nil =>
    have more : segs ≠ [] := fun single => text (alone rfl single)
    constructor
    · intro h
      exact .absolute more (builds_of_compileSegments h)
    · intro h
      cases h with
      | absolute _ built => exact built.compileSegments_eq _
      | relative text _ => exact absurd rfl text
  | cons c seg =>
    constructor
    · intro h
      obtain ⟨steps', rest, made⟩ := bind_eq_ok_iff.1 h
      cases made
      exact .relative (List.cons_ne_nil c seg) (builds_of_compileSegments rest)
    · intro h
      cases h with
      | relative _ built =>
        show (compileSegments xpath _ true _ >>= fun steps => .ok (.gap :: steps)) = _
        rw [built.compileSegments_eq]
        rfl

/-- An expression without text is refused, and any other one compiles to its steps.  Never are all of
these gaps. -/
theorem compile_eq (xpath : XPath) :
    compile xpath =
      if Text.trim xpath.expression.toList = [] then .error .empty
      else (compileSteps xpath (Text.trim xpath.expression.toList)).map ElementPattern.mk := by
  rw [compile]
  by_cases text : Text.trim xpath.expression.toList = []
  · rw [text]
    rfl
  · simp only [List.isEmpty_iff, text, if_false]
    cases made : compileSteps xpath (Text.trim xpath.expression.toList) with
    | error e => rfl
    | ok steps =>
      obtain ⟨front, step, rfl, test⟩ := ((compileSteps_eq_ok_iff text).1 made).exists_last
      have tests : ¬ (front ++ [step]).all (· == .gap) = true := fun all =>
        test (by simpa using List.all_eq_true.1 all step List.mem_concat_self)
      show (if (front ++ [step]).all (· == .gap) = true then _ else _) = _
      rw [if_neg tests]
      rfl

/-- An expression compiles to the steps that the rules say. -/
theorem compile_eq_ok_iff :
    compile xpath = .ok pattern ↔
      Compiles xpath (segments (Text.trim xpath.expression.toList)) pattern.steps := by
  rw [compile_eq]
  by_cases text : Text.trim xpath.expression.toList = []
  · rw [if_pos text, text]
    constructor
    · intro h
      cases h
    · generalize pattern.steps = steps
      intro h
      cases h with
      | absolute more _ => exact absurd rfl more
      | relative text _ => exact absurd rfl text
  · rw [if_neg text, ← compileSteps_eq_ok_iff text]
    cases compileSteps xpath (Text.trim xpath.expression.toList) with
    | error e => simp [Except.map]
    | ok steps => cases pattern; simp [Except.map]

end SoapPolicy.XPath
