import Mathlib.Data.List.Forall2
import SoapPolicy.Proofs.SoapVersion

/-!
# What patterns match

At a gap, matching tries one rest of the path after the other.  What it looks for is a cut of the path
into blocks, one for each step and in the order of the steps (`ElementPattern.CutBy`).  A name test takes
a block of one name, and a gap takes any block.  So a pattern with a gap put in front matches what has an
end that it matches, and a second gap beside a gap changes nothing
(`ElementPattern.stepsAccept_cuts_path`).

Paths are compared in two ways: as a pattern of steps against a path, and as two paths name by name.
The pattern of a path has one name test for each name, with both parts given.  A test of that kind
accepts the names that agree with its own, the SOAP version left out (`PatternStep.accepts_exact_iff`).
So such a pattern matches what its path fits, and it is written like the path
(`ElementPattern.ofPath_agrees`).
-/

namespace SoapPolicy

variable {uri localPart : Option String} {q : QName} {block path : ElementPath} {step : PatternStep}
  {front steps steps' : List PatternStep}

/-! ## Blocks -/

namespace PatternStep

/-- A name is as a name test asks.  A part that is not given is free, and the two SOAP envelope
namespaces are not told apart. -/
structure Passes (uri localPart : Option String) (q : QName) : Prop where
  localPart_eq : ∀ l ∈ localPart, l = q.localPart
  uri_eq : ∀ u ∈ uri, u = q.uri ∨ Namespace.isSoap u = true ∧ Namespace.isSoap q.uri = true

/-- The blocks of a path that a step takes. -/
inductive Takes : PatternStep → ElementPath → Prop where
  | name {uri localPart : Option String} {q : QName} :
    Passes uri localPart q → Takes (.name uri localPart) [q]
  | gap (block : ElementPath) : Takes .gap block

theorem accepts_name_iff : accepts (.name uri localPart) q = true ↔ Passes uri localPart q := by
  rw [accepts, Bool.and_eq_true]
  constructor
  · rintro ⟨sameLocal, sameUri⟩
    constructor
    · rintro l rfl
      simpa [acceptsLocal] using sameLocal
    · rintro u rfl
      simpa [acceptsUri] using sameUri
  · rintro ⟨sameLocal, sameUri⟩
    constructor
    · cases localPart with
      | none => rfl
      | some l => simpa [acceptsLocal] using sameLocal
    · cases uri with
      | none => rfl
      | some u => simpa [acceptsUri] using sameUri

theorem takes_name_iff :
    Takes (.name uri localPart) block ↔ ∃ q, block = [q] ∧ Passes uri localPart q := by
  constructor
  · intro h
    cases h with
    | name passes => exact ⟨_, rfl, passes⟩
  · rintro ⟨q, rfl, passes⟩
    exact .name passes

end PatternStep

namespace ElementPattern

/-- A path is cut into blocks, one for each step and in the order of the steps. -/
def CutBy (steps : List PatternStep) (path : ElementPath) : Prop :=
  ∃ blocks : List ElementPath, blocks.flatten = path ∧ List.Forall₂ PatternStep.Takes steps blocks

theorem cutBy_nil_iff : CutBy [] path ↔ path = [] := by
  simp [CutBy, eq_comm]

/-- The first step takes a block at the front. -/
theorem cutBy_cons_iff :
    CutBy (step :: steps) path ↔
      ∃ block rest, block ++ rest = path ∧ step.Takes block ∧ CutBy steps rest := by
  simp only [CutBy, List.forall₂_cons_left_iff]
  constructor
  · rintro ⟨_, rfl, block, blocks, takes, others, rfl⟩
    exact ⟨block, blocks.flatten, rfl, takes, blocks, rfl, others⟩
  · rintro ⟨block, _, rfl, takes, blocks, rfl, others⟩
    exact ⟨block :: blocks, rfl, block, blocks, takes, others, rfl⟩

/-- A gap leaves some end of the path to the steps behind it. -/
theorem cutBy_gap_iff : CutBy (.gap :: steps) path ↔ ∃ rest, rest <:+ path ∧ CutBy steps rest := by
  rw [cutBy_cons_iff]
  constructor
  · rintro ⟨block, rest, split, -, cut⟩
    exact ⟨rest, ⟨block, split⟩, cut⟩
  · rintro ⟨rest, ⟨block, split⟩, cut⟩
    exact ⟨block, rest, split, .gap block, cut⟩

/-- Steps at the end can be replaced by others that cut the same paths. -/
theorem cutBy_append_congr (same : ∀ path, CutBy steps path ↔ CutBy steps' path) :
    CutBy (front ++ steps) path ↔ CutBy (front ++ steps') path := by
  induction front generalizing path with
  | nil => exact same path
  | cons step front ih => simp only [List.cons_append, cutBy_cons_iff, ih]

/-- Two gaps take what one of them takes. -/
theorem cutBy_gap_gap_iff : CutBy (.gap :: .gap :: steps) path ↔ CutBy (.gap :: steps) path := by
  rw [cutBy_gap_iff, cutBy_gap_iff]
  constructor
  · rintro ⟨rest, behind, cut⟩
    obtain ⟨rest', behind', cut⟩ := cutBy_gap_iff.1 cut
    exact ⟨rest', behind'.trans behind, cut⟩
  · rintro ⟨rest, behind, cut⟩
    exact ⟨rest, behind, cutBy_gap_iff.2 ⟨rest, List.suffix_refl rest, cut⟩⟩

/-- A path without names is cut by gaps only. -/
theorem cutBy_nil_path_iff : CutBy steps [] ↔ ∀ step ∈ steps, step = .gap := by
  induction steps with
  | nil => simp [cutBy_nil_iff]
  | cons step steps ih =>
    have head : step.Takes [] ↔ step = .gap := by
      cases step with
      | name uri localPart => simp [PatternStep.takes_name_iff]
      | gap => exact iff_of_true (.gap []) rfl
    rw [cutBy_cons_iff, List.forall_mem_cons, ← ih, ← head]
    simp

/-- Matching finds a cut exactly if there is one. -/
theorem stepsAccept_iff_cutBy : stepsAccept steps path = true ↔ CutBy steps path := by
  -- a gap passes any rest of the path on, so the induction is over all paths
  induction steps generalizing path with
  | nil => rw [stepsAccept, List.isEmpty_iff, cutBy_nil_iff]
  | cons step steps ih =>
    cases step with
    | gap =>
      rw [stepsAccept, someSuffix_iff, cutBy_gap_iff]
      simp only [ih]
    | name uri localPart =>
      simp only [cutBy_cons_iff, PatternStep.takes_name_iff, ← PatternStep.accepts_name_iff, ← ih]
      cases path with
      | nil => simp [stepsAccept]
      | cons q path => simp [stepsAccept]

/-- Steps match the paths that can be cut into blocks which they take.  With a gap in front they match
what has an end that they match, and doubling a gap has no effect wherever it stands. -/
theorem stepsAccept_cuts_path (front steps : List PatternStep) (path : ElementPath) :
    (stepsAccept steps path = true ↔ CutBy steps path) ∧
      (stepsAccept (.gap :: steps) path = true ↔
        ∃ rest, rest <:+ path ∧ stepsAccept steps rest = true) ∧
      stepsAccept (front ++ .gap :: .gap :: steps) path =
        stepsAccept (front ++ .gap :: steps) path := by
  refine ⟨stepsAccept_iff_cutBy, ?_, ?_⟩
  · simp only [stepsAccept_iff_cutBy, cutBy_gap_iff]
  · rw [Bool.eq_iff_iff, stepsAccept_iff_cutBy, stepsAccept_iff_cutBy]
    exact cutBy_append_congr fun _ => cutBy_gap_gap_iff

end ElementPattern

/-! ## Patterns of paths -/

/-- A name test with both parts given accepts what agrees with the name, whatever its SOAP version. -/
theorem PatternStep.accepts_exact_iff {a b : QName} :
    accepts (.name (some a.uri) (some a.localPart)) b = true ↔ a.agrees true b = true := by
  rw [QName.agrees_iff, QName.versionless_eq_iff]
  simp [accepts, acceptsLocal, acceptsUri, and_comm]

namespace ElementPattern

/-- The test for a name is written like the name. -/
theorem testText_exact (q : QName) : testText (some q.uri) (some q.localPart) = q.text := by
  rw [testText, QName.text]
  by_cases space : q.uri = "" <;> simp [space]

/-- The pattern of a path matches the paths with the same names, whatever their SOAP versions, and it
is written like the path. -/
theorem ofPath_agrees (p q : ElementPath) :
    (ofPath p).accepts q = ElementPath.fits true false p q ∧ (ofPath p).text = p.text := by
  constructor
  · rw [accepts]
    induction p generalizing q with
    | nil => cases q <;> rfl
    | cons a p ih =>
      cases q with
      | nil => rfl
      | cons b q =>
        have head : PatternStep.accepts (.name (some a.uri) (some a.localPart)) b =
            a.agrees true b := Bool.eq_iff_iff.2 PatternStep.accepts_exact_iff
        rw [ElementPath.fits_cons_cons, ← ih, ← head]
        rfl
  · rw [text]
    induction p with
    | nil => rfl
    | cons a p ih =>
      show "/" ++ testText (some a.uri) (some a.localPart) ++ stepsText false (ofPath p).steps = _
      rw [ih, testText_exact, ElementPath.text, ElementPath.text, List.map_cons, String.join_cons]

/-- A pattern matches its path in the other SOAP version too, but it does not match what is shorter. -/
example : let body : QName := ⟨Namespace.soap11, "Body"⟩
    (ofPath [body]).accepts [⟨Namespace.soap12, "Body"⟩] ∧ ¬ (ofPath [body, body]).accepts [body] := by
  decide

end ElementPattern

end SoapPolicy
