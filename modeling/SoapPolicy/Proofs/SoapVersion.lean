import Mathlib.Data.List.Forall2
import SoapPolicy.Obligation.Basic
import SoapPolicy.Proofs.ElementPath
import SoapPolicy.Proofs.Selection

/-!
# Leaving out the SOAP version

`versionless` writes everything that speaks of elements as if it were about SOAP 1.1: the names of a
path, the namespaces that the prefixes of an expression are bound to, and so the steps of a pattern.
Whether a pattern matches a path does not change (`ElementPattern.accepts_versionless`), and compiling
an expression commutes with it (`XPath.compile_versionless`).

Two paths or expressions that are the same without their SOAP version differ only in which of the two
envelope namespaces stands at each place (`QName.versionless_eq_iff`, `XPath.versionless_eq_iff`).
-/

namespace SoapPolicy

/-! ## Namespaces and names -/

namespace Namespace

/-- A namespace, with the envelope of SOAP 1.1 for that of either version. -/
def versionless (uri : String) : String :=
  if isSoap uri then soap11 else uri

theorem isSoap_soap11 : isSoap soap11 = true := by
  simp [isSoap]

/-- Two namespaces are the same without the version if they are equal, or if both are SOAP
envelopes. -/
theorem versionless_eq_iff {u v : String} :
    versionless u = versionless v ↔ u = v ∨ isSoap u = true ∧ isSoap v = true := by
  constructor
  · intro h
    cases hu : isSoap u with
    | true =>
      cases hv : isSoap v with
      | true => exact .inr ⟨rfl, rfl⟩
      | false =>
        simp only [versionless, hu, hv, if_true, Bool.false_eq_true, if_false] at h
        rw [← h, isSoap_soap11] at hv
        cases hv
    | false =>
      cases hv : isSoap v with
      | true =>
        simp only [versionless, hu, hv, if_true, Bool.false_eq_true, if_false] at h
        rw [h, isSoap_soap11] at hu
        cases hu
      | false =>
        simp only [versionless, hu, hv, Bool.false_eq_true, if_false] at h
        exact .inl h
  · rintro (rfl | ⟨hu, hv⟩)
    · rfl
    · simp [versionless, hu, hv]

@[simp] theorem versionless_versionless (uri : String) :
    versionless (versionless uri) = versionless uri := by
  rw [versionless_eq_iff]
  cases h : isSoap uri with
  | true => exact .inr ⟨by simp [versionless, h, isSoap_soap11], rfl⟩
  | false => exact .inl (by simp [versionless, h])

/-- No namespace is not that of SOAP. -/
@[simp] theorem versionless_empty : versionless "" = "" := by decide

end Namespace

theorem QName.versionless_true (q : QName) :
    q.versionless true = ⟨Namespace.versionless q.uri, q.localPart⟩ := by
  rw [versionless, Namespace.versionless, Bool.true_and]
  split <;> rfl

/-- Two names are the same without the version if they have one local part, and one namespace or both
that of SOAP. -/
theorem QName.versionless_eq_iff {p q : QName} :
    p.versionless true = q.versionless true ↔
      (p.uri = q.uri ∨ Namespace.isSoap p.uri = true ∧ Namespace.isSoap q.uri = true) ∧
        p.localPart = q.localPart := by
  rw [versionless_true, versionless_true, mk.injEq, Namespace.versionless_eq_iff]

namespace ElementPath

/-- Two paths are the same without the version if they are so name by name. -/
theorem versionless_eq_iff {a b : ElementPath} :
    a.versionless true = b.versionless true ↔
      List.Forall₂ (fun p q => p.versionless true = q.versionless true) a b := by
  rw [versionless, versionless, ← List.forall₂_eq_eq_eq, List.forall₂_map_left_iff,
    List.forall₂_map_right_iff]

@[simp] theorem versionless_versionless (path : ElementPath) :
    (path.versionless true).versionless true = path.versionless true := by
  simp [versionless, QName.versionless_true]

/-- Whether two paths lead to one element does not depend on their versions. -/
@[simp] theorem same_versionless (a b : ElementPath) :
    same (a.versionless true) (b.versionless true) = same a b := by
  rw [Bool.eq_iff_iff, same_iff, same_iff, versionless_versionless, versionless_versionless]

@[simp] theorem isEmpty_versionless (path : ElementPath) :
    (path.versionless true).isEmpty = path.isEmpty :=
  List.isEmpty_map

end ElementPath

/-! ## Patterns -/

namespace PatternStep

/-- A step without its SOAP version. -/
def versionless : PatternStep → PatternStep
  | name uri localPart => .name (uri.map Namespace.versionless) localPart
  | gap => .gap

theorem acceptsUri_iff {u : String} {q : QName} :
    acceptsUri (some u) q = true ↔ Namespace.versionless u = Namespace.versionless q.uri := by
  simp [acceptsUri, Namespace.versionless_eq_iff]

theorem acceptsUri_versionless (uri : Option String) (q : QName) :
    acceptsUri (uri.map Namespace.versionless) (q.versionless true) = acceptsUri uri q := by
  cases uri with
  | none => rfl
  | some u =>
    rw [Option.map_some, Bool.eq_iff_iff, acceptsUri_iff, acceptsUri_iff, QName.versionless_true,
      Namespace.versionless_versionless, Namespace.versionless_versionless]

@[simp] theorem accepts_versionless (step : PatternStep) (q : QName) :
    step.versionless.accepts (q.versionless true) = step.accepts q := by
  cases step with
  | gap => rfl
  | name uri localPart =>
    have same : acceptsLocal localPart (q.versionless true) = acceptsLocal localPart q := by
      rw [QName.versionless_true]
      rfl
    simp only [versionless, accepts, acceptsUri_versionless, same]

@[simp] theorem versionless_beq_gap (step : PatternStep) :
    (step.versionless == gap) = (step == gap) := by
  cases step <;> rfl

end PatternStep

namespace ElementPattern

/-- A pattern without its SOAP version. -/
def versionless (pattern : ElementPattern) : ElementPattern :=
  ⟨pattern.steps.map PatternStep.versionless⟩

theorem someSuffix_map {p p' : ElementPath → Bool} {f : QName → QName}
    (h : ∀ path : ElementPath, p (path.map f) = p' path) :
    ∀ path : ElementPath, someSuffix p (path.map f) = someSuffix p' path
  | [] => h []
  | q :: path => by
    show (p ((q :: path).map f) || someSuffix p (path.map f)) = (p' (q :: path) || someSuffix p' path)
    rw [h, someSuffix_map h path]

theorem stepsAccept_versionless (steps : List PatternStep) (path : ElementPath) :
    stepsAccept (steps.map PatternStep.versionless) (path.versionless true) =
      stepsAccept steps path := by
  induction steps generalizing path with
  | nil => exact path.isEmpty_versionless
  | cons step steps ih =>
    cases step with
    -- a gap tries every suffix, so the induction is over all paths
    | gap => exact someSuffix_map ih path
    | name uri localPart =>
      cases path with
      | nil => rfl
      | cons q path =>
        have head := (PatternStep.name uri localPart).accepts_versionless q
        show ((PatternStep.name uri localPart).versionless.accepts (q.versionless true) &&
            stepsAccept (steps.map PatternStep.versionless) (ElementPath.versionless true path)) =
          ((PatternStep.name uri localPart).accepts q && stepsAccept steps path)
        rw [head, ih]

/-- Whether a pattern matches a path does not depend on their versions. -/
@[simp] theorem accepts_versionless (pattern : ElementPattern) (path : ElementPath) :
    pattern.versionless.accepts (path.versionless true) = pattern.accepts path :=
  stepsAccept_versionless pattern.steps path

end ElementPattern

/-! ## Expressions -/

namespace XPath

/-- An expression whose prefixes are bound without a SOAP version. -/
def versionless (xpath : XPath) : XPath :=
  { xpath with namespaces := xpath.namespaces.map fun (label, uri) =>
      (label, Namespace.versionless uri) }

/-- Two expressions are the same without the version if they are written alike and bind the same
prefixes, each to one namespace or to one of SOAP. -/
theorem versionless_eq_iff {x y : XPath} :
    x.versionless = y.versionless ↔
      x.expression = y.expression ∧
        List.Forall₂ (fun (label, u) (label', v) => label = label' ∧
          (u = v ∨ Namespace.isSoap u = true ∧ Namespace.isSoap v = true))
          x.namespaces y.namespaces := by
  rw [versionless, versionless, mk.injEq, ← List.forall₂_eq_eq_eq, List.forall₂_map_left_iff,
    List.forall₂_map_right_iff]
  simp only [Prod.mk.injEq, Namespace.versionless_eq_iff]

theorem uri?_versionless (xpath : XPath) (label : String) :
    xpath.versionless.uri? label = (xpath.uri? label).map Namespace.versionless := by
  show (xpath.namespaces.map _).lookup label = (xpath.namespaces.lookup label).map _
  induction xpath.namespaces with
  | nil => rfl
  | cons binding bindings ih =>
    obtain ⟨bound, uri⟩ := binding
    rw [List.map_cons, List.lookup_cons, List.lookup_cons, ih]
    cases label == bound <;> rfl

theorem testStep_versionless (xpath : XPath) (test : List Char) :
    testStep xpath.versionless test = (testStep xpath test).map PatternStep.versionless := by
  simp only [testStep, uri?_versionless]
  split
  · cases xpath.uri? (String.ofList (test.takeWhile (· != ':'))) with
    | none => rfl
    | some uri => rfl
  · split
    · rfl
    · simp [Except.map, PatternStep.versionless]

theorem compileStep_versionless (xpath : XPath) (segment : List Char) :
    compileStep xpath.versionless segment =
      (compileStep xpath segment).map PatternStep.versionless := by
  simp only [compileStep, testStep_versionless]
  split
  · rfl
  · rfl

/-- The steps of an expression commute with leaving out the version, whatever is done with them. -/
theorem compileSegments_versionless (xpath : XPath) (trimmed : String) (gapBefore : Bool)
    (segments : List (List Char)) :
    compileSegments xpath.versionless trimmed gapBefore segments =
      (compileSegments xpath trimmed gapBefore segments).map (List.map PatternStep.versionless) := by
  induction segments generalizing gapBefore with
  | nil => rfl
  | cons segment rest ih =>
    cases segment with
    -- an empty segment is a gap, or fails for what stands around it
    | nil =>
      simp only [compileSegments, ih]
      split
      · rfl
      split
      · rfl
      · cases compileSegments xpath trimmed true rest <;> rfl
    | cons c cs =>
      simp only [compileSegments, ih, compileStep_versionless]
      cases compileStep xpath (c :: cs) with
      | error e => rfl
      | ok step => cases compileSegments xpath trimmed false rest <;> rfl

theorem compileSteps_versionless (xpath : XPath) (trimmed : List Char) :
    compileSteps xpath.versionless trimmed =
      (compileSteps xpath trimmed).map (List.map PatternStep.versionless) := by
  simp only [compileSteps, compileSegments_versionless]
  split
  · rfl
  · cases compileSegments xpath _ true (segments trimmed) <;> rfl

/-- Compiling commutes with leaving out the version, and fails for the same reasons. -/
theorem compile_versionless (xpath : XPath) :
    xpath.versionless.compile = xpath.compile.map ElementPattern.versionless := by
  have only_gaps (steps : List PatternStep) :
      (steps.map PatternStep.versionless).all (· == .gap) = steps.all (· == .gap) := by
    simp [List.all_map, Function.comp_def]
  have expression : xpath.versionless.expression = xpath.expression := rfl
  simp only [compile, compileSteps_versionless, expression]
  cases (Text.trim xpath.expression.toList).isEmpty with
  | true => rfl
  | false =>
    cases compileSteps xpath (Text.trim xpath.expression.toList) with
    | error e => rfl
    | ok steps =>
      simp only [Except.map, bind, Except.bind, Bool.false_eq_true, if_false, only_gaps]
      split
      · rfl
      · rfl

end XPath

/-! ## Policies -/

/-- The elements an assertion speaks of, without the SOAP version. -/
def ElementsPolicy.versionless (policy : ElementsPolicy) : ElementsPolicy :=
  ⟨policy.xpaths.map XPath.versionless⟩

/-- An assertion without its SOAP version. -/
def PolicyAssertion.versionless : PolicyAssertion → PolicyAssertion
  | .token policy => .token policy
  | .signedElements policy => .signedElements policy.versionless
  | .encryptedElements policy => .encryptedElements policy.versionless
  | .requiredElements policy => .requiredElements policy.versionless
  | .binding policy => .binding policy

/-- An alternative without its SOAP version. -/
def Alternative.versionless (alternative : Alternative) : Alternative :=
  ⟨alternative.assertions.map PolicyAssertion.versionless⟩

/-- A policy without its SOAP version. -/
def Policy.versionless (policy : Policy) : Policy :=
  ⟨policy.alternatives.map Alternative.versionless⟩

/-- The policy of an operation without its SOAP version.  The operation itself is no element of a
message, and stays as it is. -/
def OperationPolicy.versionless (policy : OperationPolicy) : OperationPolicy :=
  { policy with policy := policy.policy.versionless }

/-- The policies an enforcer is made for, without their SOAP version. -/
def PolicySource.versionless : PolicySource → PolicySource
  | .policy own => .policy own.versionless
  | .operations own default =>
    .operations (own.map OperationPolicy.versionless) (default.map Policy.versionless)

/-- What commutes with a computation on every element commutes with it on a list. -/
theorem mapM_map_of_commutes {α β : Type} {f : α → Except Failure β} {v : α → α} {w : β → β}
    (h : ∀ a, f (v a) = (f a).map w) (as : List α) :
    (as.map v).mapM f = (as.mapM f).map (List.map w) := by
  induction as with
  | nil => rfl
  | cons a as ih =>
    rw [List.map_cons, List.mapM_cons, List.mapM_cons, h, ih]
    cases f a with
    | error e => rfl
    | ok b => cases as.mapM f <;> rfl

/-- What makes no difference to a check of every element makes none to the check of a list. -/
theorem forM_map_of_same {α : Type} {f : α → Except Failure PUnit} {v : α → α}
    (h : ∀ a, f (v a) = f a) (as : List α) : forM (as.map v) f = forM as f := by
  induction as with
  | nil => rfl
  | cons a as ih => rw [List.map_cons, List.forM_cons, List.forM_cons, h, ih]

/-- The patterns of an assertion commute with leaving out the version. -/
theorem Obligation.patternsOf_versionless (policy : ElementsPolicy) :
    patternsOf policy.versionless = (patternsOf policy).map (List.map ElementPattern.versionless) := by
  refine mapM_map_of_commutes (fun xpath => ?_) policy.xpaths
  rw [XPath.compile_versionless]
  cases xpath.compile <;> rfl

/-- Which policy is selected for an operation does not depend on its version. -/
theorem policyFor?_versionless (policies : List OperationPolicy) (default : Option Policy)
    (operation : QName) :
    Enforcer.policyFor? (policies.map OperationPolicy.versionless) (default.map Policy.versionless)
        operation =
      (Enforcer.policyFor? policies default operation).map Policy.versionless := by
  simp only [Enforcer.policyFor?, OperationPolicy.select?, List.find?_map]
  have unchanged (p : OperationPolicy) : p.versionless.operation = p.operation := rfl
  simp only [Function.comp_def, unchanged]
  cases policies.find? fun p => p.operation == operation with
  | some p => rfl
  | none =>
    cases policies.find? fun p => p.operation.localPart == operation.localPart with
    | some p => rfl
    | none => cases default <;> rfl

end SoapPolicy
