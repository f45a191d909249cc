import SoapPolicy.ElementPath

/-!
# Element patterns

A pattern is what remains of an XPath expression once its prefixes are resolved: a list of steps.
A name test takes one name of a path.  A gap takes any number of names, none included.  A pattern
matches a path if its steps take all of it, in order.
-/

namespace SoapPolicy

/-- A step of a pattern. -/
inductive PatternStep where
  /-- A test of one name.  A part that is not given is free. -/
  | name (uri : Option String) (localPart : Option String)
  /-- Any number of names. -/
  | gap
deriving DecidableEq

/-- Whether a namespace passes a test.  The two SOAP envelope namespaces are not told apart. -/
def PatternStep.acceptsUri (uri : Option String) (q : QName) : Bool :=
  match uri with
  | none => true
  | some u => u == q.uri || Namespace.isSoap u && Namespace.isSoap q.uri

/-- Whether a local part passes a test. -/
def PatternStep.acceptsLocal (localPart : Option String) (q : QName) : Bool :=
  match localPart with
  | none => true
  | some l => l == q.localPart

/-- Whether a step takes a name. -/
def PatternStep.accepts : PatternStep → QName → Bool
  | .name uri localPart, q => acceptsLocal localPart q && acceptsUri uri q
  | .gap, _ => true

/-- A list of steps. -/
structure ElementPattern where
  /-- The steps, from the document root down. -/
  steps : List PatternStep
deriving DecidableEq

namespace ElementPattern

/-- Whether a test holds of a list or of a rest of it. -/
def someSuffix (p : ElementPath → Bool) : ElementPath → Bool
  | [] => p []
  | name :: path => p (name :: path) || someSuffix p path

/-- Whether steps take all of a path. -/
def stepsAccept : List PatternStep → ElementPath → Bool
  | [], path => path.isEmpty
  | .gap :: steps, path => someSuffix (stepsAccept steps) path
  | .name _ _ :: _, [] => false
  | .name uri localPart :: steps, name :: path =>
    PatternStep.accepts (.name uri localPart) name && stepsAccept steps path

/-- Whether a pattern matches a path. -/
def accepts (pattern : ElementPattern) (path : ElementPath) : Bool :=
  stepsAccept pattern.steps path

/-- The pattern of the names of a path. -/
def ofPath (path : ElementPath) : ElementPattern :=
  ⟨path.map fun name => .name (some name.uri) (some name.localPart)⟩

/-! ## Text -/

/-- The text of a name test. -/
def testText (uri : Option String) (localPart : Option String) : String :=
  let space := uri.getD ""
  (if space = "" then "" else "\x7b" ++ space ++ "\x7d") ++ localPart.getD "*"

/-- The text of steps, given whether a gap stands before them.  A gap is written as a second slash
before the name test it leads to. -/
def stepsText : Bool → List PatternStep → String
  | _, [] => ""
  | _, .gap :: steps => stepsText true steps
  | gapBefore, .name uri localPart :: steps =>
    (if gapBefore then "//" else "/") ++ testText uri localPart ++ stepsText false steps

/-- The text of a pattern. -/
def text (pattern : ElementPattern) : String :=
  stepsText false pattern.steps

theorem someSuffix_iff {p : ElementPath → Bool} :
    ∀ {path : ElementPath}, someSuffix p path = true ↔ ∃ rest, rest <:+ path ∧ p rest = true
  | [] => by simp [someSuffix]
  | name :: path => by
    simp only [someSuffix, Bool.or_eq_true, someSuffix_iff, List.suffix_cons_iff]
    constructor
    · rintro (h | ⟨rest, hs, h⟩)
      · exact ⟨_, .inl rfl, h⟩
      · exact ⟨rest, .inr hs, h⟩
    · rintro ⟨rest, rfl | hs, h⟩
      · exact .inl h
      · exact .inr ⟨rest, hs, h⟩

/-! ## Tests -/

section Tests

/-- A gap takes no name, or several. -/
example : let pattern : ElementPattern := ⟨[.gap, .name none (some "b")]⟩
    pattern.accepts [⟨"u", "b"⟩] ∧ pattern.accepts [⟨"", "a"⟩, ⟨"", "a"⟩, ⟨"u", "b"⟩] ∧
      ¬ pattern.accepts [⟨"u", "b"⟩, ⟨"", "a"⟩] := by decide

/-- A pattern is written with the slashes of the expression it comes from. -/
example : text ⟨[.gap, .name none (some "b"), .name (some "") none]⟩ = "//b/*" := by decide

end Tests

end ElementPattern

end SoapPolicy
