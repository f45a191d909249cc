import SoapPolicy.Text.Blank
import SoapPolicy.XPath.Expression
import SoapPolicy.XPath.Pattern

/-!
# Compiling an expression

The expressions a policy uses are location paths: steps with slashes between them.  A second slash
is a gap, and an expression that does not start with a slash starts with a gap.  A step is a name
test after an optional `child::`, and before any number of predicates.  Predicates are not
evaluated, so a step with predicates matches as it would without them.

An expression is cut into segments at the slashes outside of predicates and quoted literals
(`segments`), and each segment is compiled by itself (`compileStep`).
-/

namespace SoapPolicy

/-- A reason why an expression cannot be compiled. -/
inductive XPathError where
  /-- The expression is blank. -/
  | empty
  /-- The expression ends with a slash. -/
  | endsWithSlash (expression : String)
  /-- A step is not a name test. -/
  | unsupportedStep (step : String) (expression : String)
  /-- A prefix is not bound. -/
  | unknownLabel (label : String)
  /-- The expression has gaps only. -/
  | noElement (expression : String)
deriving DecidableEq

/-- The text of a reason. -/
def XPathError.message : XPathError → String
  | empty => "empty XPath expression"
  | endsWithSlash expression => "XPath expression ends with '/': " ++ expression
  | unsupportedStep step expression =>
    "unsupported XPath step '" ++ step ++ "' in " ++ expression
  | unknownLabel label => "Unknown namespace prefix " ++ label
  | noElement expression => "XPath expression selects no element: " ++ expression

namespace XPath

/-! ## Segments -/

/-- Where a scan stands: in a quoted literal or not, and in how many predicates. -/
structure Scan where
  /-- The quote that closes the literal the scan is in. -/
  quote : Option Char := none
  /-- The number of predicates the scan is in. -/
  depth : Nat := 0
deriving DecidableEq

namespace Scan

/-- Whether the scan is outside of literals and predicates. -/
def isOutside (scan : Scan) : Bool :=
  scan.quote.isNone && scan.depth == 0

/-- The scan after one more character. -/
def next (scan : Scan) (c : Char) : Scan :=
  match scan.quote with
  | some q => if c = q then { scan with quote := none } else scan
  | none =>
    if c = '\'' || c = '"' then { scan with quote := some c }
    else if c = '[' then { scan with depth := scan.depth + 1 }
    else if c = ']' then { scan with depth := scan.depth - 1 }
    else scan

end Scan

/-- Put a character in front of the first segment. -/
def extendFirst (c : Char) : List (List Char) → List (List Char)
  | [] => [[c]]
  | segment :: rest => (c :: segment) :: rest

/-- The segments of an expression from where a scan stands.  There is always at least one, and
segments may be empty. -/
def segmentsFrom : Scan → List Char → List (List Char)
  | _, [] => [[]]
  | scan, c :: cs =>
    if c = '/' && scan.isOutside then [] :: segmentsFrom scan cs
    else extendFirst c (segmentsFrom (scan.next c) cs)

/-- The segments of an expression. -/
def segments (cs : List Char) : List (List Char) :=
  segmentsFrom {} cs

/-! ## Steps -/

/-- The text before the predicates of a step. -/
def beforePredicates (segment : List Char) : List Char :=
  segment.takeWhile (· != '[')

/-- A step without its axis, which can only be `child`. -/
def withoutAxis (step : List Char) : List Char :=
  let axis := "child::".toList
  if axis.isPrefixOf step then step.drop axis.length else step

/-- The name test of a segment. -/
def nameTest (segment : List Char) : List Char :=
  Text.trim (withoutAxis (beforePredicates segment))

/-- Whether a name test is of a form that is not supported: nothing, an attribute, a node test, or
a step to the element itself or its parent. -/
def isUnsupported (test : List Char) : Bool :=
  test.isEmpty || test.head? == some '@' || test.contains '(' || test == ['.'] || test == ['.', '.']

/-- The step for a name test.  A name without a prefix is in no namespace.  A star stands for any
name, or for any name of the namespace of its prefix. -/
def testStep (xpath : XPath) (test : List Char) : Except XPathError PatternStep :=
  match test.dropWhile (· != ':') with
  | _ :: localPart =>
    let label := String.ofList (test.takeWhile (· != ':'))
    match xpath.uri? label with
    | none => .error (.unknownLabel label)
    | some uri =>
      .ok (.name (some uri) (if localPart = ['*'] then none else some (String.ofList localPart)))
  | [] =>
    if test = ['*'] then .ok (.name none none)
    else .ok (.name (some "") (some (String.ofList test)))

/-- The step for a segment. -/
def compileStep (xpath : XPath) (segment : List Char) : Except XPathError PatternStep :=
  let test := nameTest segment
  if isUnsupported test then
    .error (.unsupportedStep (String.ofList segment) xpath.expression)
  else
    testStep xpath test

/-! ## Patterns -/

/-- The steps for segments.  An empty segment is a gap.  It is dropped if a gap stands before it,
and it cannot be the last. -/
def compileSegments (xpath : XPath) (trimmed : String) :
    Bool → List (List Char) → Except XPathError (List PatternStep)
  | _, [] => .ok []
  | gapBefore, [] :: rest =>
    if rest.isEmpty then .error (.endsWithSlash trimmed)
    else if gapBefore then compileSegments xpath trimmed true rest
    else return .gap :: (← compileSegments xpath trimmed true rest)
  | _, segment :: rest => do
    let step ← compileStep xpath segment
    return step :: (← compileSegments xpath trimmed false rest)

/-- The steps of an expression that is trimmed and not empty.  An expression that does not start
with a slash starts with a gap. -/
def compileSteps (xpath : XPath) (trimmed : List Char) : Except XPathError (List PatternStep) :=
  let expression := String.ofList trimmed
  match segments trimmed with
  | [] :: rest => compileSegments xpath expression false rest
  | all => return .gap :: (← compileSegments xpath expression true all)

/-- The pattern of an expression. -/
def compile (xpath : XPath) : Except XPathError ElementPattern := do
  let trimmed := Text.trim xpath.expression.toList
  if trimmed.isEmpty then throw .empty
  let steps ← compileSteps xpath trimmed
  if steps.all (· == .gap) then throw (.noElement (String.ofList trimmed))
  return ⟨steps⟩

/-! ## Tests -/

section Tests

/-- Slashes in predicates and in literals do not separate steps. -/
example : segments "a[b/'c]/']/d".toList = ["a[b/'c]/']".toList, "d".toList] := by decide

/-- A second slash is a gap. -/
example : compile ⟨"/a//b", []⟩ =
    .ok ⟨[.name (some "") (some "a"), .gap, .name (some "") (some "b")]⟩ := by rfl

/-- An expression that does not start with a slash starts with a gap. -/
example : compile ⟨" p:*[@x='/'] ", [("p", "u")]⟩ = .ok ⟨[.gap, .name (some "u") none]⟩ := by rfl

example : compile ⟨"/a/", []⟩ = .error (.endsWithSlash "/a/") := by rfl

example : compile ⟨"/q:a", []⟩ = .error (.unknownLabel "q") := by rfl

end Tests

end XPath

end SoapPolicy
