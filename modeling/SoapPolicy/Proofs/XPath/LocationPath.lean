import Mathlib.Data.List.TakeWhile
import SoapPolicy.Proofs.XPath.Compiling
import SoapPolicy.Proofs.XPath.Trimming

/-!
# Location paths

The grammar of the expressions that are supported, as data.  A location path has a text, which is the
expression, and steps, which are what the expression asks for.  Compiling the text gives these steps,
for every location path (`compile_locationPath`).

Names are free of the characters that have a meaning in an expression.  So a step is one segment, its
name test ends at its first bracket, and a colon in a name test ends a prefix.
-/

namespace SoapPolicy.XPath

variable {namespaces : List (String × String)} {expression : String} {gapBefore : Bool}
  {seg cs ds allowed allowed' : List Char} {c : Char}

/-! ## Characters -/

/-- The characters that have a meaning in an expression. -/
def marks : List Char :=
  ['/', '[', ']', '(', ')', ':', '*', '@', '\'', '"']

/-- A text without blank characters, and with no marks but those that are allowed. -/
def Clear (allowed cs : List Char) : Prop :=
  ∀ c ∈ cs, Text.isBlank c = false ∧ (c ∈ marks → c ∈ allowed)

namespace Clear

theorem not_mem (clear : Clear allowed cs) (mark : c ∈ marks) (other : c ∉ allowed) : c ∉ cs :=
  fun h => other ((clear c h).2 mark)

theorem mono (clear : Clear allowed cs) (more : allowed ⊆ allowed') : Clear allowed' cs :=
  fun c h => (clear c h).imp_right fun only mark => more (only mark)

theorem append (front : Clear allowed cs) (back : Clear allowed ds) : Clear allowed (cs ++ ds) :=
  List.forall_mem_append.2 ⟨front, back⟩

theorem cons (plain : Text.isBlank c = false ∧ (c ∈ marks → c ∈ allowed)) (clear : Clear allowed cs) :
    Clear allowed (c :: cs) :=
  List.forall_mem_cons.2 ⟨plain, clear⟩

theorem tight (clear : Clear allowed cs) : Text.Tight cs := .of_forall fun c h => (clear c h).1

/-- What follows a text with stars and colons only is not in a literal or a predicate. -/
theorem append_closed (clear : Clear ['*', ':'] cs) (closed : Closed ['/'] ds) :
    Closed ['/'] (cs ++ ds) := by
  induction cs with
  | nil => exact closed
  | cons c cs ih =>
    obtain ⟨-, others⟩ := List.forall_mem_cons.1 clear
    have other {mark : Char} (h : mark ∈ marks) (only : mark ∉ ['*', ':']) : c ≠ mark :=
      fun same => clear.not_mem h only (same ▸ .head cs)
    refine .char (mt List.mem_singleton.1 ?_) (not_or.2 ⟨?_, ?_⟩) ?_ (ih others) <;>
      exact other (by decide) (by decide)

end Clear

/-! ## The grammar -/

/-- A name.  A single dot and two of them stand for something else. -/
structure Name where
  /-- The characters of the name. -/
  chars : List Char
  ne_nil : chars ≠ []
  clear : Clear [] chars
  ne_self : chars ≠ ['.']
  ne_parent : chars ≠ ['.', '.']

/-- A prefix that is bound. -/
structure Label (namespaces : List (String × String)) where
  /-- The prefix. -/
  name : Name
  /-- The namespace it is bound to. -/
  uri : String
  bound : namespaces.lookup (String.ofList name.chars) = some uri

/-- A test of a name.  Without a local part there is a star in its place. -/
structure NameTest (namespaces : List (String × String)) where
  /-- The prefix. -/
  label : Option (Label namespaces) := none
  /-- The local part. -/
  localPart : Option Name

/-- A predicate.  Its body is closed, and has no bracket that would end the predicate before. -/
structure Predicate where
  /-- The text between the brackets. -/
  body : List Char
  closed : Closed [']'] body

/-- A step along the child axis. -/
structure LocationStep (namespaces : List (String × String)) where
  /-- Whether the axis is written. -/
  axis : Bool := false
  /-- The test of the name of the element. -/
  test : NameTest namespaces
  /-- What else is asked of the element. -/
  predicates : List Predicate := []

/-- What stands in front of a step: a slash, or two of them for any depth. -/
inductive Separator where
  | child
  | descendant

/-- A path of one step or more.  It starts at the document root if there is a slash in front of it. -/
structure LocationPath (namespaces : List (String × String)) where
  /-- What stands in front of the first step. -/
  lead : Option Separator
  /-- The first step. -/
  first : LocationStep namespaces
  /-- The other steps, each with what stands in front of it. -/
  rest : List (Separator × LocationStep namespaces)

/-! ## Text and steps -/

namespace NameTest

/-- The local part as it is written. -/
def localText (test : NameTest namespaces) : List Char :=
  test.localPart.elim ['*'] Name.chars

/-- The test as it is written. -/
def text (test : NameTest namespaces) : List Char :=
  match test.label with
  | none => test.localText
  | some label => label.name.chars ++ ':' :: test.localText

/-- The step for a test.  A name without a prefix is in no namespace. -/
def step (test : NameTest namespaces) : PatternStep :=
  let localPart := test.localPart.map fun name => String.ofList name.chars
  match test.label with
  | none => .name (localPart.map fun _ => "") localPart
  | some label => .name (some label.uri) localPart

end NameTest

/-- A predicate as it is written. -/
def Predicate.text (predicate : Predicate) : List Char :=
  '[' :: (predicate.body ++ [']'])

namespace LocationStep

/-- The axis, if it is written, and the name test. -/
def head (step : LocationStep namespaces) : List Char :=
  (if step.axis then "child::".toList else []) ++ step.test.text

/-- A step as it is written. -/
def text (step : LocationStep namespaces) : List Char :=
  step.head ++ step.predicates.flatMap Predicate.text

end LocationStep

namespace Separator

/-- The slashes. -/
def text : Separator → List Char
  | child => ['/']
  | descendant => ['/', '/']

/-- The steps in front of the one that follows. -/
def steps : Separator → List PatternStep
  | child => []
  | descendant => [.gap]

/-- The segments in front of the one that follows.  Between two slashes there is one without text. -/
def segments : Separator → List (List Char)
  | child => []
  | descendant => [[]]

end Separator

namespace LocationPath

/-- The text behind the first step. -/
def restText (rest : List (Separator × LocationStep namespaces)) : List Char :=
  rest.flatMap fun (sep, step) => sep.text ++ step.text

/-- The segments behind that of the first step. -/
def restSegments (rest : List (Separator × LocationStep namespaces)) : List (List Char) :=
  rest.flatMap fun (sep, step) => sep.segments ++ [step.text]

/-- The steps of the pattern behind that of the first step. -/
def restSteps (rest : List (Separator × LocationStep namespaces)) : List PatternStep :=
  rest.flatMap fun (sep, step) => sep.steps ++ [step.test.step]

/-- The expression. -/
def text (path : LocationPath namespaces) : List Char :=
  path.lead.elim [] Separator.text ++ (path.first.text ++ restText path.rest)

/-- The steps of the pattern.  Predicates have none, and a path that does not start with a slash starts
at any depth. -/
def steps (path : LocationPath namespaces) : List PatternStep :=
  path.lead.elim [.gap] Separator.steps ++ path.first.test.step :: restSteps path.rest

end LocationPath

/-! ## Name tests -/

namespace NameTest

variable (test : NameTest namespaces)

theorem clear_localText : Clear ['*'] test.localText := by
  rw [localText]
  cases test.localPart with
  | none => exact .cons (by decide) nofun
  | some name => exact name.clear.mono (List.nil_subset _)

/-- Of the marks a name test has stars and colons only. -/
theorem clear_text : Clear ['*', ':'] test.text := by
  have last : Clear ['*', ':'] test.localText := test.clear_localText.mono (by simp)
  rw [text]
  cases test.label with
  | none => exact last
  | some label => exact (label.name.clear.mono (List.nil_subset _)).append (.cons (by decide) last)

theorem colon_not_mem_localText : ':' ∉ test.localText :=
  test.clear_localText.not_mem (by decide) (by decide)

/-- The axis has two colons, and a name test has at most one. -/
theorem not_axis_prefix : ¬ "child::".toList <+: test.text := by
  intro axis
  have colons : test.text.count ':' ≤ 1 := by
    have last := List.count_eq_zero.2 test.colon_not_mem_localText
    rw [text]
    cases test.label with
    | none => exact last.trans_le (Nat.zero_le 1)
    | some label =>
      have before : ':' ∉ label.name.chars := label.name.clear.not_mem (by decide) List.not_mem_nil
      rw [List.count_append, List.count_cons_self, List.count_eq_zero.2 before, last]
  exact absurd ((axis.count_le ':').trans colons) (by decide)

theorem text_ne_nil : test.text ≠ [] := by
  rw [text, localText]
  cases test.label with
  | none =>
    cases test.localPart with
    | none => exact List.cons_ne_nil _ _
    | some name => exact name.ne_nil
  | some label => exact List.append_ne_nil_of_right_ne_nil _ (List.cons_ne_nil _ _)

/-- A name test is never written like a step to the element itself or to its parent. -/
theorem text_ne_dots : test.text ≠ ['.'] ∧ test.text ≠ ['.', '.'] := by
  cases labelled : test.label with
  | none =>
    simp only [text, labelled, localText]
    cases test.localPart with
    | none => exact ⟨by decide, by decide⟩
    | some name => exact ⟨name.ne_self, name.ne_parent⟩
  | some label =>
    have colon : ':' ∈ test.text := by
      rw [text, labelled]
      exact List.mem_append_right _ (.head _)
    constructor <;>
    · intro dots
      rw [dots] at colon
      revert colon
      decide

theorem isUnsupported_text : isUnsupported test.text = false := by
  have at' : '@' ∉ test.text := test.clear_text.not_mem (by decide) (by decide)
  have paren : '(' ∉ test.text := test.clear_text.not_mem (by decide) (by decide)
  have noAttribute : (test.text.head? == some '@') = false :=
    beq_false_of_ne fun first => at' (List.mem_of_head? first)
  obtain ⟨noSelf, noParent⟩ := test.text_ne_dots
  simp [isUnsupported, test.text_ne_nil, noAttribute, paren, noSelf, noParent]

/-- A star stands for any name, and no name is written like it. -/
theorem localText_eq_star_iff : test.localText = ['*'] ↔ test.localPart = none := by
  rw [localText]
  cases test.localPart with
  | none => exact iff_of_true rfl rfl
  | some name =>
    have noStar : '*' ∉ name.chars := name.clear.not_mem (by decide) List.not_mem_nil
    refine iff_of_false (fun star => noStar ?_) nofun
    exact (show name.chars = ['*'] from star) ▸ .head _

theorem testStep_text : testStep ⟨expression, namespaces⟩ test.text = .ok test.step := by
  rw [text, step]
  cases test.label with
  | none =>
    rw [testStep_plain test.colon_not_mem_localText]
    simp only [localText_eq_star_iff]
    cases written : test.localPart with
    | none => rfl
    | some name => simp [localText, written]
  | some label =>
    have before : ':' ∉ label.name.chars := label.name.clear.not_mem (by decide) List.not_mem_nil
    have bound : uri? ⟨expression, namespaces⟩ (String.ofList label.name.chars) = some label.uri :=
      label.bound
    rw [testStep_prefixed before, bound]
    simp only [localText_eq_star_iff]
    cases written : test.localPart with
    | none => rfl
    | some name => simp [localText, written]

end NameTest

/-! ## Steps -/

namespace LocationStep

variable (step : LocationStep namespaces)

theorem clear_head : Clear ['*', ':'] step.head := by
  have axis : Clear ['*', ':'] "child::".toList := by
    simp [Clear, marks]
    decide
  rw [head]
  cases step.axis with
  | false => exact step.test.clear_text
  | true => exact axis.append step.test.clear_text

theorem text_ne_nil : step.text ≠ [] :=
  List.append_ne_nil_of_left_ne_nil (List.append_ne_nil_of_right_ne_nil _ step.test.text_ne_nil) _

theorem tight : Text.Tight step.text := by
  have bracket {c : Char} (h : c = '[' ∨ c = ']') : Text.isBlank c = false := by
    rcases h with rfl | rfl <;> decide
  refine step.clear_head.tight.append (.flatMap fun predicate _ => ⟨fun c hc => ?_, fun c hc => ?_⟩)
  · exact bracket (.inl (Option.some.inj hc).symm)
  · rw [Predicate.text, ← List.cons_append, List.getLast?_concat] at hc
    exact bracket (.inr (Option.some.inj hc).symm)

/-- A step has no slash but in its predicates. -/
theorem closed : Closed ['/'] step.text := by
  refine step.clear_head.append_closed ?_
  induction step.predicates with
  | nil => exact .nil
  | cons p ps ih =>
    rw [List.flatMap_cons, Predicate.text, List.cons_append, List.append_assoc]
    exact .predicate p.closed ih

/-- The name test of a step ends at its first bracket. -/
theorem beforePredicates_text : beforePredicates step.text = step.head := by
  have opens : '[' ∉ step.head := step.clear_head.not_mem (by decide) (by decide)
  rw [text, beforePredicates, List.takeWhile_append_of_pos (bne_of_not_mem opens)]
  cases step.predicates <;> exact List.append_nil _

theorem nameTest_text : nameTest step.text = step.test.text := by
  have test : withoutAxis step.head = step.test.text := by
    rw [head, withoutAxis]
    simp only [List.isPrefixOf_iff_prefix]
    cases step.axis with
    | false => exact if_neg step.test.not_axis_prefix
    | true => exact (if_pos (List.prefix_append _ _)).trans List.drop_left
  rw [nameTest, beforePredicates_text, test, step.test.clear_text.tight.trim_eq]

theorem compileStep_text : compileStep ⟨expression, namespaces⟩ step.text = .ok step.test.step := by
  rw [compileStep_eq_ok_iff, nameTest_text]
  exact ⟨step.test.isUnsupported_text, step.test.testStep_text⟩

end LocationStep

/-! ## Paths -/

/-- A second slash puts a segment without text in front of what follows. -/
theorem segments_separator (closed : Closed ['/'] seg) (sep : Separator) (cs : List Char) :
    segments (seg ++ (sep.text ++ cs)) = seg :: (sep.segments ++ segments cs) := by
  have cut := segmentsFrom_cut (reads_segment_iff.2 closed)
  cases sep with
  | child => exact cut cs
  | descendant => exact (cut ('/' :: cs)).trans (congrArg _ (segmentsFrom_cut .nil cs))

namespace LocationPath

variable (first : LocationStep namespaces) (rest : List (Separator × LocationStep namespaces))

theorem segments_steps :
    XPath.segments (first.text ++ restText rest) = first.text :: restSegments rest := by
  induction rest generalizing first with
  | nil =>
    rw [restText, List.flatMap_nil, List.append_nil]
    exact segmentsFrom_of_reads (reads_segment_iff.2 first.closed)
  | cons next rest ih =>
    obtain ⟨sep, step⟩ := next
    rw [restText, restSegments, List.flatMap_cons, List.flatMap_cons, List.append_assoc,
      segments_separator first.closed, List.append_assoc]
    exact congrArg (first.text :: sep.segments ++ ·) (ih step)

theorem builds_steps :
    Builds ⟨expression, namespaces⟩ gapBefore (first.text :: restSegments rest)
      (first.test.step :: restSteps rest) := by
  induction rest generalizing first gapBefore with
  | nil => exact .step first.compileStep_text .nil
  | cons next rest ih =>
    obtain ⟨sep, step⟩ := next
    refine .step first.compileStep_text ?_
    cases sep with
    | child => exact ih step
    | descendant => exact .gap (List.cons_ne_nil _ _) (ih step)

theorem tight (path : LocationPath namespaces) : Text.Tight path.text := by
  have slashes (sep : Separator) : Text.Tight sep.text := by
    refine .of_forall fun c hc => ?_
    obtain rfl : c = '/' := by cases sep <;> simpa [Separator.text] using hc
    decide
  have lead : Text.Tight (path.lead.elim [] Separator.text) := by
    cases path.lead with
    | none => exact .of_forall nofun
    | some sep => exact slashes sep
  exact lead.append (path.first.tight.append (.flatMap fun next _ =>
    (slashes next.1).append next.2.tight))

end LocationPath

/-- The text of a location path compiles to the steps of the path. -/
theorem compile_locationPath (path : LocationPath namespaces) :
    compile ⟨String.ofList path.text, namespaces⟩ = .ok ⟨path.steps⟩ := by
  rw [compile_eq_ok_iff, String.toList_ofList, path.tight.trim_eq]
  obtain ⟨lead, first, rest⟩ := path
  have built {expression : String} {gapBefore : Bool} :
      Builds ⟨expression, namespaces⟩ gapBefore _ _ := LocationPath.builds_steps first rest
  cases lead with
  | none =>
    have cut : segments (LocationPath.text ⟨none, first, rest⟩) = _ :=
      LocationPath.segments_steps first rest
    rw [cut]
    exact .relative first.text_ne_nil built
  | some sep =>
    have cut : segments (LocationPath.text ⟨some sep, first, rest⟩) = _ :=
      segments_separator .nil sep _
    rw [cut, LocationPath.segments_steps]
    cases sep with
    | child => exact .absolute (List.cons_ne_nil _ _) built
    | descendant => exact .absolute (List.cons_ne_nil _ _) (.gap (List.cons_ne_nil _ _) built)

/-- A path with predicates, a prefix and stars. -/
def samplePath : LocationPath [("p", "urn:p")] :=
  let p : Name := ⟨['p'], nofun, List.forall_mem_singleton.2 (by decide), nofun, nofun⟩
  let b : Name := ⟨['b'], nofun, List.forall_mem_singleton.2 (by decide), nofun, nofun⟩
  { lead := some .descendant
    first := {
      axis := true
      test := { label := some ⟨p, "urn:p", rfl⟩, localPart := none }
      predicates := [⟨"@x='/]'".toList, Reads.closed (by decide)⟩,
        ⟨"a[b/c]".toList, Reads.closed (by decide)⟩] }
    rest := [(.descendant, { test := { localPart := some b } }),
      (.child, { test := { localPart := none } })] }

/-- The slashes and brackets in its predicates do not show in its pattern. -/
theorem compile_samplePath :
    compile ⟨"//child::p:*[@x='/]'][a[b/c]]//b/*", [("p", "urn:p")]⟩ =
      .ok ⟨[.gap, .name (some "urn:p") none, .gap, .name (some "") (some "b"), .name none none]⟩ := by
  have text : samplePath.text = "//child::p:*[@x='/]'][a[b/c]]//b/*".toList := by decide
  have compiled := compile_locationPath samplePath
  rw [text, String.ofList_toList] at compiled
  exact compiled

end SoapPolicy.XPath
