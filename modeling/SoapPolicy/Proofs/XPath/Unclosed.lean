import Mathlib.Data.List.TakeWhile
import SoapPolicy.Obligation.Basic
import SoapPolicy.Proofs.XPath.Compiling
import SoapPolicy.Proofs.XPath.Trimming

/-!
# Expressions that are not closed

An expression may end inside of a predicate or of a literal.  Compiling does not look where the scan
ends, so such an expression is not refused.  It is accepted exactly if the expression is that closes at
the end what is open there (`compile_closedUp`).  Steps inside of an open predicate are lost with it, and
a policy on an element becomes one on what is around that element (`not_closed_of_compile`).

Of a closed expression nothing is lost but what predicates hold: each of its segments with text has its
step in the pattern, and a slash that does not separate segments is inside of a closed literal or
predicate.
-/

namespace SoapPolicy.XPath

variable {xpath xpath' : XPath} {gapBefore : Bool} {seg rest last last' cs ds stops : List Char}
  {segs : List (List Char)} {step step' : PatternStep} {steps : List PatternStep}
  {pattern : ElementPattern} {scan scan' : Scan} {q : Char}

/-! ## Closing an expression -/

/-- The marks that close what a scan is inside of: the literal first, then the predicates. -/
def Scan.closing (scan : Scan) : List Char :=
  scan.quote.toList ++ List.replicate scan.depth ']'

/-- The marks that close what is open at the end of a text. -/
def closingMarks (cs : List Char) : List Char :=
  (cs.foldl Scan.next {}).closing

/-- The expression that closes at its end what is open there. -/
def closedUp (xpath : XPath) : XPath :=
  { xpath with expression := String.ofList (xpath.trimmed ++ closingMarks xpath.trimmed) }

theorem reads_foldl (scan : Scan) (cs : List Char) : Reads [] (cs.foldl Scan.next scan) scan cs := by
  induction cs generalizing scan with
  | nil => exact .nil
  | cons c cs ih => exact .cons (fun _ => List.not_mem_nil) (ih _)

/-- Closing marks end a scan on the outside. -/
theorem reads_closing (scan : Scan) : Reads ['/'] {} scan scan.closing := by
  have brackets (d : Nat) : Reads ['/'] {} ⟨none, d⟩ (List.replicate d ']') := by
    induction d with
    | zero => exact .nil
    | succ d ih => exact .cons (fun start => by cases start) ih
  obtain ⟨quote, d⟩ := scan
  cases quote with
  | none => exact brackets d
  | some q => exact .cons (fun start => by cases start) (by rw [Scan.next_end]; exact brackets d)

theorem Scan.closing_eq_nil_iff : scan.closing = [] ↔ scan = {} := by
  obtain ⟨quote, d⟩ := scan
  cases quote <;> cases d <;> simp [Scan.closing, List.replicate_succ]

/-- Only an opening bracket leads deeper. -/
theorem Scan.depth_next_le {c : Char} (opens : c ≠ '[') : (scan.next c).depth ≤ scan.depth := by
  rw [next]
  grind

/-- Only a quote leads into a literal, and it is the one that ends it. -/
theorem Scan.quote_next {c : Char} (h : (scan.next c).quote = some q) :
    scan.quote = some q ∨ IsQuote c ∧ c = q := by
  rw [next] at h
  grind [IsQuote]

theorem Reads.mem_of_deeper (h : Reads stops scan' scan cs) (deeper : scan.depth < scan'.depth) :
    '[' ∈ cs := by
  induction h with
  | nil => exact absurd deeper (Nat.lt_irrefl _)
  | @cons scan c cs _ _ ih =>
    by_cases opens : c = '['
    · exact opens ▸ .head cs
    · exact .tail c (ih (Nat.lt_of_le_of_lt (Scan.depth_next_le opens) deeper))

theorem Reads.mem_of_quoted (h : Reads stops scan' scan cs) (outside : scan.quote = none)
    (quoted : scan'.quote = some q) : IsQuote q ∧ q ∈ cs := by
  have either : scan.quote = some q ∨ IsQuote q ∧ q ∈ cs := by
    clear outside
    induction h with
    | nil => exact .inl quoted
    | @cons scan c cs _ _ ih =>
      rcases ih with before | ⟨quote, hq⟩
      · exact (Scan.quote_next before).imp_right fun ⟨quote, same⟩ =>
          same ▸ ⟨quote, .head cs⟩
      · exact .inr ⟨quote, .tail c hq⟩
  rw [outside] at either
  exact either.resolve_left nofun

/-! ## The last step -/

theorem takeWhile_append_of_mem {c : Char} (h : c ∈ cs) (ds : List Char) :
    (cs ++ ds).takeWhile (· != c) = cs.takeWhile (· != c) := by
  induction cs with
  | nil => cases h
  | cons b cs ih =>
    by_cases same : b = c
    · simp [same]
    · have rest := (List.mem_cons.1 h).resolve_left (Ne.symm same)
      simp [same, ih rest]

/-- What follows a predicate has no part in the name test. -/
theorem nameTest_append (h : '[' ∈ seg) (cs : List Char) : nameTest (seg ++ cs) = nameTest seg := by
  rw [nameTest, beforePredicates, takeWhile_append_of_mem h]
  rfl

theorem isBlank_of_isQuote (quote : IsQuote q) : Text.isBlank q = false := by
  rcases quote with rfl | rfl <;> decide

/-- A quote at the end of a segment is no part of the axis. -/
theorem withoutAxis_concat (quote : IsQuote q) (seg : List Char) :
    withoutAxis (seg ++ [q]) = withoutAxis seg ++ [q] := by
  have apart : "child::".toList ≠ seg ++ [q] := by
    intro same
    have last := congrArg List.getLast? same
    rw [List.getLast?_concat] at last
    rcases quote with rfl | rfl <;> simp at last
  have axis : "child::".toList <+: seg ++ [q] ↔ "child::".toList <+: seg := by
    rw [List.prefix_concat_iff]
    exact or_iff_right apart
  simp only [withoutAxis, List.isPrefixOf_iff_prefix, axis]
  split
  next long => rw [List.drop_append_of_le_length long.length_le]
  next => rfl

/-- A quote in a segment is behind the axis. -/
theorem mem_withoutAxis (quote : IsQuote q) (h : q ∈ seg) : q ∈ withoutAxis seg := by
  rw [withoutAxis]
  simp only [List.isPrefixOf_iff_prefix]
  split
  next axis =>
    obtain ⟨rest, rfl⟩ := axis
    rw [List.drop_left]
    refine (List.mem_append.1 h).resolve_left fun inside => ?_
    rcases quote with rfl | rfl <;> simp at inside
  next => exact h

/-- Nothing is cut off at the end of a segment with its axis. -/
theorem getLast?_withoutAxis (nonempty : withoutAxis seg ≠ []) :
    (withoutAxis seg).getLast? = seg.getLast? := by
  rw [withoutAxis] at nonempty ⊢
  split at nonempty
  next axis =>
    rw [if_pos axis, List.getLast?_drop, if_neg (mt List.drop_eq_nil_iff.2 nonempty)]
  next axis => rw [if_neg axis]

theorem mem_dropWhile {p : Char → Bool} (h : q ∈ cs) (stays : p q = false) : q ∈ cs.dropWhile p := by
  rw [← List.takeWhile_append_dropWhile (p := p) (l := cs)] at h
  refine (List.mem_append.1 h).resolve_left fun dropped => ?_
  rw [List.mem_takeWhile_imp dropped] at stays
  cases stays

/-- A literal that is open at the end of a name test is closed there by its quote. -/
theorem nameTest_concat (quote : IsQuote q) (h : q ∈ seg) (outside : '[' ∉ seg)
    (ends : ∀ c ∈ seg.getLast?, Text.isBlank c = false) :
    nameTest (seg ++ [q]) = nameTest seg ++ [q] ∧ q ∈ nameTest seg := by
  have whole {cs : List Char} (outside : '[' ∉ cs) : beforePredicates cs = cs :=
    List.takeWhile_eq_self_iff.2 (bne_of_not_mem outside)
  have outside' : '[' ∉ seg ++ [q] := by
    rw [List.mem_append, List.mem_singleton, not_or]
    exact ⟨outside, by rintro rfl; exact absurd quote (by decide)⟩
  have inside := mem_withoutAxis quote h
  have nonempty := List.ne_nil_of_mem inside
  obtain ⟨c, last⟩ := Option.ne_none_iff_exists'.1 (mt List.getLast?_eq_none_iff.1 nonempty)
  have stays : Text.isBlank c = false := ends c (by rw [← getLast?_withoutAxis nonempty, last]; rfl)
  obtain ⟨front, split⟩ := List.getLast?_eq_some_iff.1 last
  have trimmed : Text.trim (withoutAxis seg) = (withoutAxis seg).dropWhile Text.isBlank := by
    rw [split, Text.trim_concat stays, Text.dropWhile_concat stays]
  rw [nameTest, nameTest, whole outside, whole outside', withoutAxis_concat quote,
    Text.trim_concat (isBlank_of_isQuote quote), trimmed]
  exact ⟨rfl, mem_dropWhile inside (isBlank_of_isQuote quote)⟩

/-- A quote behind a name test that has one already makes it neither supported nor unsupported. -/
theorem isUnsupported_concat {test : List Char} (quote : IsQuote q) (h : q ∈ test) :
    isUnsupported (test ++ [q]) = isUnsupported test := by
  have notDots {test : List Char} (h : q ∈ test) :
      (test == ['.']) = false ∧ (test == ['.', '.']) = false := by
    simp only [beq_eq_false_iff_ne]
    constructor <;> rintro rfl <;> rcases quote with rfl | rfl <;> simp at h
  have behind : q ∈ test ++ [q] := List.mem_append_left _ h
  have open' : (test ++ [q]).contains '(' = test.contains '(' := by
    rcases quote with rfl | rfl <;> simp
  obtain ⟨c, rest, rfl⟩ := List.exists_cons_of_ne_nil (List.ne_nil_of_mem h)
  rw [isUnsupported, isUnsupported, (notDots h).1, (notDots h).2, (notDots behind).1,
    (notDots behind).2, open']
  rfl

/-- What stands behind a name test has no part in its prefix. -/
theorem exists_testStep_concat {test : List Char} (colon : q ≠ ':') :
    (∃ step, testStep xpath (test ++ [q]) = .ok step) ↔ ∃ step, testStep xpath test = .ok step := by
  by_cases h : ':' ∈ test
  · obtain ⟨label, localPart, rfl, plain⟩ := List.eq_append_cons_of_mem h
    rw [List.append_assoc, List.cons_append, testStep_prefixed plain, testStep_prefixed plain]
    cases xpath.uri? (String.ofList label) <;> simp
  · have h' : ':' ∉ test ++ [q] := by simp [h, colon.symm]
    simp [testStep_plain h, testStep_plain h']

/-! ## The last segment -/

/-- If a predicate is open, closing it leaves the step as it is. -/
theorem compileStep_closing (h : Reads stops scan' {} last) (deep : ']' ∈ scan'.closing) :
    compileStep xpath (last ++ scan'.closing) = .ok step ↔ compileStep xpath last = .ok step := by
  have deeper : 0 < scan'.depth := by
    by_contra flat
    rw [Scan.closing, Nat.eq_zero_of_not_pos flat, List.replicate_zero, List.append_nil,
      Option.mem_toList] at deep
    rcases (h.mem_of_quoted rfl deep).1 with other | other <;> cases other
  have same := nameTest_append (h.mem_of_deeper deeper) scan'.closing
  exact ⟨compileStep_congr same.symm rfl, compileStep_congr same rfl⟩

/-- Closing what is open leaves it as it is whether there is a step. -/
theorem exists_compileStep_closing (xpath : XPath) (h : Reads stops scan' {} last)
    (ends : ∀ c ∈ last.getLast?, Text.isBlank c = false) :
    (∃ step, compileStep xpath (last ++ scan'.closing) = .ok step) ↔
      ∃ step, compileStep xpath last = .ok step := by
  by_cases opens : '[' ∈ last
  · have same := nameTest_append opens scan'.closing
    exact exists_congr fun step => ⟨compileStep_congr same.symm rfl, compileStep_congr same rfl⟩
  have flat : scan'.depth = 0 := Nat.eq_zero_of_not_pos fun deeper => opens (h.mem_of_deeper deeper)
  cases quoted : scan'.quote with
  | none => rw [Scan.closing, flat, quoted, List.replicate_zero, Option.toList_none, List.append_nil,
      List.append_nil]
  | some q =>
    obtain ⟨quote, inside⟩ := h.mem_of_quoted rfl quoted
    obtain ⟨test, inside⟩ := nameTest_concat quote inside opens ends
    have colon : q ≠ ':' := by rcases quote with rfl | rfl <;> decide
    rw [Scan.closing, flat, quoted, List.replicate_zero, List.append_nil, Option.toList_some]
    simp only [compileStep_eq_ok_iff, exists_and_left]
    rw [test, isUnsupported_concat quote inside, exists_testStep_concat colon]

/-- Segments with another last one give another last step. -/
theorem Builds.replace_last (h : Builds xpath gapBefore (segs ++ [last]) steps) :
    ∃ front step, steps = front ++ [step] ∧ compileStep xpath last = .ok step ∧
      ∀ {xpath' last' step'}, xpath'.namespaces = xpath.namespaces →
        compileStep xpath' last' = .ok step' →
        Builds xpath' gapBefore (segs ++ [last']) (front ++ [step']) := by
  induction segs generalizing gapBefore steps with
  | nil =>
    cases h with
    | gap more _ => exact absurd rfl more
    | sameGap more _ => exact absurd rfl more
    | step made rest =>
      cases rest
      exact ⟨[], _, rfl, made, fun _ made' => .step made' .nil⟩
  | cons seg segs ih =>
    cases h with
    | gap _ rest =>
      obtain ⟨front, step, rfl, made, replaced⟩ := ih rest
      exact ⟨.gap :: front, step, rfl, made, fun bound made' => .gap (by simp) (replaced bound made')⟩
    | sameGap _ rest =>
      obtain ⟨front, step, rfl, made, replaced⟩ := ih rest
      exact ⟨front, step, rfl, made, fun bound made' => .sameGap (by simp) (replaced bound made')⟩
    | step first rest =>
      obtain ⟨front, step, rfl, made, replaced⟩ := ih rest
      exact ⟨_ :: front, step, rfl, made, fun bound made' =>
        .step (compileStep_congr rfl bound first) (replaced bound made')⟩

theorem Compiles.replace_last (h : Compiles xpath (segs ++ [last]) steps) :
    ∃ front step, steps = front ++ [step] ∧ compileStep xpath last = .ok step ∧
      ∀ {xpath' last' step'}, xpath'.namespaces = xpath.namespaces →
        compileStep xpath' last' = .ok step' →
        Compiles xpath' (segs ++ [last']) (front ++ [step']) := by
  cases segs with
  | nil =>
    cases h with
    | absolute more _ => exact absurd rfl more
    | @relative _ _ steps _ built =>
      have built : Builds xpath true ([] ++ [last]) steps := built
      obtain ⟨front, step, rfl, made, replaced⟩ := built.replace_last
      refine ⟨.gap :: front, step, rfl, made, fun bound made' => .relative ?_ (replaced bound made')⟩
      rintro rfl
      exact compileStep_nil_ne_ok made'
  | cons seg segs =>
    cases h with
    | absolute _ built =>
      obtain ⟨front, step, rfl, made, replaced⟩ := built.replace_last
      exact ⟨front, step, rfl, made, fun bound made' => .absolute (by simp) (replaced bound made')⟩
    | @relative _ _ steps text built =>
      have built : Builds xpath true ((seg :: segs) ++ [last]) steps := built
      obtain ⟨front, step, rfl, made, replaced⟩ := built.replace_last
      exact ⟨.gap :: front, step, rfl, made, fun bound made' =>
        .relative text (replaced bound made')⟩

/-! ## Closing an expression and compiling it -/

/-- What stands at the ends of an expression that is closed up is not blank either. -/
theorem trimmed_closedUp (xpath : XPath) :
    xpath.closedUp.trimmed = xpath.trimmed ++ closingMarks xpath.trimmed := by
  have marks : ∀ c ∈ closingMarks xpath.trimmed, Text.isBlank c = false := by
    intro c hc
    rcases List.mem_append.1 hc with quoted | brackets
    · exact isBlank_of_isQuote ((reads_foldl {} _).mem_of_quoted rfl (Option.mem_toList.1 quoted)).1
    · rw [List.eq_of_mem_replicate brackets]
      decide
  rw [trimmed, closedUp, String.toList_ofList]
  exact ((Text.tight_trim _).append (.of_forall marks)).trim_eq

/-- An expression is joined from closed segments and a last one, at the end of which the scan stands. -/
structure EndsIn (xpath : XPath) (segs : List (List Char)) (last : List Char) (scan : Scan) : Prop where
  split : xpath.trimmed = joined segs last
  closed : ∀ seg ∈ segs, Closed ['/'] seg
  reads : Reads ['/'] scan {} last

theorem exists_endsIn (xpath : XPath) : ∃ segs last scan, xpath.EndsIn segs last scan := by
  obtain ⟨segs, last, scan, split, closed, reads⟩ := exists_joined xpath.trimmed
  exact ⟨segs, last, scan, split, closed, reads⟩

namespace EndsIn

theorem segments_eq (h : xpath.EndsIn segs last scan) : segments xpath.trimmed = segs ++ [last] := by
  rw [h.split, segments_joined h.closed h.reads]

theorem closed_iff (h : xpath.EndsIn segs last scan) :
    Closed [] xpath.trimmed ↔ Closed ['/'] last := by
  rw [h.split, closed_joined_iff h.closed h.reads]

theorem closingMarks_eq (h : xpath.EndsIn segs last scan) :
    closingMarks xpath.trimmed = scan.closing := by
  have ends := reads_foldl {} xpath.trimmed
  rw [h.split, reads_joined_iff h.closed] at ends
  rw [closingMarks, h.split, ends.unique h.reads]

/-- Closing an expression closes its last segment. -/
theorem closedUp (h : xpath.EndsIn segs last scan) :
    xpath.closedUp.EndsIn segs (last ++ scan.closing) {} where
  split := by rw [trimmed_closedUp, h.closingMarks_eq, h.split, joined_append]
  closed := h.closed
  reads := h.reads.append (reads_closing scan)

/-- The last segment ends like the expression, which is trimmed. -/
theorem not_blank (h : xpath.EndsIn segs last scan) :
    ∀ c ∈ last.getLast?, Text.isBlank c = false := by
  intro c hc
  have text : last ≠ [] := by
    rintro rfl
    cases hc
  rw [← getLast?_joined text, ← h.split] at hc
  exact (Text.tight_trim _).last c hc

/-- Two expressions that differ in their last segment only compile to patterns that differ in the last
step only. -/
theorem exists_compile (h : xpath.EndsIn segs last scan) (h' : xpath'.EndsIn segs last' scan')
    (bound : xpath'.namespaces = xpath.namespaces) (compiled : compile xpath = .ok pattern) :
    ∃ front step, pattern = ⟨front ++ [step]⟩ ∧ compileStep xpath last = .ok step ∧
      ∀ step', compileStep xpath' last' = .ok step' → compile xpath' = .ok ⟨front ++ [step']⟩ := by
  obtain ⟨steps⟩ := pattern
  have compiled := compile_eq_ok_iff.1 compiled
  rw [← trimmed, h.segments_eq] at compiled
  obtain ⟨front, step, rfl, made, replaced⟩ := compiled.replace_last
  refine ⟨front, step, rfl, made, fun step' made' => compile_eq_ok_iff.2 ?_⟩
  rw [← trimmed, h'.segments_eq]
  exact replaced bound made'

end EndsIn

theorem closed_closedUp (xpath : XPath) : Closed [] xpath.closedUp.trimmed := by
  obtain ⟨segs, last, scan, h⟩ := xpath.exists_endsIn
  exact h.closedUp.closed_iff.2 h.closedUp.reads.closed

/-- An expression that is closed by itself needs no marks. -/
theorem closingMarks_eq_nil_iff (xpath : XPath) :
    closingMarks xpath.trimmed = [] ↔ Closed [] xpath.trimmed := by
  have ends := reads_foldl {} xpath.trimmed
  rw [closingMarks, Scan.closing_eq_nil_iff, ← reads_expression_iff]
  constructor
  · intro outside
    rwa [outside] at ends
  · intro outside
    exact ends.unique outside

/-- Only failures mention the text of the expression. -/
theorem compileStep_closedUp_iff :
    compileStep xpath.closedUp seg = .ok step ↔ compileStep xpath seg = .ok step :=
  ⟨compileStep_congr rfl rfl, compileStep_congr rfl rfl⟩

/-- An expression is accepted exactly if it is once it is closed up. -/
theorem exists_compile_closedUp_iff (xpath : XPath) :
    (∃ pattern, compile xpath = .ok pattern) ↔ ∃ pattern, compile xpath.closedUp = .ok pattern := by
  obtain ⟨segs, last, scan, h⟩ := xpath.exists_endsIn
  have last_iff := exists_compileStep_closing xpath h.reads h.not_blank
  constructor
  · rintro ⟨pattern, compiled⟩
    obtain ⟨front, step, -, made, replaced⟩ := h.exists_compile h.closedUp rfl compiled
    obtain ⟨step', made'⟩ := last_iff.2 ⟨step, made⟩
    exact ⟨_, replaced step' (compileStep_closedUp_iff.2 made')⟩
  · rintro ⟨pattern, compiled⟩
    obtain ⟨front, step, -, made, replaced⟩ := h.closedUp.exists_compile h rfl compiled
    obtain ⟨step', made'⟩ := last_iff.1 ⟨step, compileStep_closedUp_iff.1 made⟩
    exact ⟨_, replaced step' made'⟩

/-- An expression that ends inside of a predicate compiles like the one that closes the predicate. -/
theorem compile_closedUp_iff (deep : ']' ∈ closingMarks xpath.trimmed) :
    compile xpath = .ok pattern ↔ compile xpath.closedUp = .ok pattern := by
  obtain ⟨segs, last, scan, h⟩ := xpath.exists_endsIn
  rw [h.closingMarks_eq] at deep
  constructor
  · intro compiled
    obtain ⟨front, step, rfl, made, replaced⟩ := h.exists_compile h.closedUp rfl compiled
    exact replaced step (compileStep_closedUp_iff.2 ((compileStep_closing h.reads deep).2 made))
  · intro compiled
    obtain ⟨front, step, rfl, made, replaced⟩ := h.closedUp.exists_compile h rfl compiled
    exact replaced step ((compileStep_closing h.reads deep).1 (compileStep_closedUp_iff.1 made))

/-! ## What is dropped -/

/-- Each segment of an expression with text has its own step in the pattern, in the same order, and the
slashes that do not separate segments are inside of closed predicates and literals. -/
def KeepsSteps (xpath : XPath) (pattern : ElementPattern) : Prop :=
  ∃ segs last, xpath.trimmed = joined segs last ∧ (∀ seg ∈ segs ++ [last], Closed ['/'] seg) ∧
    List.Forall₂ (fun seg step => compileStep xpath seg = .ok step)
      ((segs ++ [last]).filter (· ≠ [])) (pattern.steps.filter (· ≠ .gap))

theorem keepsSteps_of_closed (h : compile xpath = .ok pattern) (closed : Closed [] xpath.trimmed) :
    xpath.KeepsSteps pattern := by
  obtain ⟨segs, last, scan, ends⟩ := xpath.exists_endsIn
  have compiled := compile_eq_ok_iff.1 h
  rw [← trimmed, ends.segments_eq] at compiled
  have last_closed := List.forall_mem_singleton.2 (ends.closed_iff.1 closed)
  exact ⟨segs, last, ends.split, List.forall_mem_append.2 ⟨ends.closed, last_closed⟩, compiled.forall₂⟩

/-- An expression that ends inside of a predicate or a literal is accepted exactly if the one is that
closes what is open there, and what an open predicate holds is dropped with it.  If an expression is
closed by itself, none of its steps is dropped but those inside of predicates.  Whatever is refused is
refused as an invalid policy. -/
theorem compile_closedUp (xpath : XPath) :
    Closed [] xpath.closedUp.trimmed ∧
    (closingMarks xpath.trimmed = [] ↔ Closed [] xpath.trimmed) ∧
    ((∃ pattern, compile xpath = .ok pattern) ↔ ∃ pattern, compile xpath.closedUp = .ok pattern) ∧
    (']' ∈ closingMarks xpath.trimmed →
      ∀ pattern, compile xpath = .ok pattern ↔ compile xpath.closedUp = .ok pattern) ∧
    (∀ pattern, compile xpath = .ok pattern → Closed [] xpath.trimmed → xpath.KeepsSteps pattern) ∧
    ∀ e, compile xpath = .error e →
      Obligation.patternsOf ⟨[xpath]⟩ = .error (.invalidPolicy e.message) := by
  refine ⟨xpath.closed_closedUp, xpath.closingMarks_eq_nil_iff, xpath.exists_compile_closedUp_iff,
    fun deep _ => compile_closedUp_iff deep, fun _ h closed => keepsSteps_of_closed h closed,
    fun e refused => ?_⟩
  simp only [Obligation.patternsOf, List.mapM_cons, refused]
  rfl

/-- Asks for the orders in a body, with a predicate on the body that is never closed. -/
def bodyOpened : XPath := ⟨"/Body[1/Order", []⟩

/-- The orders are inside of the open predicate, and what is left asks for the body. -/
theorem compile_bodyOpened : compile bodyOpened = .ok ⟨[.name (some "") (some "Body")]⟩ := by
  rfl

/-- With the predicate closed it still asks for the body only. -/
theorem compile_closedUp_bodyOpened :
    bodyOpened.closedUp = ⟨"/Body[1/Order]", []⟩ ∧ Closed [] bodyOpened.closedUp.trimmed ∧
      compile bodyOpened.closedUp = .ok ⟨[.name (some "") (some "Body")]⟩ := by
  obtain ⟨closed, -, -, same, -⟩ := bodyOpened.compile_closedUp
  exact ⟨by rfl, closed, (same (by decide) _).1 compile_bodyOpened⟩

/-- An expression may be accepted although it is not closed. -/
theorem not_closed_of_compile :
    ¬ ∀ xpath pattern, compile xpath = .ok pattern → Closed [] xpath.trimmed := by
  intro all
  have outside := reads_expression_iff.2 (all bodyOpened _ compile_bodyOpened)
  revert outside
  decide

end SoapPolicy.XPath
