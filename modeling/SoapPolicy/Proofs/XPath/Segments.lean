import SoapPolicy.XPath.Compile

/-!
# Segments and the text in them

`Closed` says of a text, without scanning it, that each literal in it ends with the quote it begins
with, and that each predicate outside of literals is closed by a bracket of its own.  The text between
them is free, up to the characters that must not stand there: a slash in a segment, a closing bracket
in the body of a predicate.

A scan reads a text from one standing to another (`Reads`).  It reads a closed text from the outside to
the outside without meeting a slash there (`reads_iff_closed`).  So an expression is cut where segments
are joined, and nowhere else (`segments_joined`), and every expression is joined from closed segments
and a last one, which may be open (`exists_joined`).
-/

namespace SoapPolicy.XPath

variable {stops cs ds seg rest last : List Char} {segs : List (List Char)} {scan scan' mid : Scan}
  {c q : Char} {d : Nat}

/-! ## Closed texts -/

/-- The marks around a literal. -/
def IsQuote (c : Char) : Prop :=
  c = '\'' ∨ c = '"'

instance : DecidablePred IsQuote :=
  fun _ => inferInstanceAs (Decidable (_ ∨ _))

/-- Literals and predicates of a text are closed, and no stop stands outside of them.  A predicate has
no closing bracket before its own, unless in a literal or in a predicate inside of it. -/
inductive Closed : List Char → List Char → Prop where
  | nil {stops : List Char} : Closed stops []
  | char {stops cs : List Char} {c : Char} :
    c ∉ stops → ¬ IsQuote c → c ≠ '[' → Closed stops cs → Closed stops (c :: cs)
  | literal {stops content cs : List Char} {q : Char} :
    IsQuote q → q ∉ content → Closed stops cs → Closed stops (q :: (content ++ q :: cs))
  | predicate {stops body cs : List Char} :
    Closed [']'] body → Closed stops cs → Closed stops ('[' :: (body ++ ']' :: cs))

/-! ## Scans -/

namespace Scan

theorem isOutside_iff : scan.isOutside = true ↔ scan = {} := by
  cases scan
  simp [isOutside]

theorem next_end (d : Nat) (q : Char) : next ⟨some q, d⟩ q = ⟨none, d⟩ := if_pos rfl

theorem next_inside (d : Nat) (other : c ≠ q) : next ⟨some q, d⟩ c = ⟨some q, d⟩ := if_neg other

theorem next_quote (d : Nat) (quote : IsQuote q) : next ⟨none, d⟩ q = ⟨some q, d⟩ := by
  rcases quote with rfl | rfl <;> rfl

theorem next_open (d : Nat) : next ⟨none, d⟩ '[' = ⟨none, d + 1⟩ := rfl

theorem next_close (d : Nat) : next ⟨none, d⟩ ']' = ⟨none, d - 1⟩ := rfl

theorem next_other (d : Nat) (quote : ¬ IsQuote c) (opens : c ≠ '[') (closes : c ≠ ']') :
    next ⟨none, d⟩ c = ⟨none, d⟩ := by
  rw [IsQuote, not_or] at quote
  simp [next, quote, opens, closes]

end Scan

/-- Reading a text leads from one scan to another, and meets no stop outside of literals and
predicates. -/
inductive Reads (stops : List Char) (scan' : Scan) : Scan → List Char → Prop where
  | nil : Reads stops scan' scan' []
  | cons {scan : Scan} {c : Char} {cs : List Char} :
    (scan = {} → c ∉ stops) → Reads stops scan' (scan.next c) cs → Reads stops scan' scan (c :: cs)

namespace Reads

theorem append (first : Reads stops mid scan cs) (second : Reads stops scan' mid ds) :
    Reads stops scan' scan (cs ++ ds) := by
  induction first with
  | nil => exact second
  | cons clear _ ih => exact .cons clear ih

/-- What is left of a text is read from where the scan stands by then. -/
theorem of_append {stops' : List Char} (first : Reads stops' mid scan cs)
    (both : Reads stops scan' scan (cs ++ ds)) : Reads stops scan' mid ds := by
  induction first with
  | nil => exact both
  | cons _ _ ih =>
    cases both with
    | cons _ more => exact ih more

/-- A text leads to one scan only. -/
theorem unique {stops' : List Char} (h : Reads stops mid scan cs) (h' : Reads stops' scan' scan cs) :
    mid = scan' := by
  have nothing : Reads stops' scan' mid [] := h.of_append (by rwa [List.append_nil])
  cases nothing
  rfl

theorem mono (h : Reads stops scan' scan cs) : Reads [] scan' scan cs := by
  induction h with
  | nil => exact .nil
  | cons _ _ ih => exact .cons (fun _ => List.not_mem_nil) ih

/-- A literal is read to its end whatever is in it. -/
theorem literal (d : Nat) (content : q ∉ cs) (more : Reads stops scan' ⟨none, d⟩ ds) :
    Reads stops scan' ⟨some q, d⟩ (cs ++ q :: ds) := by
  have inside (c : Char) : (⟨some q, d⟩ : Scan) = {} → c ∉ stops := fun h => by cases h
  induction cs with
  | nil => exact .cons (inside q) (by rwa [Scan.next_end])
  | cons c cs ih =>
    obtain ⟨other, content⟩ := List.ne_and_not_mem_of_not_mem_cons content
    exact .cons (inside c) (by rw [Scan.next_inside d (Ne.symm other)]; exact ih content)

/-- A scan that gets out of a literal has met the quote that ends it. -/
theorem exists_end (h : Reads stops {} ⟨some q, d⟩ cs) :
    ∃ content ds, cs = content ++ q :: ds ∧ q ∉ content ∧ Reads stops {} ⟨none, d⟩ ds := by
  induction cs with
  | nil => cases h
  | cons c cs ih =>
    cases h with
    | cons _ more =>
      by_cases same : c = q
      · subst same
        rw [Scan.next_end] at more
        exact ⟨[], cs, rfl, List.not_mem_nil, more⟩
      · rw [Scan.next_inside d same] at more
        obtain ⟨content, ds, rfl, outside, rest⟩ := ih more
        exact ⟨c :: content, ds, rfl, List.not_mem_cons_of_ne_of_not_mem (Ne.symm same) outside, rest⟩

end Reads

/-- Whether a text leads from one scan to another is found by reading it. -/
instance Reads.decidable (stops : List Char) (scan' : Scan) :
    ∀ scan cs, Decidable (Reads stops scan' scan cs)
  | scan, [] =>
    decidable_of_iff (scan = scan') ⟨fun same => same ▸ .nil, fun h => by cases h; rfl⟩
  | scan, c :: cs =>
    have := Reads.decidable stops scan' (scan.next c) cs
    decidable_of_iff ((scan = {} → c ∉ stops) ∧ Reads stops scan' (scan.next c) cs)
      ⟨fun ⟨clear, more⟩ => .cons clear more, fun | .cons clear more => ⟨clear, more⟩⟩

/-! ## Closed texts are read from the outside to the outside -/

/-- A closed text leaves the scan where it was.  Inside of a predicate it must not close that
predicate, and outside it must not have a stop. -/
theorem Closed.reads {stops' : List Char} (h : Closed stops cs) (inside : d ≠ 0 → ']' ∈ stops)
    (outside : d = 0 → stops' ⊆ stops) (plain : ∀ c ∈ stops', ¬ IsQuote c ∧ c ≠ '[') :
    Reads stops' ⟨none, d⟩ ⟨none, d⟩ cs := by
  induction h generalizing d with
  | nil => exact .nil
  | @char stops cs c clear quote opens _ ih =>
    refine .cons (fun start => ?_) ?_
    · cases start
      exact fun stop => clear (outside rfl stop)
    · by_cases closes : c = ']'
      · -- a closing bracket that is no stop stands outside, where it closes nothing
        obtain rfl : d = 0 := Decidable.byContradiction fun deep => clear (closes ▸ inside deep)
        rw [closes, Scan.next_close]
        exact ih inside outside
      · rw [Scan.next_other d quote opens closes]
        exact ih inside outside
  | @literal stops content cs q quote free _ ih =>
    refine .cons (fun _ stop => (plain q stop).1 quote) ?_
    rw [Scan.next_quote d quote]
    exact .literal d free (ih inside outside)
  | @predicate stops body cs _ _ ihBody ih =>
    refine .cons (fun _ stop => (plain '[' stop).2 rfl) ?_
    rw [Scan.next_open]
    have body := ihBody (d := d + 1) (fun _ => .head _) (fun h => absurd h (Nat.succ_ne_zero d))
    refine body.append (.cons (fun h => by cases h) ?_)
    rw [Scan.next_close]
    exact ih inside outside

/-- A scan that gets out of a predicate has met the bracket that closes it. -/
theorem Reads.exists_close (h : Reads stops {} ⟨none, d + 1⟩ cs) :
    ∃ body ds, cs = body ++ ']' :: ds ∧ Closed [']'] body ∧ Reads stops {} ⟨none, d⟩ ds := by
  -- a predicate inside of this one comes first, so the induction is on the length
  induction length : cs.length using Nat.strongRecOn generalizing cs d with
  | ind n ih =>
    subst length
    cases h with
    | @cons _ c cs _ more =>
      by_cases quote : IsQuote c
      · rw [Scan.next_quote _ quote] at more
        obtain ⟨content, ds, rfl, free, rest⟩ := more.exists_end
        obtain ⟨body, ds, rfl, closed, rest⟩ := ih ds.length (by simp; omega) rest rfl
        exact ⟨c :: (content ++ c :: body), ds, by simp, .literal quote free closed, rest⟩
      by_cases opens : c = '['
      · rw [opens, Scan.next_open] at more
        obtain ⟨inner, ds, rfl, closedInner, rest⟩ := ih cs.length (by simp) more rfl
        obtain ⟨body, ds, rfl, closed, rest⟩ := ih ds.length (by simp; omega) rest rfl
        exact ⟨'[' :: (inner ++ ']' :: body), ds, by simp [opens], .predicate closedInner closed, rest⟩
      by_cases closes : c = ']'
      · rw [closes, Scan.next_close] at more
        exact ⟨[], cs, by rw [closes]; rfl, .nil, more⟩
      · rw [Scan.next_other _ quote opens closes] at more
        obtain ⟨body, ds, rfl, closed, rest⟩ := ih cs.length (by simp) more rfl
        exact ⟨c :: body, ds, rfl, .char (by simpa using closes) quote opens closed, rest⟩

theorem Reads.closed (h : Reads stops {} {} cs) : Closed stops cs := by
  induction length : cs.length using Nat.strongRecOn generalizing cs with
  | ind n ih =>
    subst length
    cases h with
    | nil => exact .nil
    | @cons _ c cs clear more =>
      by_cases quote : IsQuote c
      · rw [Scan.next_quote 0 quote] at more
        obtain ⟨content, ds, rfl, free, rest⟩ := more.exists_end
        exact .literal quote free (ih ds.length (by simp; omega) rest rfl)
      by_cases opens : c = '['
      · rw [opens, Scan.next_open] at more
        obtain ⟨body, ds, rfl, closed, rest⟩ := more.exists_close
        exact opens ▸ .predicate closed (ih ds.length (by simp; omega) rest rfl)
      refine .char (clear rfl) quote opens (ih cs.length (by simp) ?_ rfl)
      by_cases closes : c = ']'
      · rwa [closes, Scan.next_close] at more
      · rwa [Scan.next_other 0 quote opens closes] at more

/-- The closed texts are what a scan reads from the outside to the outside. -/
theorem reads_iff_closed (plain : ∀ c ∈ stops, ¬ IsQuote c ∧ c ≠ '[') :
    Reads stops {} {} cs ↔ Closed stops cs :=
  ⟨Reads.closed, fun h => h.reads (fun h => absurd rfl h) (fun _ => List.Subset.refl _) plain⟩

/-! ## Segments -/

/-- Segments, each with a slash after it, and the last one. -/
def joined (segs : List (List Char)) (last : List Char) : List Char :=
  segs.foldr (fun seg rest => seg ++ '/' :: rest) last

@[simp] theorem joined_nil (last : List Char) : joined [] last = last := rfl

@[simp] theorem joined_cons (seg : List Char) (segs : List (List Char)) (last : List Char) :
    joined (seg :: segs) last = seg ++ '/' :: joined segs last := rfl

theorem joined_append (segs : List (List Char)) (last cs : List Char) :
    joined segs last ++ cs = joined segs (last ++ cs) := by
  induction segs with
  | nil => rfl
  | cons seg segs ih => simp [ih]

theorem getLast?_joined (text : last ≠ []) : (joined segs last).getLast? = last.getLast? := by
  have ends := List.getLast?_eq_some_getLast text
  induction segs with
  | nil => rfl
  | cons seg segs ih =>
    rw [joined_cons, List.getLast?_append, List.getLast?_cons, ih, ends]
    rfl

/-- A character that is no slash on the outside belongs to the first segment. -/
theorem segmentsFrom_cons (clear : scan = {} → c ∉ ['/']) (cs : List Char) :
    segmentsFrom scan (c :: cs) = extendFirst c (segmentsFrom (scan.next c) cs) := by
  refine if_neg ?_
  rw [Bool.and_eq_true, Scan.isOutside_iff, decide_eq_true_eq]
  rintro ⟨slash, start⟩
  exact clear start (List.mem_singleton.2 slash)

/-- A text without a slash on the outside is one segment. -/
theorem segmentsFrom_of_reads (h : Reads ['/'] scan' scan cs) : segmentsFrom scan cs = [cs] := by
  induction h with
  | nil => rfl
  | cons clear _ ih =>
    rw [segmentsFrom_cons clear, ih]
    rfl

/-- A slash on the outside ends a segment. -/
theorem segmentsFrom_cut (h : Reads ['/'] {} scan seg) (rest : List Char) :
    segmentsFrom scan (seg ++ '/' :: rest) = seg :: segments rest := by
  induction h with
  | nil => rfl
  | cons clear _ ih =>
    rw [List.cons_append, segmentsFrom_cons clear, ih]
    rfl

theorem reads_segment_iff : Reads ['/'] {} {} seg ↔ Closed ['/'] seg := by
  refine reads_iff_closed fun c slash => ?_
  obtain rfl := List.mem_singleton.1 slash
  decide

theorem reads_expression_iff : Reads [] {} {} cs ↔ Closed [] cs :=
  reads_iff_closed fun _ h => absurd h List.not_mem_nil

/-- An expression is cut where its segments are joined. -/
theorem segments_joined (closed : ∀ seg ∈ segs, Closed ['/'] seg) (h : Reads ['/'] scan' {} last) :
    segments (joined segs last) = segs ++ [last] := by
  induction segs with
  | nil => exact segmentsFrom_of_reads h
  | cons seg segs ih =>
    obtain ⟨first, others⟩ := List.forall_mem_cons.1 closed
    rw [joined_cons, segments, segmentsFrom_cut (reads_segment_iff.2 first), ih others]
    rfl

/-- A text has no slash on the outside, or there is a first one. -/
theorem exists_cut (scan : Scan) (cs : List Char) :
    (∃ scan', Reads ['/'] scan' scan cs) ∨
      ∃ seg rest, cs = seg ++ '/' :: rest ∧ Reads ['/'] {} scan seg := by
  induction cs generalizing scan with
  | nil => exact .inl ⟨scan, .nil⟩
  | cons c cs ih =>
    by_cases slash : scan = {} ∧ c ∈ ['/']
    · obtain ⟨rfl, slash⟩ := slash
      exact .inr ⟨[], cs, by rw [List.mem_singleton.1 slash]; rfl, .nil⟩
    · have clear : scan = {} → c ∉ ['/'] := fun start hc => slash ⟨start, hc⟩
      rcases ih (scan.next c) with ⟨scan', more⟩ | ⟨seg, rest, rfl, more⟩
      · exact .inl ⟨scan', .cons clear more⟩
      · exact .inr ⟨c :: seg, rest, rfl, .cons clear more⟩

/-- Every expression is joined from closed segments and a last one, which may be open. -/
theorem exists_joined (cs : List Char) :
    ∃ segs last scan', cs = joined segs last ∧ (∀ seg ∈ segs, Closed ['/'] seg) ∧
      Reads ['/'] scan' {} last := by
  induction length : cs.length using Nat.strongRecOn generalizing cs with
  | ind n ih =>
    subst length
    rcases exists_cut {} cs with ⟨scan', whole⟩ | ⟨seg, rest, rfl, first⟩
    · exact ⟨[], cs, scan', rfl, fun _ h => absurd h List.not_mem_nil, whole⟩
    · obtain ⟨segs, last, scan', rfl, closed, reads⟩ := ih rest.length (by simp; omega) rest rfl
      exact ⟨seg :: segs, last, scan', rfl, List.forall_mem_cons.2 ⟨first.closed, closed⟩, reads⟩

/-- Closed segments leave it to the last one where a scan ends. -/
theorem reads_joined_iff (closed : ∀ seg ∈ segs, Closed ['/'] seg) :
    Reads [] scan' {} (joined segs last) ↔ Reads [] scan' {} last := by
  induction segs with
  | nil => rfl
  | cons seg segs ih =>
    obtain ⟨first, others⟩ := List.forall_mem_cons.1 closed
    have slash : Reads [] {} {} ['/'] := .cons (fun _ => List.not_mem_nil) .nil
    have cut := (reads_segment_iff.2 first).mono.append slash
    rw [joined_cons, ← ih others, ← List.singleton_append, ← List.append_assoc]
    exact ⟨cut.of_append, cut.append⟩

/-- An expression of closed segments is closed exactly if its last one is. -/
theorem closed_joined_iff (closed : ∀ seg ∈ segs, Closed ['/'] seg)
    (h : Reads ['/'] scan' {} last) : Closed [] (joined segs last) ↔ Closed ['/'] last := by
  rw [← reads_expression_iff, reads_joined_iff closed, ← reads_segment_iff]
  constructor
  · intro ends
    rwa [← ends.unique h] at h
  · exact Reads.mono

end SoapPolicy.XPath
