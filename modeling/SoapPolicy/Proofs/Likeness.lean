import Mathlib.Data.List.Forall2
import SoapPolicy.Proofs.Reading

/-!
# Evaluations that are alike

Two checks of one message may differ in what they remember and yet give the same answers from some
point on.  A *likeness* is a relation between obligations that the events of a message keep, so that
obligations which are alike answer every one of these events alike (`Likeness`).  It carries over to
candidates and to evaluations, whose obligations are alike one by one: they answer an event alike and
are alike after it (`Evaluation.Alike.observe`), and the same of them is satisfied, unmet and lost.

An evaluation *absorbs* an event if it lets the event pass and is like itself after it
(`Evaluation.Absorbs`).  It does so if all its obligations do (`Candidate.absorbs`,
`Evaluation.absorbs`).
-/

namespace SoapPolicy

/-! ## Obligations -/

/-- A relation between obligations that nobody can tell apart by the allowed events. -/
structure Likeness (r : Registry) (allowed : SecurityEvent → Prop)
    (ρ : Obligation → Obligation → Prop) : Prop where
  read : ∀ {o o' : Obligation}, ρ o o' → ∀ {event}, allowed event →
    (o.read r event).2 = (o'.read r event).2 ∧ ρ (o.read r event).1 (o'.read r event).1
  name : ∀ {o o' : Obligation}, ρ o o' → o.name = o'.name
  met : ∀ {o o' : Obligation}, ρ o o' → o.met = o'.met
  shortfall : ∀ {o o' : Obligation}, ρ o o' → o.shortfall = o'.shortfall

section
variable {r : Registry} {allowed : SecurityEvent → Prop} {ρ : Obligation → Obligation → Prop}
  {event : SecurityEvent}

/-- What holds of obligations, and is kept by the events that they read, is a likeness. -/
theorem Likeness.of_kept {P : Obligation → Prop}
    (kept : ∀ {o : Obligation} {event : SecurityEvent}, P o → allowed event →
      P (o.read r event).1) :
    Likeness r allowed fun o o' => o = o' ∧ P o where
  read := by
    rintro o _ ⟨rfl, ho⟩ event ok
    exact ⟨rfl, rfl, kept ho ok⟩
  name h := congrArg Obligation.name h.1
  met h := congrArg Obligation.met h.1
  shortfall h := congrArg Obligation.shortfall h.1

/-! ## Candidates -/

namespace Candidate

/-- The obligations are alike one by one, and both alternatives are open or lost alike. -/
structure Alike (ρ : Obligation → Obligation → Prop) (c c' : Candidate) : Prop where
  obligations : List.Forall₂ ρ c.obligations c'.obligations
  retired : c.retired = c'.retired

theorem Alike.isViable {c c' : Candidate} (h : Alike ρ c c') : c.isViable = c'.isViable := by
  rw [Candidate.isViable, Candidate.isViable, h.retired]

theorem alike_self_iff {c : Candidate} : Alike ρ c c ↔ ∀ o ∈ c.obligations, ρ o o :=
  ⟨fun h => List.forall₂_same.1 h.obligations, fun h => ⟨List.forall₂_same.2 h, rfl⟩⟩

theorem observeAll_alike (likeness : Likeness r allowed ρ) (ok : allowed event)
    {os os' : List Obligation} (h : List.Forall₂ ρ os os') :
    (observeAll r event os).2 = (observeAll r event os').2 ∧
      List.Forall₂ ρ (observeAll r event os).1 (observeAll r event os').1 := by
  induction h with
  | nil => exact ⟨rfl, .nil⟩
  | @cons o o' os os' head tail ih =>
    obtain ⟨same, after⟩ := likeness.read head ok
    rw [observeAll_cons, observeAll_cons]
    generalize o.read r event = step, o'.read r event = step' at same after
    obtain ⟨o₁, answer⟩ := step
    obtain ⟨o₁', answer'⟩ := step'
    obtain rfl : answer = answer' := same
    rcases answer with f | _ | why
    · exact ⟨rfl, .cons after tail⟩
    · exact ⟨ih.1, .cons after ih.2⟩
    · exact ⟨rfl, .cons after tail⟩

theorem Alike.observe (likeness : Likeness r allowed ρ) {c c' : Candidate} (h : Alike ρ c c')
    (ok : allowed event) :
    (c.observe r event).2 = (c'.observe r event).2 ∧
      Alike ρ (c.observe r event).1 (c'.observe r event).1 := by
  obtain ⟨os, retired⟩ := c
  obtain ⟨os', retired'⟩ := c'
  obtain ⟨obligations, same⟩ := h
  obtain rfl : retired = retired' := same
  cases retired with
  | some why =>
    rw [observe_of_retired rfl, observe_of_retired rfl]
    exact ⟨rfl, obligations, rfl⟩
  | none =>
    obtain ⟨answer, after⟩ := observeAll_alike likeness ok obligations
    rw [observe_snd_of_open, observe_snd_of_open, observe_fst_of_open, observe_fst_of_open, answer]
    exact ⟨rfl, after, rfl⟩

/-- A candidate absorbs an event if all its obligations do. -/
theorem absorbs {c : Candidate} (h : Alike ρ c c)
    (each : c.isViable = true → ∀ o ∈ c.obligations,
      (o.read r event).2 = .ok none ∧ ρ o (o.read r event).1) :
    (c.observe r event).2 = .ok none ∧ Alike ρ c (c.observe r event).1 := by
  obtain ⟨os, _ | why⟩ := c
  · have quiet : ∀ o ∈ os, (o.read r event).2 = .ok none := fun o ho => (each rfl o ho).1
    rw [observe_snd_of_open, observe_fst_of_open, observeAll_quiet_iff.2 quiet,
      observeAll_fst_of_quiet quiet]
    refine ⟨rfl, ?_, rfl⟩
    rw [List.forall₂_map_right_iff, List.forall₂_same]
    exact fun o ho => (each rfl o ho).2
  · rw [observe_of_retired rfl]
    exact ⟨rfl, h⟩

end Candidate

/-! ## Evaluations -/

namespace Evaluation

/-- The candidates are alike one by one, and the last loss is the same. -/
structure Alike (ρ : Obligation → Obligation → Prop) (ev ev' : Evaluation) : Prop where
  candidates : List.Forall₂ (Candidate.Alike ρ) ev.candidates ev'.candidates
  lastLoss : ev.lastLoss = ev'.lastLoss

theorem observeAll_alike (likeness : Likeness r allowed ρ) (ok : allowed event)
    {cs cs' : List Candidate} (h : List.Forall₂ (Candidate.Alike ρ) cs cs') :
    (observeAll r event cs).2 = (observeAll r event cs').2 ∧
      List.Forall₂ (Candidate.Alike ρ) (observeAll r event cs).1 (observeAll r event cs').1 := by
  induction h with
  | nil => exact ⟨rfl, .nil⟩
  | @cons c c' cs cs' head tail ih =>
    obtain ⟨same, after⟩ := head.observe likeness ok
    rw [observeAll, observeAll]
    generalize c.observe r event = step, c'.observe r event = step' at same after
    obtain ⟨c₁, answer⟩ := step
    obtain ⟨c₁', answer'⟩ := step'
    obtain rfl : answer = answer' := same
    cases answer with
    | error f => exact ⟨rfl, .cons after tail⟩
    | ok why =>
      exact ⟨congrArg (fun answer => (answer.1.or why, answer.2)) ih.1, .cons after ih.2⟩

namespace Alike

variable {ev ev' : Evaluation}

theorem viable (h : Alike ρ ev ev') :
    List.Forall₂ (Candidate.Alike ρ) ev.viable ev'.viable :=
  List.rel_filter (fun _ _ alike => Bool.eq_iff_iff.1 alike.isViable) h.candidates

theorem viable_isEmpty (h : Alike ρ ev ev') : ev.viable.isEmpty = ev'.viable.isEmpty := by
  have same := h.viable
  generalize ev.viable = cs, ev'.viable = cs' at same
  cases same with
  | nil => rfl
  | cons => rfl

/-- Evaluations that are alike answer an event alike, and are alike after it. -/
theorem observe (likeness : Likeness r allowed ρ) (h : Alike ρ ev ev') (ok : allowed event) :
    (ev.observe r event).2 = (ev'.observe r event).2 ∧
      Alike ρ (ev.observe r event).1 (ev'.observe r event).1 := by
  obtain ⟨same, candidates⟩ := observeAll_alike likeness ok h.candidates
  have after : Alike ρ (ev.observe r event).1 (ev'.observe r event).1 := by
    rw [observe_fst, observe_fst]
    exact ⟨candidates, by rw [same, h.lastLoss]⟩
  refine ⟨?_, after⟩
  rw [observe_snd, observe_snd, same, h.viable_isEmpty, after.viable_isEmpty, after.lastLoss]

/-- The obligations that are not met are alike. -/
theorem unmet (likeness : Likeness r allowed ρ) (h : Alike ρ ev ev') :
    List.Forall₂ ρ ev.unmet ev'.unmet :=
  List.rel_filter (fun _ _ alike => by simp only [likeness.met alike])
    (List.rel_flatMap h.viable fun _ _ alike => alike.obligations)

theorem isSatisfied (likeness : Likeness r allowed ρ) (h : Alike ρ ev ev') :
    ev.isSatisfied = ev'.isSatisfied := by
  have all_met {os os' : List Obligation} (same : List.Forall₂ ρ os os') :
      os.all Obligation.met = os'.all Obligation.met := by
    induction same with
    | nil => rfl
    | cons head _ ih => rw [List.all_cons, List.all_cons, likeness.met head, ih]
  have some_met {cs cs' : List Candidate} (same : List.Forall₂ (Candidate.Alike ρ) cs cs') :
      cs.any Candidate.isMet = cs'.any Candidate.isMet := by
    induction same with
    | nil => rfl
    | cons head _ ih =>
      rw [List.any_cons, List.any_cons, ih, Candidate.isMet, Candidate.isMet,
        all_met head.obligations]
  exact some_met h.viable

/-- The violation to report is the same. -/
theorem violation (likeness : Likeness r allowed ρ) (h : Alike ρ ev ev') :
    ev.violation = ev'.violation := by
  have empty : ev.candidates.isEmpty = ev'.candidates.isEmpty := by
    have same := h.candidates
    generalize ev.candidates = cs, ev'.candidates = cs' at same
    cases same with
    | nil => rfl
    | cons => rfl
  have unmet := h.unmet likeness
  rw [Evaluation.violation, Evaluation.violation, empty, h.lastLoss]
  generalize ev.unmet = os, ev'.unmet = os' at unmet
  cases unmet with
  | nil => rfl
  | cons head => simp only [likeness.name head, likeness.shortfall head]

/-- The same obligations are met. -/
theorem map_met (likeness : Likeness r allowed ρ) (h : Alike ρ ev ev') :
    ev.candidates.map (fun c => c.obligations.map Obligation.met) =
      ev'.candidates.map fun c => c.obligations.map Obligation.met := by
  have each {os os' : List Obligation} (same : List.Forall₂ ρ os os') :
      os.map Obligation.met = os'.map Obligation.met := by
    induction same with
    | nil => rfl
    | cons head _ ih => rw [List.map_cons, List.map_cons, likeness.met head, ih]
  have candidates := h.candidates
  generalize ev.candidates = cs, ev'.candidates = cs' at candidates
  induction candidates with
  | nil => rfl
  | cons head _ ih => rw [List.map_cons, List.map_cons, each head.obligations, ih]

end Alike

/-- An evaluation lets an event pass and is like itself after it. -/
structure Absorbs (r : Registry) (ρ : Obligation → Obligation → Prop) (event : SecurityEvent)
    (ev : Evaluation) : Prop where
  passes : (ev.observe r event).2 = .ok none
  alike : Alike ρ ev (ev.observe r event).1

/-- An evaluation absorbs an event if all its candidates do. -/
theorem absorbs {ev : Evaluation}
    (each : ∀ c ∈ ev.candidates,
      (c.observe r event).2 = .ok none ∧ Candidate.Alike ρ c (c.observe r event).1) :
    Absorbs r ρ event ev := by
  have unread : ∀ cs : List Candidate, (∀ c ∈ cs, (c.observe r event).2 = .ok none) →
      (observeAll r event cs).2.1 = none := by
    intro cs
    induction cs with
    | nil => exact fun _ => rfl
    | cons c cs ih =>
      intro quiet
      obtain ⟨hc, hcs⟩ := List.forall_mem_cons.1 quiet
      have head : c.observe r event = ((c.observe r event).1, .ok none) := Prod.ext rfl hc
      rw [observeAll, head]
      dsimp only
      rw [ih hcs]
      rfl
  obtain ⟨candidates, unfailing⟩ :=
    observeAll_candidates fun c hc => ⟨none, (each c hc).1⟩
  have silent := unread ev.candidates fun c hc => (each c hc).1
  have after : Alike ρ ev (ev.observe r event).1 := by
    rw [observe_fst, candidates, silent]
    refine ⟨?_, rfl⟩
    rw [List.forall₂_map_right_iff, List.forall₂_same]
    exact fun c hc => (each c hc).2
  refine ⟨?_, after⟩
  rw [observe_snd, unfailing, ← after.viable_isEmpty]
  simp

/-! ## What all obligations have -/

/-- Every obligation of every alternative has a property. -/
def Each (P : Obligation → Prop) (ev : Evaluation) : Prop :=
  ∀ c ∈ ev.candidates, ∀ o ∈ c.obligations, P o

/-- An evaluation is like itself if each of its obligations is. -/
theorem alike_self_iff {ev : Evaluation} : Alike ρ ev ev ↔ ev.Each fun o => ρ o o := by
  constructor
  · intro h c hc
    exact Candidate.alike_self_iff.1 (List.forall₂_same.1 h.candidates c hc)
  · intro h
    exact ⟨List.forall₂_same.2 fun c hc => Candidate.alike_self_iff.2 (h c hc), rfl⟩

/-- What an event keeps of every obligation, all obligations have after it. -/
theorem Each.observe {P : Obligation → Prop} {ev : Evaluation} (h : ev.Each P)
    (kept : ∀ {o : Obligation}, P o → P (o.read r event).1) : (ev.observe r event).1.Each P := by
  have likeness : Likeness r (· = event) fun o o' => o = o' ∧ P o :=
    .of_kept fun ho same => same ▸ kept ho
  have alike : Alike (fun o o' => o = o' ∧ P o) ev ev :=
    alike_self_iff.2 fun c hc o ho => ⟨rfl, h c hc o ho⟩
  have after := alike_self_iff.1 (alike.observe likeness rfl).2
  exact fun c hc o ho => (after c hc o ho).2

end Evaluation

end

end SoapPolicy
