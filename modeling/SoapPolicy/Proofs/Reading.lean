import Mathlib.Data.List.Forall2
import SoapPolicy.Evaluation
import SoapPolicy.Proofs.Failures

/-!
# What one event does

An event goes to the obligations of every open candidate.  `Obligation.read` is what it does to one
of them, whether or not the obligation reads events of its kind, and the reading of a candidate and
of a whole policy are described in terms of it:

* the obligations of a candidate that stays open have each read the event (`observeAll_fst_of_quiet`),
  and any other answer is the answer of one obligation (`exists_read_of_observeAll`),
* candidates do not see each other, so as long as nothing fails a policy reads an event candidate by
  candidate (`Evaluation.observe_candidates`),
* a candidate that is lost stays lost, and once all are lost an event does nothing at all
  (`Evaluation.observe_of_viable_eq_nil`).
-/

namespace SoapPolicy

/-! ## Obligations -/

/-- The shortfall of a fatal outcome. -/
def Outcome.loss? : Outcome → Option Shortfall
  | fatal why => some why
  | _ => none

theorem Outcome.loss?_eq_none_iff {outcome : Outcome} :
    outcome.loss? = none ↔ ¬ outcome.isFatal = true := by
  cases outcome <;> simp [loss?, isFatal]

/-- What an event does to an obligation of an open candidate.  An event of a kind that the obligation
does not read passes it by.  The answer is the shortfall that breaks the obligation for good. -/
def Obligation.read (r : Registry) (event : SecurityEvent) (o : Obligation) :
    Obligation × Except Failure (Option Shortfall) :=
  if o.kinds.contains event.kind then
    ((o.hear r event).1, (o.hear r event).2.map Outcome.loss?)
  else (o, .ok none)

namespace Obligation

variable {r : Registry} {event : SecurityEvent} {o : Obligation}

theorem read_of_mem (h : event.kind ∈ o.kinds) :
    o.read r event = ((o.hear r event).1, (o.hear r event).2.map Outcome.loss?) := by
  rw [read, if_pos (List.contains_iff_mem.2 h)]

theorem read_of_not_mem (h : event.kind ∉ o.kinds) : o.read r event = (o, .ok none) := by
  rw [read, if_neg (mt List.contains_iff_mem.1 h)]

theorem read_onlyContract (r : Registry) (event : SecurityEvent) (o : Obligation) :
    OnlyContract (o.read r event).2 := by
  by_cases reads : event.kind ∈ o.kinds
  · rw [read_of_mem reads]
    exact (o.hear_onlyContract r event).map Outcome.loss?
  · rw [read_of_not_mem reads]
    exact FailsOnly.ok none

end Obligation

namespace Candidate

variable {r : Registry} {event : SecurityEvent}

/-! ## Candidates -/

/-- The obligations of a candidate read an event from the first on, up to the first answer that is
more than a pass. -/
theorem observeAll_cons (r : Registry) (event : SecurityEvent) (o : Obligation)
    (os : List Obligation) :
    observeAll r event (o :: os) =
      match o.read r event with
      | (o', .ok none) => (o' :: (observeAll r event os).1, (observeAll r event os).2)
      | (o', answer) => (o' :: os, answer) := by
  rw [observeAll, Obligation.read]
  split
  · rcases o.hear r event with ⟨o', f | _ | why | why⟩ <;> rfl
  · rfl

/-- A candidate stays open exactly if every obligation lets the event pass. -/
theorem observeAll_quiet_iff {os : List Obligation} :
    (observeAll r event os).2 = .ok none ↔ ∀ o ∈ os, (o.read r event).2 = .ok none := by
  induction os with
  | nil => simp [observeAll]
  | cons o os ih =>
    rw [observeAll_cons, List.forall_mem_cons, ← ih]
    rcases o.read r event with ⟨o', f | _ | why⟩ <;> simp

/-- The obligations of a candidate that stays open have each read the event. -/
theorem observeAll_fst_of_quiet {os : List Obligation}
    (quiet : ∀ o ∈ os, (o.read r event).2 = .ok none) :
    (observeAll r event os).1 = os.map fun o => (o.read r event).1 := by
  induction os with
  | nil => rfl
  | cons o os ih =>
    obtain ⟨ho, hos⟩ := List.forall_mem_cons.1 quiet
    have head : o.read r event = ((o.read r event).1, .ok none) := Prod.ext rfl ho
    rw [observeAll_cons, head, List.map_cons, ← ih hos]

/-- An answer that is more than a pass is the answer of one obligation. -/
theorem exists_read_of_observeAll {os : List Obligation} {answer : Except Failure (Option Shortfall)}
    (h : (observeAll r event os).2 = answer) (loud : answer ≠ .ok none) :
    ∃ o ∈ os, (o.read r event).2 = answer := by
  induction os with
  | nil => exact absurd h.symm loud
  | cons o os ih =>
    rw [observeAll_cons] at h
    rcases ho : o.read r event with ⟨o', f | _ | why⟩ <;> rw [ho] at h
    · exact ⟨o, .head _, by rw [ho]; exact h⟩
    · obtain ⟨found, hmem, hread⟩ := ih h
      exact ⟨found, .tail _ hmem, hread⟩
    · exact ⟨o, .head _, by rw [ho]; exact h⟩

/-- A candidate that is lost reads no more. -/
theorem observe_of_retired {c : Candidate} (h : c.isViable = false) :
    c.observe r event = (c, .ok none) := by
  rw [observe, h]
  rfl

/-- What an open candidate answers is what its obligations answer. -/
theorem observe_snd_of_open (os : List Obligation) :
    (observe r event ⟨os, none⟩).2 = (observeAll r event os).2 := by
  simp only [observe, isViable, Option.isNone_none, if_true]
  rcases observeAll r event os with ⟨os', f | why⟩ <;> rfl

/-- An open candidate is lost by a shortfall, and stays open otherwise. -/
theorem observe_fst_of_open (os : List Obligation) :
    (observe r event ⟨os, none⟩).1 =
      ⟨(observeAll r event os).1, (observeAll r event os).2.toOption.join⟩ := by
  simp only [observe, isViable, Option.isNone_none, if_true]
  rcases observeAll r event os with ⟨os', f | why⟩ <;> rfl

/-- A candidate that is lost is not opened again. -/
theorem isViable_of_observe {c : Candidate} (h : (c.observe r event).1.isViable = true) :
    c.isViable = true := by
  cases hc : c.isViable with
  | true => rfl
  | false =>
    rw [observe_of_retired hc, hc] at h
    cases h

/-- A candidate is lost by an event exactly if the event is answered by a shortfall. -/
theorem observe_lost_iff {c : Candidate} {why : Shortfall} :
    c.isViable = true ∧ (c.observe r event).1.retired = some why ↔
      (c.observe r event).2 = .ok (some why) := by
  obtain ⟨os, _ | why'⟩ := c
  · rw [observe_fst_of_open, observe_snd_of_open]
    rcases (observeAll r event os).2 with f | _ | why'
    all_goals simp [isViable, Except.toOption]
  · rw [observe_of_retired rfl]
    exact iff_of_false (fun h => nomatch h.1) nofun

/-- A candidate that fails is open, and stays so. -/
theorem isViable_of_failure {c : Candidate} {f : Failure}
    (h : (c.observe r event).2 = .error f) : (c.observe r event).1.isViable = true := by
  obtain ⟨os, _ | why⟩ := c
  · rw [observe_snd_of_open] at h
    rw [observe_fst_of_open, h]
    rfl
  · rw [observe_of_retired rfl] at h
    cases h

theorem observe_onlyContract (r : Registry) (event : SecurityEvent) (c : Candidate) :
    OnlyContract (c.observe r event).2 := by
  intro f hf
  obtain ⟨os, _ | why⟩ := c
  · rw [observe_snd_of_open] at hf
    obtain ⟨o, -, ho⟩ := exists_read_of_observeAll hf (by simp)
    exact o.read_onlyContract r event f ho
  · rw [observe_of_retired rfl] at hf
    cases hf

end Candidate

namespace Evaluation

variable {r : Registry} {event : SecurityEvent}

/-! ## Policies -/

theorem observeAll_failure {cs : List Candidate} {f : Failure}
    (h : (observeAll r event cs).2.2 = some f) : ∃ c ∈ cs, (c.observe r event).2 = .error f := by
  induction cs with
  | nil => cases h
  | cons c cs ih =>
    rw [observeAll] at h
    rcases hc : c.observe r event with ⟨c', g | why⟩ <;> rw [hc] at h
    · exact ⟨c, .head _, by rw [hc]; cases h; rfl⟩
    · obtain ⟨found, hmem, hread⟩ := ih h
      exact ⟨found, .tail _ hmem, hread⟩

/-- As long as no candidate fails, every candidate reads the event. -/
theorem observeAll_candidates {cs : List Candidate}
    (h : ∀ c ∈ cs, ∃ why, (c.observe r event).2 = .ok why) :
    (observeAll r event cs).1 = cs.map (fun c => (c.observe r event).1) ∧
      (observeAll r event cs).2.2 = none := by
  induction cs with
  | nil => exact ⟨rfl, rfl⟩
  | cons c cs ih =>
    obtain ⟨⟨why, hc⟩, hcs⟩ := List.forall_mem_cons.1 h
    have head : c.observe r event = ((c.observe r event).1, .ok why) := Prod.ext rfl hc
    rw [observeAll, head, List.map_cons, ← (ih hcs).1]
    exact ⟨rfl, (ih hcs).2⟩

/-- Each candidate reads the event or, behind a failure, stays as it is. -/
theorem observeAll_each (r : Registry) (event : SecurityEvent) (cs : List Candidate) :
    List.Forall₂ (fun c c' => c' = (c.observe r event).1 ∨ c' = c) cs (observeAll r event cs).1 := by
  induction cs with
  | nil => exact .nil
  | cons c cs ih =>
    rw [observeAll]
    rcases hc : c.observe r event with ⟨c', f | why⟩
    · exact .cons (.inl (by rw [hc])) (List.forall₂_same.2 fun _ _ => .inr rfl)
    · exact .cons (.inl (by rw [hc])) ih

/-- The failure of one candidate stops the reading. -/
theorem observeAll_failure_isSome {cs : List Candidate} {c : Candidate} (hmem : c ∈ cs) {f : Failure}
    (h : (c.observe r event).2 = .error f) : (observeAll r event cs).2.2.isSome = true := by
  induction cs with
  | nil => cases hmem
  | cons d cs ih =>
    rw [observeAll]
    rcases hd : d.observe r event with ⟨d', g | why⟩
    · rfl
    · cases hmem with
      | head => rw [hd] at h; cases h
      | tail _ hmem => exact ih hmem

/-- The candidates after an event are those that `observeAll` gives, whatever the answer is. -/
theorem observe_fst (ev : Evaluation) (r : Registry) (event : SecurityEvent) :
    (ev.observe r event).1 =
      ⟨(observeAll r event ev.candidates).1,
        (observeAll r event ev.candidates).2.1.or ev.lastLoss⟩ := by
  unfold observe
  dsimp only
  split
  · rfl
  · split <;> rfl

/-- The answer to an event is the failure that stops the reading, or the last loss if no candidate is
open any more. -/
theorem observe_snd (ev : Evaluation) (r : Registry) (event : SecurityEvent) :
    (ev.observe r event).2 =
      match (observeAll r event ev.candidates).2.2 with
      | some f => .error f
      | none =>
        .ok (if !ev.viable.isEmpty && (ev.observe r event).1.viable.isEmpty
          then (ev.observe r event).1.lastLoss else none) := by
  rw [observe_fst, observe]
  rcases observeAll r event ev.candidates with ⟨cs, loss, _ | f⟩
  · dsimp only
    split <;> rfl
  · rfl

/-- Reading an event fails exactly if some candidate fails. -/
theorem observe_failure_iff (ev : Evaluation) (r : Registry) (event : SecurityEvent) :
    (∃ why, (ev.observe r event).2 = .ok why) ↔ (observeAll r event ev.candidates).2.2 = none := by
  unfold observe
  dsimp only
  split
  next f hf => simp [hf]
  next hf =>
    rw [hf]
    split <;> simp

theorem observe_onlyContract (ev : Evaluation) (r : Registry) (event : SecurityEvent) :
    OnlyContract (ev.observe r event).2 := by
  intro f hf
  have stopped : (observeAll r event ev.candidates).2.2 = some f := by
    unfold observe at hf
    dsimp only at hf
    split at hf
    next g hg =>
      cases hf
      exact hg
    next => split at hf <;> cases hf
  obtain ⟨c, -, hc⟩ := observeAll_failure stopped
  exact c.observe_onlyContract r event f hc

/-- Reading an event succeeds exactly if it succeeds for every candidate. -/
theorem observe_ok_iff {ev : Evaluation} :
    (∃ why, (ev.observe r event).2 = .ok why) ↔
      ∀ c ∈ ev.candidates, ∃ why, (c.observe r event).2 = .ok why := by
  rw [observe_failure_iff]
  constructor
  · intro h c hmem
    cases hc : (c.observe r event).2 with
    | ok why => exact ⟨why, rfl⟩
    | error f =>
      have stopped := observeAll_failure_isSome hmem hc
      rw [h] at stopped
      cases stopped
  · intro h
    exact (observeAll_candidates h).2

/-- As long as nothing fails, a policy reads an event candidate by candidate. -/
theorem observe_candidates {ev : Evaluation} {why : Option Shortfall}
    (h : (ev.observe r event).2 = .ok why) :
    (ev.observe r event).1.candidates = ev.candidates.map fun c => (c.observe r event).1 := by
  rw [observe_fst, (observeAll_candidates (observe_ok_iff.1 ⟨why, h⟩)).1]

theorem viable_eq_nil_iff {ev : Evaluation} :
    ev.viable = [] ↔ ∀ c ∈ ev.candidates, c.isViable = false := by
  simp [viable, List.filter_eq_nil_iff]

/-- The answer of a shortfall says that no candidate is open any more. -/
theorem viable_eq_nil_of_observe {ev ev' : Evaluation} {why : Shortfall}
    (h : ev.observe r event = (ev', .ok (some why))) : ev'.viable = [] := by
  unfold observe at h
  dsimp only at h
  split at h
  · cases h
  · split at h
    next closed =>
      obtain ⟨rfl, -⟩ := Prod.mk.inj h
      simpa using (Bool.and_eq_true_iff.1 closed).2
    next => cases h

/-- Once no candidate is open, an event does nothing. -/
theorem observe_of_viable_eq_nil {ev : Evaluation} (h : ev.viable = []) :
    ev.observe r event = (ev, .ok none) := by
  have retired : ∀ c ∈ ev.candidates, c.observe r event = (c, .ok none) := fun c hc =>
    Candidate.observe_of_retired (viable_eq_nil_iff.1 h c hc)
  have unchanged : observeAll r event ev.candidates = (ev.candidates, none, none) := by
    generalize ev.candidates = cs at retired
    induction cs with
    | nil => rfl
    | cons c cs ih =>
      obtain ⟨hc, hcs⟩ := List.forall_mem_cons.1 retired
      rw [observeAll, hc, ih hcs]
      rfl
  unfold observe
  rw [unchanged]
  simp [h]

/-- Without an open candidate no policy is satisfied. -/
theorem isSatisfied_of_viable_eq_nil {ev : Evaluation} (h : ev.viable = []) :
    ev.isSatisfied = false := by
  rw [isSatisfied, h]
  rfl

/-- A policy is satisfied if some open candidate has all its obligations met. -/
theorem isSatisfied_iff {ev : Evaluation} :
    ev.isSatisfied = true ↔ ∃ c ∈ ev.candidates, c.isViable = true ∧ c.isMet = true := by
  simp [isSatisfied, viable]

end Evaluation

end SoapPolicy
