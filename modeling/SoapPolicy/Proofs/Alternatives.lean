import SoapPolicy.Proofs.Building
import SoapPolicy.Proofs.Feed
import SoapPolicy.Proofs.Reading

/-!
# Alternatives and their assertions

All obligations of a policy read the same events, and none of them sees another.  So the fate of a
candidate can be told from its obligations one by one, each put into a candidate of its own
(`Candidate.alone`).  `Candidate.Tracks` is the invariant: a candidate that is open holds just the
obligations of its singles, all of which are open, and a candidate that is lost has a single that is
lost.  Every event preserves it (`Tracks.observe`), provided that no single fails.

A candidate that is lost early does not know what becomes of its other obligations, which is why
nothing more is said of a lost one.
-/

namespace SoapPolicy

/-! ## Runs -/

/-- No answer is a failure. -/
def Unfailing (answers : List (Except Failure (Option Shortfall))) : Prop :=
  ∀ a ∈ answers, ∃ why, a = .ok why

theorem unfailing_nil : Unfailing [] := by
  intro a ha
  cases ha

@[simp] theorem unfailing_cons {a : Except Failure (Option Shortfall)}
    {answers : List (Except Failure (Option Shortfall))} :
    Unfailing (a :: answers) ↔ (∃ why, a = .ok why) ∧ Unfailing answers :=
  List.forall_mem_cons

/-- Let a candidate read events one after the other. -/
def Candidate.observeEach (r : Registry) (c : Candidate) (events : List SecurityEvent) :
    Candidate × List (Except Failure (Option Shortfall)) :=
  feed (fun c event => c.observe r event) c events

/-- Let a policy read events one after the other. -/
def Evaluation.observeEach (r : Registry) (ev : Evaluation) (events : List SecurityEvent) :
    Evaluation × List (Except Failure (Option Shortfall)) :=
  feed (fun ev event => ev.observe r event) ev events

/-- Let a policy read events one after the other, each with the tokens as they are by then. -/
def Evaluation.observeOver (ev : Evaluation) (history : List (Registry × SecurityEvent)) :
    Evaluation × List (Except Failure (Option Shortfall)) :=
  feed (fun ev input => ev.observe input.1 input.2) ev history

theorem Candidate.observeEach_cons (r : Registry) (c : Candidate) (event : SecurityEvent)
    (events : List SecurityEvent) :
    c.observeEach r (event :: events) =
      (((c.observe r event).1.observeEach r events).1,
        (c.observe r event).2 :: ((c.observe r event).1.observeEach r events).2) := rfl

theorem Evaluation.observeEach_cons (r : Registry) (ev : Evaluation) (event : SecurityEvent)
    (events : List SecurityEvent) :
    ev.observeEach r (event :: events) =
      (((ev.observe r event).1.observeEach r events).1,
        (ev.observe r event).2 :: ((ev.observe r event).1.observeEach r events).2) := rfl

theorem Evaluation.observeOver_cons (ev : Evaluation) (input : Registry × SecurityEvent)
    (history : List (Registry × SecurityEvent)) :
    ev.observeOver (input :: history) =
      (((ev.observe input.1 input.2).1.observeOver history).1,
        (ev.observe input.1 input.2).2 :: ((ev.observe input.1 input.2).1.observeOver history).2) :=
  rfl

namespace Evaluation

variable {r : Registry}

theorem observeEach_append (ev : Evaluation) (xs ys : List SecurityEvent) :
    ev.observeEach r (xs ++ ys) =
      (((ev.observeEach r xs).1.observeEach r ys).1,
        (ev.observeEach r xs).2 ++ ((ev.observeEach r xs).1.observeEach r ys).2) :=
  feed_append _ ev xs ys

/-- A run of a policy fails exactly if the run of some candidate fails. -/
theorem observeEach_unfailing_iff {events : List SecurityEvent} {ev : Evaluation} :
    Unfailing (ev.observeEach r events).2 ↔
      ∀ c ∈ ev.candidates, Unfailing (c.observeEach r events).2 := by
  induction events generalizing ev with
  | nil => exact ⟨fun _ _ _ => unfailing_nil, fun _ => unfailing_nil⟩
  | cons event events ih =>
    simp only [observeEach_cons, Candidate.observeEach_cons, unfailing_cons]
    constructor
    · rintro ⟨⟨why, head⟩, rest⟩ c hc
      refine ⟨observe_ok_iff.1 ⟨why, head⟩ c hc, ?_⟩
      refine ih.1 rest _ ?_
      rw [observe_candidates head]
      exact List.mem_map_of_mem hc
    · intro h
      obtain ⟨why, head⟩ := observe_ok_iff.2 fun c hc => (h c hc).1
      refine ⟨⟨why, head⟩, ih.2 ?_⟩
      rw [observe_candidates head]
      intro c' hc'
      obtain ⟨c, hc, rfl⟩ := List.mem_map.1 hc'
      exact (h c hc).2

/-- As long as nothing fails, the candidates after a run are those after their own runs. -/
theorem observeEach_candidates {events : List SecurityEvent} {ev : Evaluation}
    (h : Unfailing (ev.observeEach r events).2) :
    (ev.observeEach r events).1.candidates =
      ev.candidates.map fun c => (c.observeEach r events).1 := by
  induction events generalizing ev with
  | nil => exact (List.map_id ev.candidates).symm
  | cons event events ih =>
    rw [observeEach_cons, unfailing_cons] at h
    obtain ⟨⟨why, head⟩, rest⟩ := h
    rw [observeEach_cons, ih rest, observe_candidates head, List.map_map]
    rfl

/-- Once no candidate is open, events do nothing. -/
theorem observeEach_of_viable_eq_nil {ev : Evaluation} (h : ev.viable = [])
    (events : List SecurityEvent) :
    ev.observeEach r events = (ev, events.map fun _ => .ok none) := by
  induction events with
  | nil => rfl
  | cons event events ih =>
    rw [observeEach_cons, observe_of_viable_eq_nil h, ih]
    rfl

theorem observeOver_append (ev : Evaluation) (xs ys : List (Registry × SecurityEvent)) :
    ev.observeOver (xs ++ ys) =
      (((ev.observeOver xs).1.observeOver ys).1,
        (ev.observeOver xs).2 ++ ((ev.observeOver xs).1.observeOver ys).2) :=
  feed_append _ ev xs ys

theorem observeOver_snoc (ev : Evaluation) (history : List (Registry × SecurityEvent))
    (input : Registry × SecurityEvent) :
    (ev.observeOver (history ++ [input])).1 =
      ((ev.observeOver history).1.observe input.1 input.2).1 := by
  rw [observeOver_append]
  rfl

/-- A run over events that a policy passes over leaves it as it is. -/
theorem observeOver_of_idle {ev : Evaluation} {history : List (Registry × SecurityEvent)}
    (idle : ∀ input ∈ history, ev.observe input.1 input.2 = (ev, .ok none)) :
    ev.observeOver history = (ev, history.map fun _ => .ok none) := by
  induction history with
  | nil => rfl
  | cons input history ih =>
    obtain ⟨first, others⟩ := List.forall_mem_cons.1 idle
    rw [observeOver_cons, first, ih others, List.map_cons]

end Evaluation

namespace Candidate

variable {r : Registry} {event : SecurityEvent}

/-! ## One obligation alone -/

/-- A candidate of one obligation. -/
def alone (o : Obligation) : Candidate := ⟨[o], none⟩

/-- A single obligation is read for itself. -/
theorem observe_alone (r : Registry) (event : SecurityEvent) (o : Obligation) :
    (alone o).observe r event =
      (⟨[(o.read r event).1], (o.read r event).2.toOption.join⟩, (o.read r event).2) := by
  have single : observeAll r event [o] = ([(o.read r event).1], (o.read r event).2) := by
    rw [observeAll_cons]
    rcases o.read r event with ⟨o', f | _ | why⟩ <;> rfl
  refine Prod.ext ?_ ?_
  · rw [alone, observe_fst_of_open, single]
  · rw [alone, observe_snd_of_open, single]

/-! ## Tracking -/

/-- How a candidate stands to the candidates of its obligations taken one by one. -/
inductive Tracks : Candidate → List Candidate → Prop where
  /-- The candidate is open, and so are its singles, which hold what it holds. -/
  | isOpen (os : List Obligation) : Tracks ⟨os, none⟩ (os.map alone)
  /-- The candidate is lost, and so is one of its singles. -/
  | isLost {c s : Candidate} {singles : List Candidate} :
    c.isViable = false → s ∈ singles → s.isViable = false → Tracks c singles

namespace Tracks

variable {c : Candidate} {singles : List Candidate}

/-- One event preserves the relation, provided that no single fails. -/
theorem observe (h : Tracks c singles)
    (unfailing : ∀ s ∈ singles, ∃ why, (s.observe r event).2 = .ok why) :
    (∃ why, (c.observe r event).2 = .ok why) ∧
      Tracks (c.observe r event).1 (singles.map fun s => (s.observe r event).1) := by
  cases h with
  | isLost hc hmem hs =>
    rw [observe_of_retired hc]
    refine ⟨⟨none, rfl⟩, .isLost hc (List.mem_map_of_mem hmem) ?_⟩
    rw [observe_of_retired hs]
    exact hs
  | isOpen os =>
    have reads : ∀ o ∈ os, ∃ why, (o.read r event).2 = .ok why := by
      intro o ho
      have hs := unfailing (alone o) (List.mem_map_of_mem ho)
      rwa [observe_alone] at hs
    rw [observe_snd_of_open, observe_fst_of_open]
    cases answer : (observeAll r event os).2 with
    | error f =>
      obtain ⟨o, ho, hread⟩ := exists_read_of_observeAll answer (by simp)
      obtain ⟨why, hok⟩ := reads o ho
      rw [hread] at hok
      cases hok
    | ok why =>
      refine ⟨⟨why, rfl⟩, ?_⟩
      cases why with
      | some why =>
        obtain ⟨o, ho, hread⟩ := exists_read_of_observeAll answer (by simp)
        refine .isLost rfl (List.mem_map_of_mem (List.mem_map_of_mem ho)) ?_
        rw [observe_alone, hread]
        rfl
      | none =>
        have quiet := observeAll_quiet_iff.1 answer
        have singlesStep : (os.map alone).map (fun s => (s.observe r event).1) =
            (os.map fun o => (o.read r event).1).map alone := by
          rw [List.map_map, List.map_map]
          refine List.map_congr_left fun o ho => ?_
          simp only [Function.comp, observe_alone, quiet o ho]
          rfl
        rw [observeAll_fst_of_quiet quiet, singlesStep]
        exact .isOpen _

/-- A run preserves the relation, provided that no single fails on it. -/
theorem observeEach {events : List SecurityEvent} (h : Tracks c singles)
    (unfailing : ∀ s ∈ singles, Unfailing (s.observeEach r events).2) :
    Unfailing (c.observeEach r events).2 ∧
      Tracks (c.observeEach r events).1 (singles.map fun s => (s.observeEach r events).1) := by
  induction events generalizing c singles with
  | nil =>
    refine ⟨unfailing_nil, ?_⟩
    simpa [Candidate.observeEach] using h
  | cons event events ih =>
    simp only [observeEach_cons, unfailing_cons] at unfailing ⊢
    have step := h.observe fun s hs => (unfailing s hs).1
    have rest := ih step.2 fun s' hs' => by
      obtain ⟨s, hs, rfl⟩ := List.mem_map.1 hs'
      exact (unfailing s hs).2
    rw [List.map_map] at rest
    exact ⟨⟨step.1, rest.1⟩, rest.2⟩

/-- A candidate is lost exactly if one of its singles is. -/
theorem retired_iff (h : Tracks c singles) :
    c.isViable = false ↔ ∃ s ∈ singles, s.isViable = false := by
  cases h with
  | isLost hc hmem hs => exact ⟨fun _ => ⟨_, hmem, hs⟩, fun _ => hc⟩
  | isOpen os =>
    constructor
    · intro hc
      cases hc
    · rintro ⟨s, hmem, hs⟩
      obtain ⟨o, -, rfl⟩ := List.mem_map.1 hmem
      cases hs

/-- A candidate is open with all obligations met exactly if each of its singles is. -/
theorem met_iff (h : Tracks c singles) :
    c.isViable = true ∧ c.isMet = true ↔
      ∀ s ∈ singles, s.isViable = true ∧ s.isMet = true := by
  cases h with
  | isLost hc hmem hs =>
    constructor
    · intro met
      rw [hc] at met
      cases met.1
    · intro met
      have hv := (met _ hmem).1
      rw [hs] at hv
      cases hv
  | isOpen os => simp [isViable, isMet, alone]

end Tracks

end Candidate

end SoapPolicy
