import SoapPolicy.Proofs.Repetition

/-!
# Alternatives that survive

An alternative is open after a run exactly if each of its obligations, read by itself, lets every event
pass (`Candidate.survives_iff`).  Its obligations are then those that have read the whole run.  So a
policy is satisfied by a run exactly if it has an alternative whose assertions all hold of the run
(`Evaluation.isSatisfied_iff_holds`), and whether an assertion holds of a run (`PolicyAssertion.Holds`)
does not depend on any other.
-/

namespace SoapPolicy

variable {r : Registry} {event : SecurityEvent} {events : List SecurityEvent}

/-! ## Obligations -/

namespace Obligation

/-- The obligation lets all events pass, each of them after those before. -/
def Passes (r : Registry) : Obligation → List SecurityEvent → Prop
  | _, [] => True
  | o, event :: events => (o.read r event).2 = .ok none ∧ Passes r (o.read r event).1 events

@[simp] theorem passes_nil (o : Obligation) : o.Passes r [] := trivial

theorem readAll_cons (o : Obligation) (event : SecurityEvent) (events : List SecurityEvent) :
    o.readAll r (event :: events) = (o.read r event).1.readAll r events := rfl

end Obligation

/-! ## Alternatives -/

namespace Candidate

/-- An open alternative stays open at an event exactly if all its obligations let it pass. -/
theorem isViable_observe_iff {os : List Obligation} {why : Option Shortfall}
    (read : (observe r event ⟨os, none⟩).2 = .ok why) :
    (observe r event ⟨os, none⟩).1.isViable = true ↔ ∀ o ∈ os, (o.read r event).2 = .ok none := by
  rw [observe_snd_of_open] at read
  rw [observe_fst_of_open, ← observeAll_quiet_iff, read]
  cases why with
  | none => simp [isViable, Except.toOption]
  | some why => simp [isViable, Except.toOption]

theorem observe_of_quiet {os : List Obligation} (quiet : ∀ o ∈ os, (o.read r event).2 = .ok none) :
    observe r event ⟨os, none⟩ = (⟨os.map fun o => (o.read r event).1, none⟩, .ok none) := by
  refine Prod.ext ?_ ?_
  · rw [observe_fst_of_open, observeAll_fst_of_quiet quiet, observeAll_quiet_iff.2 quiet]
    rfl
  · rw [observe_snd_of_open, observeAll_quiet_iff.2 quiet]

/-- As long as its obligations let everything pass, an alternative stays open. -/
theorem observeEach_of_passes {os : List Obligation} (passes : ∀ o ∈ os, o.Passes r events) :
    Unfailing (observeEach r ⟨os, none⟩ events).2 ∧
      (observeEach r ⟨os, none⟩ events).1 = ⟨os.map fun o => o.readAll r events, none⟩ := by
  induction events generalizing os with
  | nil => exact ⟨unfailing_nil, congrArg (Candidate.mk · none) (List.map_id os).symm⟩
  | cons event events ih =>
    have quiet : ∀ o ∈ os, (o.read r event).2 = .ok none := fun o ho => (passes o ho).1
    have later : ∀ o ∈ os.map fun o => (o.read r event).1, o.Passes r events := by
      intro o' ho'
      obtain ⟨o, ho, rfl⟩ := List.mem_map.1 ho'
      exact (passes o ho).2
    obtain ⟨unfailing, after⟩ := ih later
    rw [observeEach_cons, observe_of_quiet quiet, unfailing_cons, after, List.map_map]
    exact ⟨⟨⟨none, rfl⟩, unfailing⟩, rfl⟩

theorem observeEach_of_retired {c : Candidate} (lost : c.isViable = false) :
    (c.observeEach r events).1 = c := by
  induction events with
  | nil => rfl
  | cons event events ih => rw [observeEach_cons, observe_of_retired lost, ih]

/-- An alternative survives a run exactly if its obligations let everything pass. -/
theorem survives_iff {os : List Obligation} :
    Unfailing (observeEach r ⟨os, none⟩ events).2 ∧
        (observeEach r ⟨os, none⟩ events).1.isViable = true ↔
      ∀ o ∈ os, o.Passes r events := by
  constructor
  · rintro ⟨unfailing, viable⟩
    induction events generalizing os with
    | nil => exact fun o _ => o.passes_nil
    | cons event events ih =>
      rw [observeEach_cons] at unfailing viable
      obtain ⟨⟨why, read⟩, rest⟩ := unfailing_cons.1 unfailing
      -- an alternative that the first event retires would not be open in the end
      have still : (observe r event ⟨os, none⟩).1.isViable = true := by
        by_contra lost
        rw [observeEach_of_retired (Bool.eq_false_iff.2 lost)] at viable
        exact lost viable
      have quiet := (isViable_observe_iff read).1 still
      rw [observe_of_quiet quiet] at rest viable
      intro o ho
      exact ⟨quiet o ho, ih rest viable _ (List.mem_map_of_mem ho)⟩
  · intro passes
    obtain ⟨unfailing, after⟩ := observeEach_of_passes passes
    exact ⟨unfailing, by rw [after]; rfl⟩

end Candidate

/-! ## Policies -/

/-- A policy is satisfied by a run exactly if some alternative of it has only obligations that let
everything pass and are met in the end. -/
theorem Evaluation.isSatisfied_observeEach_iff {ev : Evaluation}
    (unfailing : Unfailing (ev.observeEach r events).2) :
    (ev.observeEach r events).1.isSatisfied = true ↔
      ∃ c ∈ ev.candidates, c.isViable = true ∧
        ∀ o ∈ c.obligations, o.Passes r events ∧ (o.readAll r events).met = true := by
  rw [isSatisfied_iff, observeEach_candidates unfailing]
  constructor
  · rintro ⟨c', hc', viable, met⟩
    obtain ⟨c, hc, rfl⟩ := List.mem_map.1 hc'
    obtain ⟨os, _ | why⟩ := c
    · have passes := Candidate.survives_iff.1 ⟨observeEach_unfailing_iff.1 unfailing _ hc, viable⟩
      rw [(Candidate.observeEach_of_passes passes).2] at met
      refine ⟨_, hc, rfl, fun o ho => ⟨passes o ho, ?_⟩⟩
      exact List.all_eq_true.1 met _ (List.mem_map_of_mem ho)
    · rw [Candidate.observeEach_of_retired rfl] at viable
      cases viable
  · rintro ⟨⟨os, retired⟩, hc, viable, met⟩
    obtain rfl : retired = none := Option.isNone_iff_eq_none.1 viable
    have after := (Candidate.observeEach_of_passes fun o ho => (met o ho).1).2
    refine ⟨_, List.mem_map_of_mem hc, ?_⟩
    rw [after]
    refine ⟨rfl, List.all_eq_true.2 fun o' ho' => ?_⟩
    obtain ⟨o, ho, rfl⟩ := List.mem_map.1 ho'
    exact (met o ho).2

/-- The obligation for the assertion lets all events pass and is met in the end. -/
def PolicyAssertion.Holds (initiator : Bool) (r : Registry) (events : List SecurityEvent)
    (a : PolicyAssertion) : Prop :=
  ∃ o, Obligation.ofAssertion a initiator = .ok o ∧ o.Passes r events ∧
    (o.readAll r events).met = true

/-- A policy is satisfied by a run exactly if all assertions of some alternative hold of the run. -/
theorem Evaluation.isSatisfied_iff_holds {policy : Policy} {initiator : Bool} {ev : Evaluation}
    (built : ofPolicy policy initiator = .ok ev)
    (unfailing : Unfailing (ev.observeEach r events).2) :
    (ev.observeEach r events).1.isSatisfied = true ↔
      ∃ alternative ∈ policy.alternatives, ∀ a ∈ alternative.assertions,
        a.Holds initiator r events := by
  have candidates := ofPolicy_eq_ok built
  rw [isSatisfied_observeEach_iff unfailing]
  constructor
  · rintro ⟨c, hc, -, met⟩
    obtain ⟨alternative, halternative, made⟩ := forall₂_exists_left candidates hc
    obtain ⟨os, rfl, obligations⟩ := Candidate.ofAlternative_eq_ok made
    refine ⟨alternative, halternative, fun a ha => ?_⟩
    obtain ⟨o, ho, made⟩ := forall₂_exists_right obligations ha
    exact ⟨o, made, met o ho⟩
  · rintro ⟨alternative, halternative, holds⟩
    obtain ⟨c, hc, made⟩ := forall₂_exists_right candidates halternative
    obtain ⟨os, rfl, obligations⟩ := Candidate.ofAlternative_eq_ok made
    refine ⟨_, hc, rfl, fun o ho => ?_⟩
    obtain ⟨a, ha, made⟩ := forall₂_exists_left obligations ho
    obtain ⟨o', made', met⟩ := holds a ha
    rw [made] at made'
    cases made'
    exact met

end SoapPolicy
