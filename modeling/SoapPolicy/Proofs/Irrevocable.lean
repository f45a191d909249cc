import SoapPolicy.Proofs.Carrying

/-!
# Success is irrevocable

An obligation that is met lets every further event pass and stays as it is, unless it watches the
header (`Carries.settled`).  So an alternative whose obligations are all met is not touched by any
event, not even by one that another alternative cannot read, and a policy that is satisfied stays
satisfied (`Evaluation.isSatisfied_irrevocable`).  This holds whatever becomes of the tokens in the
meantime.
-/

namespace SoapPolicy

/-! ## Obligations -/

namespace Obligation

/-- The obligation is met, and nothing that it reads changes it. -/
structure Settled (o : Obligation) : Prop where
  met : o.met = true
  shortfall : o.shortfall = none
  passes : ∀ (r : Registry) (event : SecurityEvent), event.kind ∈ o.kinds →
    o.hear r event = (o, .ok .pass)

theorem Settled.read {o : Obligation} (h : o.Settled) (r : Registry) (event : SecurityEvent) :
    o.read r event = (o, .ok none) := by
  by_cases reads : event.kind ∈ o.kinds
  · exact read_of_hear .pass rfl reads (h.passes r event reads)
  · exact read_of_not_mem reads

end Obligation

/-- Met obligations are settled, except for those that watch the header. -/
theorem Carries.settled {initiator : Bool} {a : PolicyAssertion} {o : Obligation}
    (h : Carries initiator a o) (plain : a.watchesHeader = false) (met : o.met = true) :
    o.Settled := by
  cases h with
  | token policy quiet =>
    cases met
    exact ⟨rfl, quiet rfl, fun r event _ => rfl⟩
  | @protection _ kind policy patterns _ _ _ _ quiet =>
    cases met
    refine ⟨rfl, quiet rfl, fun r event reads => ?_⟩
    rw [Obligation.kinds_protection, List.mem_singleton, ← Protection.report?_isSome] at reads
    obtain ⟨report, reported⟩ := Option.isSome_iff_exists.1 reads
    rw [Obligation.hear_protection rfl, reported]
    rfl
  | presence patterns =>
    refine ⟨met, ?_, fun r event reads => ?_⟩
    · unfold Obligation.ofPresence at met ⊢
      split at met
      next => cases met
      next => rfl
    · rw [Obligation.kinds_ofPresence, List.mem_singleton] at reads
      cases event with
      | requiredElement path =>
        rw [Obligation.hear_presence (Obligation.demand_ofPresence patterns)]
        simp only [met, if_true]
      | _ => cases reads
  | header record met' shortfall asks =>
    rw [PolicyAssertion.watchesHeader, asks] at plain
    cases plain
  | idle => exact ⟨rfl, rfl, fun r event reads => absurd reads List.not_mem_nil⟩

/-- The obligation for an assertion, after events that it could read.  The tokens may be others at
every event. -/
inductive Arises (initiator : Bool) (a : PolicyAssertion) : Obligation → Prop where
  | start {o : Obligation} : Obligation.ofAssertion a initiator = .ok o → Arises initiator a o
  | hear {o o' : Obligation} {outcome : Outcome} (r : Registry) (event : SecurityEvent) :
    Arises initiator a o → o.hear r event = (o', .ok outcome) → Arises initiator a o'

theorem Arises.carries {initiator : Bool} {a : PolicyAssertion} {o : Obligation}
    (h : Arises initiator a o) : Carries initiator a o := by
  induction h with
  | start made => exact carries_ofAssertion made
  | hear r event _ heard ih =>
    have after := ih.hear r event
    rwa [heard] at after

/-! ## Alternatives -/

/-- No event touches a candidate whose obligations are all settled. -/
theorem Candidate.observe_of_settled {c : Candidate} (h : ∀ o ∈ c.obligations, o.Settled)
    (r : Registry) (event : SecurityEvent) : c.observe r event = (c, .ok none) := by
  obtain ⟨os, _ | why⟩ := c
  · have quiet : ∀ o ∈ os, (o.read r event).2 = .ok none := fun o ho => by rw [(h o ho).read]
    have unchanged : os.map (fun o => (o.read r event).1) = os :=
      (List.map_congr_left fun o ho => by rw [(h o ho).read]; rfl).trans (List.map_id os)
    refine Prod.ext ?_ ?_
    · rw [observe_fst_of_open, observeAll_fst_of_quiet quiet, observeAll_quiet_iff.2 quiet, unchanged]
      rfl
    · rw [observe_snd_of_open, observeAll_quiet_iff.2 quiet]
  · exact observe_of_retired rfl

/-! ## Policies -/

namespace Evaluation

/-- A candidate that an event does not touch is among those after it, even if another one fails. -/
theorem mem_observeAll {r : Registry} {event : SecurityEvent} {cs : List Candidate} {c : Candidate}
    (hmem : c ∈ cs) (untouched : c.observe r event = (c, .ok none)) :
    c ∈ (observeAll r event cs).1 := by
  obtain ⟨c', hc', rfl | rfl⟩ := forall₂_exists_right (observeAll_each r event cs) hmem
  · rwa [untouched] at hc'
  · exact hc'

section
variable {source : PolicySource} {initiator : Bool} {ev : Evaluation}

theorem each_imposes_observeOver (h : ev.Each (source.Imposes initiator))
    (history : List (Registry × SecurityEvent)) :
    (ev.observeOver history).1.Each (source.Imposes initiator) :=
  h.observeOver fun _ _ _ ho => ho.read _ _

/-- One event does not undo that a policy is satisfied. -/
theorem isSatisfied_observe (h : ev.Each (source.Imposes initiator))
    (satisfied : ev.isSatisfied = true) (r : Registry) (event : SecurityEvent) :
    (ev.observe r event).1.isSatisfied = true := by
  obtain ⟨c, hc, viable, met⟩ := isSatisfied_iff.1 satisfied
  have settled : ∀ o ∈ c.obligations, o.Settled := by
    intro o ho
    obtain ⟨a, -, plain, carries⟩ := h c hc o ho
    exact carries.settled plain (List.all_eq_true.1 met o ho)
  have remains := mem_observeAll hc (c.observe_of_settled settled r event)
  rw [observe_fst]
  exact isSatisfied_iff.2 ⟨c, remains, viable, met⟩

theorem isSatisfied_observeOver (h : ev.Each (source.Imposes initiator))
    (satisfied : ev.isSatisfied = true) (history : List (Registry × SecurityEvent)) :
    (ev.observeOver history).1.isSatisfied = true := by
  induction history generalizing ev with
  | nil => exact satisfied
  | cons input history ih =>
    exact ih (h.observe fun ho => ho.read _ _) (isSatisfied_observe h satisfied input.1 input.2)

end

/-- Once a policy that asks for no token protection is satisfied, it stays so, whatever events follow
and whatever becomes of the tokens.  And an obligation that is met, other than for token protection,
lets all its events pass, stays met and falls short of nothing. -/
theorem isSatisfied_irrevocable {policy : Policy} {initiator : Bool} {ev : Evaluation}
    (built : ofPolicy policy initiator = .ok ev) (plain : policy.watchesHeader = false) :
    (∀ before after, (ev.observeOver before).1.isSatisfied = true →
      ((ev.observeOver before).1.observeOver after).1.isSatisfied = true) ∧
    ∀ side a o, Arises side a o → a.watchesHeader = false → o.met = true → o.Settled := by
  constructor
  · have alone : ∀ p ∈ (PolicySource.policy policy).policies, p.watchesHeader = false :=
      List.forall_mem_singleton.2 plain
    have own : policy ∈ (PolicySource.policy policy).policies := .head _
    have imposed : ev.Each ((PolicySource.policy policy).Imposes initiator) := by
      intro c hc o ho
      obtain ⟨a, asserts, made⟩ := PolicySource.each_ofAssertion own built c hc o ho
      exact PolicySource.imposes_ofAssertion alone asserts made
    intro before after satisfied
    exact isSatisfied_observeOver (each_imposes_observeOver imposed before) satisfied after
  · intro side a o arises plain met
    exact arises.carries.settled plain met

/-- A policy that asks for a signed element or for a username token. -/
def signedOrNamed : Policy :=
  ⟨[⟨[.signedElements ⟨[⟨"//a", []⟩]⟩]⟩, ⟨[.token { role := .protection, kind := .username {} }]⟩]⟩

/-- The element is signed. -/
def aSigned : SecurityEvent := .ofSigned ⟨0⟩ [⟨"", "a"⟩] true

/-- A signed element satisfies the policy, and it stays satisfied although the other alternative
cannot read the next event, and although the element is then found unsigned. -/
theorem isSatisfied_signedOrNamed :
    ∃ start, ofPolicy signedOrNamed false = .ok start ∧
      ((start.observeOver [({}, aSigned)]).1.observe {}
        (.token ⟨⟨5⟩, .username ⟨.text, none, none, none⟩⟩)).2 = .error (.unknownToken "token#5") ∧
      ((start.observeOver [({}, aSigned)]).1.observeOver
        [({}, .token ⟨⟨5⟩, .username ⟨.text, none, none, none⟩⟩),
          (⟨[{ type := .x509V3 }]⟩, .ofSigned ⟨0⟩ [⟨"", "a"⟩] false)]).1.isSatisfied = true ∧
      ∃ o, Arises false (.signedElements ⟨[⟨"//a", []⟩]⟩) o ∧ o.Settled := by
  have built : ofPolicy signedOrNamed false = .ok _ := rfl
  have signed : Arises false (.signedElements ⟨[⟨"//a", []⟩]⟩) _ :=
    .hear {} aSigned (.start rfl) rfl
  obtain ⟨stays, settled⟩ := isSatisfied_irrevocable built rfl
  exact ⟨_, built, by rfl, stays [({}, aSigned)] _ rfl, _, signed, settled false _ _ signed rfl rfl⟩

end Evaluation

end SoapPolicy
