import Mathlib.Data.List.Induction
import SoapPolicy.Proofs.Alternatives

/-!
# What is said of a policy that is not satisfied

A policy remembers the shortfall that lost a candidate last, and speaks of it when no obligation is left
to speak of.  `LostAt` compares the candidates before and after, index by index.  One event may lose
several candidates, also if it ends in a failure, and the last of them is remembered
(`Evaluation.lastLoss_observeAll`).  So after any run, what is remembered is the latest loss
(`Evaluation.latestLoss_observeOver`).

From this the verdict and what is said fit together (`diagnostics_agree`): an event is answered by a
shortfall exactly if it loses the last open candidate, and there is a reason whenever a policy is not
satisfied.
-/

namespace SoapPolicy

variable {r : Registry} {event : SecurityEvent}

/-! ## Lost candidates -/

namespace Candidate

variable {c c' : Candidate} {cs cs' cs'' : List Candidate}

/-- From one list of candidates to the other, the one at an index is lost. -/
def LostAt (cs cs' : List Candidate) (i : Nat) (why : Shortfall) : Prop :=
  ∃ c c', cs[i]? = some c ∧ c.isViable = true ∧ cs'[i]? = some c' ∧ c'.retired = some why

/-- No candidate is lost. -/
def NoneLost (cs cs' : List Candidate) : Prop :=
  ∀ i why, ¬ LostAt cs cs' i why

/-- Some candidate is lost, and the last one by index is lost for this reason. -/
def LostLast (cs cs' : List Candidate) (why : Shortfall) : Prop :=
  ∃ i, LostAt cs cs' i why ∧ ∀ j why', LostAt cs cs' j why' → j ≤ i

/-- Why the last one is lost of the candidates that are, if any is. -/
inductive LastLoss (cs cs' : List Candidate) : Option Shortfall → Prop where
  | nothing : NoneLost cs cs' → LastLoss cs cs' none
  | last {why : Shortfall} : LostLast cs cs' why → LastLoss cs cs' (some why)

@[simp] theorem lostAt_zero {why : Shortfall} :
    LostAt (c :: cs) (c' :: cs') 0 why ↔ c.isViable = true ∧ c'.retired = some why := by
  simp [LostAt]

@[simp] theorem lostAt_succ {i : Nat} {why : Shortfall} :
    LostAt (c :: cs) (c' :: cs') (i + 1) why ↔ LostAt cs cs' i why := by
  simp [LostAt]

theorem isViable_iff : c.isViable = true ↔ c.retired = none :=
  Option.isNone_iff_eq_none

theorem noneLost_self (cs : List Candidate) : NoneLost cs cs := by
  rintro i why ⟨c, c', hc, isOpen, hc', lost⟩
  rw [hc] at hc'
  cases hc'
  rw [isViable_iff, lost] at isOpen
  cases isOpen

theorem exists_partner {i : Nat} (same : cs'.length = cs.length) (hc : cs[i]? = some c) :
    ∃ c', cs'[i]? = some c' := by
  obtain ⟨hi, -⟩ := List.getElem?_eq_some_iff.1 hc
  exact ⟨_, List.getElem?_eq_getElem (same ▸ hi)⟩

/-- What is lost neither by a first step nor by a second is not lost by both. -/
theorem NoneLost.trans (first : NoneLost cs cs') (second : NoneLost cs' cs'')
    (same : cs'.length = cs.length) : NoneLost cs cs'' := by
  rintro i why ⟨c, c'', hc, isOpen, hc'', lost⟩
  obtain ⟨c', hc'⟩ := exists_partner same hc
  cases between : c'.retired with
  | none => exact second i why ⟨c', c'', hc', isViable_iff.2 between, hc'', lost⟩
  | some why' => exact first i why' ⟨c, c', hc, isOpen, hc', between⟩

/-- If some candidate is open before and none is after, then one is lost. -/
theorem not_noneLost (hmem : c ∈ cs) (isOpen : c.isViable = true)
    (closed : ∀ c' ∈ cs', c'.isViable = false) (same : cs'.length = cs.length) :
    ¬ NoneLost cs cs' := by
  intro quiet
  obtain ⟨i, hc⟩ := List.getElem?_of_mem hmem
  obtain ⟨c', hc'⟩ := exists_partner same hc
  cases after : c'.retired with
  | none =>
    have lost := closed c' (List.mem_of_getElem? hc')
    rw [isViable_iff.2 after] at lost
    cases lost
  | some why => exact quiet i why ⟨c, c', hc, isOpen, hc', after⟩

/-- The loss of a candidate in front counts only if none behind it is lost. -/
theorem LastLoss.cons {why? loss : Option Shortfall}
    (head : ∀ why, c.isViable = true ∧ c'.retired = some why ↔ why? = some why)
    (tail : LastLoss cs cs' loss) : LastLoss (c :: cs) (c' :: cs') (loss.or why?) := by
  cases tail with
  | last lost =>
    obtain ⟨i, lost, last⟩ := lost
    refine .last ⟨i + 1, lostAt_succ.2 lost, fun j why' lost' => ?_⟩
    cases j with
    | zero => exact Nat.zero_le _
    | succ j => exact Nat.succ_le_succ (last j why' (lostAt_succ.1 lost'))
  | nothing quiet =>
    cases why? with
    | none =>
      refine .nothing fun i why lost => ?_
      cases i with
      | zero => cases (head why).1 (lostAt_zero.1 lost)
      | succ i => exact quiet i why (lostAt_succ.1 lost)
    | some why =>
      refine .last ⟨0, lostAt_zero.2 ((head why).2 rfl), fun j why' lost => ?_⟩
      cases j with
      | zero => exact Nat.le_refl _
      | succ j => exact absurd (lostAt_succ.1 lost) (quiet j why')

end Candidate

open Candidate

namespace Evaluation

variable {ev ev' : Evaluation} {history : List (Registry × SecurityEvent)}

/-! ## One event -/

/-- The loss that `observeAll` gives is the last one by index, also if the reading fails. -/
theorem lastLoss_observeAll (r : Registry) (event : SecurityEvent) (cs : List Candidate) :
    LastLoss cs (observeAll r event cs).1 (observeAll r event cs).2.1 := by
  induction cs with
  | nil => exact .nothing (noneLost_self [])
  | cons c cs ih =>
    have head : ∀ why, c.isViable = true ∧ (c.observe r event).1.retired = some why ↔
      (c.observe r event).2 = .ok (some why) := fun why => observe_lost_iff
    rw [observeAll]
    rcases hc : c.observe r event with ⟨c', f | why?⟩ <;> rw [hc] at head
    · have loss : LastLoss (c :: cs) (c' :: cs) (none.or none) :=
        .cons (fun why => (head why).trans (by simp)) (.nothing (noneLost_self cs))
      exact loss
    · exact .cons (fun why => (head why).trans (by simp)) ih

/-- If the reading fails, the candidate that failed is open. -/
theorem exists_open_of_failure {cs : List Candidate} {f : Failure}
    (h : (observeAll r event cs).2.2 = some f) :
    ∃ c ∈ (observeAll r event cs).1, c.isViable = true := by
  induction cs with
  | nil => cases h
  | cons c cs ih =>
    rw [observeAll] at h ⊢
    rcases hc : c.observe r event with ⟨c', g | why⟩ <;> rw [hc] at h
    · have failed : (c.observe r event).1.isViable = true := isViable_of_failure (by rw [hc])
      rw [hc] at failed
      exact ⟨c', .head _, failed⟩
    · obtain ⟨found, hmem, isOpen⟩ := ih h
      exact ⟨found, .tail _ hmem, isOpen⟩

/-- Where no candidate is open any more, one was lost. -/
theorem not_noneLost (isOpen : ev.viable ≠ []) (closed : ev'.viable = [])
    (same : ev'.candidates.length = ev.candidates.length) :
    ¬ NoneLost ev.candidates ev'.candidates := by
  obtain ⟨c, hc⟩ := List.exists_mem_of_ne_nil _ isOpen
  obtain ⟨hmem, hopen⟩ := List.mem_filter.1 hc
  exact Candidate.not_noneLost hmem hopen (viable_eq_nil_iff.1 closed) same

theorem length_observe (ev : Evaluation) (r : Registry) (event : SecurityEvent) :
    (ev.observe r event).1.candidates.length = ev.candidates.length := by
  rw [observe_fst]
  exact (observeAll_each r event ev.candidates).length_eq.symm

/-- After an event, a policy remembers its last loss, or what it remembered before. -/
theorem exists_lastLoss (ev : Evaluation) (r : Registry) (event : SecurityEvent) :
    ∃ loss, LastLoss ev.candidates (ev.observe r event).1.candidates loss ∧
      (ev.observe r event).1.lastLoss = loss.or ev.lastLoss := by
  rw [observe_fst]
  exact ⟨_, lastLoss_observeAll r event ev.candidates, rfl⟩

/-- The event that loses the last open candidate is answered by the last loss. -/
theorem answer_of_closed (isOpen : ev.viable ≠ []) (closed : (ev.observe r event).1.viable = []) :
    ∃ why, (ev.observe r event).2 = .ok (some why) ∧
      LostLast ev.candidates (ev.observe r event).1.candidates why := by
  have lost := not_noneLost isOpen closed (ev.length_observe r event)
  have unfailing : (observeAll r event ev.candidates).2.2 = none := by
    cases failed : (observeAll r event ev.candidates).2.2 with
    | none => rfl
    | some f =>
      obtain ⟨c, hmem, hopen⟩ := exists_open_of_failure failed
      rw [observe_fst] at closed
      rw [viable_eq_nil_iff.1 closed c hmem] at hopen
      cases hopen
  have answer : (ev.observe r event).2 = .ok (ev.observe r event).1.lastLoss := by
    rw [observe_snd, unfailing, closed]
    simp [isOpen]
  obtain ⟨loss, last, remembered⟩ := ev.exists_lastLoss r event
  rw [answer, remembered]
  cases last with
  | nothing quiet => exact absurd quiet lost
  | @last why last => exact ⟨why, rfl, last⟩

/-- An event is answered by a shortfall exactly if it loses the last open candidate. -/
theorem exists_answer_iff (ev : Evaluation) (r : Registry) (event : SecurityEvent) :
    (∃ why, (ev.observe r event).2 = .ok (some why)) ↔
      ev.viable ≠ [] ∧ (ev.observe r event).1.viable = [] := by
  constructor
  · rintro ⟨why, answer⟩
    refine ⟨fun closed => ?_, viable_eq_nil_of_observe (Prod.ext rfl answer)⟩
    rw [observe_of_viable_eq_nil closed] at answer
    cases answer
  · rintro ⟨isOpen, closed⟩
    obtain ⟨why, answer, -⟩ := answer_of_closed isOpen closed
    exact ⟨why, answer⟩

theorem lostLast_of_answer {why : Shortfall} (answer : (ev.observe r event).2 = .ok (some why)) :
    LostLast ev.candidates (ev.observe r event).1.candidates why := by
  obtain ⟨isOpen, closed⟩ := (exists_answer_iff ev r event).1 ⟨why, answer⟩
  obtain ⟨why', answer', last⟩ := answer_of_closed isOpen closed
  rw [answer] at answer'
  cases answer'
  exact last

/-- A candidate that is lost stays as it is. -/
theorem observe_of_lost {i : Nat} {c : Candidate} (hc : ev.candidates[i]? = some c)
    (lost : c.isViable = false) : (ev.observe r event).1.candidates[i]? = some c := by
  rw [observe_fst]
  obtain ⟨c', hc', rfl | rfl⟩ := forall₂_get? (observeAll_each r event ev.candidates) hc
  · rwa [observe_of_retired lost] at hc'
  · exact hc'

/-! ## Runs -/

theorem length_observeOver (ev : Evaluation) (history : List (Registry × SecurityEvent)) :
    (ev.observeOver history).1.candidates.length = ev.candidates.length := by
  induction history generalizing ev with
  | nil => rfl
  | cons input history ih => exact (ih _).trans (ev.length_observe input.1 input.2)

theorem observeOver_of_lost {i : Nat} {c : Candidate} (hc : ev.candidates[i]? = some c)
    (lost : c.isViable = false) (history : List (Registry × SecurityEvent)) :
    (ev.observeOver history).1.candidates[i]? = some c := by
  induction history generalizing ev with
  | nil => exact hc
  | cons input history ih => exact ih (observe_of_lost hc lost)

/-- Once an event is answered by a shortfall, the others pass. -/
theorem answer_of_later {i j : Nat} (later : i < j) {why : Shortfall}
    (answer : (ev.observeOver history).2[i]? = some (.ok (some why)))
    {next : Except Failure (Option Shortfall)} (hnext : (ev.observeOver history).2[j]? = some next) :
    next = .ok none := by
  induction history generalizing ev i j with
  | nil => cases answer
  | cons input history ih =>
    rw [observeOver_cons] at answer hnext
    obtain ⟨j, rfl⟩ := Nat.exists_eq_add_one_of_ne_zero (Nat.ne_zero_of_lt later)
    cases i with
    | succ i => exact ih (Nat.lt_of_succ_lt_succ later) answer hnext
    | zero =>
      have closed := viable_eq_nil_of_observe (Prod.ext rfl (Option.some.inj answer))
      rw [observeOver_of_idle fun input _ => observe_of_viable_eq_nil closed,
        List.getElem?_cons_succ] at hnext
      obtain ⟨input, -, rfl⟩ := List.mem_map.1 (List.mem_of_getElem? hnext)
      rfl

/-- Why a run lost a candidate last, if it lost one.  It did so at an event after which none is lost,
and of the candidates that this event loses, it is the last one by index. -/
inductive LatestLoss (ev : Evaluation) (history : List (Registry × SecurityEvent)) :
    Option Shortfall → Prop where
  | nothing : NoneLost ev.candidates (ev.observeOver history).1.candidates → LatestLoss ev history none
  | latest {why : Shortfall} {before after : List (Registry × SecurityEvent)}
    {input : Registry × SecurityEvent} :
    history = before ++ [input] ++ after →
    LostLast (ev.observeOver before).1.candidates (ev.observeOver (before ++ [input])).1.candidates
      why →
    NoneLost (ev.observeOver (before ++ [input])).1.candidates
      (ev.observeOver history).1.candidates →
    LatestLoss ev history (some why)

/-- What a run remembers is its latest loss. -/
theorem latestLoss_observeOver (fresh : ev.lastLoss = none)
    (history : List (Registry × SecurityEvent)) :
    LatestLoss ev history (ev.observeOver history).1.lastLoss := by
  induction history using List.reverseRecOn with
  | nil =>
    have remembered : (ev.observeOver []).1.lastLoss = none := fresh
    rw [remembered]
    exact .nothing (noneLost_self _)
  | append_singleton history input ih =>
    have same := ev.length_observeOver history
    obtain ⟨loss, last, remembered⟩ := (ev.observeOver history).1.exists_lastLoss input.1 input.2
    rw [← observeOver_snoc] at last remembered
    rw [remembered]
    generalize (ev.observeOver history).1.lastLoss = earlier at ih
    cases last with
    | last last =>
      exact .latest (List.append_nil _).symm last (noneLost_self _)
    | nothing quiet =>
      cases ih with
      | nothing before => exact .nothing (before.trans quiet same)
      | @latest why before after input' split last between =>
        have extended : history ++ [input] = before ++ [input'] ++ (after ++ [input]) := by
          rw [split, List.append_assoc _ after]
        exact .latest extended last (between.trans quiet (by rw [same, length_observeOver]))

/-! ## Verdicts -/

/-- Where no obligation of an open candidate is unmet, an open candidate satisfies the policy. -/
theorem isSatisfied_of_unmet_eq_nil (isOpen : ev.viable ≠ []) (unmet : ev.unmet = []) :
    ev.isSatisfied = true := by
  obtain ⟨c, hc⟩ := List.exists_mem_of_ne_nil _ isOpen
  obtain ⟨hmem, hopen⟩ := List.mem_filter.1 hc
  refine isSatisfied_iff.2 ⟨c, hmem, hopen, List.all_eq_true.2 fun o ho => ?_⟩
  simpa using List.filter_eq_nil_iff.1 unmet o (List.mem_flatMap_of_mem hc ho)

/-- A run that loses all candidates remembers the latest loss. -/
theorem exists_latestLoss (fresh : ev.lastLoss = none) (isOpen : ev.viable ≠ [])
    (closed : (ev.observeOver history).1.viable = []) :
    ∃ why, (ev.observeOver history).1.lastLoss = some why ∧ LatestLoss ev history (some why) := by
  have latest := latestLoss_observeOver fresh history
  cases remembered : (ev.observeOver history).1.lastLoss with
  | some why =>
    rw [remembered] at latest
    exact ⟨why, rfl, latest⟩
  | none =>
    rw [remembered] at latest
    obtain ⟨quiet⟩ := latest
    exact absurd quiet (not_noneLost isOpen closed (ev.length_observeOver history))

end Evaluation

/-! ## Texts -/

/-- The text begins with a character other than the given one. -/
def BeginsApart (c : Char) (text : String) : Prop :=
  ∃ first, text.toList.head? = some first ∧ first ≠ c

theorem beginsApart_ofList {c first : Char} (other : first ≠ c) (rest : List Char) :
    BeginsApart c (String.ofList (first :: rest)) := by
  refine ⟨first, ?_, other⟩
  rw [String.toList_ofList]
  rfl

theorem BeginsApart.append {c : Char} {text : String} (h : BeginsApart c text) (more : String) :
    BeginsApart c (text ++ more) := by
  obtain ⟨first, begins, other⟩ := h
  refine ⟨first, ?_, other⟩
  rw [String.toList_append, List.head?_append, begins]
  rfl

theorem Shortfall.message_beginsApart (why : Shortfall) : BeginsApart 'N' why.message := by
  unfold message
  cases why <;> dsimp only
  all_goals
    repeat with_reducible apply BeginsApart.append
    exact beginsApart_ofList (by decide) _

/-- A violation with a reason does not say that there is none. -/
theorem Violation.message_ne_noneSatisfied {violation : Violation}
    (reason : (∃ assertion why, violation = .unmet assertion why) ∨ ∃ why, violation = .lost why) :
    violation.message ≠ noneSatisfied.message := by
  have apart : BeginsApart 'N' violation.message := by
    obtain ⟨assertion, _ | why, rfl⟩ | ⟨why, rfl⟩ := reason
    · exact ((beginsApart_ofList (by decide) _).append _).append _
    · exact (((beginsApart_ofList (by decide) _).append _).append _).append _
    · exact why.message_beginsApart
  obtain ⟨first, begins, other⟩ := apart
  intro same
  rw [same] at begins
  exact other (Option.some.inj begins).symm

/-! ## Verdict and diagnostics -/

namespace Evaluation

variable {ev e : Evaluation} {history : List (Registry × SecurityEvent)}

/-- A policy that has alternatives and is not satisfied has a reason: the first obligation that is not
met, or else the latest loss. -/
theorem violation_of_unsatisfied (fresh : ev.lastLoss = none) (isOpen : ev.viable ≠ [])
    (reached : (ev.observeOver history).1 = e) (unsatisfied : e.isSatisfied = false) :
    (∃ o os, e.unmet = o :: os ∧ e.violation = .unmet o.name o.shortfall) ∨
      e.unmet = [] ∧ ∃ why, LatestLoss ev history (some why) ∧ e.violation = .lost why := by
  subst reached
  have alternatives : (ev.observeOver history).1.candidates.isEmpty = false := by
    obtain ⟨c, hc⟩ := List.exists_mem_of_ne_nil _ isOpen
    have stays := List.length_pos_of_mem (List.mem_of_mem_filter hc)
    rw [← ev.length_observeOver history, List.length_pos_iff] at stays
    exact List.isEmpty_eq_false_iff.2 stays
  cases unmet : (ev.observeOver history).1.unmet with
  | cons o os =>
    refine .inl ⟨o, os, rfl, ?_⟩
    rw [violation, alternatives, unmet]
    rfl
  | nil =>
    have closed : (ev.observeOver history).1.viable = [] := by
      by_contra isOpen
      rw [isSatisfied_of_unmet_eq_nil isOpen unmet] at unsatisfied
      cases unsatisfied
    obtain ⟨why, remembered, latest⟩ := exists_latestLoss fresh isOpen closed
    refine .inr ⟨rfl, why, latest, ?_⟩
    rw [violation, alternatives, unmet, remembered]
    rfl

/-- The verdict on a policy and what is said of it agree after every run, whatever its events are and
whether they are read or fail.

* An alternative that is lost stays lost, for the same reason.
* An event is answered by a shortfall exactly if it leaves no alternative open and found one open.  It
  is the shortfall of the last alternative, by index, that the event loses.
* In one run this happens at most once.
* If some alternative is open and no obligation is unmet, the policy is satisfied.
* If a policy with alternatives is not satisfied, the message names the first obligation that is unmet,
  or else it is that of the latest loss.  It never says that no alternative could be satisfied. -/
theorem diagnostics_agree {policy : Policy} {initiator : Bool}
    (built : ofPolicy policy initiator = .ok ev) (history : List (Registry × SecurityEvent))
    (reached : (ev.observeOver history).1 = e) :
    (∀ (i : Nat) (c : Candidate), e.candidates[i]? = some c → c.isViable = false →
      ∀ later, (e.observeOver later).1.candidates[i]? = some c) ∧
    (∀ (r : Registry) (event : SecurityEvent),
      ((∃ why, (e.observe r event).2 = .ok (some why)) ↔
        e.viable ≠ [] ∧ (e.observe r event).1.viable = []) ∧
      ∀ why, (e.observe r event).2 = .ok (some why) →
        LostLast e.candidates (e.observe r event).1.candidates why) ∧
    (∀ (i j : Nat) (why why' : Shortfall),
      (ev.observeOver history).2[i]? = some (.ok (some why)) →
      (ev.observeOver history).2[j]? = some (.ok (some why')) → i = j) ∧
    (e.viable ≠ [] → e.unmet = [] → e.isSatisfied = true) ∧
    (policy.alternatives ≠ [] → e.isSatisfied = false →
      ((∃ o os, e.unmet = o :: os ∧ e.violation = .unmet o.name o.shortfall) ∨
        e.unmet = [] ∧ ∃ why, LatestLoss ev history (some why) ∧ e.violation = .lost why) ∧
      e.violation.message ≠ "No policy alternative could be satisfied") := by
  refine ⟨fun i c hc lost later => observeOver_of_lost hc lost later,
    fun r event => ⟨exists_answer_iff e r event, fun why => lostLast_of_answer⟩,
    fun i j why why' first second => ?_, isSatisfied_of_unmet_eq_nil, fun alternatives unsatisfied => ?_⟩
  · rcases Nat.lt_trichotomy i j with later | same | earlier
    · cases answer_of_later later first second
    · exact same
    · cases answer_of_later earlier second first
  · have reason := violation_of_unsatisfied (lastLoss_of_ofPolicy built)
      (viable_of_ofPolicy built alternatives) reached unsatisfied
    refine ⟨reason, Violation.message_ne_noneSatisfied ?_⟩
    obtain ⟨o, os, -, names⟩ | ⟨-, why, -, names⟩ := reason
    · exact .inl ⟨o.name, o.shortfall, names⟩
    · exact .inr ⟨why, names⟩

/-- Asks in either of two ways for the signature of an element. -/
def signedEitherWay : Policy :=
  ⟨[⟨[.signedElements ⟨[⟨"//a", []⟩]⟩]⟩, ⟨[.signedElements ⟨[⟨"/x/a", []⟩]⟩]⟩]⟩

/-- The element is found unsigned. -/
def foundUnsigned : Registry × SecurityEvent :=
  ({}, .ofSigned ⟨0⟩ [⟨"", "x"⟩, ⟨"", "a"⟩] false)

/-- One event loses both alternatives.  It is answered by the shortfall of the second, and after it
there is nothing to speak of but the latest loss. -/
theorem diagnostics_signedEitherWay :
    ∃ ev why latest, ofPolicy signedEitherWay false = .ok ev ∧
      (ev.observe foundUnsigned.1 foundUnsigned.2).2 = .ok (some why) ∧
      LostLast ev.candidates (ev.observe foundUnsigned.1 foundUnsigned.2).1.candidates why ∧
      LatestLoss ev [foundUnsigned] (some latest) ∧
      (ev.observeOver [foundUnsigned]).1.violation = .lost latest := by
  have built : ofPolicy signedEitherWay false = .ok _ := rfl
  obtain ⟨-, answers, -⟩ := diagnostics_agree built [] rfl
  obtain ⟨closes, last⟩ := answers foundUnsigned.1 foundUnsigned.2
  obtain ⟨why, answer⟩ := closes.2 ⟨by decide, by decide⟩
  obtain ⟨-, -, -, -, verdict⟩ := diagnostics_agree built [foundUnsigned] rfl
  obtain ⟨⟨o, os, unmet, -⟩ | ⟨-, latest, loss, names⟩, -⟩ := verdict (by decide) (by decide)
  · cases unmet
  · exact ⟨_, why, latest, built, answer, last why answer, loss, names⟩

end Evaluation

end SoapPolicy
