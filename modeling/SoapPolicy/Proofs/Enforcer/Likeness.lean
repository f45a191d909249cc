import SoapPolicy.Proofs.Carrying
import SoapPolicy.Proofs.Enforcer.Replay

/-!
# Enforcers that are alike

A likeness of obligations carries over to enforcers.  Two enforcers are alike if they differ in
nothing but evaluations that are alike, or, while the operation is not known, in queues that every
policy of the service would read alike (`Alike`).  They answer every allowed event alike and stay
alike (`Alike.register`, `Alike.registerAll`), and they give the same verdict (`Alike.finish`).

An event that every evaluation absorbs leaves an enforcer like the one before (`alike_register`).  An
event that was just read leaves one like the one before if every evaluation absorbs it the second
time (`alike_register_again`).
-/

namespace SoapPolicy.Enforcer

/-! ## The relation -/

/-- Two calls are answered in the same way and leave related enforcers. -/
structure SameAnswer {α : Type} (R : Enforcer → Enforcer → Prop) (answer answer' : Enforcer × α) :
    Prop where
  same : answer.2 = answer'.2
  state : R answer.1 answer'.1

section
variable (r : Registry) (ρ : Obligation → Obligation → Prop)

/-- The enforcers differ in nothing but evaluations that are alike. -/
def AlikeEvaluating (e e' : Enforcer) : Prop :=
  ∃ ev ev', e.phase = .evaluating ev ∧ Evaluation.Alike ρ ev ev' ∧ e.tokens = r ∧
    e' = { e with phase := .evaluating ev' }

/-- A policy of which nothing was read yet reads two queues alike. -/
def AlikeQueues (policy : Policy) (initiator : Bool) (queue queue' : List SecurityEvent) : Prop :=
  ∀ (e : Enforcer) (ev : Evaluation), Evaluation.ofPolicy policy initiator = .ok ev →
    e.phase = .evaluating ev → e.tokens = r →
    SameAnswer (AlikeEvaluating r ρ) (e.replay queue) (e.replay queue')

/-- The enforcers evaluate alike, or wait with queues that every policy would read alike. -/
inductive Alike (e e' : Enforcer) : Prop where
  | evaluating : AlikeEvaluating r ρ e e' → Alike e e'
  | waiting {policies : List OperationPolicy} {default : Option Policy}
    {queue queue' : List SecurityEvent} :
    e.phase = .waiting policies default queue → e.tokens = r →
    (∀ policy ∈ policies.map OperationPolicy.policy ++ default.toList,
      AlikeQueues r ρ policy e.context.initiator queue queue') →
    e' = { e with phase := .waiting policies default queue' } → Alike e e'

end

variable {r : Registry} {ρ : Obligation → Obligation → Prop} {allowed : SecurityEvent → Prop}
  {e e' : Enforcer} {event : SecurityEvent}

/-! ## Evaluating -/

/-- The verdict that is given on the policy under evaluation. -/
theorem judge_eq (e : Enforcer) :
    e.judge = e.conclude
      (match e.withheld with
      | some why => .violated why
      | none => if e.isSatisfied then .satisfied else .violated e.violation) := by
  rw [judge]
  cases e.withheld with
  | some why => rfl
  | none => exact (apply_ite e.conclude (e.isSatisfied = true) _ _).symm

namespace AlikeEvaluating

theorem withOperation (h : AlikeEvaluating r ρ e e') (operation : Option QName) :
    AlikeEvaluating r ρ { e with operation } { e' with operation } := by
  obtain ⟨ev, ev', hp, alike, tokens, rfl⟩ := h
  exact ⟨ev, ev', hp, alike, tokens, rfl⟩

theorem withVerdict (h : AlikeEvaluating r ρ e e') (verdict : Option Verdict) :
    AlikeEvaluating r ρ { e with verdict } { e' with verdict } := by
  obtain ⟨ev, ev', hp, alike, tokens, rfl⟩ := h
  exact ⟨ev, ev', hp, alike, tokens, rfl⟩

theorem raise (h : AlikeEvaluating r ρ e e') (why : Violation) :
    SameAnswer (AlikeEvaluating r ρ) (e.raise why) (e'.raise why) := by
  obtain ⟨ev, ev', hp, alike, tokens, rfl⟩ := h
  cases hs : e.context.softFail with
  | true =>
    rw [raise_of_soft hs, raise_of_soft (e := { e with phase := .evaluating ev' }) hs]
    exact ⟨rfl, ev, ev', hp, alike, tokens, rfl⟩
  | false =>
    rw [raise_of_hard hs, raise_of_hard (e := { e with phase := .evaluating ev' }) hs]
    exact ⟨rfl, ev, ev', hp, alike, tokens, rfl⟩

variable (likeness : Likeness r allowed ρ)
include likeness

theorem dispatch (h : AlikeEvaluating r ρ e e') (ok : allowed event) :
    SameAnswer (AlikeEvaluating r ρ) (e.dispatch event) (e'.dispatch event) := by
  obtain ⟨ev, ev', hp, alike, rfl, rfl⟩ := h
  obtain ⟨same, after⟩ := alike.observe likeness ok
  simp only [Enforcer.dispatch, hp]
  generalize ev.observe e.tokens event = step, ev'.observe e.tokens event = step' at same after
  obtain ⟨ev₁, answer⟩ := step
  obtain ⟨ev₁', answer'⟩ := step'
  obtain rfl : answer = answer' := same
  have related : AlikeEvaluating e.tokens ρ { e with phase := .evaluating ev₁ }
      { e with phase := .evaluating ev₁' } := ⟨ev₁, ev₁', rfl, after, rfl, rfl⟩
  rcases answer with f | _ | why
  · exact ⟨rfl, related⟩
  · exact ⟨rfl, related⟩
  · exact related.raise (.lost why)

theorem judge (h : AlikeEvaluating r ρ e e') :
    SameAnswer (AlikeEvaluating r ρ) e.judge e'.judge := by
  obtain ⟨ev, ev', hp, alike, tokens, rfl⟩ := h
  have satisfied : e.isSatisfied = ev'.isSatisfied := by
    rw [isSatisfied, hp]
    exact alike.isSatisfied likeness
  have violated : e.violation = ev'.violation := by
    rw [violation, hp]
    exact alike.violation likeness
  rw [judge_eq, judge_eq, satisfied, violated]
  exact ⟨rfl, ev, ev', hp, alike, tokens, rfl⟩

end AlikeEvaluating

theorem SameAnswer.andThen {answer answer' : Enforcer × Except Failure Unit}
    (h : SameAnswer (AlikeEvaluating r ρ) answer answer')
    {rest rest' : Enforcer → Enforcer × Except Failure Unit}
    (go_on : ∀ {e e'}, AlikeEvaluating r ρ e e' →
      SameAnswer (AlikeEvaluating r ρ) (rest e) (rest' e')) :
    SameAnswer (AlikeEvaluating r ρ) (Enforcer.andThen answer rest)
      (Enforcer.andThen answer' rest') := by
  obtain ⟨e, a⟩ := answer
  obtain ⟨e', a'⟩ := answer'
  obtain ⟨same, state⟩ := h
  obtain rfl : a = a' := same
  cases a with
  | ok u => exact go_on state
  | error f => exact ⟨rfl, state⟩

/-! ## Waiting -/

namespace AlikeQueues

variable {policy : Policy} {initiator : Bool} {queue queue' : List SecurityEvent}

/-- A policy reads no event alike if its obligations are like themselves. -/
theorem nil (fresh : ∀ ev, Evaluation.ofPolicy policy initiator = .ok ev →
    Evaluation.Alike ρ ev ev) : AlikeQueues r ρ policy initiator [] [] := by
  intro e ev built hp tokens
  refine ⟨rfl, ev, ev, hp, fresh ev built, tokens, ?_⟩
  rw [← hp]
  rfl

theorem snoc (likeness : Likeness r allowed ρ) (h : AlikeQueues r ρ policy initiator queue queue')
    (ok : allowed event) :
    AlikeQueues r ρ policy initiator (queue ++ [event]) (queue' ++ [event]) := by
  intro e ev built hp tokens
  rw [replay_append, replay_append]
  refine (h e ev built hp tokens).andThen fun alike => ?_
  rw [replay_singleton, replay_singleton]
  exact alike.dispatch likeness ok

end AlikeQueues

/-! ## Taking events -/

namespace Alike

theorem withVerdict (h : Alike r ρ e e') (verdict : Option Verdict) :
    Alike r ρ { e with verdict } { e' with verdict } := by
  cases h with
  | evaluating h => exact .evaluating (h.withVerdict verdict)
  | waiting hp tokens queues same =>
    subst same
    exact .waiting hp tokens queues rfl

theorem verdict_eq (h : Alike r ρ e e') : e'.verdict = e.verdict := by
  cases h with
  | evaluating h =>
    obtain ⟨ev, ev', -, -, -, rfl⟩ := h
    rfl
  | waiting hp tokens queues same =>
    subst same
    rfl

theorem context_eq (h : Alike r ρ e e') : e'.context = e.context := by
  cases h with
  | evaluating h =>
    obtain ⟨ev, ev', -, -, -, rfl⟩ := h
    rfl
  | waiting hp tokens queues same =>
    subst same
    rfl

/-- What a refused call leaves is alike as well. -/
theorem settle {answer answer' : Enforcer × Except Failure Unit}
    (h : SameAnswer (Alike r ρ) answer answer') :
    Alike r ρ (settle answer) (settle answer') := by
  obtain ⟨e, a⟩ := answer
  obtain ⟨e', a'⟩ := answer'
  obtain ⟨same, state⟩ := h
  obtain rfl : a = a' := same
  cases a with
  | ok u => exact state
  | error f =>
    rw [settle_error, settle_error, stop, stop, verdict_eq state]
    exact withVerdict state _

/-- An enforcer is like itself before any event if the obligations of its policies are. -/
theorem of_ofSource {source : PolicySource} {context : EnforcerContext}
    (built : ofSource source context = .ok e)
    (fresh : ∀ a o, source.Asserts a → Obligation.ofAssertion a context.initiator = .ok o → ρ o o)
    (tokens : Registry) : Alike tokens ρ { e with tokens } { e with tokens } := by
  have each : ∀ policy ∈ source.policies, ∀ ev,
      Evaluation.ofPolicy policy context.initiator = .ok ev → Evaluation.Alike ρ ev ev := by
    intro policy hmem ev made
    refine Evaluation.alike_self_iff.2 fun c hc o ho => ?_
    obtain ⟨a, asserts, hao⟩ := PolicySource.each_ofAssertion hmem made c hc o ho
    exact fresh a o asserts hao
  cases source with
  | policy policy =>
    obtain ⟨ev, hev, rfl⟩ := ofPolicy_eq_ok_iff.1 built
    exact .evaluating ⟨ev, ev, rfl, each policy (.head _) ev hev, rfl, rfl⟩
  | operations policies default =>
    obtain ⟨-, rfl⟩ := ofOperations_eq_ok_iff.1 built
    exact .waiting rfl rfl (fun policy hmem => .nil (each policy hmem)) rfl

variable (likeness : Likeness r allowed ρ)
include likeness

theorem process (h : Alike r ρ e e') (ok : allowed event) :
    SameAnswer (Alike r ρ) (e.process event) (e'.process event) := by
  cases h with
  | evaluating h =>
    have told := (h.withOperation (e.operationAfter event)).dispatch likeness ok
    obtain ⟨ev, ev', hp, alike, tokens, rfl⟩ := h
    rw [process_of_evaluating hp, process_of_evaluating (e := { e with phase := .evaluating ev' }) rfl]
    exact ⟨told.same, .evaluating told.state⟩
  | @waiting policies default queue queue' hp tokens queues same =>
    subst same
    let other : Enforcer := { e with phase := .waiting policies default queue' }
    cases hop : event.operation? with
    | none =>
      rw [process_of_waiting hp hop, process_of_waiting (e := other) rfl hop]
      exact ⟨rfl, .waiting rfl tokens
        (fun policy hmem => (queues policy hmem).snoc likeness ok) rfl⟩
    | some name =>
      cases SecurityEvent.operation?_eq_some_iff.1 hop
      rw [process_operation hp, process_operation (e := other) rfl]
      cases chosen : policyFor? policies default name with
      | none => exact ⟨rfl, .waiting hp tokens queues rfl⟩
      | some policy =>
        have hmem := (policyFor?_eq_some_iff.1 chosen).mem
        dsimp only [Enforcer.start, other]
        cases built : Evaluation.ofPolicy policy e.context.initiator with
        | error f => exact ⟨rfl, .waiting hp tokens queues rfl⟩
        | ok ev =>
          have started := queues policy hmem
            { e with operation := some name, phase := .evaluating ev } ev built rfl tokens
          have read := started.andThen fun alike => alike.dispatch likeness ok
          exact ⟨read.same, .evaluating read.state⟩

/-- Enforcers that are alike answer an allowed event alike, and are alike after it. -/
theorem register (h : Alike r ρ e e') (ok : allowed event) :
    SameAnswer (Alike r ρ) (e.register event) (e'.register event) := by
  have same := h.verdict_eq
  cases hv : e.verdict with
  | some verdict =>
    rw [hv] at same
    rw [register_of_isFinalized (isFinalized_of_verdict hv),
      register_of_isFinalized (isFinalized_of_verdict same)]
    exact ⟨rfl, h⟩
  | none =>
    rw [hv] at same
    rw [register_of_open hv, register_of_open same]
    have processed := h.process likeness ok
    exact ⟨processed.same, settle processed⟩

/-- The same holds of a run. -/
theorem registerAll (h : Alike r ρ e e') (events : List SecurityEvent)
    (ok : ∀ event ∈ events, allowed event) :
    SameAnswer (Alike r ρ) (e.registerAll events) (e'.registerAll events) := by
  induction events generalizing e e' with
  | nil => exact ⟨rfl, h⟩
  | cons event events ih =>
    obtain ⟨first, others⟩ := List.forall_mem_cons.1 ok
    have step := h.register likeness first
    have rest := ih step.state others
    rw [registerAll_cons, registerAll_cons]
    exact ⟨congrArg₂ List.cons step.same rest.same, rest.state⟩

/-- Enforcers that are alike give the same verdict, and are alike after it. -/
theorem finish (h : Alike r ρ e e') : SameAnswer (Alike r ρ) e.finish e'.finish := by
  have same := h.verdict_eq
  cases hv : e.verdict with
  | some verdict =>
    rw [hv] at same
    rw [finish_of_verdict hv, finish_of_verdict same]
    refine ⟨?_, h⟩
    cases verdict with
    | satisfied => rfl
    | violated why => simp only [report, h.context_eq]
  | none =>
    rw [hv] at same
    cases h with
    | evaluating h =>
      have judged := h.judge likeness
      obtain ⟨ev, ev', hp, -, -, rfl⟩ := h
      rw [finish_of_evaluating hp hv, finish_of_evaluating rfl same]
      exact ⟨judged.same, .evaluating judged.state⟩
    | @waiting policies default queue queue' hp tokens queues other =>
      subst other
      cases default with
      | none =>
        simp only [Enforcer.finish, hv, hp]
        exact ⟨rfl, .waiting hp tokens queues rfl⟩
      | some policy =>
        have own : policy ∈ policies.map OperationPolicy.policy ++ (some policy).toList := by simp
        rw [finish_of_waiting hp hv, finish_of_waiting rfl same]
        dsimp only [Enforcer.start]
        cases built : Evaluation.ofPolicy policy e.context.initiator with
        | error f => exact ⟨rfl, .waiting hp tokens queues rfl⟩
        | ok ev =>
          have started := queues policy own { e with phase := .evaluating ev } ev built rfl tokens
          dsimp only
          generalize replay _ queue = answer, replay _ queue' = answer' at started
          obtain ⟨e₁, a⟩ := answer
          obtain ⟨e₁', a'⟩ := answer'
          obtain ⟨given, state⟩ := started
          obtain rfl : a = a' := given
          cases a with
          | error f =>
            have stopped : SameAnswer (Alike r ρ) (e₁, (.error f : Except Failure Unit))
                (e₁', .error f) := ⟨rfl, .evaluating state⟩
            exact ⟨rfl, settle stopped⟩
          | ok u =>
            have judged := state.judge likeness
            exact ⟨judged.same, .evaluating judged.state⟩

/-- The obligations that are not met are alike. -/
theorem unmet (h : Alike r ρ e e') : List.Forall₂ ρ e.unmet e'.unmet := by
  cases h with
  | evaluating h =>
    obtain ⟨ev, ev', hp, alike, tokens, rfl⟩ := h
    simp only [Enforcer.unmet, hp]
    exact alike.unmet likeness
  | waiting hp tokens queues same =>
    subst same
    simp only [Enforcer.unmet, hp]
    exact .nil

end Alike

/-! ## Absorbing an event -/

theorem AlikeEvaluating.exists_self (h : AlikeEvaluating r ρ e e) :
    ∃ ev, e.phase = .evaluating ev ∧ Evaluation.Alike ρ ev ev ∧ e.tokens = r := by
  obtain ⟨ev, ev', hp, alike, tokens, same⟩ := h
  have hp' : e.phase = .evaluating ev' := congrArg Enforcer.phase same
  rw [hp] at hp'
  cases hp'
  exact ⟨ev, hp, alike, tokens⟩

/-- An enforcer absorbs an event if its evaluation does. -/
theorem dispatch_of_absorbs {ev : Evaluation} (hp : e.phase = .evaluating ev)
    (tokens : e.tokens = r) (absorbs : ev.Absorbs r ρ event) :
    (e.dispatch event).2 = .ok () ∧ AlikeEvaluating r ρ e (e.dispatch event).1 := by
  have read : ev.observe e.tokens event = ((ev.observe r event).1, .ok none) := by
    rw [tokens]
    exact Prod.ext rfl absorbs.passes
  simp only [dispatch, hp, read]
  exact ⟨trivial, ev, _, hp, absorbs.alike, tokens, rfl⟩

/-- While a policy is evaluated, registering an event is dispatching it. -/
theorem AlikeEvaluating.register_absorbed (h : AlikeEvaluating r ρ e e)
    (named : e.operationAfter event = e.operation)
    (absorbed : (e.dispatch event).2 = .ok () ∧ AlikeEvaluating r ρ e (e.dispatch event).1) :
    Alike r ρ e (e.register event).1 := by
  obtain ⟨ev, hp, -, -⟩ := h.exists_self
  cases hv : e.verdict with
  | some verdict =>
    rw [register_of_isFinalized (isFinalized_of_verdict hv)]
    exact .evaluating h
  | none =>
    have unnamed : ({ e with operation := e.operationAfter event } : Enforcer) = e := by
      rw [named]
    obtain ⟨answer, after⟩ := absorbed
    rw [register_of_open hv, process_of_evaluating hp, unnamed]
    generalize e.dispatch event = step at answer after
    obtain ⟨e₁, a⟩ := step
    cases answer
    exact .evaluating after

theorem operationAfter_of_quiet (e : Enforcer) (quiet : event.operation? = none) :
    e.operationAfter event = e.operation := by
  cases event with
  | operation name => cases quiet
  | _ => rfl

section
variable (absorbs : ∀ ev, Evaluation.Alike ρ ev ev → ev.Absorbs r ρ event)
include absorbs

/-- A queue may end with an event that every evaluation absorbs. -/
theorem AlikeQueues.absorb {policy : Policy} {initiator : Bool} {queue : List SecurityEvent}
    (h : AlikeQueues r ρ policy initiator queue queue) :
    AlikeQueues r ρ policy initiator queue (queue ++ [event]) := by
  intro e ev built hp tokens
  have self := h e ev built hp tokens
  rw [replay_append]
  rcases read : e.replay queue with ⟨e₁, f | u⟩
  · rw [read] at self
    exact ⟨rfl, self.state⟩
  · rw [read] at self
    obtain ⟨ev₁, hp₁, alike, tokens₁⟩ := self.state.exists_self
    obtain ⟨answer, after⟩ := dispatch_of_absorbs hp₁ tokens₁ (absorbs ev₁ alike)
    rw [andThen_ok, replay_singleton]
    exact ⟨answer.symm, after⟩

/-- An event that every evaluation absorbs leaves an enforcer like the one before. -/
theorem alike_register (h : Alike r ρ e e) (quiet : event.operation? = none) :
    Alike r ρ e (e.register event).1 := by
  cases h with
  | evaluating h =>
    obtain ⟨ev, hp, alike, tokens⟩ := h.exists_self
    exact h.register_absorbed (operationAfter_of_quiet e quiet)
      (dispatch_of_absorbs hp tokens (absorbs ev alike))
  | @waiting policies default queue queue' hp tokens queues same =>
    have hp' : e.phase = .waiting policies default queue' := congrArg Enforcer.phase same
    rw [hp] at hp'
    cases hp'
    cases hv : e.verdict with
    | some verdict =>
      rw [register_of_isFinalized (isFinalized_of_verdict hv)]
      exact .waiting hp tokens queues same
    | none =>
      rw [register_of_open hv, process_of_waiting hp quiet]
      exact .waiting hp tokens (fun policy hmem => (queues policy hmem).absorb absorbs) rfl

end

/-! ## Reading an event again -/

section
variable (again : ∀ ev ev' why, Evaluation.Alike ρ ev ev → ev.observe r event = (ev', .ok why) →
  ev'.Absorbs r ρ event)
include again

theorem AlikeEvaluating.dispatch_again (h : AlikeEvaluating r ρ e e)
    (read : e.dispatch event = (e', .ok ())) :
    (e'.dispatch event).2 = .ok () ∧ AlikeEvaluating r ρ e' (e'.dispatch event).1 := by
  obtain ⟨ev, hp, alike, rfl⟩ := h.exists_self
  have step := dispatch_cases hp event
  rw [read] at step
  generalize answered : (e', Except.ok ()) = answer at step
  cases step with
  | failed ho => cases answered
  | passed ho =>
    cases answered
    exact dispatch_of_absorbs rfl rfl (again ev _ _ alike ho)
  | @lost ev' why ho =>
    cases hs : e.context.softFail with
    | true =>
      rw [raise_of_soft (e := { e with phase := .evaluating ev' }) hs] at answered
      cases answered
      exact dispatch_of_absorbs rfl rfl (again ev _ _ alike ho)
    | false =>
      rw [raise_of_hard (e := { e with phase := .evaluating ev' }) hs] at answered
      cases answered

omit again in
theorem operationAfter_self {e₁ : Enforcer} (h : e₁.operation = e.operationAfter event) :
    e₁.operationAfter event = e₁.operation := by
  cases event with
  | operation name => exact h.symm
  | _ => rfl

/-- An event may be read twice once an enforcer evaluates a policy. -/
theorem alike_register_of_dispatch (likeness : Likeness r allowed ρ) (ok : allowed event)
    (h : AlikeEvaluating r ρ e e) (read : e.dispatch event = (e', .ok ()))
    (named : e'.operationAfter event = e'.operation) : Alike r ρ e' (e'.register event).1 := by
  have self := (h.dispatch likeness ok).state
  rw [read] at self
  exact self.register_absorbed named (h.dispatch_again again read)

/-- A queue may end with an event that comes twice. -/
theorem AlikeQueues.snoc_again (likeness : Likeness r allowed ρ) (ok : allowed event)
    {policy : Policy} {initiator : Bool} {queue : List SecurityEvent}
    (h : AlikeQueues r ρ policy initiator queue queue) :
    AlikeQueues r ρ policy initiator (queue ++ [event]) (queue ++ [event] ++ [event]) := by
  intro e ev built hp tokens
  have self := h e ev built hp tokens
  have once := h.snoc likeness ok e ev built hp tokens
  rw [replay_append (queue ++ [event]) [event]]
  rw [replay_append] at once ⊢
  rcases read : e.replay queue with ⟨e₁, f | u⟩
  · rw [read] at once
    exact ⟨rfl, once.state⟩
  · rw [read] at self once
    rw [andThen_ok, replay_singleton] at once ⊢
    rcases twice : e₁.dispatch event with ⟨e₂, f | u⟩
    · rw [twice] at once
      exact ⟨rfl, once.state⟩
    · obtain ⟨answer, after⟩ := self.state.dispatch_again again twice
      rw [andThen_ok, replay_singleton]
      exact ⟨answer.symm, after⟩

/-- An event that is taken may come again. -/
theorem alike_register_of_process (likeness : Likeness r allowed ρ) (ok : allowed event)
    (h : Alike r ρ e e) (open_before : e.verdict = none) (taken : e.process event = (e', .ok ())) :
    Alike r ρ e' (e'.register event).1 := by
  cases h with
  | evaluating h =>
    obtain ⟨ev, hp, -, -⟩ := h.exists_self
    have told := h.withOperation (e.operationAfter event)
    have named := operation_dispatch { e with operation := e.operationAfter event } event
    rw [process_of_evaluating hp] at taken
    rw [taken] at named
    exact alike_register_of_dispatch again likeness ok told taken (operationAfter_self named)
  | @waiting policies default queue queue' hp tokens queues same =>
    have hp' : e.phase = .waiting policies default queue' := congrArg Enforcer.phase same
    rw [hp] at hp'
    cases hp'
    cases hop : event.operation? with
    | none =>
      rw [process_of_waiting hp hop] at taken
      cases taken
      let e₁ : Enforcer := { e with phase := .waiting policies default (queue ++ [event]) }
      rw [register_of_open (e := e₁) open_before, process_of_waiting (e := e₁) rfl hop]
      exact .waiting rfl tokens
        (fun policy hmem => (queues policy hmem).snoc_again again likeness ok) rfl
    | some name =>
      cases SecurityEvent.operation?_eq_some_iff.1 hop
      obtain ⟨policy, ev, chosen, built, read⟩ := exists_selected hp taken
      obtain ⟨e₀, replayed, dispatched⟩ := replay_snoc_ok read
      -- the selected policy has read the queue before the operation event
      have fresh := queues policy (policyFor?_eq_some_iff.1 chosen).mem
        { e with operation := some name, phase := .evaluating ev } ev built rfl tokens
      have before := operation_replay { e with operation := some name, phase := .evaluating ev } queue
      have named := operation_dispatch e₀ (.operation name)
      rw [replayed] at fresh before
      rw [dispatched] at named
      exact alike_register_of_dispatch again likeness ok fresh.state dispatched
        (named.trans before).symm

/-- An event that an enforcer has taken leaves one like it when it comes again. -/
theorem alike_register_again (likeness : Likeness r allowed ρ) (ok : allowed event)
    (h : Alike r ρ e e) :
    Alike r ρ (e.register event).1 ((e.register event).1.register event).1 := by
  cases hv : e.verdict with
  | some verdict =>
    rw [register_of_isFinalized (isFinalized_of_verdict hv),
      register_of_isFinalized (isFinalized_of_verdict hv)]
    exact h
  | none =>
    have self := (h.register likeness ok).state
    rw [register_of_open hv] at self ⊢
    rcases taken : e.process event with ⟨e₁, f | u⟩
    · -- a refused event finalizes the enforcer, which then takes no second one
      rw [taken, settle_error] at self
      rw [settle_error, register_of_isFinalized (isFinalized_stop e₁ f)]
      exact self
    · exact alike_register_of_process again likeness ok h hv taken

end

end SoapPolicy.Enforcer
