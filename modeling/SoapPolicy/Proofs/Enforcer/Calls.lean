import SoapPolicy.Proofs.Building
import SoapPolicy.Proofs.Enforcer.Steps

/-!
# Calls to an enforcer

A caller adds tokens and changes them, reports events and asks for the verdict, in any order and as
often as it likes.  `perform` is the run of an enforcer over such calls.

What one call does is said by `Handled` for an event and by `Finished` for the verdict.  An event
that passes leaves the enforcer open.  One that cannot be read leaves it without a verdict, which
`stop` gives afterwards, and a violation gives the verdict by itself.  Asking for the verdict tells the
verdict that is given, with one exception: the events that the default has to read at the end may
hold one that cannot be read, and then this failure is told in place of the verdict.
-/

namespace SoapPolicy.Enforcer

/-! ## Runs -/

/-- What a caller can do. -/
inductive Call where
  /-- Add a token. -/
  | addToken (token : SecurityToken)
  /-- Change the tokens, in any way. -/
  | setTokens (tokens : Registry)
  /-- Report an event. -/
  | register (event : SecurityEvent)
  /-- Ask for the verdict. -/
  | finish

/-- What a caller is told. -/
inductive Answer where
  | added (id : TokenId)
  | done
  | registered (answer : Except Failure Unit)
  | verdict (answer : Except Failure Bool)

/-- Do what a caller asks for. -/
def call (e : Enforcer) : Call → Enforcer × Answer
  | .addToken token => ({ e with tokens := (e.tokens.insert token).1 },
      .added (e.tokens.insert token).2)
  | .setTokens tokens => ({ e with tokens }, .done)
  | .register event => ((e.register event).1, .registered (e.register event).2)
  | .finish => (e.finish.1, .verdict e.finish.2)

/-- Do what a caller asks for, one call after the other. -/
def perform (e : Enforcer) (calls : List Call) : Enforcer × List Answer :=
  feed call e calls

variable {e e₁ e₂ e₃ : Enforcer}

@[simp] theorem perform_nil (e : Enforcer) : e.perform [] = (e, []) := rfl

@[simp] theorem perform_cons (e : Enforcer) (c : Call) (calls : List Call) :
    e.perform (c :: calls) =
      (((e.call c).1.perform calls).1, (e.call c).2 :: ((e.call c).1.perform calls).2) := rfl

/-! ## What no call changes -/

/-- The message is still checked in the same way, and by the same policies if none is selected. -/
structure Keeps (e e' : Enforcer) : Prop where
  context : e'.context = e.context
  waiting : ∀ {policies default queue'}, e'.phase = .waiting policies default queue' →
    ∃ queue, e.phase = .waiting policies default queue

namespace Keeps

theorem refl (e : Enforcer) : Keeps e e :=
  ⟨rfl, fun hp => ⟨_, hp⟩⟩

theorem trans (h₁ : Keeps e₁ e₂) (h₂ : Keeps e₂ e₃) : Keeps e₁ e₃ := by
  refine ⟨h₂.context.trans h₁.context, fun hp => ?_⟩
  obtain ⟨queue, hp⟩ := h₂.waiting hp
  exact h₁.waiting hp

/-- Nothing but the context and the phase counts. -/
theorem of_eq (context : e₂.context = e₁.context) (phase : e₂.phase = e₁.phase) : Keeps e₁ e₂ :=
  ⟨context, fun hp => ⟨_, phase ▸ hp⟩⟩

/-- An enforcer that evaluates a policy need not wait any more. -/
theorem of_evaluating {ev : Evaluation} (context : e₂.context = e₁.context)
    (hp : e₂.phase = .evaluating ev) : Keeps e₁ e₂ :=
  ⟨context, fun hw => by rw [hp] at hw; cases hw⟩

/-- An enforcer that evaluates a policy goes on doing so. -/
theorem evaluating {ev : Evaluation} (k : Keeps e₁ e₂) (hp : e₁.phase = .evaluating ev) :
    ∃ ev', e₂.phase = .evaluating ev' := by
  cases hp' : e₂.phase with
  | evaluating ev' => exact ⟨ev', rfl⟩
  | waiting policies default queue =>
    obtain ⟨queue', waiting⟩ := k.waiting hp'
    rw [hp] at waiting
    cases waiting

end Keeps

/-! ## Taking an event -/

/-- How an event, or several, are read while no verdict is given. -/
inductive Handled (e : Enforcer) : Enforcer × Except Failure Unit → Prop where
  | passed {e' : Enforcer} : Keeps e e' → e'.verdict = none → Handled e (e', .ok ())
  | unreadable {e' : Enforcer} {f : Failure} :
    Keeps e e' → e'.verdict = none → f.isContract = true → Handled e (e', .error f)
  | raised {e' : Enforcer} {why : Violation} :
    Keeps e e' → e'.context.softFail = false → e'.verdict = some (.violated why) →
    Handled e (e', .error why.failure)

theorem Handled.after {answer : Enforcer × Except Failure Unit} (h : Handled e₂ answer)
    (keeps : Keeps e₁ e₂) : Handled e₁ answer := by
  cases h with
  | passed k hv => exact .passed (keeps.trans k) hv
  | unreadable k hv contract => exact .unreadable (keeps.trans k) hv contract
  | raised k hard hv => exact .raised (keeps.trans k) hard hv

theorem Handled.andThen {answer : Enforcer × Except Failure Unit}
    {rest : Enforcer → Enforcer × Except Failure Unit} (h : Handled e answer)
    (go_on : ∀ e', e'.verdict = none → Handled e' (rest e')) :
    Handled e (Enforcer.andThen answer rest) := by
  cases h with
  | passed k hv => exact (go_on _ hv).after k
  | unreadable k hv contract => exact .unreadable k hv contract
  | raised k hard hv => exact .raised k hard hv

theorem handled_raise (hv : e.verdict = none) (why : Violation) : Handled e (e.raise why) := by
  cases hs : e.context.softFail with
  | true =>
    rw [raise_of_soft hs]
    exact .passed (.of_eq rfl rfl) hv
  | false =>
    rw [raise_of_hard hs]
    exact .raised (.of_eq rfl rfl) hs rfl

theorem handled_dispatch (hv : e.verdict = none) (event : SecurityEvent) :
    Handled e (e.dispatch event) := by
  cases hp : e.phase with
  | waiting policies default queue =>
    rw [dispatch, hp]
    exact .passed (.refl e) hv
  | evaluating ev =>
    have step := dispatch_cases hp event
    generalize e.dispatch event = answer at step
    cases step with
    | @failed ev' f ho =>
      have contract := ev.observe_onlyContract e.tokens event f (by rw [ho])
      exact .unreadable (.of_evaluating rfl rfl) hv contract
    | passed ho => exact .passed (.of_evaluating rfl rfl) hv
    | @lost ev' why ho =>
      exact (handled_raise (e := { e with phase := .evaluating ev' }) hv (.lost why)).after
        (.of_evaluating rfl rfl)

theorem handled_replay (hv : e.verdict = none) (events : List SecurityEvent) :
    Handled e (e.replay events) := by
  induction events generalizing e with
  | nil => exact .passed (.refl e) hv
  | cons event events ih =>
    rw [replay_cons]
    exact (handled_dispatch hv event).andThen fun e' hv' => ih hv'

theorem handled_start (hv : e.verdict = none) (policy : Policy) (queue : List SecurityEvent) :
    Handled e (e.start policy queue) := by
  have contract := Evaluation.ofPolicy_onlyContract policy e.context.initiator
  rw [start]
  cases built : Evaluation.ofPolicy policy e.context.initiator with
  | error f =>
    rw [built] at contract
    exact .unreadable (.refl e) hv (contract f rfl)
  | ok ev =>
    exact (handled_replay (e := { e with phase := .evaluating ev }) hv queue).after
      (.of_evaluating rfl rfl)

theorem handled_process (hv : e.verdict = none) (event : SecurityEvent) :
    Handled e (e.process event) := by
  cases hp : e.phase with
  | evaluating ev =>
    rw [process_of_evaluating hp]
    exact (handled_dispatch (e := { e with operation := e.operationAfter event }) hv event).after
      (.of_eq rfl rfl)
  | waiting policies default queue =>
    cases hop : event.operation? with
    | none =>
      rw [process_of_waiting hp hop]
      refine .passed ⟨rfl, fun hw => ?_⟩ hv
      cases hw
      exact ⟨queue, hp⟩
    | some name =>
      cases SecurityEvent.operation?_eq_some_iff.1 hop
      rw [process_operation hp]
      cases policyFor? policies default name with
      | none => exact .unreadable (.of_eq rfl rfl) hv rfl
      | some policy =>
        have started := handled_start (e := { e with operation := some name }) hv policy queue
        exact (started.andThen fun e' hv' => handled_dispatch hv' _).after (.of_eq rfl rfl)

/-! ## What a failure leaves behind -/

/-- A violation that tells of a failure: the one it reports, or its text. -/
inductive TellsOf (f : Failure) : Violation → Prop where
  | reported {why : Violation} : why.failure = f → TellsOf f why
  | stopped : f.isContract = true → TellsOf f (.stopped f.message)

/-- An event that passes leaves an open enforcer open, and a refused one gives a verdict that tells of
the failure.  In soft mode only an event that cannot be read is refused. -/
inductive Taken (e : Enforcer) : Enforcer × Except Failure Unit → Prop where
  | passed {e' : Enforcer} : Keeps e e' → e'.verdict = none → Taken e (e', .ok ())
  | refused {e' : Enforcer} {f : Failure} {why : Violation} :
    Keeps e e' → e'.verdict = some (.violated why) → TellsOf f why →
    (e'.context.softFail = true → f.isContract = true) → Taken e (e', .error f)

theorem taken_register (hv : e.verdict = none) (event : SecurityEvent) :
    Taken e (e.register event) := by
  have step := handled_process hv event
  rw [register_of_open hv]
  generalize e.process event = answer at step
  cases step with
  | passed k hv' => exact .passed k hv'
  | @unreadable e' f k hv' contract =>
    exact .refused (k.trans (.of_eq rfl rfl)) (verdict_stop hv' f) (.stopped contract)
      fun _ => contract
  | @raised e' why k hard given =>
    rw [settle_error, stop_of_verdict given]
    exact .refused k given (.reported rfl) fun soft => by rw [hard] at soft; cases soft

/-! ## Asking for the verdict -/

/-- What an open enforcer answers when it is asked for the verdict. -/
inductive Finished (e : Enforcer) : Enforcer × Except Failure Bool → Prop where
  /-- The verdict is given and told. -/
  | told {e' : Enforcer} {verdict : Verdict} :
    Keeps e e' → e'.verdict = some verdict → Finished e (e', e'.report verdict)
  /-- An event cannot be read.  This is told, and the verdict tells of it from then on. -/
  | unreadable {e' : Enforcer} {f : Failure} :
    Keeps e e' → e'.verdict = some (.violated (.stopped f.message)) → f.isContract = true →
    Finished e (e', .error f)

theorem finished_conclude (keeps : Keeps e₁ e₂) (verdict : Verdict) :
    Finished e₁ (e₂.conclude verdict) := by
  have k : Keeps e₁ { e₂ with verdict := some verdict } := ⟨keeps.context, keeps.waiting⟩
  exact .told k rfl

theorem exists_conclude_of_judge (e : Enforcer) : ∃ verdict, e.judge = e.conclude verdict := by
  rw [judge]
  split
  · exact ⟨_, rfl⟩
  · split
    · exact ⟨_, rfl⟩
    · exact ⟨_, rfl⟩

theorem finished_judge (keeps : Keeps e₁ e₂) : Finished e₁ e₂.judge := by
  obtain ⟨verdict, h⟩ := exists_conclude_of_judge e₂
  rw [h]
  exact finished_conclude keeps verdict

theorem finished_finish (hv : e.verdict = none) : Finished e e.finish := by
  cases hp : e.phase with
  | evaluating ev =>
    rw [finish_of_evaluating hp hv]
    exact finished_judge (.refl e)
  | waiting policies default queue =>
    cases default with
    | none =>
      simp only [finish, hv, hp]
      exact finished_conclude (.refl e) _
    | some policy =>
      rw [finish_of_waiting hp hv]
      have step := handled_start hv policy queue
      generalize e.start policy queue = answer at step
      cases step with
      | passed k hv' => exact finished_judge k
      | @unreadable e' f k hv' contract =>
        exact .unreadable (k.trans (.of_eq rfl rfl)) (verdict_stop hv' f) contract
      | @raised e' why k hard given =>
        dsimp only
        rw [stop_of_verdict given]
        have told := Finished.told k given
        rw [report, hard] at told
        exact told

end SoapPolicy.Enforcer
