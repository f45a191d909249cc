import SoapPolicy.Proofs.Enforcer.Finality
import SoapPolicy.Proofs.Unreadable

/-!
# Whose fault a failure is

Once a policy can be evaluated, nothing that a caller does shows it to be unfit.  An event that cannot
be read is a fault of the message (`Evaluation.Stuck.unreadable`), and a policy that is selected in the
middle of a run was tried when the enforcer was made (`Evaluable`).  So no answer of an enforcer blames
the policy (`not_blamesPolicy_perform`).
-/

namespace SoapPolicy

/-- Whether a failure says that a policy cannot be evaluated. -/
def Failure.blamesPolicy : Failure → Bool
  | invalidPolicy _ => true
  | _ => false

/-- The computation never says that a policy cannot be evaluated. -/
abbrev SparesPolicy {α : Type} (x : Except Failure α) : Prop :=
  FailsOnly (fun f => f.blamesPolicy = false) x

theorem Unreadable.sparesPolicy {r : Registry} {o : Obligation} {event : SecurityEvent} {f : Failure}
    (h : Unreadable r o event f) : f.blamesPolicy = false := by
  cases h <;> rfl

theorem Evaluation.observe_sparesPolicy (ev : Evaluation) (r : Registry) (event : SecurityEvent) :
    SparesPolicy (ev.observe r event).2 := by
  intro f hf
  obtain ⟨place, o, stuck⟩ := exists_stuck hf
  exact stuck.unreadable.sparesPolicy

namespace Enforcer

variable {e : Enforcer}

/-! ## Evaluable policies -/

/-- Every policy that an enforcer waits with can be evaluated. -/
def Evaluable (e : Enforcer) : Prop :=
  ∀ policies default queue, e.phase = .waiting policies default queue →
    ∀ policy ∈ policies.map OperationPolicy.policy ++ default.toList,
      ∃ ev, Evaluation.ofPolicy policy e.context.initiator = .ok ev

theorem Keeps.evaluable {e' : Enforcer} (k : Keeps e e') (h : Evaluable e) : Evaluable e' := by
  intro policies default queue' hp policy hpolicy
  obtain ⟨queue, hp⟩ := k.waiting hp
  rw [k.context]
  exact h policies default queue hp policy hpolicy

theorem evaluable_of_ofSource {source : PolicySource} {context : EnforcerContext}
    (made : ofSource source context = .ok e) : Evaluable e := by
  intro policies default queue hp policy hpolicy
  cases source with
  | policy own =>
    obtain ⟨ev, -, rfl⟩ := ofPolicy_eq_ok_iff.1 made
    cases hp
  | operations own fallback =>
    obtain ⟨evaluable, rfl⟩ := ofOperations_eq_ok_iff.1 made
    cases hp
    exact evaluable policy hpolicy

/-! ## Taking an event -/

theorem sparesPolicy_raise (e : Enforcer) (why : Violation) : SparesPolicy (e.raise why).2 := by
  rw [raise]
  split
  · exact FailsOnly.ok ()
  · exact FailsOnly.error.2 rfl

theorem sparesPolicy_dispatch (e : Enforcer) (event : SecurityEvent) :
    SparesPolicy (e.dispatch event).2 := by
  cases hp : e.phase with
  | waiting policies default queue =>
    rw [dispatch, hp]
    exact FailsOnly.ok ()
  | evaluating ev =>
    have step := dispatch_cases hp event
    generalize e.dispatch event = answer at step
    cases step with
    | failed ho =>
      have spares := ev.observe_sparesPolicy e.tokens event
      rw [ho] at spares
      exact spares.passed_on
    | passed => exact FailsOnly.ok ()
    | lost => exact sparesPolicy_raise _ _

theorem sparesPolicy_andThen {answer : Enforcer × Except Failure Unit}
    {rest : Enforcer → Enforcer × Except Failure Unit} (first : SparesPolicy answer.2)
    (then_ : ∀ e, SparesPolicy (rest e).2) : SparesPolicy (andThen answer rest).2 := by
  obtain ⟨e, f | u⟩ := answer
  · exact first
  · exact then_ e

theorem sparesPolicy_replay (e : Enforcer) (events : List SecurityEvent) :
    SparesPolicy (e.replay events).2 := by
  induction events generalizing e with
  | nil => exact FailsOnly.ok ()
  | cons event events ih =>
    rw [replay_cons]
    exact sparesPolicy_andThen (sparesPolicy_dispatch e event) ih

/-- A policy that can be evaluated is not blamed when it is started. -/
theorem sparesPolicy_start {policy : Policy} {ev : Evaluation}
    (built : Evaluation.ofPolicy policy e.context.initiator = .ok ev) (queue : List SecurityEvent) :
    SparesPolicy (e.start policy queue).2 := by
  rw [start, built]
  exact sparesPolicy_replay _ queue

theorem sparesPolicy_process (evaluable : Evaluable e) (event : SecurityEvent) :
    SparesPolicy (e.process event).2 := by
  cases hp : e.phase with
  | evaluating ev =>
    rw [process_of_evaluating hp]
    exact sparesPolicy_dispatch _ event
  | waiting policies default queue =>
    cases hop : event.operation? with
    | none =>
      rw [process_of_waiting hp hop]
      exact FailsOnly.ok ()
    | some name =>
      cases SecurityEvent.operation?_eq_some_iff.1 hop
      rw [process_operation hp]
      cases selected : policyFor? policies default name with
      | none => exact FailsOnly.error.2 rfl
      | some policy =>
        -- the policy that is selected was among those tried at the start
        have known := (policyFor?_eq_some_iff.1 selected).mem
        obtain ⟨ev, built⟩ := evaluable policies default queue hp policy known
        exact sparesPolicy_andThen
          (sparesPolicy_start (e := { e with operation := some name }) built queue)
          fun e => sparesPolicy_dispatch e _

theorem sparesPolicy_register (evaluable : Evaluable e) (event : SecurityEvent) :
    SparesPolicy (e.register event).2 := by
  cases hv : e.verdict with
  | some verdict =>
    rw [register_of_isFinalized (isFinalized_of_verdict hv)]
    exact FailsOnly.error.2 rfl
  | none =>
    rw [register_of_open hv]
    exact sparesPolicy_process evaluable event

/-! ## Asking for the verdict -/

theorem sparesPolicy_report (e : Enforcer) (verdict : Verdict) : SparesPolicy (e.report verdict) := by
  cases verdict with
  | satisfied => exact FailsOnly.ok true
  | violated why =>
    rw [report]
    split
    · exact FailsOnly.ok false
    · exact FailsOnly.error.2 rfl

theorem sparesPolicy_judge (e : Enforcer) : SparesPolicy e.judge.2 := by
  obtain ⟨verdict, h⟩ := exists_conclude_of_judge e
  rw [h]
  exact sparesPolicy_report e verdict

theorem sparesPolicy_finish (evaluable : Evaluable e) : SparesPolicy e.finish.2 := by
  cases hv : e.verdict with
  | some verdict =>
    rw [finish_of_verdict hv]
    exact sparesPolicy_report e verdict
  | none =>
    cases hp : e.phase with
    | evaluating ev =>
      rw [finish_of_evaluating hp hv]
      exact sparesPolicy_judge e
    | waiting policies default queue =>
      cases default with
      | none =>
        simp only [finish, hv, hp]
        exact sparesPolicy_report e (.violated .noOperation)
      | some policy =>
        obtain ⟨ev, built⟩ := evaluable policies (some policy) queue hp policy (by simp)
        have started := sparesPolicy_start built queue
        rw [finish_of_waiting hp hv]
        generalize e.start policy queue = answer at started
        obtain ⟨e', f | u⟩ := answer
        · exact started.passed_on
        · exact sparesPolicy_judge e'

/-! ## Runs -/

/-- The answer says that a policy cannot be evaluated. -/
inductive Answer.BlamesPolicy : Answer → Prop where
  | registered (detail : String) : BlamesPolicy (.registered (.error (.invalidPolicy detail)))
  | verdict (detail : String) : BlamesPolicy (.verdict (.error (.invalidPolicy detail)))

theorem not_blamesPolicy_call (evaluable : Evaluable e) (c : Call) :
    ¬ (e.call c).2.BlamesPolicy := by
  cases c with
  | addToken token => rintro ⟨⟩
  | setTokens tokens => rintro ⟨⟩
  | register event =>
    have spares := sparesPolicy_register evaluable event
    rw [call]
    generalize (e.register event).2 = answer at spares
    rintro ⟨detail⟩
    cases spares _ rfl
  | finish =>
    have spares := sparesPolicy_finish evaluable
    rw [call]
    generalize e.finish.2 = answer at spares
    rintro ⟨detail⟩
    cases spares _ rfl

theorem not_blamesPolicy_perform (evaluable : Evaluable e) (calls : List Call) :
    ∀ answer ∈ (e.perform calls).2, ¬ answer.BlamesPolicy := by
  induction calls generalizing e with
  | nil => exact fun _ h => absurd h List.not_mem_nil
  | cons c calls ih =>
    rw [perform_cons]
    exact List.forall_mem_cons.2
      ⟨not_blamesPolicy_call evaluable c, ih ((keeps_call e c).evaluable evaluable)⟩

/-! ## The fault of a failure -/

/-- Whatever a policy has read, the failure to read an event is the failure of an obligation that the
event is stuck at.  Every obligation that an event is stuck at fails for a fault of the message, with
respect to tokens that were found before, and is left by the event as it was: what it demands and has on
record, whether it is met and what the message falls short of.  Events go only to obligations that
understand them.  And no answer of an enforcer blames the policies it was made for. -/
theorem failure_blames_message {policy : Policy} {initiator : Bool} {ev : Evaluation}
    (built : Evaluation.ofPolicy policy initiator = .ok ev) {source : PolicySource}
    {context : EnforcerContext} (made : ofSource source context = .ok e) :
    (∀ history r event f, ((ev.observeOver history).1.observe r event).2 = .error f →
      ∃ place o, (ev.observeOver history).1.Stuck r event f place o) ∧
    (∀ history r event f place o, (ev.observeOver history).1.Stuck r event f place o →
      o.hear r event = (o, .error f) ∧
      ((ev.observeOver history).1.observe r event).1.obligation? place = some o ∧
      Unreadable r o event f ∧ o.tokensOnRecord ⊆ history.filterMap (·.2.foundToken?)) ∧
    (∀ history, (ev.observeOver history).1.Each fun o =>
      ∀ event, event.kind ∈ o.kinds → o.demand.Understands event) ∧
    ∀ calls, ∀ answer ∈ (e.perform calls).2, ¬ answer.BlamesPolicy := by
  refine ⟨fun history r event f failed => Evaluation.exists_stuck failed,
    fun history r event f place o stuck => ?_, fun history c _ o _ event reads => ?_,
    fun calls => ?_⟩
  · have recorded := (Evaluation.each_recordsOnly built history).of_obligation? stuck.stands
    exact ⟨stuck.hear_eq, stuck.obligation?_observe, stuck.unreadable, recorded.known⟩
  · exact Demand.understands_of_mem_kinds reads
  · exact not_blamesPolicy_perform (evaluable_of_ofSource made) calls

/-- A key that is wrapped by a token which is not there. -/
def orphanedKey : Registry := ⟨[{ type := .x509V3, wrapper := some ⟨7⟩ }]⟩

/-- The obligation to protect the tokens of a header, once the key is found. -/
def keyOnRecord : Obligation :=
  ⟨.tokenProtection .symmetric (some { tokens := [⟨0⟩] }), true, none⟩

/-- The key is found, and the end of the header then asks for its root.  The obligation keeps the key on
record and is still met. -/
theorem failure_blames_orphanedKey :
    (∃ (ev : Evaluation) (place : Nat × Nat) (o : Obligation),
      Evaluation.ofPolicy (.single [.binding ⟨.symmetric, true⟩]) false = .ok ev ∧
      (ev.observeOver [(orphanedKey, .token ⟨⟨0⟩, .x509 ⟨none, 3⟩⟩)]).1.Stuck orphanedKey
        (.operation ⟨"", "greet"⟩) (.unknownToken "token#7") place o) ∧
    keyOnRecord.hear orphanedKey (.operation ⟨"", "greet"⟩) =
      (keyOnRecord, .error (.unknownToken "token#7")) ∧
    Unreadable orphanedKey keyOnRecord (.operation ⟨"", "greet"⟩) (.unknownToken "token#7") ∧
    keyOnRecord.tokensOnRecord ⊆ [⟨0⟩] := by
  have built : Evaluation.ofPolicy (.single [.binding ⟨.symmetric, true⟩]) false = .ok _ := rfl
  have made : ofSource (.policy (.single [.binding ⟨.symmetric, true⟩])) {} = .ok _ := rfl
  obtain ⟨stops, blames, -, -⟩ := failure_blames_message built made
  obtain ⟨place, o, stuck⟩ := stops [(orphanedKey, .token ⟨⟨0⟩, .x509 ⟨none, 3⟩⟩)] orphanedKey
    (.operation ⟨"", "greet"⟩) (.unknownToken "token#7") rfl
  obtain ⟨same, -, unreadable, known⟩ := blames [(orphanedKey, .token ⟨⟨0⟩, .x509 ⟨none, 3⟩⟩)]
    orphanedKey (.operation ⟨"", "greet"⟩) (.unknownToken "token#7") (0, 0) keyOnRecord
    ⟨rfl, ⟨_, rfl, rfl⟩, by decide, rfl⟩
  exact ⟨⟨_, place, o, built, stuck⟩, same, unreadable, known⟩

end Enforcer

end SoapPolicy
