import SoapPolicy.Proofs.Enforcer.Calls
import SoapPolicy.Proofs.Enforcer.Repetition
import SoapPolicy.Proofs.SoapVersion.Evaluation

/-!
# The SOAP version does not count

Two enforcers whose policies, tokens and events differ only in which of the two envelope namespaces
stands at each place of a path or expression answer alike, up to the words of a violation, meet the
same assertions and retire the same alternatives (`sameReport_of_versionless`).

A check commutes with leaving out the version.  It cannot do so exactly, because a violation that is
told is put into words, and they name elements.  `Translated` is what holds instead of one call: the
enforcer after it commutes, and so does the answer unless it tells a violation.  Such a violation is
the verdict by then, so nothing is lost for the calls to come.
-/

namespace SoapPolicy

/-! ## Enforcers without the SOAP version -/

/-- A verdict without the SOAP version of the element it names. -/
def Verdict.versionless : Verdict → Verdict
  | .satisfied => .satisfied
  | .violated why => .violated why.versionless

/-- A phase without the SOAP version of its policies and events. -/
def Phase.versionless : Phase → Phase
  | .waiting policies default queue =>
    .waiting (policies.map OperationPolicy.versionless) (default.map Policy.versionless)
      (queue.map SecurityEvent.versionless)
  | .evaluating ev => .evaluating ev.versionless

namespace Enforcer

/-- An enforcer without the SOAP version.  The operation is that of a service, and stays. -/
def versionless (e : Enforcer) : Enforcer :=
  { e with
    tokens := e.tokens.versionless
    phase := e.phase.versionless
    withheld := e.withheld.map Violation.versionless
    verdict := e.verdict.map Verdict.versionless }

section
variable {e : Enforcer}

theorem versionless_waiting {policies : List OperationPolicy} {default : Option Policy}
    {queue : List SecurityEvent} (hp : e.phase = .waiting policies default queue) :
    e.versionless.phase = .waiting (policies.map OperationPolicy.versionless)
      (default.map Policy.versionless) (queue.map SecurityEvent.versionless) :=
  congrArg Phase.versionless hp

theorem versionless_evaluating {ev : Evaluation} (hp : e.phase = .evaluating ev) :
    e.versionless.phase = .evaluating ev.versionless :=
  congrArg Phase.versionless hp

theorem versionless_verdict {verdict : Option Verdict} (hv : e.verdict = verdict) :
    e.versionless.verdict = verdict.map Verdict.versionless :=
  congrArg (Option.map Verdict.versionless) hv

end

/-- Which alternatives are retired. -/
def retiredFlags (e : Enforcer) : List Bool :=
  match e.phase with
  | .waiting _ _ _ => []
  | .evaluating evaluation => evaluation.candidates.map fun c => c.retired.isSome

variable (e : Enforcer)

@[simp] theorem metFlags_versionless : e.versionless.metFlags = e.metFlags := by
  obtain ⟨context, tokens, phase, operation, withheld, verdict⟩ := e
  cases phase with
  | waiting policies default queue => rfl
  | evaluating ev =>
    show (ev.versionless.candidates.map fun c => c.obligations.map Obligation.met) =
      ev.candidates.map fun c => c.obligations.map Obligation.met
    simp [Evaluation.versionless, Candidate.versionless, Obligation.versionless]

@[simp] theorem retiredFlags_versionless : e.versionless.retiredFlags = e.retiredFlags := by
  obtain ⟨context, tokens, phase, operation, withheld, verdict⟩ := e
  cases phase with
  | waiting policies default queue => rfl
  | evaluating ev =>
    show (ev.versionless.candidates.map fun c => c.retired.isSome) =
      ev.candidates.map fun c => c.retired.isSome
    simp [Evaluation.versionless, Candidate.versionless]

@[simp] theorem isSatisfied_versionless : e.versionless.isSatisfied = e.isSatisfied := by
  obtain ⟨context, tokens, phase, operation, withheld, verdict⟩ := e
  cases phase with
  | waiting policies default queue => rfl
  | evaluating ev => exact ev.isSatisfied_versionless

theorem violation_versionless : e.versionless.violation = e.violation.versionless := by
  obtain ⟨context, tokens, phase, operation, withheld, verdict⟩ := e
  cases phase with
  | waiting policies default queue => rfl
  | evaluating ev => exact ev.violation_versionless

/-- A failure that gives the verdict is quoted in it, and the quotation has no SOAP version. -/
theorem stop_versionless (f : Failure) : e.versionless.stop f = (e.stop f).versionless := by
  obtain ⟨context, tokens, phase, operation, withheld, verdict⟩ := e
  cases verdict <;> rfl

/-! ## Making an enforcer -/

theorem ofPolicy_versionless (policy : Policy) (context : EnforcerContext) :
    ofPolicy policy.versionless context = (ofPolicy policy context).map versionless := by
  rw [ofPolicy, ofPolicy, Evaluation.ofPolicy_versionless]
  cases Evaluation.ofPolicy policy context.initiator <;> rfl

theorem ofOperations_versionless (policies : List OperationPolicy) (default : Option Policy)
    (context : EnforcerContext) :
    ofOperations (policies.map OperationPolicy.versionless) (default.map Policy.versionless) context =
      (ofOperations policies default context).map versionless := by
  have all : (policies.map OperationPolicy.versionless).map OperationPolicy.policy ++
      (default.map Policy.versionless).toList =
      (policies.map OperationPolicy.policy ++ default.toList).map Policy.versionless := by
    cases default <;> simp [Function.comp_def, OperationPolicy.versionless]
  have same (policy : Policy) :
      (do let _ ← Evaluation.ofPolicy policy.versionless context.initiator : Except Failure PUnit) =
        (do let _ ← Evaluation.ofPolicy policy context.initiator) := by
    rw [Evaluation.ofPolicy_versionless]
    cases Evaluation.ofPolicy policy context.initiator <;> rfl
  have checked := forM_map_of_same
    (f := fun policy => do let _ ← Evaluation.ofPolicy policy context.initiator) same
    (policies.map OperationPolicy.policy ++ default.toList)
  rw [ofOperations, ofOperations, all, List.forM_eq_forM, checked]
  cases forM (policies.map OperationPolicy.policy ++ default.toList) fun policy => do
      let _ ← Evaluation.ofPolicy policy context.initiator with
  | error f => rfl
  | ok u => rfl

/-- Making an enforcer commutes with leaving out the version, and fails for the same reasons. -/
theorem ofSource_versionless (source : PolicySource) (context : EnforcerContext) :
    ofSource source.versionless context = (ofSource source context).map versionless := by
  cases source with
  | policy policy => exact ofPolicy_versionless policy context
  | operations policies default => exact ofOperations_versionless policies default context

/-! ## Calls -/

/-- A call of an enforcer, and the same call without the SOAP version.  The second enforcer is the
first without the version.  The answers are equal, or both tell the verdict, which is a violation. -/
inductive Translated {α : Type} : Enforcer × Except Failure α → Enforcer × Except Failure α → Prop where
  | alike (e : Enforcer) (answer : Except Failure α) :
    Translated (e, answer) (e.versionless, answer)
  | violated {e : Enforcer} {why : Violation} :
    e.verdict = some (.violated why) →
    Translated (e, .error why.failure) (e.versionless, .error why.versionless.failure)

theorem Translated.andThen {answer answer' : Enforcer × Except Failure Unit}
    {rest rest' : Enforcer → Enforcer × Except Failure Unit} (h : Translated answer answer')
    (go_on : ∀ e, Translated (rest e) (rest' e.versionless)) :
    Translated (Enforcer.andThen answer rest) (Enforcer.andThen answer' rest') := by
  cases h with
  | alike e answer =>
    cases answer with
    | ok u => exact go_on e
    | error f => exact .alike e (.error f)
  | violated given => exact .violated given

/-- A refusal gives the verdict.  A violation is the verdict already, so its words are not quoted. -/
theorem Translated.stop {α β : Type} {e e' : Enforcer} {f f' : Failure}
    (h : Translated (e, (.error f : Except Failure α)) (e', .error f')) :
    Translated (e.stop f, (.error f : Except Failure β)) (e'.stop f', .error f') := by
  cases h with
  | alike =>
    rw [stop_versionless]
    exact .alike (e.stop f) (.error f)
  | @violated _ why given =>
    rw [stop_of_verdict given, stop_of_verdict (versionless_verdict given)]
    exact .violated given

theorem Translated.settle {answer answer' : Enforcer × Except Failure Unit}
    (h : Translated answer answer') :
    Translated (Enforcer.settle answer, answer.2) (Enforcer.settle answer', answer'.2) := by
  rcases answer with ⟨e, f | u⟩ <;> rcases answer' with ⟨e', f' | u'⟩
  · exact h.stop
  · cases h
  · cases h
  · exact h

theorem translated_raise (why : Violation) :
    Translated (e.raise why) (e.versionless.raise why.versionless) := by
  cases hs : e.context.softFail with
  | true =>
    have withheld : (e.withheld.or (some why)).map Violation.versionless =
        e.versionless.withheld.or (some why.versionless) := Option.map_or
    rw [raise_of_soft hs, raise_of_soft (e := e.versionless) hs, ← withheld]
    exact .alike { e with withheld := e.withheld.or (some why) } (.ok ())
  | false =>
    rw [raise_of_hard hs, raise_of_hard (e := e.versionless) hs]
    exact .violated (e := { e with verdict := some (.violated why) }) rfl

theorem translated_dispatch (event : SecurityEvent) :
    Translated (e.dispatch event) (e.versionless.dispatch event.versionless) := by
  obtain ⟨context, tokens, phase, operation, withheld, verdict⟩ := e
  cases phase with
  | waiting policies default queue => exact .alike _ _
  | evaluating ev =>
    have read := ev.observe_versionless tokens event
    simp only [dispatch, versionless, Phase.versionless, read]
    rcases ev.observe tokens event with ⟨ev', f | _ | why⟩
    · exact .alike ⟨context, tokens, .evaluating ev', operation, withheld, verdict⟩ (.error f)
    · exact .alike ⟨context, tokens, .evaluating ev', operation, withheld, verdict⟩ (.ok ())
    · exact translated_raise ⟨context, tokens, .evaluating ev', operation, withheld, verdict⟩
        (.lost why)

theorem translated_replay (events : List SecurityEvent) :
    Translated (e.replay events) (e.versionless.replay (events.map SecurityEvent.versionless)) := by
  induction events generalizing e with
  | nil => exact .alike e (.ok ())
  | cons event events ih =>
    rw [List.map_cons, replay_cons, replay_cons]
    exact (translated_dispatch e event).andThen ih

theorem translated_start (policy : Policy) (queue : List SecurityEvent) :
    Translated (e.start policy queue)
      (e.versionless.start policy.versionless (queue.map SecurityEvent.versionless)) := by
  have same : e.versionless.context.initiator = e.context.initiator := rfl
  simp only [start, same, Evaluation.ofPolicy_versionless]
  cases Evaluation.ofPolicy policy e.context.initiator with
  | error f => exact .alike e (.error f)
  | ok ev => exact translated_replay { e with phase := .evaluating ev } queue

theorem operationAfter_versionless (event : SecurityEvent) :
    e.versionless.operationAfter event.versionless = e.operationAfter event := by
  cases event <;> rfl

theorem translated_process (event : SecurityEvent) :
    Translated (e.process event) (e.versionless.process event.versionless) := by
  cases hp : e.phase with
  | evaluating ev =>
    rw [process_of_evaluating hp, process_of_evaluating (versionless_evaluating hp),
      operationAfter_versionless]
    exact translated_dispatch { e with operation := e.operationAfter event } event
  | waiting policies default queue =>
    have hp' := versionless_waiting hp
    cases hop : event.operation? with
    | none =>
      have quiet : event.versionless.operation? = none := by
        cases event with
        | operation name => exact hop
        | _ => rfl
      rw [process_of_waiting hp hop, process_of_waiting hp' quiet]
      have queued : (queue ++ [event]).map SecurityEvent.versionless =
          queue.map SecurityEvent.versionless ++ [event.versionless] := List.map_append
      rw [← queued]
      exact .alike { e with phase := .waiting policies default (queue ++ [event]) } (.ok ())
    | some name =>
      cases SecurityEvent.operation?_eq_some_iff.1 hop
      rw [process_operation hp]
      show Translated _ (e.versionless.process (.operation name))
      rw [process_operation hp', policyFor?_versionless]
      cases policyFor? policies default name with
      | none => exact .alike { e with operation := some name } (.error (.noOperationPolicy name.text))
      | some policy =>
        exact (translated_start { e with operation := some name } policy queue).andThen fun e =>
          translated_dispatch e (.operation name)

theorem isFinalized_versionless : e.versionless.isFinalized = e.isFinalized :=
  Option.isSome_map

/-- Taking an event commutes with leaving out the version, up to the words of a violation. -/
theorem translated_register (event : SecurityEvent) :
    Translated (e.register event) (e.versionless.register event.versionless) := by
  cases hv : e.verdict with
  | some verdict =>
    have finalized := isFinalized_of_verdict hv
    rw [register_of_isFinalized finalized,
      register_of_isFinalized (e.isFinalized_versionless.trans finalized)]
    exact .alike e (.error .finalized)
  | none =>
    rw [register_of_open hv, register_of_open (versionless_verdict hv)]
    exact (translated_process e event).settle

theorem translated_report {verdict : Verdict} (h : e.verdict = some verdict) :
    Translated (e, e.report verdict) (e.versionless, e.versionless.report verdict.versionless) := by
  cases verdict with
  | satisfied => exact .alike e (.ok true)
  | violated why =>
    show Translated (e, if e.context.softFail then .ok false else .error why.failure)
      (e.versionless, if e.context.softFail then .ok false else .error why.versionless.failure)
    split
    · exact .alike e (.ok false)
    · exact .violated h

theorem translated_conclude (verdict : Verdict) :
    Translated (e.conclude verdict) (e.versionless.conclude verdict.versionless) :=
  translated_report { e with verdict := some verdict } rfl

theorem translated_judge : Translated e.judge e.versionless.judge := by
  have withheld : e.versionless.withheld = e.withheld.map Violation.versionless := rfl
  rw [judge, judge, withheld]
  cases e.withheld with
  | some why => exact translated_conclude e (.violated why)
  | none =>
    simp only [Option.map_none, isSatisfied_versionless, violation_versionless]
    split
    · exact translated_conclude e .satisfied
    · exact translated_conclude e (.violated e.violation)

/-- Giving the verdict commutes with leaving out the version, up to the words of a violation. -/
theorem translated_finish : Translated e.finish e.versionless.finish := by
  cases hv : e.verdict with
  | some verdict =>
    rw [finish_of_verdict hv, finish_of_verdict (versionless_verdict hv)]
    exact translated_report e hv
  | none =>
    have hv' := versionless_verdict hv
    cases hp : e.phase with
    | evaluating ev =>
      rw [finish_of_evaluating hp hv, finish_of_evaluating (versionless_evaluating hp) hv']
      exact translated_judge e
    | waiting policies default queue =>
      have hp' := versionless_waiting hp
      cases default with
      | none =>
        simp only [finish, hv, hp, hv', hp', Option.map_none]
        exact translated_conclude e (.violated .noOperation)
      | some policy =>
        -- the default reads the queue, and a refusal in it is the answer in place of a verdict
        rw [finish_of_waiting hp hv, finish_of_waiting hp' hv']
        have step := translated_start e policy queue
        generalize e.start policy queue = answer, e.versionless.start policy.versionless _ = answer'
          at step
        rcases answer with ⟨e₁, f | u⟩ <;> rcases answer' with ⟨e₂, f' | u'⟩
        · exact step.stop
        · cases step
        · cases step
        · cases step
          exact translated_judge e₁

/-! ## Runs -/

/-- What a caller can do, without the SOAP version of what it speaks of. -/
def Call.versionless : Call → Call
  | .addToken token => .addToken token.versionless
  | .setTokens tokens => .setTokens tokens.versionless
  | .register event => .register event.versionless
  | .finish => .finish

/-- A failure without the words of a violation. -/
def wordless {α : Type} (answer : Except Failure α) : Except Failure α :=
  answer.mapError fun
    | .security code _ => .security code ""
    | f => f

/-- What a caller is told, without the words of a violation. -/
def Answer.wordless : Answer → Answer
  | .registered answer => .registered (Enforcer.wordless answer)
  | .verdict answer => .verdict (Enforcer.wordless answer)
  | answer => answer

theorem Translated.wordless {α : Type} {answer answer' : Enforcer × Except Failure α}
    (h : Translated answer answer') :
    answer'.1 = answer.1.versionless ∧ Enforcer.wordless answer'.2 = Enforcer.wordless answer.2 := by
  cases h with
  | alike e answer => exact ⟨rfl, rfl⟩
  | violated given => exact ⟨rfl, rfl⟩

/-- A call commutes with leaving out the version, and the answer differs in the words of a violation
only. -/
theorem call_versionless (c : Call) :
    (e.versionless.call c.versionless).1 = (e.call c).1.versionless ∧
      (e.versionless.call c.versionless).2.wordless = (e.call c).2.wordless := by
  cases c with
  | addToken token =>
    have inserted := e.tokens.insert_versionless token
    show ({ e.versionless with tokens := (e.tokens.versionless.insert token.versionless).1 } : Enforcer) = _ ∧
      Answer.added (e.tokens.versionless.insert token.versionless).2 = _
    rw [inserted]
    exact ⟨rfl, rfl⟩
  | setTokens tokens => exact ⟨rfl, rfl⟩
  | register event =>
    obtain ⟨state, answer⟩ := (translated_register e event).wordless
    exact ⟨state, congrArg Answer.registered answer⟩
  | finish =>
    obtain ⟨state, answer⟩ := (translated_finish e).wordless
    exact ⟨state, congrArg Answer.verdict answer⟩

theorem perform_versionless (calls : List Call) :
    (e.versionless.perform (calls.map Call.versionless)).1 = (e.perform calls).1.versionless ∧
      (e.versionless.perform (calls.map Call.versionless)).2.map Answer.wordless =
        (e.perform calls).2.map Answer.wordless := by
  induction calls generalizing e with
  | nil => exact ⟨rfl, rfl⟩
  | cons c calls ih =>
    obtain ⟨state, answer⟩ := e.call_versionless c
    obtain ⟨states, answers⟩ := ih (e.call c).1
    rw [List.map_cons, perform_cons, perform_cons, state]
    exact ⟨states, congrArg₂ List.cons answer answers⟩

end Enforcer

/-- Two runs tell a caller the same but for the words of a violation, and meet the same assertions and
retire the same alternatives. -/
structure SameReport (run run' : Enforcer × List Enforcer.Answer) : Prop where
  answers : run.2.map Enforcer.Answer.wordless = run'.2.map Enforcer.Answer.wordless
  met : run.1.metFlags = run'.1.metFlags
  retired : run.1.retiredFlags = run'.1.retiredFlags

namespace Enforcer

/-- The SOAP version does not count.  For policies and calls that are the same without it, enforcers
are made alike or fail for the same reason, and after every call they have reported the same. -/
theorem sameReport_of_versionless {source source' : PolicySource} {calls calls' : List Call}
    (policies : source.versionless = source'.versionless)
    (messages : calls.map Call.versionless = calls'.map Call.versionless)
    (context : EnforcerContext) :
    (∀ f, ofSource source context = .error f ↔ ofSource source' context = .error f) ∧
      ∀ e e', ofSource source context = .ok e → ofSource source' context = .ok e' → ∀ n,
        SameReport (e.perform (calls.take n)) (e'.perform (calls'.take n)) := by
  have made := ofSource_versionless source context
  rw [policies, ofSource_versionless source' context] at made
  constructor
  · intro f
    constructor
    · intro failed
      rw [failed] at made
      cases built : ofSource source' context with
      | ok e' => rw [built] at made; cases made
      | error f' => rw [built] at made; exact made
    · intro failed
      rw [failed] at made
      cases built : ofSource source context with
      | ok e => rw [built] at made; cases made
      | error f' => rw [built] at made; exact made.symm
  · intro e e' built built' n
    rw [built, built'] at made
    have same : e'.versionless = e.versionless := Except.ok.inj made
    have sent : (calls'.take n).map Call.versionless = (calls.take n).map Call.versionless := by
      rw [List.map_take, List.map_take, messages]
    obtain ⟨state, answers⟩ := e.perform_versionless (calls.take n)
    obtain ⟨state', answers'⟩ := e'.perform_versionless (calls'.take n)
    rw [same, sent] at state' answers'
    have reached := state.symm.trans state'
    exact {
      answers := answers.symm.trans answers'
      met := by rw [← metFlags_versionless, reached, metFlags_versionless]
      retired := by rw [← retiredFlags_versionless, reached, retiredFlags_versionless] }

/-- A policy that asks for a signed body in the envelope of this namespace. -/
def signedBody (soap : String) : PolicySource :=
  .policy (.single [.signedElements ⟨[⟨"/soap:Envelope/soap:Body", [("soap", soap)]⟩]⟩])

/-- A message whose body is signed, with these namespaces for the envelope and the body. -/
def bodySigned (envelope body : String) : List Call :=
  [.addToken { type := .x509V3 },
    .register (.ofSigned ⟨0⟩ [⟨envelope, "Envelope"⟩, ⟨body, "Body"⟩] true), .finish]

/-- A policy for SOAP 1.2 accepts a message in which both versions stand, like one that speaks of
SOAP 1.1 throughout. -/
theorem sameReport_bodySigned :
    ∃ e e', ofSource (signedBody Namespace.soap11) {} = .ok e ∧
      ofSource (signedBody Namespace.soap12) {} = .ok e' ∧
      SameReport (e.perform (bodySigned Namespace.soap11 Namespace.soap11))
        (e'.perform (bodySigned Namespace.soap12 Namespace.soap11)) ∧
      (e'.perform (bodySigned Namespace.soap12 Namespace.soap11)).2.map Answer.wordless =
        [.added ⟨0⟩, .registered (.ok ()), .verdict (.ok true)] := by
  have policies : (signedBody Namespace.soap11).versionless =
      (signedBody Namespace.soap12).versionless := rfl
  have messages : (bodySigned Namespace.soap11 Namespace.soap11).map Call.versionless =
      (bodySigned Namespace.soap12 Namespace.soap11).map Call.versionless := rfl
  have same := (sameReport_of_versionless policies messages {}).2 _ _ rfl rfl 3
  exact ⟨_, _, rfl, rfl, same, same.answers.symm.trans rfl⟩

end Enforcer

end SoapPolicy
