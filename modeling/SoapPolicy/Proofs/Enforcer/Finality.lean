import SoapPolicy.Proofs.Alternatives
import SoapPolicy.Proofs.Enforcer.Calls

/-!
# The verdict is final

An enforcer is finalized by the first request for the verdict or by the first event it refuses, and
by nothing else.  From then on it is *terminal*: whatever a caller does, no event is taken, nothing
that can be seen changes, and every request for the verdict gets one answer
(`finalized_iff_terminal`).

The request that finalizes an enforcer need not get this answer.  If no operation was reported, the
default reads the events only then, and where one of them cannot be read, the request is told so,
while later requests are told a violation.  This is the only case in which two requests are answered
differently (`finish_repeats_iff`, `not_finish_repeats`).
-/

namespace SoapPolicy

/-- The failure by which a verdict repeats the failure of an event. -/
def Failure.asVerdict : Failure → Failure
  | .security _ violation => .security .invalidSecurity violation
  | f => .security .invalidSecurity f.message

theorem Failure.asVerdict_of_isContract (f : Failure) (contract : f.isContract = true) :
    f.asVerdict = Violation.failure (.stopped f.message) := by
  cases f with
  | security code violation => cases contract
  | _ => rfl

namespace Enforcer

variable {e : Enforcer}

/-! ## Terminal enforcers -/

/-- Whatever is done from now on, no event is taken, nothing that can be seen changes, and a request
for the verdict gets this answer. -/
structure Terminal (e : Enforcer) (answer : Except Failure Bool) : Prop where
  finalized : ∀ calls, (e.perform calls).1.isFinalized = true
  refuses : ∀ calls event, ((e.perform calls).1.register event).2 = .error .finalized
  repeats : ∀ calls, (e.perform calls).1.finish.2 = answer
  operation : ∀ calls, (e.perform calls).1.operation = e.operation
  unmet : ∀ calls, (e.perform calls).1.unmet = e.unmet

/-- Once the verdict is given, calls change nothing but the tokens. -/
theorem perform_of_verdict {verdict : Verdict} (hv : e.verdict = some verdict)
    (calls : List Call) : ∃ tokens, (e.perform calls).1 = { e with tokens } := by
  induction calls generalizing e with
  | nil => exact ⟨e.tokens, rfl⟩
  | cons c calls ih =>
    rw [perform_cons]
    cases c with
    | addToken token => exact ih (e := { e with tokens := (e.tokens.insert token).1 }) hv
    | setTokens tokens => exact ih (e := { e with tokens }) hv
    | register event =>
      rw [call, register_of_isFinalized (isFinalized_of_verdict hv)]
      exact ih hv
    | finish =>
      rw [call, finish_of_verdict hv]
      exact ih hv

theorem terminal_of_verdict {verdict : Verdict} (hv : e.verdict = some verdict) :
    Terminal e (e.report verdict) := by
  constructor
  case refuses =>
    intro calls event
    obtain ⟨tokens, h⟩ := perform_of_verdict hv calls
    rw [h, register_of_isFinalized (e := { e with tokens }) (isFinalized_of_verdict hv)]
  case repeats =>
    intro calls
    obtain ⟨tokens, h⟩ := perform_of_verdict hv calls
    rw [h, finish_of_verdict (e := { e with tokens }) hv]
    rfl
  all_goals
    intro calls
    obtain ⟨tokens, h⟩ := perform_of_verdict hv calls
    rw [h]
  case finalized => exact isFinalized_of_verdict hv
  case unmet => rfl

/-! ## What finalizes an enforcer -/

theorem isFinalized_eq_false_iff : e.isFinalized = false ↔ e.verdict = none := by
  simp [isFinalized]

theorem verdict_finish (hv : e.verdict = none) : ∃ verdict, e.finish.1.verdict = some verdict := by
  have step := finished_finish hv
  generalize e.finish = answer at step
  cases step with
  | told k given => exact ⟨_, given⟩
  | unreadable k given contract => exact ⟨_, given⟩

/-- An open enforcer is finalized by a request for the verdict, by a refused event, and by no other
call. -/
theorem isFinalized_perform_iff (hv : e.verdict = none) (calls : List Call) :
    (e.perform calls).1.isFinalized = true ↔
      .finish ∈ calls ∨ ∃ f, .registered (.error f) ∈ (e.perform calls).2 := by
  induction calls generalizing e with
  | nil => simp [isFinalized, hv]
  | cons c calls ih =>
    rw [perform_cons]
    cases c with
    | addToken token =>
      simp only [call, ih (e := { e with tokens := (e.tokens.insert token).1 }) hv]
      simp
    | setTokens tokens =>
      simp only [call, ih (e := { e with tokens }) hv]
      simp
    | register event =>
      have step := taken_register hv event
      simp only [call]
      generalize e.register event = answer at step
      cases step with
      | passed k hv' =>
        simp only [ih hv']
        simp
      | refused k given tells soft =>
        have stays := (terminal_of_verdict given).finalized calls
        simp [stays]
    | finish =>
      obtain ⟨verdict, given⟩ := verdict_finish hv
      have stays := (terminal_of_verdict given).finalized calls
      simp [call, stays]

theorem verdict_of_ofSource {source : PolicySource} {context : EnforcerContext}
    (built : ofSource source context = .ok e) : e.verdict = none ∧ e.context = context := by
  cases source with
  | policy policy =>
    obtain ⟨ev, -, rfl⟩ := ofPolicy_eq_ok_iff.1 built
    exact ⟨rfl, rfl⟩
  | operations policies default =>
    obtain ⟨-, rfl⟩ := ofOperations_eq_ok_iff.1 built
    exact ⟨rfl, rfl⟩

theorem keeps_call (e : Enforcer) (c : Call) : Keeps e (e.call c).1 := by
  cases c with
  | addToken token => exact .of_eq rfl rfl
  | setTokens tokens => exact .of_eq rfl rfl
  | register event =>
    cases hv : e.verdict with
    | some verdict =>
      rw [call, register_of_isFinalized (isFinalized_of_verdict hv)]
      exact .refl e
    | none =>
      have step := taken_register hv event
      simp only [call]
      generalize e.register event = answer at step
      cases step with
      | passed k hv' => exact k
      | refused k given tells soft => exact k
  | finish =>
    cases hv : e.verdict with
    | some verdict =>
      rw [call, finish_of_verdict hv]
      exact .refl e
    | none =>
      have step := finished_finish hv
      simp only [call]
      generalize e.finish = answer at step
      cases step with
      | told k given => exact k
      | unreadable k given contract => exact k

theorem keeps_perform (e : Enforcer) (calls : List Call) : Keeps e (e.perform calls).1 := by
  induction calls generalizing e with
  | nil => exact .refl e
  | cons c calls ih => exact (keeps_call e c).trans (ih _)

/-- A refused event leaves a terminal enforcer.  Its verdict is `false` in soft mode, and otherwise
it repeats the failure. -/
theorem terminal_of_register {event : SecurityEvent} {f : Failure} (hv : e.verdict = none)
    (refused : (e.register event).2 = .error f) :
    Terminal (e.register event).1
      (if e.context.softFail then .ok false else .error f.asVerdict) := by
  have step := taken_register hv event
  generalize e.register event = answer at step refused
  cases step with
  | passed k hv' => cases refused
  | @refused e' g why k given tells soft =>
    cases refused
    have terminal := terminal_of_verdict given
    have same : why.failure = f.asVerdict := by
      cases tells with
      | reported same =>
        subst same
        rfl
      | stopped contract => exact (f.asVerdict_of_isContract contract).symm
    rw [report, k.context, same] at terminal
    exact terminal

/-- An enforcer is finalized exactly if the verdict was asked for or an event was refused, and then
it is terminal.  If an event was refused first, the answer to every request for the verdict is
`false` in soft mode, and otherwise repeats the failure of the event as a violation. -/
theorem finalized_iff_terminal {source : PolicySource} {context : EnforcerContext}
    (built : ofSource source context = .ok e) (calls : List Call) :
    ((e.perform calls).1.isFinalized = true ↔
      .finish ∈ calls ∨ ∃ f, .registered (.error f) ∈ (e.perform calls).2) ∧
    ((e.perform calls).1.isFinalized = true → ∃ answer, Terminal (e.perform calls).1 answer) ∧
    ∀ event f, (e.perform calls).1.isFinalized = false →
      ((e.perform calls).1.register event).2 = .error f →
      Terminal ((e.perform calls).1.register event).1
        (if context.softFail then .ok false else .error f.asVerdict) := by
  obtain ⟨hv, rfl⟩ := verdict_of_ofSource built
  refine ⟨isFinalized_perform_iff hv calls, fun finalized => ?_,
    fun event f unfinalized refused => ?_⟩
  · obtain ⟨verdict, given⟩ := Option.isSome_iff_exists.1 finalized
    exact ⟨_, terminal_of_verdict given⟩
  · rw [← (keeps_perform e calls).context]
    exact terminal_of_register (isFinalized_eq_false_iff.1 unfinalized) refused

/-- A policy that asks for one signed element. -/
def signedElementPolicy : PolicySource :=
  .policy (.single [.signedElements ⟨[⟨"//a", []⟩]⟩])

/-- The element is not signed. -/
def elementUnsigned : SecurityEvent := .ofSigned ⟨0⟩ [⟨"", "a"⟩] false

/-- The violation is told when the event is reported, and from then on by every verdict. -/
theorem terminal_elementUnsigned :
    ∃ e, ofSource signedElementPolicy {} = .ok e ∧
      (e.perform [.addToken { type := .x509V3 }]).1.isFinalized = false ∧
      Terminal ((e.perform [.addToken { type := .x509V3 }]).1.register elementUnsigned).1
        (.error (Violation.failure (.lost (.unprotected .signature [⟨"", "a"⟩])))) := by
  have built : ∃ e, ofSource signedElementPolicy {} = .ok e := ⟨_, rfl⟩
  obtain ⟨e, built⟩ := built
  have terminal := (finalized_iff_terminal built [.addToken { type := .x509V3 }]).2.2 elementUnsigned
    (Violation.failure (.lost (.unprotected .signature [⟨"", "a"⟩])))
  refine ⟨e, built, ?_⟩
  cases built
  exact ⟨rfl, terminal rfl rfl⟩

/-! ## Asking twice -/

/-- No operation is reported, so the default has to read the events at the end, and one of them
cannot be read. -/
def DefaultUnreadable (e : Enforcer) : Prop :=
  e.verdict = none ∧ ∃ policies policy queue ev,
    e.phase = .waiting policies (some policy) queue ∧
      Evaluation.ofPolicy policy e.context.initiator = .ok ev ∧
      ¬ Unfailing (ev.observeEach e.tokens queue).2

/-- A replay meets an event that cannot be read exactly if the policy does.  Neither of them reads on
once no alternative is open. -/
theorem replay_unreadable_iff {ev : Evaluation} (hp : e.phase = .evaluating ev)
    (events : List SecurityEvent) :
    (∃ f, (e.replay events).2 = .error f ∧ f.isContract = true) ↔
      ¬ Unfailing (ev.observeEach e.tokens events).2 := by
  induction events generalizing e ev with
  | nil => simp [replay, Evaluation.observeEach, unfailing_nil]
  | cons event events ih =>
    have step := dispatch_cases hp event
    rw [replay_cons, Evaluation.observeEach_cons, unfailing_cons]
    generalize e.dispatch event = answer at step
    cases step with
    | @failed ev' f ho =>
      have contract := ev.observe_onlyContract e.tokens event f (by rw [ho])
      simp [andThen, ho, contract]
    | @passed ev' ho =>
      have rest := ih (e := { e with phase := .evaluating ev' }) rfl
      simpa [ho] using rest
    | @lost ev' why ho =>
      have none_left := Evaluation.viable_eq_nil_of_observe ho
      have reads : Unfailing (ev'.observeEach e.tokens events).2 := by
        rw [Evaluation.observeEach_of_viable_eq_nil none_left]
        intro a ha
        obtain ⟨_, -, rfl⟩ := List.mem_map.1 ha
        exact ⟨none, rfl⟩
      cases hs : e.context.softFail with
      | true =>
        rw [raise_of_soft (e := { e with phase := .evaluating ev' }) hs, andThen_ok,
          replay_of_viable_eq_nil rfl none_left]
        simp [ho, reads]
      | false =>
        rw [raise_of_hard (e := { e with phase := .evaluating ev' }) hs]
        simp [andThen, ho, reads]

theorem report_ne_contract {verdict : Verdict} {f : Failure} (contract : f.isContract = true) :
    e.report verdict ≠ .error f := by
  intro h
  cases verdict with
  | satisfied => cases h
  | violated why =>
    rw [report] at h
    split at h
    · cases h
    · cases h
      cases contract

/-- Every default that an enforcer waits with can be evaluated. -/
def DefaultEvaluable (e : Enforcer) : Prop :=
  ∀ policies policy queue, e.phase = .waiting policies (some policy) queue →
    ∃ ev, Evaluation.ofPolicy policy e.context.initiator = .ok ev

theorem Keeps.defaultEvaluable {e' : Enforcer} (k : Keeps e e') (h : DefaultEvaluable e) :
    DefaultEvaluable e' := by
  intro policies policy queue' hp
  obtain ⟨queue, hp⟩ := k.waiting hp
  rw [k.context]
  exact h policies policy queue hp

theorem defaultEvaluable_of_ofSource {source : PolicySource} {context : EnforcerContext}
    (built : ofSource source context = .ok e) : DefaultEvaluable e := by
  intro policies policy queue hp
  cases source with
  | policy policy' =>
    obtain ⟨ev, -, rfl⟩ := ofPolicy_eq_ok_iff.1 built
    cases hp
  | operations policies' default =>
    obtain ⟨evaluable, rfl⟩ := ofOperations_eq_ok_iff.1 built
    cases hp
    exact evaluable policy (by simp)

/-- A request for the verdict is told of an event that cannot be read exactly if the default meets
one. -/
theorem finish_unreadable_iff (hv : e.verdict = none) (evaluable : DefaultEvaluable e) :
    (∃ f, e.finish.2 = .error f ∧ f.isContract = true) ↔ DefaultUnreadable e := by
  have judged (e' : Enforcer) : ¬ ∃ f, e'.judge.2 = .error f ∧ f.isContract = true := by
    rintro ⟨f, hf, contract⟩
    obtain ⟨verdict, h⟩ := exists_conclude_of_judge e'
    rw [h] at hf
    exact report_ne_contract contract hf
  cases hp : e.phase with
  | evaluating ev =>
    rw [finish_of_evaluating hp hv]
    simp [judged, DefaultUnreadable, hp]
  | waiting policies default queue =>
    cases default with
    | none =>
      simp only [finish, hv, hp, DefaultUnreadable]
      constructor
      · rintro ⟨f, hf, contract⟩
        have told : e.report (.violated .noOperation) = .error f := hf
        exact absurd told (report_ne_contract contract)
      · rintro ⟨-, _, _, _, _, h, -⟩
        cases h
    | some policy =>
      obtain ⟨ev, hev⟩ := evaluable policies policy queue hp
      have meets : DefaultUnreadable e ↔ ¬ Unfailing (ev.observeEach e.tokens queue).2 := by
        constructor
        · rintro ⟨-, _, _, _, ev', h, hev', unreadable⟩
          cases hp.symm.trans h
          cases hev.symm.trans hev'
          exact unreadable
        · exact fun unreadable => ⟨hv, policies, policy, queue, ev, hp, hev, unreadable⟩
      have read := replay_unreadable_iff (e := { e with phase := .evaluating ev }) rfl queue
      rw [meets, ← read, finish_of_waiting hp hv, start, hev]
      dsimp only
      rcases replay _ queue with ⟨e', f | u⟩
      · simp
      · simp [judged]

/-- The second of two requests is answered like the first, unless the first is told of an event that
cannot be read. -/
theorem finish_finish (e : Enforcer) :
    (e.finish.1.finish.2 = e.finish.2 ∧ ¬ ∃ f, e.finish.2 = .error f ∧ f.isContract = true) ∨
      ∃ f, f.isContract = true ∧ e.verdict = none ∧ e.finish.2 = .error f ∧
        e.finish.1.finish.2 = if e.context.softFail then .ok false else .error f.asVerdict := by
  cases hv : e.verdict with
  | some verdict =>
    rw [finish_of_verdict hv, finish_of_verdict hv]
    exact .inl ⟨rfl, fun ⟨f, hf, contract⟩ => report_ne_contract contract hf⟩
  | none =>
    have step := finished_finish hv
    generalize e.finish = answer at step
    cases step with
    | told k given =>
      refine .inl ⟨?_, fun ⟨f, hf, contract⟩ => report_ne_contract contract hf⟩
      dsimp only
      rw [finish_of_verdict given]
    | @unreadable e' f k given contract =>
      refine .inr ⟨f, contract, rfl, rfl, ?_⟩
      dsimp only
      rw [finish_of_violated given, k.context, f.asVerdict_of_isContract contract]

/-- Two requests for the verdict, one after the other, are answered alike, unless no operation was
reported and the default cannot read one of the events.  Then the first request is told the failure,
and the second is told `false` in soft mode and otherwise a violation with the text of the failure. -/
theorem finish_repeats_iff {source : PolicySource} {context : EnforcerContext}
    (built : ofSource source context = .ok e) (calls : List Call) :
    let asked := (e.perform calls).1.finish
    (asked.1.finish.2 = asked.2 ↔ ¬ DefaultUnreadable (e.perform calls).1) ∧
      (DefaultUnreadable (e.perform calls).1 →
        ∃ f, f.isContract = true ∧ asked.2 = .error f ∧
          asked.1.finish.2 =
            if context.softFail then .ok false
            else .error (.security .invalidSecurity f.message)) := by
  intro asked
  have k := keeps_perform e calls
  have evaluable := k.defaultEvaluable (defaultEvaluable_of_ofSource built)
  have same_context := k.context.trans (verdict_of_ofSource built).2
  rcases finish_finish (e.perform calls).1 with ⟨repeated, readable⟩ | ⟨f, contract, hv, told, later⟩
  · have not_unreadable : ¬ DefaultUnreadable (e.perform calls).1 := fun unreadable =>
      readable ((finish_unreadable_iff unreadable.1 evaluable).2 unreadable)
    exact ⟨iff_of_true repeated not_unreadable, fun unreadable => absurd unreadable not_unreadable⟩
  · rw [same_context, f.asVerdict_of_isContract contract] at later
    have unreadable := (finish_unreadable_iff hv evaluable).1 ⟨f, told, contract⟩
    refine ⟨iff_of_false (fun repeated => ?_) (not_not_intro unreadable), fun _ =>
      ⟨f, contract, told, later⟩⟩
    have same := later.symm.trans (repeated.trans told)
    split at same
    · cases same
    · rw [← Except.error.inj same] at contract
      cases contract

/-- A service that asks for a username token, whatever the operation is. -/
def usernameService : PolicySource :=
  .operations [] (some (.single [.token { role := .protection, kind := .username {} }]))

/-- A username token is found that is not in the registry. -/
def unknownUsername : SecurityEvent := .token ⟨⟨5⟩, .username ⟨.text, none, none, none⟩⟩

/-- The first request for the verdict has the default read the token.  The later ones do not. -/
theorem finish_usernameService :
    ∃ e, ofSource usernameService {} = .ok e ∧
      (e.perform [.register unknownUsername]).1.finish.1.finish.2 ≠
        (e.perform [.register unknownUsername]).1.finish.2 ∧
      (e.perform [.register unknownUsername, .finish]).1.finish.1.finish.2 =
        (e.perform [.register unknownUsername, .finish]).1.finish.2 := by
  have built : ∃ e, ofSource usernameService {} = .ok e := ⟨_, rfl⟩
  obtain ⟨e, built⟩ := built
  refine ⟨e, built, fun repeated => ?_, (finish_repeats_iff built _).1.2 fun unreadable => ?_⟩
  · refine (finish_repeats_iff built _).1.1 repeated ?_
    cases built
    refine ⟨rfl, _, _, _, _, rfl, rfl, fun reads => ?_⟩
    obtain ⟨why, h⟩ := reads _ (.head _)
    cases h
  · have open_still := unreadable.1
    cases built
    cases open_still

/-- Two requests for the verdict can be answered differently. -/
theorem not_finish_repeats :
    ¬ ∀ source context e, ofSource source context = .ok e → ∀ calls,
      (e.perform calls).1.finish.1.finish.2 = (e.perform calls).1.finish.2 := by
  intro repeats
  have same := repeats usernameService {} _ rfl [.register unknownUsername]
  cases same

end Enforcer

end SoapPolicy
