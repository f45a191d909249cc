import SoapPolicy.Proofs.Building
import SoapPolicy.Proofs.Enforcer.Steps

/-!
# Soft mode

In soft mode a violation is withheld when it happens, and told by the verdict only.  This changes what
is reported and never whether the message is accepted (`softReports_ofSource`).

The two checks of a message go side by side until the first failure of the hard one: as long as the
hard enforcer has withheld nothing, the soft one is the same enforcer in another context
(`softened`).  `Mirrors` is what one step makes of such a pair.  Either they stay side by side, or an
event could not be read and both are stopped, or a violation closes the soft enforcer while it stops
the hard one.  A closed enforcer reads nothing, so the soft one has no second chance
(`Withholding`).
-/

namespace SoapPolicy.Enforcer

/-! ## Side by side -/

/-- The same enforcer in soft mode. -/
def softened (e : Enforcer) : Enforcer :=
  { e with context := { e.context with softFail := true } }

/-- The enforcer reports every violation, and none was found yet. -/
structure Unharmed (e : Enforcer) : Prop where
  hard : e.context.softFail = false
  none_withheld : e.withheld = none
  no_verdict : e.verdict = none

/-- The enforcer withholds the violation that closed it. -/
structure Withholding (e : Enforcer) : Prop extends Closed e where
  soft : e.context.softFail = true
  no_verdict : e.verdict = none

/-- What a step makes of an unharmed enforcer and of the same one in soft mode. -/
inductive Mirrors :
    Enforcer × Except Failure Unit → Enforcer × Except Failure Unit → Prop where
  | alike {e : Enforcer} : Unharmed e → Mirrors (e, .ok ()) (e.softened, .ok ())
  | unreadable {e : Enforcer} {f : Failure} :
    Unharmed e → f.isContract = true → Mirrors (e, .error f) (e.softened, .error f)
  | withheld {e s : Enforcer} {why : Violation} :
    e.context.softFail = false → e.verdict = some (.violated why) → Withholding s →
    Mirrors (e, .error why.failure) (s, .ok ())

variable {e : Enforcer} {event : SecurityEvent}

theorem Unharmed.withPhase (h : Unharmed e) (phase : Phase) : Unharmed { e with phase } :=
  ⟨h.hard, h.none_withheld, h.no_verdict⟩

theorem Unharmed.withOperation (h : Unharmed e) (operation : Option QName) :
    Unharmed { e with operation } :=
  ⟨h.hard, h.none_withheld, h.no_verdict⟩

theorem Unharmed.withTokens (h : Unharmed e) (tokens : Registry) : Unharmed { e with tokens } :=
  ⟨h.hard, h.none_withheld, h.no_verdict⟩

/-! ## Steps -/

/-- What follows a step.  The soft enforcer may have to go on alone, but then it is closed and the rest
is to no effect. -/
theorem Mirrors.andThen {hard soft : Enforcer × Except Failure Unit} (h : Mirrors hard soft)
    {rest : Enforcer → Enforcer × Except Failure Unit}
    (side_by_side : ∀ e, Unharmed e → Mirrors (rest e) (rest e.softened))
    (alone : ∀ s, Closed s → rest s = (s, .ok ())) :
    Mirrors (Enforcer.andThen hard rest) (Enforcer.andThen soft rest) := by
  cases h with
  | alike h => exact side_by_side _ h
  | unreadable h contract => exact .unreadable h contract
  | withheld hard given closed =>
    rw [andThen_ok, alone _ closed.toClosed]
    exact .withheld hard given closed

/-- A violation for want of alternatives is reported by one and withheld by the other. -/
theorem mirrors_raise {ev : Evaluation} (h : Unharmed e) (hp : e.phase = .evaluating ev)
    (hn : ev.viable = []) (why : Violation) : Mirrors (e.raise why) (e.softened.raise why) := by
  have closed := closed_of_raise (e := e.softened) hp hn h.no_verdict why
  rw [raise_of_soft (e := e.softened) rfl] at closed ⊢
  rw [raise_of_hard h.hard]
  exact .withheld h.hard rfl ⟨closed, rfl, h.no_verdict⟩

theorem mirrors_dispatch (h : Unharmed e) (event : SecurityEvent) :
    Mirrors (e.dispatch event) (e.softened.dispatch event) := by
  obtain ⟨context, tokens, phase, operation, withheld, verdict⟩ := e
  cases phase with
  | waiting policies default queue => exact .alike h
  | evaluating ev =>
    have contract := ev.observe_onlyContract tokens event
    simp only [dispatch, softened]
    rcases read : ev.observe tokens event with ⟨ev', f | _ | why⟩ <;> rw [read] at contract
    · exact .unreadable (h.withPhase _) (contract f rfl)
    · exact .alike (h.withPhase _)
    · exact mirrors_raise (h.withPhase _) rfl (Evaluation.viable_eq_nil_of_observe read) (.lost why)

theorem Closed.replay (h : Closed e) (events : List SecurityEvent) :
    e.replay events = (e, .ok ()) := by
  obtain ⟨ev, hp, hn⟩ := h.lost
  exact replay_of_viable_eq_nil hp hn events

theorem mirrors_replay (h : Unharmed e) (events : List SecurityEvent) :
    Mirrors (e.replay events) (e.softened.replay events) := by
  induction events generalizing e with
  | nil => exact .alike h
  | cons event events ih =>
    rw [replay_cons, replay_cons]
    exact (mirrors_dispatch h event).andThen (fun e h => ih h) fun s closed => closed.replay events

theorem mirrors_start (h : Unharmed e) (policy : Policy) (queue : List SecurityEvent) :
    Mirrors (e.start policy queue) (e.softened.start policy queue) := by
  have contract := Evaluation.ofPolicy_onlyContract policy e.context.initiator
  have same : e.softened.context.initiator = e.context.initiator := rfl
  simp only [start, same]
  generalize Evaluation.ofPolicy policy e.context.initiator = built at contract
  cases built with
  | error f => exact .unreadable h (contract f rfl)
  | ok ev => exact mirrors_replay (h.withPhase (.evaluating ev)) queue

theorem mirrors_process (h : Unharmed e) (event : SecurityEvent) :
    Mirrors (e.process event) (e.softened.process event) := by
  cases hp : e.phase with
  | evaluating ev =>
    rw [process_of_evaluating hp, process_of_evaluating (e := e.softened) hp]
    exact mirrors_dispatch (h.withOperation _) event
  | waiting policies default queue =>
    cases hop : event.operation? with
    | none =>
      rw [process_of_waiting hp hop, process_of_waiting (e := e.softened) hp hop]
      exact .alike (h.withPhase _)
    | some name =>
      cases SecurityEvent.operation?_eq_some_iff.1 hop
      rw [process_operation hp, process_operation (e := e.softened) hp]
      cases policyFor? policies default name with
      | none => exact .unreadable (h.withOperation _) rfl
      | some policy =>
        exact (mirrors_start (h.withOperation (some name)) policy queue).andThen
          (fun e h => mirrors_dispatch h _) fun s closed => closed.dispatch _

/-! ## Runs -/

/-- Take the events of a message, each with the tokens as they are by then. -/
def registerEach (e : Enforcer) (history : List (Registry × SecurityEvent)) :
    Enforcer × List (Except Failure Unit) :=
  feed (fun e moment => { e with tokens := moment.1 }.register moment.2) e history

theorem registerEach_cons (e : Enforcer) (tokens : Registry) (event : SecurityEvent)
    (history : List (Registry × SecurityEvent)) :
    e.registerEach ((tokens, event) :: history) =
      ((({ e with tokens }.register event).1.registerEach history).1,
        ({ e with tokens }.register event).2 ::
          (({ e with tokens }.register event).1.registerEach history).2) := rfl

/-- Once the verdict is given it stays, and every event is refused. -/
theorem registerEach_of_verdict {verdict : Verdict} (hv : e.verdict = some verdict)
    (history : List (Registry × SecurityEvent)) :
    ∃ tokens, e.registerEach history =
      ({ e with tokens }, history.map fun _ => .error .finalized) := by
  induction history generalizing e with
  | nil => exact ⟨e.tokens, rfl⟩
  | cons moment history ih =>
    obtain ⟨tokens, event⟩ := moment
    obtain ⟨last, rest⟩ := ih (e := { e with tokens }) hv
    rw [registerEach_cons,
      register_of_isFinalized (isFinalized_of_verdict (e := { e with tokens }) hv), rest]
    exact ⟨last, rfl⟩

namespace Withholding

theorem withTokens (h : Withholding e) (tokens : Registry) : Withholding { e with tokens } :=
  ⟨⟨h.lost, h.recorded, h.unsatisfied⟩, h.soft, h.no_verdict⟩

/-- An enforcer that withholds a violation takes every event, to no effect. -/
theorem registerEach (h : Withholding e) (history : List (Registry × SecurityEvent)) :
    Withholding (e.registerEach history).1 ∧
      (e.registerEach history).2 = history.map fun _ => .ok () := by
  induction history generalizing e with
  | nil => exact ⟨h, rfl⟩
  | cons moment history ih =>
    obtain ⟨tokens, event⟩ := moment
    have h' := h.withTokens tokens
    have unfinalized : ({ e with tokens } : Enforcer).isFinalized = false := by
      rw [isFinalized, h'.no_verdict]
      rfl
    have step := h'.toClosed.register event
    rw [unfinalized, if_neg (by simp)] at step
    have after : Withholding
        { e with tokens, operation := ({ e with tokens } : Enforcer).operationAfter event } :=
      ⟨h'.toClosed.withOperation _, h'.soft, h'.no_verdict⟩
    obtain ⟨last, answers⟩ := ih after
    rw [registerEach_cons, step]
    exact ⟨last, congrArg (.ok () :: ·) answers⟩

/-- An enforcer that withholds a violation does not accept the message. -/
theorem judge (h : Withholding e) : e.judge.2 = .ok false := by
  obtain ⟨why, hw⟩ := Option.isSome_iff_exists.1
    (h.recorded.resolve_left (by simp [h.no_verdict]))
  simp [Enforcer.judge, hw, conclude, report, h.soft]

theorem finish (h : Withholding e) : e.finish.2 = .ok false := by
  obtain ⟨ev, hp, -⟩ := h.lost
  rw [finish_of_evaluating hp h.no_verdict]
  exact h.judge

end Withholding

/-! ## Verdicts -/

/-- The verdict of an unharmed enforcer is told in both modes. -/
theorem judge_softened (h : Unharmed e) :
    e.softened.judge.2 = .ok true ↔ e.judge.2 = .ok true := by
  have same : e.softened.isSatisfied = e.isSatisfied := rfl
  have none_withheld : e.softened.withheld = none := h.none_withheld
  simp only [judge, h.none_withheld, none_withheld, same]
  cases e.isSatisfied with
  | true => exact ⟨fun _ => rfl, fun _ => rfl⟩
  | false => simp [conclude, report, h.hard, softened]

theorem finish_softened (h : Unharmed e) :
    e.softened.finish.2 = .ok true ↔ e.finish.2 = .ok true := by
  cases hp : e.phase with
  | evaluating ev =>
    rw [finish_of_evaluating hp h.no_verdict,
      finish_of_evaluating (e := e.softened) hp h.no_verdict]
    exact judge_softened h
  | waiting policies default queue =>
    cases default with
    | none =>
      simp [finish, h.no_verdict, hp, conclude, report, h.hard, softened]
    | some policy =>
      rw [finish_of_waiting hp h.no_verdict,
        finish_of_waiting (e := e.softened) hp h.no_verdict]
      have step := mirrors_start h policy queue
      generalize e.start policy queue = hard, e.softened.start policy queue = soft at step
      cases step with
      | alike h' => exact judge_softened h'
      | unreadable h' contract => simp
      | withheld hard given closed => simp [closed.judge]

/-! ## Reports -/

/-- The answers before one place are successes, and the answer at it is a failure. -/
def FirstFailure (answers : List (Except Failure Unit)) (place : Nat) (f : Failure) : Prop :=
  List.replicate place (.ok ()) ++ [.error f] <+: answers

section
variable {answers : List (Except Failure Unit)} {place : Nat} {f g : Failure}

@[simp] theorem not_firstFailure_nil : ¬ FirstFailure [] place f := by
  simp [FirstFailure]

@[simp] theorem firstFailure_error_cons :
    FirstFailure (.error g :: answers) place f ↔ place = 0 ∧ f = g := by
  cases place with
  | zero => simp [FirstFailure]
  | succ place => simp [FirstFailure, List.replicate_succ]

@[simp] theorem not_firstFailure_zero : ¬ FirstFailure (.ok () :: answers) 0 f := by
  simp [FirstFailure]

@[simp] theorem firstFailure_succ :
    FirstFailure (.ok () :: answers) (place + 1) f ↔ FirstFailure answers place f := by
  simp [FirstFailure, List.replicate_succ]

end

/-- How the answers and the verdict of a soft check stand to those of the hard check of the same
message. -/
structure SoftReports (hard soft : List (Except Failure Unit))
    (hardVerdict softVerdict : Except Failure Bool) : Prop where
  /-- Both checks answer every event. -/
  length : soft.length = hard.length
  /-- Up to the first failure of the hard check the answers are the same. -/
  agree : ∀ place, List.replicate place (.ok ()) <+: hard → List.replicate place (.ok ()) <+: soft
  /-- The first failure says that an event cannot be read, or it reports a violation. -/
  sort : ∀ place f, FirstFailure hard place f → f.isContract = true ∨ f.isSecurity = true
  /-- An event that cannot be read is refused in both modes. -/
  unreadable : ∀ place f, FirstFailure hard place f → f.isContract = true →
    FirstFailure soft place f ∧ softVerdict = .ok false
  /-- A violation is not reported, and nothing is reported after it. -/
  withheld : ∀ place f, FirstFailure hard place f → f.isSecurity = true →
    soft = hard.map (fun _ => .ok ()) ∧ softVerdict = .ok false
  /-- The same messages are accepted. -/
  accepts : softVerdict = .ok true ↔ hardVerdict = .ok true

namespace SoftReports

variable {hard soft : List (Except Failure Unit)} {hardVerdict softVerdict : Except Failure Bool}

theorem nil (accepts : softVerdict = .ok true ↔ hardVerdict = .ok true) :
    SoftReports [] [] hardVerdict softVerdict where
  length := rfl
  agree _ h := h
  sort _ _ h := by simp at h
  unreadable _ _ h := by simp at h
  withheld _ _ h := by simp at h
  accepts := accepts

theorem cons (h : SoftReports hard soft hardVerdict softVerdict) :
    SoftReports (.ok () :: hard) (.ok () :: soft) hardVerdict softVerdict where
  length := congrArg (· + 1) h.length
  agree
    | 0, _ => List.nil_prefix
    | place + 1, hp => by
      rw [List.replicate_succ, List.cons_prefix_cons] at hp ⊢
      exact ⟨rfl, h.agree place hp.2⟩
  sort
    | 0, _, hf => absurd hf not_firstFailure_zero
    | place + 1, f, hf => h.sort place f (firstFailure_succ.1 hf)
  unreadable
    | 0, _, hf, _ => absurd hf not_firstFailure_zero
    | place + 1, f, hf, hc => by
      rw [firstFailure_succ]
      exact h.unreadable place f (firstFailure_succ.1 hf) hc
  withheld
    | 0, _, hf, _ => absurd hf not_firstFailure_zero
    | place + 1, f, hf, hs => by
      obtain ⟨rfl, verdict⟩ := h.withheld place f (firstFailure_succ.1 hf) hs
      exact ⟨rfl, verdict⟩
  accepts := h.accepts

/-- An event that cannot be read ends both checks. -/
theorem refused {f : Failure} (contract : f.isContract = true) (length : soft.length = hard.length)
    (rejected : hardVerdict ≠ .ok true) :
    SoftReports (.error f :: hard) (.error f :: soft) hardVerdict (.ok false) where
  length := congrArg (· + 1) length
  agree
    | 0, _ => List.nil_prefix
    | place + 1, hp => by simp [List.replicate_succ] at hp
  sort place g hf := by
    obtain ⟨-, rfl⟩ := firstFailure_error_cons.1 hf
    exact .inl contract
  unreadable place g hf _ := by
    rw [firstFailure_error_cons] at hf ⊢
    exact ⟨hf, rfl⟩
  withheld place g hf hs := by
    obtain ⟨-, rfl⟩ := firstFailure_error_cons.1 hf
    rw [Failure.not_isContract_of_isSecurity hs] at contract
    cases contract
  accepts := by simp [rejected]

/-- A violation ends the hard check, and from then on the soft one reports nothing. -/
theorem hidden {f : Failure} (security : f.isSecurity = true)
    (silent : soft = hard.map fun _ => .ok ()) (rejected : hardVerdict ≠ .ok true) :
    SoftReports (.error f :: hard) (.ok () :: soft) hardVerdict (.ok false) where
  length := by simp [silent]
  agree
    | 0, _ => List.nil_prefix
    | place + 1, hp => by simp [List.replicate_succ] at hp
  sort place g hf := by
    obtain ⟨-, rfl⟩ := firstFailure_error_cons.1 hf
    exact .inr security
  unreadable place g hf contract := by
    obtain ⟨-, rfl⟩ := firstFailure_error_cons.1 hf
    rw [Failure.not_isContract_of_isSecurity security] at contract
    cases contract
  withheld _ _ _ _ := ⟨congrArg (.ok () :: ·) silent, rfl⟩
  accepts := by simp [rejected]

end SoftReports

/-! ## The two checks of a message -/

/-- The checks of the rest of a message, after a step of both. -/
theorem softReports_of_mirrors {hard soft : Enforcer × Except Failure Unit} (step : Mirrors hard soft)
    (history : List (Registry × SecurityEvent)) (last : Registry)
    (rest : ∀ e, Unharmed e →
      SoftReports (e.registerEach history).2 (e.softened.registerEach history).2
        ({ (e.registerEach history).1 with tokens := last } : Enforcer).finish.2
        ({ (e.softened.registerEach history).1 with tokens := last } : Enforcer).finish.2) :
    SoftReports (hard.2 :: ((settle hard).registerEach history).2)
      (soft.2 :: ((settle soft).registerEach history).2)
      ({ ((settle hard).registerEach history).1 with tokens := last } : Enforcer).finish.2
      ({ ((settle soft).registerEach history).1 with tokens := last } : Enforcer).finish.2 := by
  cases step with
  | alike h => exact (rest _ h).cons
  | @unreadable e f h contract =>
    -- both are stopped: the rest is refused in both modes, and the verdicts stand
    have hard_given := verdict_stop h.no_verdict f
    have soft_given : (e.softened.stop f).verdict = some (.violated (.stopped f.message)) :=
      hard_given
    obtain ⟨hard_tokens, hard_run⟩ := registerEach_of_verdict hard_given history
    obtain ⟨soft_tokens, soft_run⟩ := registerEach_of_verdict soft_given history
    rw [settle_error, settle_error, hard_run, soft_run,
      finish_of_violated (e := { e.softened.stop f with tokens := last }) soft_given,
      finish_of_violated (e := { e.stop f with tokens := last }) hard_given]
    exact .refused contract (by simp) (by simp [stop, h.hard])
  | @withheld e s why hard given closed =>
    -- only the hard check is stopped: it refuses the rest, which the soft one takes to no effect
    obtain ⟨after, answers⟩ := closed.registerEach history
    obtain ⟨tokens, run⟩ := registerEach_of_verdict given history
    rw [settle_error, stop_of_verdict given, settle_ok, answers, (after.withTokens last).finish, run,
      finish_of_violated (e := { e with tokens := last }) given]
    exact .hidden rfl (by simp) (by simp [hard])

theorem softReports_registerEach (h : Unharmed e) (history : List (Registry × SecurityEvent))
    (last : Registry) :
    SoftReports (e.registerEach history).2 (e.softened.registerEach history).2
      ({ (e.registerEach history).1 with tokens := last } : Enforcer).finish.2
      ({ (e.softened.registerEach history).1 with tokens := last } : Enforcer).finish.2 := by
  induction history generalizing e with
  | nil => exact .nil (finish_softened (h.withTokens last))
  | cons moment history ih =>
    obtain ⟨tokens, event⟩ := moment
    have step := mirrors_process (h.withTokens tokens) event
    rw [registerEach_cons, registerEach_cons, register_of_open (h.withTokens tokens).no_verdict,
      register_of_open (e := { e.softened with tokens }) h.no_verdict]
    exact softReports_of_mirrors step history last fun e h => ih h

/-- A check in soft mode begins where the hard one does. -/
theorem ofSource_softened {source : PolicySource} {initiator : Bool} {hard : Enforcer}
    (built : ofSource source ⟨initiator, false⟩ = .ok hard) :
    ofSource source ⟨initiator, true⟩ = .ok hard.softened ∧ Unharmed hard := by
  cases source with
  | policy policy =>
    obtain ⟨ev, hev, rfl⟩ := ofPolicy_eq_ok_iff.1 built
    exact ⟨ofPolicy_eq_ok_iff.2 ⟨ev, hev, rfl⟩, rfl, rfl, rfl⟩
  | operations policies default =>
    obtain ⟨evaluable, rfl⟩ := ofOperations_eq_ok_iff.1 built
    exact ⟨ofOperations_eq_ok_iff.2 ⟨evaluable, rfl⟩, rfl, rfl, rfl⟩

/-- Soft mode changes what is reported of a message and never the verdict on it. -/
theorem softReports_ofSource {source : PolicySource} {initiator : Bool} {hard : Enforcer}
    (built : ofSource source ⟨initiator, false⟩ = .ok hard)
    (history : List (Registry × SecurityEvent)) (last : Registry) :
    ∃ soft, ofSource source ⟨initiator, true⟩ = .ok soft ∧
      SoftReports (hard.registerEach history).2 (soft.registerEach history).2
        ({ (hard.registerEach history).1 with tokens := last } : Enforcer).finish.2
        ({ (soft.registerEach history).1 with tokens := last } : Enforcer).finish.2 := by
  obtain ⟨soft, unharmed⟩ := ofSource_softened built
  exact ⟨hard.softened, soft, softReports_registerEach unharmed history last⟩

/-- A service that asks for a signed element, whatever the operation is. -/
def signedService : PolicySource :=
  .operations [] (some (.single [.signedElements ⟨[⟨"//a", []⟩]⟩]))

/-- The element is not signed, and then the operation is reported. -/
def unsignedHistory : List (Registry × SecurityEvent) :=
  [({}, .ofSigned ⟨0⟩ [⟨"", "a"⟩] false), ({}, .operation ⟨"", "greet"⟩)]

/-- The violation is found when the operation is reported, and told by the verdict only. -/
theorem softReports_signedService :
    ∃ soft, ofSource signedService ⟨false, true⟩ = .ok soft ∧
      (soft.registerEach unsignedHistory).2 = [.ok (), .ok ()] ∧
      (soft.registerEach unsignedHistory).1.finish.2 = .ok false := by
  have built : ∃ hard, ofSource signedService ⟨false, false⟩ = .ok hard := ⟨_, rfl⟩
  obtain ⟨hard, built⟩ := built
  obtain ⟨soft, hsoft, reports⟩ := softReports_ofSource built unsignedHistory {}
  refine ⟨soft, hsoft, ?_⟩
  cases built
  have found := reports.withheld 1 _ ⟨[], rfl⟩ rfl
  cases hsoft
  exact found

end SoapPolicy.Enforcer
