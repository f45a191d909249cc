import SoapPolicy.Proofs.Enforcer.Likeness
import SoapPolicy.Proofs.Enforcer.TokenProtection
import SoapPolicy.Proofs.Repetition

/-!
# Repeated delivery

Whether an event comes once or twice in a row changes neither the verdict nor which assertions are
met (`Enforcer.repeated_harmless`).  There is one exception.  Token protection asks for a signed
element for each `Signed` supporting token, and a report that comes twice counts as two elements.  So
if two such tokens stand at one place, a second report makes up for a signature that is missing
(`Enforcer.not_repeated_harmless`).
-/

namespace SoapPolicy.Enforcer

/-- Which assertions are met, alternative by alternative. -/
def metFlags (e : Enforcer) : List (List Bool) :=
  match e.phase with
  | .waiting _ _ _ => []
  | .evaluating evaluation =>
    evaluation.candidates.map fun c => c.obligations.map Obligation.met

variable {r : Registry} {ρ : Obligation → Obligation → Prop} {allowed : SecurityEvent → Prop}

theorem Alike.metFlags {e e' : Enforcer} (likeness : Likeness r allowed ρ) (h : Alike r ρ e e') :
    e.metFlags = e'.metFlags := by
  cases h with
  | evaluating h =>
    obtain ⟨ev, ev', hp, alike, -, rfl⟩ := h
    simp only [Enforcer.metFlags, hp]
    exact alike.map_met likeness
  | waiting hp tokens queues same =>
    subst same
    simp only [Enforcer.metFlags, hp]

/-- The tokens that events find. -/
def foundTokens (events : List SecurityEvent) : List TokenId :=
  events.filterMap SecurityEvent.foundToken?

/-- An event that comes twice in a row does the same as if it came once. -/
structure SameTwice (source : PolicySource) (context : EnforcerContext) (e : Enforcer)
    (tokens : Registry) (xs : List SecurityEvent) (event : SecurityEvent) (ys : List SecurityEvent) :
    Prop where
  verdict : ({ e with tokens }.registerAll (xs ++ event :: event :: ys)).1.finish.2 =
    ({ e with tokens }.registerAll (xs ++ event :: ys)).1.finish.2
  flags : ({ e with tokens }.registerAll (xs ++ event :: event :: ys)).1.metFlags =
    ({ e with tokens }.registerAll (xs ++ event :: ys)).1.metFlags
  /-- An obligation that reads the events by itself. -/
  alone : ∀ a o, source.Asserts a → Obligation.ofAssertion a context.initiator = .ok o →
    (o.readAll tokens (xs ++ event :: event :: ys)).met =
      (o.readAll tokens (xs ++ event :: ys)).met

/-- A second copy of an event, directly after it, changes neither the verdict nor which assertions
are met, in the enforcer or by themselves.  Where some policy asks for token protection, this does not
hold of a signed element that the tokens found contest. -/
theorem repeated_harmless {source : PolicySource} {context : EnforcerContext} {e : Enforcer}
    (built : ofSource source context = .ok e) (tokens : Registry) (xs : List SecurityEvent)
    (event : SecurityEvent) (ys : List SecurityEvent)
    (spare : (∃ policy ∈ source.policies, policy.watchesHeader = true) →
      Uncontested tokens (foundTokens (xs ++ event :: ys)) event) :
    SameTwice source context e tokens xs event ys := by
  have ok : ∀ other ∈ xs ++ event :: ys, FindsOnly (foundTokens (xs ++ event :: ys)) other :=
    fun other hother id hid => List.mem_filterMap.2 ⟨other, hother, hid⟩
  generalize foundTokens (xs ++ event :: ys) = found at spare ok
  obtain ⟨earlier, rest⟩ := List.forall_mem_append.1 ok
  obtain ⟨now, later⟩ := List.forall_mem_cons.1 rest
  have onRecord {a : PolicyAssertion} {o : Obligation} (asserts : source.Asserts a)
      (made : Obligation.ofAssertion a context.initiator = .ok o) :
      OnRecord tokens found event context.initiator o :=
    onRecord_ofAssertion made fun watches => spare (asserts.exists_watchesHeader watches)
  have likeness : Likeness tokens (FindsOnly found)
      (Repeats tokens found event context.initiator) := likeness_repeats
  have start : Alike tokens (Repeats tokens found event context.initiator) { e with tokens }
      { e with tokens } :=
    .of_ofSource built (fun _ _ asserts made => ⟨onRecord asserts made, .inl rfl⟩) tokens
  have before := (start.registerAll likeness xs earlier).state
  have again := alike_register_again
    (fun ev ev' why alike read => Evaluation.absorbs_again alike now read) likeness now before
  have after := (again.registerAll likeness ys later).state
  refine ⟨?_, ?_, fun a o asserts made => (onRecord asserts made).met_readAll ok⟩
  all_goals simp only [registerAll_append, registerAll_cons]
  · exact (after.finish likeness).same.symm
  · exact (after.metFlags likeness).symm

/-- The signature over a user is reported twice, which changes nothing, since no other token stands at
the place of the user. -/
theorem repeated_harmless_wrappedKey :
    ∃ e, ofSource (.policy protectingPolicy) {} = .ok e ∧
      ({ e with tokens := wrappedKey }.registerAll
        [.token ⟨⟨0⟩, .x509 ⟨none, 3⟩⟩, .token ⟨⟨2⟩, .username ⟨.digest, none, none, none⟩⟩,
          .ofSigned ⟨0⟩ userPath true, .ofSigned ⟨0⟩ userPath true,
          .operation ⟨"", "greet"⟩]).1.finish.2 = .ok true := by
  have built : ofSource (.policy protectingPolicy) {} = .ok _ := rfl
  have uncontested : Uncontested wrappedKey [⟨0⟩, ⟨2⟩] (.ofSigned ⟨0⟩ userPath true) := by
    rintro element - ⟨-, id, hid, id', hid', apart, ⟨token, known, signed, -⟩,
      token', known', signed', -⟩
    -- of the two tokens only the user has to be signed
    rcases List.mem_pair.1 hid with rfl | rfl
    · cases known
      cases signed
    rcases List.mem_pair.1 hid' with rfl | rfl
    · cases known'
      cases signed'
    exact apart rfl
  have same := repeated_harmless built wrappedKey
    [.token ⟨⟨0⟩, .x509 ⟨none, 3⟩⟩, .token ⟨⟨2⟩, .username ⟨.digest, none, none, none⟩⟩]
    (.ofSigned ⟨0⟩ userPath true) [.operation ⟨"", "greet"⟩] fun _ => uncontested
  exact ⟨_, built, same.verdict.trans rfl⟩

/-- The token of the main signature, and two users that have to be signed and stand at one place. -/
def twoUsers : Registry :=
  ⟨[{ type := .x509V3, usages := [.mainSignature] },
    { type := .username, usages := [.signedSupporting], path := some userPath, included := true },
    { type := .username, usages := [.signedSupporting], path := some userPath, included := true }]⟩

/-- One signature over the place of two users is too few, but is enough if it is reported twice. -/
theorem not_repeated_harmless :
    ¬ ∀ (source : PolicySource) (context : EnforcerContext) (e : Enforcer),
        ofSource source context = .ok e → ∀ tokens xs event ys,
        SameTwice source context e tokens xs event ys := by
  intro all
  have same := all (.policy protectingPolicy) {} _ rfl twoUsers
    [.token ⟨⟨0⟩, .x509 ⟨none, 3⟩⟩, .token ⟨⟨1⟩, .username ⟨.digest, none, none, none⟩⟩,
      .token ⟨⟨2⟩, .username ⟨.digest, none, none, none⟩⟩]
    (.ofSigned ⟨0⟩ userPath true) [.operation ⟨"", "greet"⟩]
  have agree : Except.ok true = .error (Violation.lost .supportingNotSigned).failure := same.verdict
  cases agree

end SoapPolicy.Enforcer
