import SoapPolicy.Proofs.Harmless

/-!
# The order of arrival

The order in which events arrive does not count, as long as they break nothing and the operation
event comes last (`Evaluation.sameVerdict_of_perm`).  Such events leave every obligation as the
events make it (`Heard`), so after two orders of the same events two obligations for one assertion
are alike.  What the operation event says of the header does not depend on the order either, although
the check goes through the tokens and the signed elements as they came
(`HeaderRecord.sameLoss_shortfall?`).

The two runs may name different shortfalls, which is why only the flags are compared.
-/

namespace SoapPolicy

variable {r : Registry} {xs ys : List SecurityEvent}

/-! ## What an alternative is told -/

/-- Two answers take an alternative, or neither does. -/
inductive SameLoss :
    Except Failure (Option Shortfall) → Except Failure (Option Shortfall) → Prop where
  | pass : SameLoss (.ok none) (.ok none)
  | lost (why why' : Shortfall) : SameLoss (.ok (some why)) (.ok (some why'))

/-- The roots of all tokens that are found are known. -/
def FoundKnown (r : Registry) (events : List SecurityEvent) : Prop :=
  RootsKnown r (events.filterMap SecurityEvent.foundToken?)

namespace HeaderRecord

/-- Two records of the same events in different orders meet the demands alike. -/
theorem headerProtected_of_perm (moved : xs.Perm ys)
    (h : HeaderProtected r (xs.foldl note {}).tokens (xs.foldl note {}).signed) :
    HeaderProtected r (ys.foldl note {}).tokens (ys.foldl note {}).signed := by
  obtain ⟨-, tokens, signed⟩ := foldl_note xs {} List.nodup_nil
  obtain ⟨-, tokens', signed'⟩ := foldl_note ys {} List.nodup_nil
  refine h.perm (fun id => ?_) ?_
  · rw [tokens, tokens', (moved.filterMap _).mem_iff]
  · rw [signed, signed']
    exact moved.filterMap _

theorem rootsKnown_foldl_note (known : FoundKnown r xs) :
    RootsKnown r (xs.foldl note ({} : HeaderRecord)).tokens := by
  obtain ⟨-, tokens, -⟩ := foldl_note xs {} List.nodup_nil
  intro id hid
  rcases (tokens id).1 hid with old | found
  · cases old
  · exact known id found

/-- The check of a header does not depend on the order in which its record was made. -/
theorem sameLoss_shortfall? (moved : xs.Perm ys) (known : FoundKnown r xs) :
    SameLoss ((xs.foldl note ({} : HeaderRecord)).shortfall? r)
      ((ys.foldl note ({} : HeaderRecord)).shortfall? r) := by
  have known' : FoundKnown r ys := fun id hid =>
    known id ((moved.filterMap _).mem_iff.2 hid)
  have check := shortfall?_cases (foldl_note xs {} List.nodup_nil).1 (rootsKnown_foldl_note known)
  have check' := shortfall?_cases (foldl_note ys {} List.nodup_nil).1 (rootsKnown_foldl_note known')
  rcases check with ⟨asked, whole⟩ | ⟨why, asked, first⟩
  · rcases check' with ⟨asked', -⟩ | ⟨why', -, first'⟩
    · rw [asked, asked']
      exact .pass
    · exact absurd (headerProtected_of_perm moved whole) first'.not_headerProtected
  · rcases check' with ⟨-, whole'⟩ | ⟨why', asked', -⟩
    · exact absurd (headerProtected_of_perm moved.symm whole') first.not_headerProtected
    · rw [asked, asked']
      exact .lost why why'

end HeaderRecord

/-! ## Obligations -/

namespace Heard

variable {d : Demand} {o o' : Obligation}

/-- After the same events in different orders, an assertion is met or it is not. -/
theorem met_eq (moved : xs.Perm ys) (h : Heard r xs d o) (h' : Heard r ys d o') :
    o.met = o'.met := by
  have same {p : SecurityEvent → Prop} : (∃ e ∈ xs, p e) ↔ ∃ e ∈ ys, p e := by
    simp only [moved.mem_iff]
  cases h with
  | token seen =>
    cases h' with
    | token seen' => exact Bool.eq_iff_iff.2 (seen.trans (same.trans seen'.symm))
  | protection seen =>
    cases h' with
    | protection seen' =>
      rw [Bool.eq_iff_iff, seen, seen', same]
  | presence patterns =>
    cases h' with
    | presence => simp only [moved.any_eq]
  | header binding =>
    cases h' with
    | header => rfl
  | idle binding =>
    cases h' with
    | idle => rfl

/-- The operation event finds two orders of the same events alike. -/
theorem read_operation (moved : xs.Perm ys) (known : FoundKnown r xs) (h : Heard r xs d o)
    (h' : Heard r ys d o') (first second : QName) :
    (o.read r (.operation first)).1.met = (o'.read r (.operation second)).1.met ∧
      SameLoss (o.read r (.operation first)).2 (o'.read r (.operation second)).2 := by
  have unread {o o' : Obligation} (same : o.met = o'.met)
      (deaf : EventKind.operation ∉ o.kinds) (deaf' : EventKind.operation ∉ o'.kinds) :
      (o.read r (.operation first)).1.met = (o'.read r (.operation second)).1.met ∧
        SameLoss (o.read r (.operation first)).2 (o'.read r (.operation second)).2 := by
    rw [Obligation.read_of_not_mem deaf, Obligation.read_of_not_mem deaf']
    exact ⟨same, .pass⟩
  have same := h.met_eq moved h'
  -- only an obligation with a record reads the operation event
  cases h with
  | token seen =>
    cases h' with
    | token seen' => exact unread same (by simp) (by simp)
  | @protection kind patterns met shortfall seen =>
    cases h' with
    | protection seen' =>
      have deaf : EventKind.operation ∉ [kind.eventKind] := by cases kind <;> decide
      exact unread same deaf deaf
  | presence patterns =>
    cases h' with
    | presence => exact unread same (by simp) (by simp)
  | idle binding =>
    cases h' with
    | idle => exact unread same List.not_mem_nil List.not_mem_nil
  | header binding =>
    cases h' with
    | header =>
      rw [Obligation.read_operation, Obligation.read_operation]
      have checked := HeaderRecord.sameLoss_shortfall? moved known
      generalize (xs.foldl HeaderRecord.note {}).shortfall? r = answer at checked
      generalize (ys.foldl HeaderRecord.note {}).shortfall? r = answer' at checked
      cases checked with
      | pass => exact ⟨rfl, .pass⟩
      | lost why why' => exact ⟨rfl, .lost why why'⟩

end Heard

/-! ## Candidates -/

namespace Candidate

variable {ds : List Demand} {os os' : List Obligation} {before events : List SecurityEvent}
  {event : SecurityEvent}

/-- An event that breaks nothing is read by every obligation of an alternative. -/
theorem observeAll_heard (h : List.Forall₂ (Heard r before) ds os)
    (endures : ∀ d ∈ ds, d.fresh.Endures r event) (early : event.kind ≠ .operation) :
    ∃ os', observeAll r event os = (os', .ok none) ∧
      List.Forall₂ (Heard r (before ++ [event])) ds os' := by
  induction h with
  | nil => exact ⟨[], rfl, .nil⟩
  | @cons d o ds os hd _ ih =>
    obtain ⟨head, rest⟩ := List.forall_mem_cons.1 endures
    obtain ⟨o', hread, heard⟩ := hd.read head early
    obtain ⟨os', hrest, heards⟩ := ih rest
    refine ⟨o' :: os', ?_, .cons heard heards⟩
    rw [observeAll_cons, hread, hrest]

/-- An alternative stays open through events that break nothing. -/
theorem observeEach_heard (h : List.Forall₂ (Heard r before) ds os)
    (endures : ∀ event ∈ events, ∀ d ∈ ds, d.fresh.Endures r event)
    (early : ∀ event ∈ events, event.kind ≠ .operation) :
    ∃ os', (observeEach r ⟨os, none⟩ events).1 = ⟨os', none⟩ ∧
      Unfailing (observeEach r ⟨os, none⟩ events).2 ∧
      List.Forall₂ (Heard r (before ++ events)) ds os' := by
  induction events generalizing before os with
  | nil => exact ⟨os, rfl, unfailing_nil, by rwa [List.append_nil]⟩
  | cons event events ih =>
    obtain ⟨head, rest⟩ := List.forall_mem_cons.1 endures
    obtain ⟨head_early, rest_early⟩ := List.forall_mem_cons.1 early
    obtain ⟨os₁, hread, heard⟩ := observeAll_heard h head head_early
    obtain ⟨os', after, unfailing, heards⟩ := ih heard rest rest_early
    have step : observe r event ⟨os, none⟩ = (⟨os₁, none⟩, .ok none) := by
      refine Prod.ext ?_ ?_
      · rw [observe_fst_of_open, hread]
        rfl
      · rw [observe_snd_of_open, hread]
    rw [observeEach_cons, step, unfailing_cons]
    refine ⟨os', after, ⟨⟨none, rfl⟩, unfailing⟩, ?_⟩
    rwa [List.append_assoc] at heards

/-- Both alternatives are open or both are lost, and the same assertions are met. -/
structure SameVerdict (c c' : Candidate) : Prop where
  viable : c.isViable = c'.isViable
  met : c.obligations.map Obligation.met = c'.obligations.map Obligation.met

theorem map_met_eq (moved : xs.Perm ys) (h : List.Forall₂ (Heard r xs) ds os)
    (h' : List.Forall₂ (Heard r ys) ds os') : os.map Obligation.met = os'.map Obligation.met := by
  induction h generalizing os' with
  | nil =>
    cases h'
    rfl
  | cons hd _ ih =>
    cases h' with
    | cons hd' rest' => rw [List.map_cons, List.map_cons, hd.met_eq moved hd', ih rest']

/-- The operation event stops at the same obligation, whatever the order before it was. -/
theorem observeAll_operation (moved : xs.Perm ys) (known : FoundKnown r xs)
    (h : List.Forall₂ (Heard r xs) ds os) (h' : List.Forall₂ (Heard r ys) ds os')
    (first second : QName) :
    (observeAll r (.operation first) os).1.map Obligation.met =
        (observeAll r (.operation second) os').1.map Obligation.met ∧
      SameLoss (observeAll r (.operation first) os).2 (observeAll r (.operation second) os').2 := by
  induction h generalizing os' with
  | nil =>
    cases h'
    exact ⟨rfl, .pass⟩
  | @cons d o ds os hd rest ih =>
    cases h' with
    | @cons _ o' _ os' hd' rest' =>
      obtain ⟨same, answers⟩ := hd.read_operation moved known hd' first second
      rw [observeAll_cons, observeAll_cons]
      generalize o.read r (.operation first) = step at same answers
      generalize o'.read r (.operation second) = step' at same answers
      obtain ⟨o₁, answer⟩ := step
      obtain ⟨o₁', answer'⟩ := step'
      cases answers with
      | pass =>
        obtain ⟨tail, loss⟩ := ih rest'
        exact ⟨congrArg₂ List.cons same tail, loss⟩
      | lost why why' =>
        -- the rest does not read the event, and was alike before it
        exact ⟨congrArg₂ List.cons same (map_met_eq moved rest rest'), .lost why why'⟩

/-- One more event is read by what the events before it leave. -/
theorem observeEach_snoc {c : Candidate} (event : SecurityEvent)
    (open_before : (c.observeEach r events).1 = ⟨os, none⟩)
    (unfailing : Unfailing (c.observeEach r events).2) :
    (c.observeEach r (events ++ [event])).1 =
        ⟨(observeAll r event os).1, (observeAll r event os).2.toOption.join⟩ ∧
      ((∃ why, (observeAll r event os).2 = .ok why) →
        Unfailing (c.observeEach r (events ++ [event])).2) := by
  have run : c.observeEach r (events ++ [event]) =
      ((observe r event ⟨os, none⟩).1,
        (c.observeEach r events).2 ++ [(observe r event ⟨os, none⟩).2]) := by
    rw [← open_before]
    exact feed_append _ c events [event]
  rw [run, observe_fst_of_open, observe_snd_of_open]
  refine ⟨rfl, fun answered => ?_⟩
  exact List.forall_mem_append.2 ⟨unfailing, unfailing_cons.2 ⟨answered, unfailing_nil⟩⟩

/-- An alternative of which nothing was read yet comes to one verdict. -/
theorem sameVerdict_of_fresh (moved : xs.Perm ys) (known : FoundKnown r xs)
    (fresh : List.Forall₂ (Heard r []) ds os)
    (endures : ∀ event ∈ xs, ∀ d ∈ ds, d.fresh.Endures r event)
    (early : ∀ event ∈ xs, event.kind ≠ .operation) (first second : QName) :
    Unfailing (observeEach r ⟨os, none⟩ (xs ++ [.operation first])).2 ∧
      Unfailing (observeEach r ⟨os, none⟩ (ys ++ [.operation second])).2 ∧
      SameVerdict (observeEach r ⟨os, none⟩ (xs ++ [.operation first])).1
        (observeEach r ⟨os, none⟩ (ys ++ [.operation second])).1 := by
  have endures' : ∀ event ∈ ys, ∀ d ∈ ds, d.fresh.Endures r event :=
    fun event hevent => endures event (moved.mem_iff.2 hevent)
  have early' : ∀ event ∈ ys, event.kind ≠ .operation :=
    fun event hevent => early event (moved.mem_iff.2 hevent)
  obtain ⟨os₁, after, unfailing, heard⟩ := observeEach_heard fresh endures early
  obtain ⟨os₂, after', unfailing', heard'⟩ := observeEach_heard fresh endures' early'
  obtain ⟨state, answered⟩ := observeEach_snoc (.operation first) after unfailing
  obtain ⟨state', answered'⟩ := observeEach_snoc (.operation second) after' unfailing'
  obtain ⟨met, loss⟩ := observeAll_operation moved known heard heard' first second
  rw [state, state']
  generalize (observeAll r (.operation first) os₁).2 = answer at answered loss ⊢
  generalize (observeAll r (.operation second) os₂).2 = answer' at answered' loss ⊢
  cases loss with
  | pass => exact ⟨answered ⟨_, rfl⟩, answered' ⟨_, rfl⟩, rfl, met⟩
  | lost why why' => exact ⟨answered ⟨_, rfl⟩, answered' ⟨_, rfl⟩, rfl, met⟩

theorem SameVerdict.isMet_eq {c c' : Candidate} (h : SameVerdict c c') : c.isMet = c'.isMet := by
  have all (c : Candidate) : c.isMet = (c.obligations.map Obligation.met).all id := by
    simp [isMet, List.all_map]
  rw [all, all, h.met]

end Candidate

/-! ## Policies -/

/-- An event breaks nothing: every assertion of a policy that reads its kind endures it. -/
def Harmless (policy : Policy) (initiator : Bool) (r : Registry) (event : SecurityEvent) : Prop :=
  ∀ alternative ∈ policy.alternatives, ∀ a ∈ alternative.assertions,
    ∀ o, Obligation.ofAssertion a initiator = .ok o → o.Endures r event

namespace Evaluation

/-- The same alternatives are lost, the same assertions are met, and both evaluations are satisfied
or neither is. -/
structure SameVerdict (ev ev' : Evaluation) : Prop where
  candidates : List.Forall₂ Candidate.SameVerdict ev.candidates ev'.candidates
  satisfied : ev.isSatisfied = ev'.isSatisfied

theorem sameVerdict_of_candidates {ev ev' : Evaluation}
    (h : List.Forall₂ Candidate.SameVerdict ev.candidates ev'.candidates) : SameVerdict ev ev' := by
  refine ⟨h, ?_⟩
  have satisfied_iff (ev : Evaluation) :
      ev.isSatisfied = ev.candidates.any fun c => c.isViable && c.isMet := by
    simp [isSatisfied, viable, List.any_filter]
  rw [satisfied_iff, satisfied_iff]
  generalize ev.candidates = cs at h
  generalize ev'.candidates = cs' at h
  induction h with
  | nil => rfl
  | cons same _ ih => rw [List.any_cons, List.any_cons, same.viable, same.isMet_eq, ih]

/-- The order in which events arrive does not count, as long as they break nothing and the operation
event comes last. -/
theorem sameVerdict_of_perm {policy : Policy} {initiator : Bool} {ev : Evaluation}
    (built : ofPolicy policy initiator = .ok ev) (moved : xs.Perm ys) (known : FoundKnown r xs)
    (harmless : ∀ event ∈ xs, Harmless policy initiator r event)
    (early : ∀ event ∈ xs, event.kind ≠ .operation) (first second : QName) :
    Unfailing (ev.observeEach r (xs ++ [.operation first])).2 ∧
      Unfailing (ev.observeEach r (ys ++ [.operation second])).2 ∧
      SameVerdict (ev.observeEach r (xs ++ [.operation first])).1
        (ev.observeEach r (ys ++ [.operation second])).1 := by
  have each : ∀ c ∈ ev.candidates,
      Unfailing (c.observeEach r (xs ++ [.operation first])).2 ∧
        Unfailing (c.observeEach r (ys ++ [.operation second])).2 ∧
        Candidate.SameVerdict (c.observeEach r (xs ++ [.operation first])).1
          (c.observeEach r (ys ++ [.operation second])).1 := by
    intro c hc
    obtain ⟨alternative, halt, made⟩ := forall₂_exists_left (ofPolicy_eq_ok built) hc
    obtain ⟨os, rfl, assertions⟩ := Candidate.ofAlternative_eq_ok made
    have fresh : List.Forall₂ (Heard r []) (os.map Obligation.demand) os := by
      rw [List.forall₂_map_left_iff, List.forall₂_same]
      intro o ho
      obtain ⟨a, -, hof⟩ := forall₂_exists_left assertions ho
      exact (heard_ofAssertion hof).2
    have endures : ∀ event ∈ xs, ∀ d ∈ os.map Obligation.demand, d.fresh.Endures r event := by
      intro event hevent d hd
      obtain ⟨o, ho, rfl⟩ := List.mem_map.1 hd
      obtain ⟨a, ha, hof⟩ := forall₂_exists_left assertions ho
      rw [← (heard_ofAssertion (r := r) hof).1]
      exact harmless event hevent alternative halt a ha o hof
    exact Candidate.sameVerdict_of_fresh moved known fresh endures early first second
  have unfailing := observeEach_unfailing_iff.2 fun c hc => (each c hc).1
  have unfailing' := observeEach_unfailing_iff.2 fun c hc => (each c hc).2.1
  refine ⟨unfailing, unfailing', sameVerdict_of_candidates ?_⟩
  rw [observeEach_candidates unfailing, observeEach_candidates unfailing',
    List.forall₂_map_left_iff, List.forall₂_map_right_iff, List.forall₂_same]
  exact fun c hc => (each c hc).2.2

section ProtectedHeader

/-- A policy that asks for token protection and for an element that is present. -/
def protectedHeader : Policy :=
  .single [.binding ⟨.symmetric, true⟩, .requiredElements ⟨[⟨"//b", []⟩]⟩]

/-- The tokens are found, one is signed, and the element is present. -/
def headerEvents : List SecurityEvent :=
  [.token ⟨⟨0⟩, .x509 ⟨none, 3⟩⟩, .token ⟨⟨2⟩, .username ⟨.digest, none, none, none⟩⟩,
    .ofSigned ⟨0⟩ userPath true, .requiredElement [⟨"", "b"⟩]]

theorem harmless_headerEvents :
    ∀ event ∈ headerEvents, Harmless protectedHeader false wrappedKey event := by
  intro event hevent alternative halt a ha o made reads
  cases List.mem_singleton.1 halt
  simp only [headerEvents, List.mem_cons, List.not_mem_nil, or_false] at hevent ha
  rcases ha with rfl | rfl <;> cases made <;> rcases hevent with rfl | rfl | rfl | rfl <;>
    first
    | exact ⟨_, _, rfl, rfl⟩
    | exact absurd reads (by decide)

/-- The signature may come before the tokens that it covers. -/
theorem sameVerdict_headerEvents :
    ∃ ev, ofPolicy protectedHeader false = .ok ev ∧
      SameVerdict (ev.observeEach wrappedKey (headerEvents ++ [.operation ⟨"", "greet"⟩])).1
        (ev.observeEach wrappedKey (headerEvents.reverse ++ [.operation ⟨"", "greet"⟩])).1 := by
  have built : ∃ ev, ofPolicy protectedHeader false = .ok ev := ⟨_, rfl⟩
  obtain ⟨ev, built⟩ := built
  have known : FoundKnown wrappedKey headerEvents := rootsKnown_wrappedKey
  have early : ∀ event ∈ headerEvents, event.kind ≠ .operation := by decide
  have verdict := sameVerdict_of_perm built (List.reverse_perm headerEvents).symm known
    harmless_headerEvents early ⟨"", "greet"⟩ ⟨"", "greet"⟩
  exact ⟨ev, built, verdict.2.2⟩

end ProtectedHeader

end Evaluation

end SoapPolicy
