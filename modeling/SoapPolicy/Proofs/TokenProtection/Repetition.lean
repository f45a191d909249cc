import SoapPolicy.Proofs.TokenProtection

/-!
# A signed element that is reported twice

The check of a header takes one signed element for every `Signed` supporting token.  So a second
copy of an element on record can make up for one that is missing, but only if two tokens stand at
its place and the element is signed with a main signature (`Contested`).  If not, the copy is never
taken, and the header falls short of the same (`HeaderRecord.shortfall?_extraCopy`).
-/

namespace SoapPolicy

/-- A `Signed` supporting token that stands at the place of an element. -/
def StandsAt (r : Registry) (element : SignedElement) (id : TokenId) : Prop :=
  ∃ token, r.get? id = some token ∧ token.isSigned = true ∧
    ElementPath.same element.path token.place = true

/-- An element is signed with the main signature, and two of the tokens found stand at its place. -/
def Contested (r : Registry) (found : List TokenId) (element : SignedElement) : Prop :=
  (∃ main ∈ found, ∃ root, r.get? (r.root main) = some root ∧
    root.hasUsage .mainSignature = true ∧ r.signer main = r.signer element.token) ∧
  ∃ id ∈ found, ∃ id' ∈ found, id ≠ id' ∧ StandsAt r element id ∧ StandsAt r element id'

namespace HeaderRecord

variable {r : Registry} {element : SignedElement} {before after : List SignedElement}

theorem any_extraCopy (present : element ∈ before) (p : SignedElement → Bool) :
    (before ++ element :: after).any p = (before ++ after).any p := by
  rw [List.any_append, List.any_append, List.any_cons, ← Bool.or_assoc]
  cases fits : p element with
  | false => rw [Bool.or_false]
  | true => rw [List.any_eq_true.2 ⟨element, present, fits⟩, Bool.or_true, Bool.true_or]

/-- Taking another element from a list leaves a copy where it is. -/
theorem eraseP_extraCopy {p : SignedElement → Bool} (unfit : p element = false)
    (before after : List SignedElement) :
    ∃ before' after', (before ++ element :: after).eraseP p = before' ++ element :: after' ∧
      (before ++ after).eraseP p = before' ++ after' ∧ (element ∈ before → element ∈ before') := by
  have kept : ¬ p element = true := by simp [unfit]
  by_cases early : ∃ e ∈ before, p e = true
  · obtain ⟨e, he, fits⟩ := early
    exact ⟨before.eraseP p, after, List.eraseP_append_left fits _ he,
      List.eraseP_append_left fits _ he, (List.mem_eraseP_of_neg kept).2⟩
  · have later : ∀ e ∈ before, ¬ p e = true := fun e he fits => early ⟨e, he, fits⟩
    refine ⟨before, after.eraseP p, ?_, List.eraseP_append_right _ later, id⟩
    rw [List.eraseP_append_right _ later, List.eraseP_cons_of_neg kept]

/-- An element may be copied if at most one token takes it, and then only from before the copy. -/
theorem signsAll_extraCopy {signer : TokenId} {ids : List TokenId} (distinct : ids.Nodup)
    (spare : r.signer element.token = signer → ∀ id ∈ ids, StandsAt r element id →
      element ∈ before ∧ ∀ id' ∈ ids, StandsAt r element id' → id' = id) :
    signsAll r signer ids (before ++ element :: after) = signsAll r signer ids (before ++ after) := by
  induction ids generalizing before after with
  | nil => rfl
  | cons id ids ih =>
    obtain ⟨new, distinct⟩ := List.nodup_cons.1 distinct
    have others : r.signer element.token = signer → ∀ id ∈ ids, StandsAt r element id →
        element ∈ before ∧ ∀ id' ∈ ids, StandsAt r element id' → id' = id := by
      intro own id' hid' stands
      obtain ⟨present, only⟩ := spare own id' (.tail _ hid') stands
      exact ⟨present, fun id hid => only id (.tail _ hid)⟩
    rw [signsAll, signsAll]
    cases known : r.get id with
    | error f => rfl
    | ok token =>
      have known' := Registry.get_eq_ok_iff.1 known
      dsimp only [bind, Except.bind]
      cases isSigned : token.isSigned with
      | false => exact ih distinct others
      | true =>
        simp only [if_true]
        cases taken : element.isBy r signer token.place with
        | true =>
          obtain ⟨own, place⟩ := signedElement_isBy_iff.1 taken
          obtain ⟨present, only⟩ := spare own id (.head _) ⟨token, known', isSigned, place⟩
          -- this token takes one of those before the copy, and no other token takes any
          rw [any_extraCopy present, List.eraseP_append_left taken _ present,
            List.eraseP_append_left taken _ present]
          split
          · refine ih distinct fun _ id' hid' stands => ?_
            cases only id' (.tail _ hid') stands
            exact absurd hid' new
          · rfl
        | false =>
          obtain ⟨before', after', with_copy, without, remains⟩ :=
            eraseP_extraCopy taken before after
          have same : (before ++ element :: after).any (SignedElement.isBy r signer token.place) =
              (before ++ after).any (SignedElement.isBy r signer token.place) := by
            rw [List.any_append, List.any_append, List.any_cons, taken, Bool.false_or]
          rw [same, with_copy, without]
          split
          · refine ih distinct fun own id' hid' stands => ?_
            obtain ⟨present, only⟩ := others own id' hid' stands
            exact ⟨remains present, only⟩
          · rfl

variable {found tokens : List TokenId}

theorem tokenShortfall_extraCopy (distinct : tokens.Nodup) (known : tokens ⊆ found)
    (present : element ∈ before) (uncontested : ¬ Contested r found element) {id : TokenId}
    (hid : id ∈ tokens) :
    tokenShortfall ⟨tokens, before ++ element :: after⟩ r id =
      tokenShortfall ⟨tokens, before ++ after⟩ r id := by
  simp only [tokenShortfall, isSigned, any_extraCopy present]
  cases rooted : r.get (r.root id) with
  | error f => rfl
  | ok root =>
    dsimp only [bind, Except.bind]
    cases r.get (r.signer id) with
    | error f => rfl
    | ok token =>
      dsimp only
      cases main : root.hasUsage .mainSignature with
      | false => rfl
      | true =>
        have same : signsAll r (r.signer id) tokens (before ++ element :: after) =
            signsAll r (r.signer id) tokens (before ++ after) := by
          refine signsAll_extraCopy distinct fun own id₁ hid₁ stands₁ => ?_
          refine ⟨present, fun id₂ hid₂ stands₂ => ?_⟩
          by_contra apart
          exact uncontested
            ⟨⟨id, known hid, root, Registry.get_eq_ok_iff.1 rooted, main, own.symm⟩,
              id₂, known hid₂, id₁, known hid₁, apart, stands₂, stands₁⟩
        rw [same]

/-- A header falls short of the same if an element on record is recorded once more, unless the
element is contested. -/
theorem shortfall?_extraCopy (distinct : tokens.Nodup) (known : tokens ⊆ found)
    (present : element ∈ before) (uncontested : ¬ Contested r found element) :
    shortfall? ⟨tokens, before ++ element :: after⟩ r = shortfall? ⟨tokens, before ++ after⟩ r := by
  have each : ∀ ids, ids ⊆ tokens →
      firstShortfall ⟨tokens, before ++ element :: after⟩ r ids =
        firstShortfall ⟨tokens, before ++ after⟩ r ids := by
    intro ids
    induction ids with
    | nil => exact fun _ => rfl
    | cons id ids ih =>
      intro inside
      obtain ⟨hid, hids⟩ := List.cons_subset.1 inside
      rw [firstShortfall, firstShortfall,
        tokenShortfall_extraCopy distinct known present uncontested hid, ih hids]
  exact each tokens (List.Subset.refl tokens)

/-- What is recorded later comes behind the extra copy. -/
theorem note_extraCopy (tokens : List TokenId) (element : SignedElement)
    (before after : List SignedElement) (event : SecurityEvent) :
    ∃ tokens' after', note ⟨tokens, before ++ after⟩ event = ⟨tokens', before ++ after'⟩ ∧
      note ⟨tokens, before ++ element :: after⟩ event = ⟨tokens', before ++ element :: after'⟩ := by
  cases event with
  | token found =>
    dsimp only [note, addToken]
    split
    · exact ⟨tokens, after, rfl, rfl⟩
    · exact ⟨_, after, rfl, rfl⟩
  | signedElement report =>
    dsimp only [note, addElement]
    split
    · exact ⟨tokens, after ++ [⟨report.token, report.path⟩], by simp, by simp⟩
    · exact ⟨tokens, after, rfl, rfl⟩
  | _ => exact ⟨tokens, after, rfl, rfl⟩

/-- An event that comes twice is put on record once, unless it reports a signed element. -/
theorem note_again (record : HeaderRecord) (event : SecurityEvent) :
    (record.note event).note event = record.note event ∨
      ∃ tokens before element, event.signedElement? = some element ∧ element ∈ before ∧
        record.note event = ⟨tokens, before ++ []⟩ ∧
        (record.note event).note event = ⟨tokens, before ++ [element]⟩ := by
  cases event with
  | token found =>
    left
    dsimp only [note, addToken]
    cases present : record.tokens.contains found.token with
    | true => simp only [if_true, present]
    | false => simp
  | signedElement report =>
    cases guarded : report.isProtected with
    | false =>
      left
      simp [note, addElement, guarded]
    | true =>
      right
      refine ⟨record.tokens, record.signed ++ [⟨report.token, report.path⟩],
        ⟨report.token, report.path⟩, ?_, by simp, ?_, ?_⟩
      · simp [SecurityEvent.signedElement?, guarded]
      · simp [note, addElement, guarded]
      · simp [note, addElement, guarded]
  | _ => exact .inl rfl

end HeaderRecord

end SoapPolicy
