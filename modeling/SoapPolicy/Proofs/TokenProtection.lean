import Mathlib.Data.List.Basic
import SoapPolicy.Obligation.TokenProtection
import SoapPolicy.Proofs.Building

/-!
# What token protection says

The demands of token protection on the tokens and the signed elements of a header, without the order
in which they are looked at (`HeaderProtected`).  A header that falls short of nothing meets them
(`headerProtected_of_shortfall?`).

The main signature signs every `Signed` supporting token, each as an element of its own, so there is
a place among the signed elements for each of these tokens, and no two share one.  The check takes
elements away from a list while it goes through the tokens.  Its places are found by numbering the
elements before (`exists_places_of_signsAll`).
-/

namespace SoapPolicy

/-! ## The demands -/

section
variable (r : Registry) (tokens : List TokenId) (signed : List SignedElement) (signer : TokenId)

/-- Some signature of a token signs the element at a path. -/
def SignedBy (path : ElementPath) : Prop :=
  ∃ element ∈ signed, r.signer element.token = signer ∧ ElementPath.same element.path path = true

/-- A token that the main signature has to sign. -/
def IsSupporting (id : TokenId) (token : SecurityToken) : Prop :=
  id ∈ tokens ∧ r.get? id = some token ∧ token.isSigned = true

/-- The signatures of a token sign every token that has to be signed, each as an element of its
own. -/
def SignsSupporting : Prop :=
  ∃ place : TokenId → Nat,
    (∀ id token, IsSupporting r tokens id token →
      ∃ element, signed[place id]? = some element ∧ r.signer element.token = signer ∧
        ElementPath.same element.path token.place = true) ∧
    ∀ id token id' token', IsSupporting r tokens id token → IsSupporting r tokens id' token' →
      place id = place id' → id = id'

/-- What is demanded of a token with a root and a signer. -/
structure TokenProtected (root token : SecurityToken) : Prop where
  /-- A signing token that is in the message is signed by its own signature. -/
  signs_itself : token.included = true → root.isSigning = true ∨ token.isSigning = true →
    SignedBy r signed signer token.place
  /-- An endorsing token signs the main signature. -/
  endorses : root.isEndorsing = true → SignedBy r signed signer ElementPath.headerSignature
  /-- The main signature signs every `Signed` supporting token. -/
  signs_supporting : root.hasUsage .mainSignature = true → SignsSupporting r tokens signed signer

/-- Every token of a header is known and meets the demands. -/
def HeaderProtected : Prop :=
  ∀ id ∈ tokens, ∃ root token,
    r.get? (r.root id) = some root ∧ r.get? (r.signer id) = some token ∧
      TokenProtected r tokens signed (r.signer id) root token

end

variable {r : Registry} {tokens : List TokenId} {signed : List SignedElement} {signer : TokenId}

theorem signedElement_isBy_iff {path : ElementPath} {element : SignedElement} :
    element.isBy r signer path = true ↔
      r.signer element.token = signer ∧ ElementPath.same element.path path = true := by
  simp [SignedElement.isBy]

/-- Only which tokens there are counts, and neither their order nor their number. -/
theorem HeaderProtected.congr {tokens' : List TokenId} (h : HeaderProtected r tokens signed)
    (same : ∀ id, id ∈ tokens' ↔ id ∈ tokens) : HeaderProtected r tokens' signed := by
  have supporting {id : TokenId} {token : SecurityToken} (hs : IsSupporting r tokens' id token) :
      IsSupporting r tokens id token := ⟨(same id).1 hs.1, hs.2⟩
  intro id hid
  obtain ⟨root, token, hroot, htoken, demands⟩ := h id ((same id).1 hid)
  refine ⟨root, token, hroot, htoken, demands.signs_itself, demands.endorses, fun main => ?_⟩
  obtain ⟨place, found, apart⟩ := demands.signs_supporting main
  exact ⟨place, fun id token hs => found id token (supporting hs),
    fun id token id' token' hs hs' => apart id token id' token' (supporting hs) (supporting hs')⟩

/-! ## Places for the supporting tokens -/

/-- Every token that has to be signed has the number of an element that its signer signs, and no two
tokens have the same. -/
structure Places (r : Registry) (signer : TokenId) (ids : List TokenId)
    (numbered : List (SignedElement × Nat)) (place : TokenId → Nat) : Prop where
  found : ∀ id token, IsSupporting r ids id token →
    ∃ element, (element, place id) ∈ numbered ∧ element.isBy r signer token.place = true
  apart : ∀ id token id' token', IsSupporting r ids id token → IsSupporting r ids id' token' →
    place id = place id' → id = id'

namespace Places

variable {id : TokenId} {token : SecurityToken} {ids : List TokenId} {place : TokenId → Nat}

theorem nil {numbered : List (SignedElement × Nat)} : Places r signer [] numbered place where
  found _ _ h := absurd h.1 List.not_mem_nil
  apart _ _ _ _ h := absurd h.1 List.not_mem_nil

/-- A token that need not be signed needs no place. -/
theorem skip {numbered : List (SignedElement × Nat)} (h : Places r signer ids numbered place)
    (hid : r.get? id = some token) (unsigned : token.isSigned = false) :
    Places r signer (id :: ids) numbered place := by
  have supporting {id' : TokenId} {token' : SecurityToken}
      (hs : IsSupporting r (id :: ids) id' token') : IsSupporting r ids id' token' := by
    obtain ⟨hmem, hget, hsigned⟩ := hs
    rcases List.mem_cons.1 hmem with rfl | hmem
    · rw [hid] at hget
      cases hget
      rw [unsigned] at hsigned
      cases hsigned
    · exact ⟨hmem, hget, hsigned⟩
  exact ⟨fun id' token' hs => h.found id' token' (supporting hs),
    fun _ _ _ _ hs hs' => h.apart _ _ _ _ (supporting hs) (supporting hs')⟩

/-- A token takes the number of an element that no other token has. -/
theorem take {before after : List (SignedElement × Nat)} {element : SignedElement} {n : Nat}
    (h : Places r signer ids (before ++ after) place) (hid : r.get? id = some token)
    (new : id ∉ ids) (fits : element.isBy r signer token.place = true)
    (numbers : ((before ++ (element, n) :: after).map Prod.snd).Nodup) :
    Places r signer (id :: ids) (before ++ (element, n) :: after)
      (fun id' => if id' = id then n else place id') := by
  -- the number went with the element, so the places of the other tokens differ from it
  have unused : ∀ e, (e, n) ∉ before ++ after := by
    intro e he
    have moved := (List.perm_middle.map Prod.snd).nodup_iff.1 numbers
    exact (List.nodup_cons.1 moved).1 (List.mem_map.2 ⟨_, he, rfl⟩)
  have older {id' : TokenId} {token' : SecurityToken}
      (hs : IsSupporting r (id :: ids) id' token') (hne : id' ≠ id) :
      IsSupporting r ids id' token' :=
    ⟨(List.mem_cons.1 hs.1).resolve_left hne, hs.2⟩
  have differs {id' : TokenId} {token' : SecurityToken} (hs : IsSupporting r ids id' token') :
      place id' ≠ n := by
    rintro rfl
    obtain ⟨e, he, -⟩ := h.found id' token' hs
    exact unused e he
  constructor
  · intro id' token' hs
    by_cases hne : id' = id
    · subst hne
      cases hid.symm.trans hs.2.1
      exact ⟨element, by simp, fits⟩
    · obtain ⟨e, he, hfits⟩ := h.found id' token' (older hs hne)
      refine ⟨e, ?_, hfits⟩
      rw [if_neg hne]
      exact List.perm_middle.mem_iff.2 (.tail _ he)
  · intro a ta b tb ha hb heq
    by_cases hane : a = id
    · by_cases hbne : b = id
      · rw [hane, hbne]
      · rw [if_pos hane, if_neg hbne] at heq
        exact absurd heq.symm (differs (older hb hbne))
    · by_cases hbne : b = id
      · rw [if_neg hane, if_pos hbne] at heq
        exact absurd heq (differs (older ha hane))
      · rw [if_neg hane, if_neg hbne] at heq
        exact h.apart a ta b tb (older ha hane) (older hb hbne) heq

end Places

namespace HeaderRecord

/-- The check takes an element away for every token that has to be signed, so each has a number of
its own. -/
theorem exists_places_of_signsAll {ids : List TokenId} :
    ∀ {numbered : List (SignedElement × Nat)}, ids.Nodup → (numbered.map Prod.snd).Nodup →
      signsAll r signer ids (numbered.map Prod.fst) = .ok true →
      ∃ place, Places r signer ids numbered place := by
  induction ids with
  | nil => exact fun _ _ _ => ⟨fun _ => 0, .nil⟩
  | cons id ids ih =>
    intro numbered distinct numbers h
    obtain ⟨new, hids⟩ := List.nodup_cons.1 distinct
    rw [signsAll] at h
    cases hget : r.get id with
    | error f =>
      rw [hget] at h
      cases h
    | ok token =>
      have hid := Registry.get_eq_ok_iff.1 hget
      simp only [hget, bind, Except.bind] at h
      cases hsigned : token.isSigned with
      | false =>
        simp only [hsigned, Bool.false_eq_true, if_false] at h
        obtain ⟨place, places⟩ := ih hids numbers h
        exact ⟨place, places.skip hid hsigned⟩
      | true =>
        simp only [hsigned, if_true, List.any_map] at h
        split at h
        next some_fits =>
          -- the first element that fits is the one taken away
          obtain ⟨pair, hmem, hfits⟩ := List.any_eq_true.1 some_fits
          obtain ⟨⟨element, n⟩, before, after, -, fits, rfl, erased⟩ :=
            List.exists_of_eraseP hmem hfits
          rw [List.eraseP_map, erased] at h
          have fewer : ((before ++ after).map Prod.snd).Nodup := by
            have moved := (List.perm_middle.map Prod.snd).nodup_iff.1 numbers
            exact (List.nodup_cons.1 moved).2
          obtain ⟨place, places⟩ := ih hids fewer h
          exact ⟨_, places.take hid new fits numbers⟩
        next => cases h

theorem signsSupporting_of_signsAll (distinct : tokens.Nodup)
    (h : signsAll r signer tokens signed = .ok true) : SignsSupporting r tokens signed signer := by
  have numbers : (signed.zipIdx.map Prod.snd).Nodup := by
    rw [List.zipIdx_map_snd]
    exact List.nodup_range'
  rw [← List.zipIdx_map_fst 0 signed] at h
  obtain ⟨place, places⟩ := exists_places_of_signsAll distinct numbers h
  refine ⟨place, fun id token hs => ?_, places.apart⟩
  obtain ⟨element, hmem, fits⟩ := places.found id token hs
  exact ⟨element, List.mk_mem_zipIdx_iff_getElem?.1 hmem, signedElement_isBy_iff.1 fits⟩

/-! ## Headers that fall short of nothing -/

theorem isSigned_iff {record : HeaderRecord} {path : ElementPath} :
    record.isSigned r signer path = true ↔ SignedBy r record.signed signer path := by
  simp [isSigned, SignedBy, signedElement_isBy_iff]

/-- A token that falls short of nothing is known and meets the demands. -/
theorem tokenProtected_of_tokenShortfall {record : HeaderRecord} {id : TokenId}
    (distinct : record.tokens.Nodup) (h : record.tokenShortfall r id = .ok none) :
    ∃ root token, r.get? (r.root id) = some root ∧ r.get? (r.signer id) = some token ∧
      TokenProtected r record.tokens record.signed (r.signer id) root token := by
  unfold tokenShortfall at h
  cases hroot : r.get (r.root id) with
  | error f =>
    rw [hroot] at h
    cases h
  | ok root =>
    cases htoken : r.get (r.signer id) with
    | error f =>
      simp only [hroot, htoken] at h
      cases h
    | ok token =>
      simp only [hroot, htoken, bind, Except.bind, pure, Except.pure] at h
      refine ⟨root, token, Registry.get_eq_ok_iff.1 hroot, Registry.get_eq_ok_iff.1 htoken, ?_⟩
      split at h
      next => cases h
      next signed_itself =>
        split at h
        next => cases h
        next endorsed =>
          refine ⟨fun included signing => ?_, fun endorsing => ?_, fun main => ?_⟩
          · rw [← isSigned_iff]
            simpa [included, signing] using signed_itself
          · rw [← isSigned_iff]
            simpa [endorsing] using endorsed
          · rw [if_pos main] at h
            cases hall : signsAll r (r.signer id) record.tokens record.signed with
            | error f =>
              rw [hall] at h
              cases h
            | ok all =>
              rw [hall] at h
              cases all with
              | false => cases h
              | true => exact signsSupporting_of_signsAll distinct hall

/-- A header that falls short of nothing meets all demands. -/
theorem headerProtected_of_shortfall? {record : HeaderRecord} (distinct : record.tokens.Nodup)
    (h : record.shortfall? r = .ok none) : HeaderProtected r record.tokens record.signed := by
  have each : ∀ ids, record.firstShortfall r ids = .ok none →
      ∀ id ∈ ids, record.tokenShortfall r id = .ok none := by
    intro ids
    induction ids with
    | nil => exact fun _ id hid => absurd hid List.not_mem_nil
    | cons id ids ih =>
      intro h
      rw [firstShortfall] at h
      cases hid : record.tokenShortfall r id with
      | error f =>
        rw [hid] at h
        cases h
      | ok answer =>
        rw [hid] at h
        cases answer with
        | some why => cases h
        | none => exact List.forall_mem_cons.2 ⟨hid, ih h⟩
  exact fun id hid => tokenProtected_of_tokenShortfall distinct (each record.tokens h id hid)

end HeaderRecord

/-! ## What is put on record -/

/-- The token an event finds. -/
def SecurityEvent.foundToken? : SecurityEvent → Option TokenId
  | .token event => some event.token
  | _ => none

/-- The element an event reports as signed. -/
def SecurityEvent.signedElement? : SecurityEvent → Option SignedElement
  | .signedElement event => if event.isProtected then some ⟨event.token, event.path⟩ else none
  | _ => none

/-- What token protection demands of the tokens found and the elements signed in a message. -/
def EventsProtected (r : Registry) (events : List SecurityEvent) : Prop :=
  HeaderProtected r (events.filterMap SecurityEvent.foundToken?)
    (events.filterMap SecurityEvent.signedElement?)

namespace HeaderRecord

/-- Put an event on record. -/
def note (record : HeaderRecord) : SecurityEvent → HeaderRecord
  | .token event => record.addToken event.token
  | .signedElement event => record.addElement event
  | _ => record

theorem note_signed (record : HeaderRecord) (event : SecurityEvent) :
    (record.note event).signed = record.signed ++ event.signedElement?.toList := by
  cases event with
  | token event =>
    rw [note, addToken]
    split <;> simp [SecurityEvent.signedElement?]
  | signedElement event =>
    rw [note, addElement, SecurityEvent.signedElement?]
    split <;> simp
  | _ => simp [note, SecurityEvent.signedElement?]

theorem mem_note_tokens {record : HeaderRecord} {event : SecurityEvent} {id : TokenId} :
    id ∈ (record.note event).tokens ↔ id ∈ record.tokens ∨ event.foundToken? = some id := by
  cases event with
  | token event =>
    rw [note, addToken, SecurityEvent.foundToken?]
    split
    next known =>
      have hmem : event.token ∈ record.tokens := by simpa using known
      constructor
      · exact .inl
      · rintro (h | h)
        · exact h
        · cases h
          exact hmem
    next => simp [eq_comm]
  | signedElement event =>
    rw [note, addElement]
    split <;> simp [SecurityEvent.foundToken?]
  | _ => simp [note, SecurityEvent.foundToken?]

/-- No token is put on record twice. -/
theorem nodup_note_tokens {record : HeaderRecord} (h : record.tokens.Nodup)
    (event : SecurityEvent) : (record.note event).tokens.Nodup := by
  cases event with
  | token event =>
    rw [note, addToken]
    split
    next => exact h
    next new =>
      have hnew : event.token ∉ record.tokens := by simpa using new
      refine List.nodup_append.2 ⟨h, by simp, fun a ha b hb => ?_⟩
      cases List.mem_singleton.1 hb
      rintro rfl
      exact hnew ha
  | signedElement event =>
    rw [note, addElement]
    split
    · exact h
    · exact h
  | _ => exact h

/-- The record of the events of a message holds what they find and report, and no token twice. -/
theorem foldl_note (events : List SecurityEvent) : ∀ record : HeaderRecord, record.tokens.Nodup →
    (events.foldl note record).tokens.Nodup ∧
      (∀ id, id ∈ (events.foldl note record).tokens ↔
        id ∈ record.tokens ∨ id ∈ events.filterMap SecurityEvent.foundToken?) ∧
      (events.foldl note record).signed =
        record.signed ++ events.filterMap SecurityEvent.signedElement? := by
  induction events with
  | nil => exact fun record h => ⟨h, fun id => by simp, by simp⟩
  | cons event events ih =>
    intro record h
    obtain ⟨distinct, tokens, signed⟩ := ih (record.note event) (nodup_note_tokens h event)
    refine ⟨distinct, fun id => ?_, ?_⟩
    · rw [List.foldl_cons, tokens, mem_note_tokens, or_assoc, List.filterMap_cons]
      cases event.foundToken? with
      | none => simp
      | some found => simp [eq_comm]
    · rw [List.foldl_cons, signed, note_signed, List.filterMap_cons, List.append_assoc]
      cases event.signedElement? with
      | none => simp
      | some element => simp

/-- If the record of a message falls short of nothing, the message meets the demands. -/
theorem eventsProtected_of_shortfall? {events : List SecurityEvent}
    (h : (events.foldl note ({} : HeaderRecord)).shortfall? r = .ok none) :
    EventsProtected r events := by
  obtain ⟨distinct, tokens, signed⟩ := foldl_note events {} List.nodup_nil
  have whole := headerProtected_of_shortfall? distinct h
  rw [signed] at whole
  exact whole.congr fun id => by simp [tokens id]

end HeaderRecord

end SoapPolicy
