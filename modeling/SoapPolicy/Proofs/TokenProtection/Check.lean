import SoapPolicy.Proofs.Reading
import SoapPolicy.Proofs.TokenProtection.Assignment

/-!
# The check of a header

What the operation event means for token protection.  If the root of every token on record is known,
the check does not fail.  It passes exactly if the header meets the demands, and otherwise it names
what the first token that does not meet them falls short of (`Collects.operation_settles_record`).

The demands on a token are asked in a fixed order, so a shortfall says that the demands before it
are met (`FallsShort`).  The argument goes from the demands on one token
(`HeaderRecord.tokenShortfall_cases`) to the list of tokens (`HeaderRecord.firstShortfall_cases`) and
to the obligation that holds the record.
-/

namespace SoapPolicy

variable {r : Registry} {tokens : List TokenId} {signed : List SignedElement}
  {record : HeaderRecord} {id : TokenId} {root token : SecurityToken} {why : Shortfall}

/-! ## Known tokens -/

/-- The root of every token of a list is known. -/
def RootsKnown (r : Registry) (ids : List TokenId) : Prop :=
  ∀ id ∈ ids, ∃ root, r.get? (r.root id) = some root

/-- An unknown token has no wrapper, so it would be its own root. -/
theorem Registry.exists_of_root (h : r.get? (r.root id) = some root) :
    ∃ token, r.get? id = some token := by
  cases hid : r.get? id with
  | some token => exact ⟨token, rfl⟩
  | none =>
    have outermost : r.root id = id := root_eq_self (by simp [wrapper?, hid])
    rw [outermost, hid] at h
    cases h

/-- The signer is the root, or a token found among those that the root wraps. -/
theorem Registry.exists_signer_of_root (h : r.get? (r.root id) = some root) :
    ∃ token, r.get? (r.signer id) = some token := by
  simp only [signer, h, Option.map_some, Option.getD_some]
  cases found : root.wrapped.find? r.isSigningKey with
  | none => exact ⟨root, h⟩
  | some key =>
    have signs := List.find?_some found
    rw [isSigningKey] at signs
    cases hkey : r.get? key with
    | some token => exact ⟨token, hkey⟩
    | none =>
      rw [hkey] at signs
      cases signs

theorem RootsKnown.allKnown {ids : List TokenId} (h : RootsKnown r ids) : AllKnown r ids := by
  intro id hid
  obtain ⟨root, hroot⟩ := h id hid
  exact Registry.exists_of_root hroot

/-! ## Shortfalls of one token -/

section
variable (r : Registry) (tokens : List TokenId) (signed : List SignedElement) (signer : TokenId)
  (root token : SecurityToken)

/-- A signing token that is in the message is signed by its own signature. -/
def SignsItself : Prop :=
  token.included = true → root.isSigning = true ∨ token.isSigning = true →
    SignedBy r signed signer token.place

/-- An endorsing token signs the main signature. -/
def SignsHeader : Prop :=
  root.isEndorsing = true → SignedBy r signed signer ElementPath.headerSignature

/-- The main signature signs every `Signed` supporting token. -/
def SignsOthers : Prop :=
  root.hasUsage .mainSignature = true → SignsSupporting r tokens signed signer

/-- The first demand that a token with a root and a signer does not meet. -/
inductive FallsShort : Shortfall → Prop where
  | notItself : ¬ SignsItself r signed signer root token → FallsShort (.tokenNotSigned token.place)
  | notHeader : SignsItself r signed signer root token → ¬ SignsHeader r signed signer root →
    FallsShort (.notEndorsing token.place)
  | notOthers : SignsItself r signed signer root token → SignsHeader r signed signer root →
    ¬ SignsOthers r tokens signed signer root → FallsShort .supportingNotSigned

end

theorem FallsShort.not_tokenProtected {signer : TokenId}
    (h : FallsShort r tokens signed signer root token why) :
    ¬ TokenProtected r tokens signed signer root token := by
  intro demands
  cases h with
  | notItself missed => exact missed demands.signs_itself
  | notHeader _ missed => exact missed demands.endorses
  | notOthers _ _ missed => exact missed demands.signs_supporting

/-- A token is known and meets the demands. -/
def MeetsDemands (r : Registry) (tokens : List TokenId) (signed : List SignedElement)
    (id : TokenId) : Prop :=
  ∃ root token, r.get? (r.root id) = some root ∧ r.get? (r.signer id) = some token ∧
    TokenProtected r tokens signed (r.signer id) root token

/-- A token is known and falls short of a demand. -/
def MissesDemand (r : Registry) (tokens : List TokenId) (signed : List SignedElement)
    (id : TokenId) (why : Shortfall) : Prop :=
  ∃ root token, r.get? (r.root id) = some root ∧ r.get? (r.signer id) = some token ∧
    FallsShort r tokens signed (r.signer id) root token why

theorem MissesDemand.not_meetsDemands (h : MissesDemand r tokens signed id why) :
    ¬ MeetsDemands r tokens signed id := by
  rintro ⟨root, token, hroot, htoken, demands⟩
  obtain ⟨root', token', hroot', htoken', missed⟩ := h
  cases hroot.symm.trans hroot'
  cases htoken.symm.trans htoken'
  exact missed.not_tokenProtected demands

/-- What the first token that does not meet the demands falls short of. -/
def FirstShortfall (r : Registry) (tokens : List TokenId) (signed : List SignedElement)
    (why : Shortfall) : Prop :=
  ∃ before id after, tokens = before ++ id :: after ∧
    (∀ id' ∈ before, MeetsDemands r tokens signed id') ∧ MissesDemand r tokens signed id why

theorem FirstShortfall.not_headerProtected (h : FirstShortfall r tokens signed why) :
    ¬ HeaderProtected r tokens signed := by
  obtain ⟨before, id, after, rfl, -, missed⟩ := h
  exact fun whole => missed.not_meetsDemands (whole id (by simp))

/-! ## The check -/

namespace HeaderRecord

theorem signsItself_iff {signer : TokenId} :
    SignsItself r record.signed signer root token ↔
      (token.included && (root.isSigning || token.isSigning)
        && !record.isSigned r signer token.place) = false := by
  rw [SignsItself, ← isSigned_iff]
  cases token.included <;> cases root.isSigning <;> cases token.isSigning <;> simp

theorem signsHeader_iff {signer : TokenId} :
    SignsHeader r record.signed signer root ↔
      (root.isEndorsing && !record.isSigned r signer ElementPath.headerSignature) = false := by
  rw [SignsHeader, ← isSigned_iff]
  cases root.isEndorsing <;> simp

/-- What the check asks of a token with a root and a signer. -/
theorem tokenShortfall_eq (record : HeaderRecord) (hroot : r.get? (r.root id) = some root)
    (htoken : r.get? (r.signer id) = some token) :
    record.tokenShortfall r id =
      if token.included && (root.isSigning || token.isSigning)
          && !record.isSigned r (r.signer id) token.place then
        .ok (some (.tokenNotSigned token.place))
      else if root.isEndorsing
          && !record.isSigned r (r.signer id) ElementPath.headerSignature then
        .ok (some (.notEndorsing token.place))
      else if root.hasUsage .mainSignature then
        (signsAll r (r.signer id) record.tokens record.signed).map (ask · .supportingNotSigned)
      else .ok none := by
  simp only [tokenShortfall, Registry.get_eq_ok_iff.2 hroot, Registry.get_eq_ok_iff.2 htoken]
  rfl

/-- A token with a known root meets the demands, or the check names the first that it misses. -/
theorem tokenShortfall_cases (distinct : record.tokens.Nodup) (known : AllKnown r record.tokens)
    (hroot : r.get? (r.root id) = some root) :
    (record.tokenShortfall r id = .ok none ∧ MeetsDemands r record.tokens record.signed id) ∨
      ∃ why, record.tokenShortfall r id = .ok (some why) ∧
        MissesDemand r record.tokens record.signed id why := by
  obtain ⟨token, htoken⟩ := Registry.exists_signer_of_root hroot
  have misses {why : Shortfall} (answer : record.tokenShortfall r id = .ok (some why))
      (h : FallsShort r record.tokens record.signed (r.signer id) root token why) :
      ∃ why, record.tokenShortfall r id = .ok (some why) ∧
        MissesDemand r record.tokens record.signed id why :=
    ⟨why, answer, root, token, hroot, htoken, h⟩
  have asked := tokenShortfall_eq record hroot htoken
  -- the demands in the order in which they are asked
  by_cases itself : SignsItself r record.signed (r.signer id) root token
  · rw [if_neg (by rw [signsItself_iff.1 itself]; decide)] at asked
    by_cases header : SignsHeader r record.signed (r.signer id) root
    · rw [if_neg (by rw [signsHeader_iff.1 header]; decide)] at asked
      by_cases main : root.hasUsage .mainSignature = true
      · obtain ⟨all, checked⟩ := exists_signsAll (r.signer id) known record.signed
        rw [if_pos main, checked] at asked
        cases all with
        | true =>
          have others := (signsAll_iff known distinct).1 checked
          exact .inl ⟨asked, root, token, hroot, htoken, itself, header, fun _ => others⟩
        | false =>
          refine .inr (misses asked (.notOthers itself header fun others => ?_))
          rw [(signsAll_iff known distinct).2 (others main)] at checked
          cases checked
      · rw [if_neg main] at asked
        exact .inl ⟨asked, root, token, hroot, htoken, itself, header, fun h => absurd h main⟩
    · rw [if_pos (Bool.of_not_eq_false (mt signsHeader_iff.2 header))] at asked
      exact .inr (misses asked (.notHeader itself header))
  · rw [if_pos (Bool.of_not_eq_false (mt signsItself_iff.2 itself))] at asked
    exact .inr (misses asked (.notItself itself))

/-- The tokens of a list meet the demands, or the check names the first shortfall. -/
theorem firstShortfall_cases (distinct : record.tokens.Nodup) (known : AllKnown r record.tokens) :
    ∀ {ids : List TokenId}, RootsKnown r ids →
      (record.firstShortfall r ids = .ok none ∧
        ∀ id ∈ ids, MeetsDemands r record.tokens record.signed id) ∨
      ∃ why before id after, record.firstShortfall r ids = .ok (some why) ∧
        ids = before ++ id :: after ∧
        (∀ id' ∈ before, MeetsDemands r record.tokens record.signed id') ∧
        MissesDemand r record.tokens record.signed id why := by
  intro ids roots
  induction ids with
  | nil => exact .inl ⟨rfl, fun id hid => absurd hid List.not_mem_nil⟩
  | cons id ids ih =>
    obtain ⟨⟨root, hroot⟩, roots⟩ := List.forall_mem_cons.1 roots
    rw [firstShortfall]
    rcases tokenShortfall_cases distinct known hroot with ⟨asked, met⟩ | ⟨why, asked, missed⟩
    · rw [asked]
      rcases ih roots with ⟨rest, all⟩ | ⟨why, before, id', after, rest, rfl, earlier, missed⟩
      · exact .inl ⟨rest, List.forall_mem_cons.2 ⟨met, all⟩⟩
      · exact .inr ⟨why, id :: before, id', after, rest, rfl,
          List.forall_mem_cons.2 ⟨met, earlier⟩, missed⟩
    · rw [asked]
      exact .inr ⟨why, [], id, ids, rfl, rfl, fun id hid => absurd hid List.not_mem_nil, missed⟩

/-- The header meets the demands, or the check names the first shortfall. -/
theorem shortfall?_cases (distinct : record.tokens.Nodup) (roots : RootsKnown r record.tokens) :
    (record.shortfall? r = .ok none ∧ HeaderProtected r record.tokens record.signed) ∨
      ∃ why, record.shortfall? r = .ok (some why) ∧
        FirstShortfall r record.tokens record.signed why := by
  rcases firstShortfall_cases distinct roots.allKnown roots with
    whole | ⟨why, before, id, after, asked, split, earlier, missed⟩
  · exact .inl whole
  · exact .inr ⟨why, asked, before, id, after, split, earlier, missed⟩

end HeaderRecord

/-! ## The obligation -/

namespace Obligation

variable {o : Obligation} {binding : BindingType} {event : SecurityEvent}

theorem read_operation (binding : BindingType) (record : HeaderRecord) (met : Bool)
    (shortfall : Option Shortfall) (name : QName) :
    read r (.operation name) ⟨.tokenProtection binding (some record), met, shortfall⟩ =
      match record.shortfall? r with
      | .error f => (⟨.tokenProtection binding (some record), met, shortfall⟩, .error f)
      | .ok none => (⟨.tokenProtection binding (some record), met, shortfall⟩, .ok none)
      | .ok (some why) =>
        (⟨.tokenProtection binding (some record), false, some why⟩, .ok (some why)) := by
  rw [read_of_mem (by simp [kinds, Demand.kinds, SecurityEvent.kind]), hear_header rfl]
  rcases record.shortfall? r with f | _ | why <;> rfl

/-- An event that is no operation is put on record, and nothing else happens. -/
theorem read_tokenProtection (binding : BindingType) (record : HeaderRecord) (met : Bool)
    (shortfall : Option Shortfall) (before : event.kind ≠ .operation) :
    read r event ⟨.tokenProtection binding (some record), met, shortfall⟩ =
      (⟨.tokenProtection binding (some (record.note event)), met, shortfall⟩, .ok none) := by
  have family (found : TokenEvent) : found.details.family ∈ Named.all := Named.mem_all _
  cases event with
  | operation name => exact absurd rfl before
  | token found =>
    rw [read_of_mem (by simp [kinds, Demand.kinds, SecurityEvent.kind, family]), hear_header rfl]
    rfl
  | signedElement report =>
    rw [read_of_mem (by simp [kinds, Demand.kinds, SecurityEvent.kind]), hear_header rfl]
    rfl
  | _ =>
    rw [read_of_not_mem (by simp [kinds, Demand.kinds, SecurityEvent.kind])]
    rfl

/-- Every event is put on record. -/
theorem demand_read (hd : o.demand = .tokenProtection binding (some record)) (r : Registry)
    (event : SecurityEvent) :
    (o.read r event).1.demand = .tokenProtection binding (some (record.note event)) := by
  obtain ⟨demand, met, shortfall⟩ := o
  cases hd
  by_cases ends : event.kind = .operation
  · cases event with
    | operation name =>
      rw [read_operation]
      rcases record.shortfall? r with f | _ | why <;> rfl
    | _ => cases ends
  · rw [read_tokenProtection binding record met shortfall ends]

end Obligation

/-- An obligation that asks for token protection has read events, and this is on its record. -/
inductive Collects : Obligation → HeaderRecord → Prop where
  | start {policy : BindingPolicy} {initiator : Bool} {o : Obligation} :
    policy.protectTokens = true → Obligation.ofAssertion (.binding policy) initiator = .ok o →
    Collects o {}
  | read {o : Obligation} {record : HeaderRecord} (r : Registry) (event : SecurityEvent) :
    Collects o record → Collects (o.read r event).1 (record.note event)

namespace Collects

variable {o : Obligation}

theorem demand (h : Collects o record) :
    ∃ binding, o.demand = .tokenProtection binding (some record) := by
  induction h with
  | @start policy initiator o asks made =>
    simp only [Obligation.ofAssertion, asks, if_true, Except.ok.injEq] at made
    rw [← made]
    exact ⟨policy.binding, rfl⟩
  | read r event _ ih =>
    obtain ⟨binding, hd⟩ := ih
    exact ⟨binding, Obligation.demand_read hd r event⟩

theorem nodup_tokens (h : Collects o record) : record.tokens.Nodup := by
  induction h with
  | start => exact List.nodup_nil
  | read r event _ ih => exact HeaderRecord.nodup_note_tokens ih event

/-- The operation event passes exactly if what is on record meets the demands.  Otherwise it is
fatal, and names what the first token that does not meet them falls short of. -/
theorem operation_settles_record (h : Collects o record) (roots : RootsKnown r record.tokens)
    (name : QName) :
    (∀ o', o.hear r (.operation name) = (o', .ok .pass) ↔
      o' = o ∧ HeaderProtected r record.tokens record.signed) ∧
    (¬ HeaderProtected r record.tokens record.signed →
      ∃ why, FirstShortfall r record.tokens record.signed why ∧
        o.hear r (.operation name) = (o.broken why, .ok (.fatal why))) := by
  obtain ⟨binding, hd⟩ := h.demand
  rw [Obligation.hear_header hd]
  dsimp only
  rcases HeaderRecord.shortfall?_cases h.nodup_tokens roots with
    ⟨asked, whole⟩ | ⟨why, asked, first⟩
  · rw [asked]
    refine ⟨fun o' => ?_, fun short => absurd whole short⟩
    simp [whole, eq_comm]
  · rw [asked]
    refine ⟨fun o' => ?_, fun _ => ⟨why, first, rfl⟩⟩
    simp [first.not_headerProtected]

end Collects

section WrappedKey

/-- The place of a token in the header. -/
def userPath : ElementPath := ElementPath.securityHeader ++ [⟨"", "UsernameToken"⟩]

/-- The token of the main signature, the key that it wraps and signs with, and a token that has to be
signed. -/
def wrappedKey : Registry :=
  ⟨[{ type := .x509V3, usages := [.mainSignature], wrapped := [⟨1⟩] },
    { type := .derivedKey, usages := [.signature], wrapper := some ⟨0⟩ },
    { type := .username, usages := [.signedSupporting], path := some userPath, included := true }]⟩

/-- An obligation that has found the tokens. -/
def tokensFound : Obligation where
  demand := .tokenProtection .symmetric (some { tokens := [⟨0⟩, ⟨2⟩] })
  met := true

/-- An obligation that has seen the signature too, which is attributed to the token that wraps the
key. -/
def signatureSeen : Obligation where
  demand := .tokenProtection .symmetric
    (some { tokens := [⟨0⟩, ⟨2⟩], signed := [⟨⟨0⟩, userPath⟩] })
  met := true

theorem rootsKnown_wrappedKey : RootsKnown wrappedKey [⟨0⟩, ⟨2⟩] := by
  intro id hid
  simp only [List.mem_cons, List.not_mem_nil, or_false] at hid
  rcases hid with rfl | rfl
  · exact ⟨_, rfl⟩
  · exact ⟨_, rfl⟩

theorem collects_tokensFound : Collects tokensFound { tokens := [⟨0⟩, ⟨2⟩] } :=
  .read wrappedKey (.token ⟨⟨2⟩, .username ⟨.digest, none, none, none⟩⟩)
    (.read wrappedKey (.token ⟨⟨0⟩, .x509 ⟨none, 3⟩⟩)
      (@Collects.start ⟨.symmetric, true⟩ false _ rfl rfl))

theorem collects_signatureSeen :
    Collects signatureSeen { tokens := [⟨0⟩, ⟨2⟩], signed := [⟨⟨0⟩, userPath⟩] } :=
  .read wrappedKey (.ofSigned ⟨0⟩ userPath true) collects_tokensFound

/-- With the signature the header meets the demands, and without it the main signature leaves out a
token. -/
theorem operation_settles_wrappedKey :
    (HeaderProtected wrappedKey [⟨0⟩, ⟨2⟩] [⟨⟨0⟩, userPath⟩] ∧
      signatureSeen.hear wrappedKey (.operation ⟨"", "greet"⟩) = (signatureSeen, .ok .pass)) ∧
    ∃ why, FirstShortfall wrappedKey [⟨0⟩, ⟨2⟩] [] why ∧
      tokensFound.hear wrappedKey (.operation ⟨"", "greet"⟩) =
        (tokensFound.broken why, .ok (.fatal why)) := by
  constructor
  · have settled := collects_signatureSeen.operation_settles_record rootsKnown_wrappedKey
    have passes : signatureSeen.hear wrappedKey (.operation ⟨"", "greet"⟩) =
        (signatureSeen, .ok .pass) := rfl
    exact ⟨(((settled _).1 _).1 passes).2, passes⟩
  · have settled := collects_tokensFound.operation_settles_record rootsKnown_wrappedKey
    refine (settled ⟨"", "greet"⟩).2 fun whole => ?_
    have passes := ((settled ⟨"", "greet"⟩).1 tokensFound).2 ⟨rfl, whole⟩
    cases passes

end WrappedKey

end SoapPolicy
