import Mathlib.Data.List.Nodup
import Mathlib.Data.List.Perm.Subperm
import SoapPolicy.Proofs.Building
import SoapPolicy.Token.Wrapping

/-!
# Derived keys

Derived keys are what the least set of tokens has that holds every derived key, and every token that
wraps something and nothing outside the set (`Derived`).  Tokens that wrap one another in a cycle, and
nothing else, are not in it.

The search for derived keys carries the tokens it is inside of.  These are distinct and known, so there
are never more of them than tokens.  A search that may go deeper than there are tokens therefore ends
with an answer, whatever the edges are, and gives the tokens it is inside of back as it got them
(`seekDerived_run`), so nothing that was looked at before has a part in its answer.  Tokens of the set
are wrapped in ranks, and a token is inside only tokens of a higher one.  So the search never meets a
token of the set on its way to itself, and finds each of them (`isDerivedBeside_of_derivedWithin`).
-/

namespace SoapPolicy

namespace Registry

/-! ## The least set -/

/-- The tokens with derived keys. -/
inductive Derived (r : Registry) : TokenId → Prop where
  | derivedKey {id : TokenId} {token : SecurityToken} :
    r.get? id = some token → token.type = .derivedKey → Derived r id
  | wrapsDerived {id : TokenId} {token : SecurityToken} :
    r.get? id = some token → token.wrapped ≠ [] → (∀ inner ∈ token.wrapped, Derived r inner) →
    Derived r id

/-- The tokens of the least set up to a rank. -/
def DerivedWithin (r : Registry) : Nat → TokenId → Prop
  | 0, _ => False
  | rank + 1, id => ∃ token, r.get? id = some token ∧
    (token.type = .derivedKey ∨
      token.wrapped ≠ [] ∧ ∀ inner ∈ token.wrapped, DerivedWithin r rank inner)

variable {r : Registry} {id : TokenId} {token : SecurityToken} {visiting : List TokenId}
  {rank depth : Nat}

theorem DerivedWithin.succ (h : r.DerivedWithin rank id) : r.DerivedWithin (rank + 1) id := by
  induction rank generalizing id with
  | zero => exact h.elim
  | succ rank ih =>
    obtain ⟨token, known, derivedKey | ⟨wraps, derived⟩⟩ := h
    · exact ⟨token, known, .inl derivedKey⟩
    · exact ⟨token, known, .inr ⟨wraps, fun inner hinner => ih (derived inner hinner)⟩⟩

theorem DerivedWithin.mono {rank' : Nat} (h : r.DerivedWithin rank id) (le : rank ≤ rank') :
    r.DerivedWithin rank' id := by
  induction le with
  | refl => exact h
  | step _ ih => exact ih.succ

/-- Finitely many tokens have a common rank. -/
theorem exists_common_rank {ids : List TokenId}
    (ranked : ∀ id ∈ ids, ∃ rank, r.DerivedWithin rank id) :
    ∃ rank, ∀ id ∈ ids, r.DerivedWithin rank id := by
  induction ids with
  | nil => exact ⟨0, fun _ h => absurd h List.not_mem_nil⟩
  | cons id ids ih =>
    obtain ⟨⟨first, hfirst⟩, others⟩ := List.forall_mem_cons.1 ranked
    obtain ⟨rest, hrest⟩ := ih others
    refine ⟨max first rest, List.forall_mem_cons.2 ⟨hfirst.mono (Nat.le_max_left _ _), ?_⟩⟩
    exact fun id hid => (hrest id hid).mono (Nat.le_max_right _ _)

/-- Every token of the least set has a rank. -/
theorem Derived.exists_rank (h : r.Derived id) : ∃ rank, r.DerivedWithin rank id := by
  induction h with
  | derivedKey known derivedKey => exact ⟨1, _, known, .inl derivedKey⟩
  | wrapsDerived known wraps _ ih =>
    obtain ⟨rank, ranked⟩ := exists_common_rank ih
    exact ⟨rank + 1, _, known, .inr ⟨wraps, ranked⟩⟩

/-! ## The search -/

/-- The search for derived keys, told which tokens it is inside of. -/
def isDerivedBeside (r : Registry) : Nat → List TokenId → TokenId → Bool
  | 0, _, _ => false
  | depth + 1, visiting, id =>
    match r.get? id with
    | none => false
    | some token =>
      token.type == .derivedKey ||
        !(token.wrapped.isEmpty || visiting.contains id) &&
          token.wrapped.all (isDerivedBeside r depth (id :: visiting))

/-- A scan whose every step has an answer and leaves the state as it is, has one and leaves it so. -/
theorem allM_run {α σ : Type} {p : α → StateT σ Option Bool} {q : α → Bool} {s : σ} {as : List α}
    (steps : ∀ a ∈ as, (p a).run s = some (q a, s)) : (as.allM p).run s = some (as.all q, s) := by
  induction as with
  | nil => rfl
  | cons a as ih =>
    obtain ⟨first, others⟩ := List.forall_mem_cons.1 steps
    rw [List.allM, StateT.run_bind, first, List.all_cons]
    cases q a with
    | true => exact ih others
    | false => rfl

/-- What is looked at inside of a token is looked at with the token on record, and only then. -/
theorem inside_run {look : Search Bool} {answer : Bool}
    (looked : look.run (id :: visiting) = some (answer, id :: visiting)) :
    (inside id look).run visiting = some (answer, visiting) := by
  show (look.run (id :: visiting) >>= fun found => some (found.1, found.2.erase id)) = _
  rw [looked]
  show some (answer, (id :: visiting).erase id) = _
  rw [List.erase_cons_head]

/-- There are no more handles of known tokens than there are tokens. -/
theorem length_le_size {ids : List TokenId} (distinct : ids.Nodup)
    (known : ∀ id ∈ ids, ∃ token, r.get? id = some token) : ids.length ≤ r.size := by
  have injective : Function.Injective fun id : TokenId => id.index.toNat := by
    intro a b h
    cases a; cases b
    exact congrArg TokenId.mk (UInt64.toNat_inj.1 h)
  have places : ids.map (fun id => id.index.toNat) ⊆ List.range r.size := by
    intro place hplace
    obtain ⟨id, hid, rfl⟩ := List.mem_map.1 hplace
    obtain ⟨token, htoken⟩ := known id hid
    exact List.mem_range.2 (List.getElem?_eq_some_iff.1 htoken).1
  simpa using ((distinct.map injective).subperm places).length_le

/-- With room for all tokens that the search is not inside of, it ends with an answer.  It leaves the
tokens that it is inside of as they were. -/
theorem seekDerived_run (r : Registry) (id : TokenId) (distinct : visiting.Nodup)
    (known : ∀ outer ∈ visiting, ∃ token, r.get? outer = some token)
    (room : r.size < depth + visiting.length) :
    (r.seekDerived depth id).run visiting =
      some (r.isDerivedBeside depth visiting id, visiting) := by
  induction depth generalizing id visiting with
  | zero =>
    have fits := length_le_size distinct known
    omega
  | succ depth ih =>
    rw [seekDerived, isDerivedBeside]
    cases htoken : r.get? id with
    | none => rfl
    | some token =>
      dsimp only
      cases token.type == .derivedKey with
      | true => rfl
      | false =>
        show StateT.run (if token.wrapped.isEmpty || visiting.contains id then return false
          else inside id (token.wrapped.allM (r.seekDerived depth))) visiting = _
        cases again : token.wrapped.isEmpty || visiting.contains id with
        | true => rfl
        | false =>
          have outside : id ∉ visiting := by simpa using (Bool.or_eq_false_iff.1 again).2
          refine inside_run (allM_run fun inner _ => ih inner ?_ ?_ ?_)
          · exact List.nodup_cons.2 ⟨outside, distinct⟩
          · exact List.forall_mem_cons.2 ⟨⟨token, htoken⟩, known⟩
          · rw [List.length_cons]
            omega

/-! ## What the search finds -/

theorem isDerivedBeside_of_known (known : r.get? id = some token) :
    r.isDerivedBeside (depth + 1) visiting id = true ↔
      token.type = .derivedKey ∨ (token.wrapped ≠ [] ∧ id ∉ visiting) ∧
        ∀ inner ∈ token.wrapped, r.isDerivedBeside depth (id :: visiting) inner = true := by
  simp [isDerivedBeside, known]

/-- What the search finds is in the least set. -/
theorem derived_of_isDerivedBeside (found : r.isDerivedBeside depth visiting id = true) :
    r.Derived id := by
  induction depth generalizing id visiting with
  | zero => cases found
  | succ depth ih =>
    cases known : r.get? id with
    | none => simp [isDerivedBeside, known] at found
    | some token =>
      rcases (isDerivedBeside_of_known known).1 found with derivedKey | ⟨⟨wraps, -⟩, all⟩
      · exact .derivedKey known derivedKey
      · exact .wrapsDerived known wraps fun inner hinner => ih (all inner hinner)

/-- The search finds a token of the least set wherever it is inside of tokens of a higher rank only,
as long as its depth leaves room for all the other tokens. -/
theorem isDerivedBeside_of_derivedWithin (ranked : r.DerivedWithin rank id)
    (higher : ∀ outer ∈ visiting, ¬ r.DerivedWithin rank outer) (distinct : visiting.Nodup)
    (known : ∀ outer ∈ visiting, ∃ token, r.get? outer = some token)
    (room : r.size < depth + visiting.length) : r.isDerivedBeside depth visiting id = true := by
  induction rank generalizing id visiting depth with
  | zero => exact ranked.elim
  | succ rank ih =>
    have above : ∀ outer ∈ visiting, ¬ r.DerivedWithin rank outer :=
      fun outer houter lower => higher outer houter lower.succ
    -- the search goes on below the least rank of the token only
    by_cases lower : r.DerivedWithin rank id
    · exact ih lower above distinct known room
    have outside : id ∉ visiting := fun hid => higher id hid ranked
    obtain ⟨token, htoken, derived⟩ := ranked
    have fits := length_le_size distinct known
    obtain ⟨depth, rfl⟩ : ∃ below, depth = below + 1 := ⟨depth - 1, by omega⟩
    refine (isDerivedBeside_of_known htoken).2 (derived.imp_right fun ⟨wraps, all⟩ => ?_)
    refine ⟨⟨wraps, outside⟩, fun inner hinner => ih (all inner hinner) ?_ ?_ ?_ ?_⟩
    · exact List.forall_mem_cons.2 ⟨lower, above⟩
    · exact List.nodup_cons.2 ⟨outside, distinct⟩
    · exact List.forall_mem_cons.2 ⟨⟨token, htoken⟩, known⟩
    · rw [List.length_cons]
      omega

/-- With room for all tokens, the search finds the least set. -/
theorem isDerivedBeside_iff (room : r.size < depth) :
    r.isDerivedBeside depth [] id = true ↔ r.Derived id := by
  refine ⟨derived_of_isDerivedBeside, fun derived => ?_⟩
  obtain ⟨rank, ranked⟩ := derived.exists_rank
  exact isDerivedBeside_of_derivedWithin ranked (fun _ h => absurd h List.not_mem_nil) List.nodup_nil
    (fun _ h => absurd h List.not_mem_nil) room

/-- A search from a token on that has room for all tokens ends with an answer. -/
theorem seekDerived_run_nil (r : Registry) (id : TokenId) (room : r.size < depth) :
    (r.seekDerived depth id).run [] = some (r.isDerivedBeside depth [] id, []) :=
  r.seekDerived_run id List.nodup_nil (fun _ h => absurd h List.not_mem_nil) room

theorem hasDerivedKeys_eq (r : Registry) (id : TokenId) :
    r.hasDerivedKeys id = r.isDerivedBeside (r.size + 1) [] id := by
  rw [hasDerivedKeys, r.seekDerived_run_nil id (Nat.lt_succ_self _)]
  rfl

/-! ## Orders of wrapping -/

/-- The tokens of two registries are of the same types and wrap the same tokens, in whatever order and
however often these are listed. -/
def WrapAlike (r r' : Registry) : Prop :=
  List.Forall₂ (fun token token' => token.type = token'.type ∧
    ∀ inner, inner ∈ token.wrapped ↔ inner ∈ token'.wrapped) r.tokens r'.tokens

variable {r' : Registry}

theorem WrapAlike.symm (h : r.WrapAlike r') : r'.WrapAlike r :=
  (List.Forall₂.flip h).imp fun _ _ ⟨type, wraps⟩ => ⟨type.symm, fun inner => (wraps inner).symm⟩

theorem WrapAlike.derived (h : r.WrapAlike r') (derived : r.Derived id) : r'.Derived id := by
  induction derived with
  | derivedKey known derivedKey =>
    obtain ⟨token', known', type, -⟩ := forall₂_get? h known
    exact .derivedKey known' (type ▸ derivedKey)
  | wrapsDerived known wraps _ ih =>
    obtain ⟨token', known', -, same⟩ := forall₂_get? h known
    refine .wrapsDerived known' ?_ fun inner hinner => ih inner ((same inner).2 hinner)
    obtain ⟨inner, hinner⟩ := List.exists_mem_of_ne_nil _ wraps
    exact List.ne_nil_of_mem ((same inner).1 hinner)

/-- A token has derived keys exactly if it is in the least set.  The search for them ends: with room for
more tokens than there are it never goes too deep, whatever the edges are, but has an answer, the same
for any such room, and is inside of no token any more.  And the answer depends neither on the order in
which tokens are wrapped nor on how often they are listed. -/
theorem hasDerivedKeys_iff_derived (r : Registry) (id : TokenId) :
    (r.hasDerivedKeys id = true ↔ r.Derived id) ∧
    (∀ depth, r.size < depth → (r.seekDerived depth id).run [] = some (r.hasDerivedKeys id, [])) ∧
    ∀ r', r.WrapAlike r' → r'.hasDerivedKeys id = r.hasDerivedKeys id := by
  have least (r : Registry) : r.hasDerivedKeys id = true ↔ r.Derived id := by
    rw [hasDerivedKeys_eq]
    exact isDerivedBeside_iff (Nat.lt_succ_self _)
  refine ⟨least r, fun depth room => ?_, fun r' alike => Bool.eq_iff_iff.2 ?_⟩
  · rw [r.seekDerived_run_nil id room]
    have same : r.isDerivedBeside depth [] id = r.hasDerivedKeys id :=
      Bool.eq_iff_iff.2 ((isDerivedBeside_iff room).trans (least r).symm)
    rw [same]
  · rw [least r', least r]
    exact ⟨alike.symm.derived, alike.derived⟩

/-- Two encrypted keys that wrap a third one, which wraps a derived key.  The first also wraps the
second, and lists the third twice. -/
def sharedKey : Registry :=
  ⟨[{ type := .encryptedKey, wrapped := [⟨2⟩, ⟨1⟩, ⟨2⟩] },
    { type := .encryptedKey, wrapped := [⟨2⟩], wrapper := some ⟨0⟩ },
    { type := .encryptedKey, wrapped := [⟨3⟩], wrapper := some ⟨1⟩ },
    { type := .derivedKey, wrapper := some ⟨2⟩ }]⟩

/-- The same keys, with the second wrapped first. -/
def sharedKeyReordered : Registry :=
  ⟨[{ type := .encryptedKey, wrapped := [⟨1⟩, ⟨2⟩] },
    { type := .encryptedKey, wrapped := [⟨2⟩], wrapper := some ⟨0⟩ },
    { type := .encryptedKey, wrapped := [⟨3⟩], wrapper := some ⟨1⟩ },
    { type := .derivedKey, wrapper := some ⟨2⟩ }]⟩

/-- Two encrypted keys that wrap each other.  The first also wraps itself. -/
def keyRing : Registry :=
  ⟨[{ type := .encryptedKey, wrapped := [⟨1⟩, ⟨0⟩], wrapper := some ⟨0⟩ },
    { type := .encryptedKey, wrapped := [⟨0⟩], wrapper := some ⟨0⟩ }]⟩

/-- The third key is looked at three times and found to be derived each time, also by a search that
could go a thousand tokens deep, and also if the first key lists it last.  A search round the ring comes
back from it as well. -/
theorem hasDerivedKeys_sharedKey :
    sharedKey.Derived ⟨0⟩ ∧ (sharedKey.seekDerived 1000 ⟨0⟩).run [] = some (true, []) ∧
      sharedKeyReordered.hasDerivedKeys ⟨0⟩ = true ∧
      ¬ keyRing.Derived ⟨0⟩ ∧ (keyRing.seekDerived 1000 ⟨0⟩).run [] = some (false, []) := by
  obtain ⟨least, ends, alike⟩ := hasDerivedKeys_iff_derived sharedKey ⟨0⟩
  obtain ⟨leastOnRing, endsOnRing, -⟩ := hasDerivedKeys_iff_derived keyRing ⟨0⟩
  have found : sharedKey.hasDerivedKeys ⟨0⟩ = true := by decide
  have plain : keyRing.hasDerivedKeys ⟨0⟩ = false := by decide
  refine ⟨least.1 found, (ends 1000 (by decide)).trans (by rw [found]), ?_, fun derived => ?_,
    (endsOnRing 1000 (by decide)).trans (by rw [plain])⟩
  · rw [alike sharedKeyReordered (by simp [WrapAlike, sharedKey, sharedKeyReordered]), found]
  · rw [leastOnRing.2 derived] at plain
    cases plain

end Registry

end SoapPolicy
