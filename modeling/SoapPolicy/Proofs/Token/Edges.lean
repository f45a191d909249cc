import Mathlib.Data.List.Nodup
import SoapPolicy.Proofs.Feed
import SoapPolicy.Token.Wrapping

/-!
# The edges of wrapping

A wrapping edge is stored twice: the outer token lists the inner one, and the inner token names the
outer one as its wrapper.  Callers cannot set edges by themselves (`LooseToken`, `Amendment`), so a
registry gets them from `link` only.  `SoundEdges` is what every call keeps: what a token lists is
known and has a wrapper, a wrapper lists what names it, and no list repeats a token.

So the two records agree if nothing but its wrapper lists a token (`SoundEdges.edgesAgree_iff`).  A
token that gets another wrapper stays on the list of the former one, and nothing takes it off that list
again.  The records agree until a token is wrapped that another one wraps already, and from then on
they never do (`SoundEdges.edgesAgree_call`).
-/

namespace SoapPolicy

/-! ## What callers hand in -/

/-- A token without edges. -/
structure LooseToken where
  /-- The token. -/
  token : SecurityToken
  wrapped_eq_nil : token.wrapped = []
  wrapper_eq_none : token.wrapper = none

/-- A change to a token that leaves its edges alone. -/
structure Amendment where
  /-- The change. -/
  change : SecurityToken → SecurityToken
  wrapped_change : ∀ token, (change token).wrapped = token.wrapped
  wrapper_change : ∀ token, (change token).wrapper = token.wrapper

namespace SecurityToken

theorem wrapper_addWrapped (token : SecurityToken) (inner : TokenId) :
    (token.addWrapped inner).wrapper = token.wrapper := by
  rw [addWrapped]
  split <;> rfl

theorem mem_wrapped_addWrapped {token : SecurityToken} {inner b : TokenId} :
    b ∈ (token.addWrapped inner).wrapped ↔ b ∈ token.wrapped ∨ b = inner := by
  rw [addWrapped]
  split
  next listed =>
    refine ⟨.inl, ?_⟩
    rintro (h | rfl)
    · exact h
    · exact List.contains_iff_mem.1 listed
  next => simp

theorem nodup_addWrapped {token : SecurityToken} {inner : TokenId} (h : token.wrapped.Nodup) :
    (token.addWrapped inner).wrapped.Nodup := by
  rw [addWrapped]
  split
  next => exact h
  next unlisted =>
    have fresh : ∀ b ∈ token.wrapped, b ≠ inner := by
      rintro b hb rfl
      exact unlisted (List.contains_iff_mem.2 hb)
    exact List.nodup_append.2 ⟨h, List.nodup_singleton inner, by simpa using fresh⟩

end SecurityToken

namespace Registry

variable {r r' : Registry} {outer inner : TokenId}

/-! ## What is on record -/

/-- The handle names a token. -/
def Known (r : Registry) (id : TokenId) : Prop :=
  (r.get? id).isSome = true

instance (r : Registry) (id : TokenId) : Decidable (r.Known id) :=
  inferInstanceAs (Decidable (_ = true))

/-- The tokens that a token lists as wrapped. -/
def wrappedBy (r : Registry) (id : TokenId) : List TokenId :=
  ((r.get? id).map SecurityToken.wrapped).getD []

/-- Of two known tokens, one lists the other exactly if the other names it as its wrapper. -/
def EdgesAgree (r : Registry) : Prop :=
  ∀ a b, r.Known a → r.Known b → (b ∈ r.wrappedBy a ↔ r.wrapper? b = some a)

/-- What holds of the edges of a registry after any calls. -/
structure SoundEdges (r : Registry) : Prop where
  listed_known : ∀ a, ∀ b ∈ r.wrappedBy a, r.Known b
  listed_wrapped : ∀ a, ∀ b ∈ r.wrappedBy a, r.wrapper? b ≠ none
  wrapper_lists : ∀ a b, r.wrapper? b = some a → b ∈ r.wrappedBy a
  nodup : ∀ a, (r.wrappedBy a).Nodup

theorem known_of_mem_wrappedBy {a b : TokenId} (listed : b ∈ r.wrappedBy a) : r.Known a := by
  rw [Known]
  cases known : r.get? a with
  | none => simp [wrappedBy, known] at listed
  | some token => rfl

theorem known_of_wrapper? {a b : TokenId} (wrapped : r.wrapper? b = some a) : r.Known b := by
  obtain ⟨token, known, -⟩ := Option.bind_eq_some_iff.1 wrapped
  rw [Known, known]
  rfl

/-- The records agree if every token on a list names the one that lists it. -/
theorem SoundEdges.edgesAgree_iff (sound : r.SoundEdges) :
    r.EdgesAgree ↔ ∀ a, ∀ b ∈ r.wrappedBy a, r.wrapper? b = some a := by
  constructor
  · intro agree a b listed
    exact (agree a b (known_of_mem_wrappedBy listed) (sound.listed_known a b listed)).1 listed
  · intro named a b _ _
    exact ⟨named a b, sound.wrapper_lists a b⟩

/-! ## Calls -/

/-- What a caller can do to the tokens of a message. -/
inductive Call where
  /-- Add a token. -/
  | insert (token : LooseToken)
  /-- Change a token. -/
  | amend (id : TokenId) (amendment : Amendment)
  /-- Record that one token wraps another. -/
  | wrap (outer inner : TokenId)

/-- The edit that a call makes. -/
def Call.edit : Call → Edit Unit
  | insert token => modifyThe Registry fun r => (r.insert token.token).1
  | amend id amendment => Registry.amend id amendment.change
  | wrap outer inner => link outer inner

/-- The tokens after a call, and its answer. -/
def call (r : Registry) (c : Call) : Registry × Except Failure Unit :=
  (c.edit.run.run r).swap

/-- The call wraps a token that another one wraps already. -/
def Rewraps (r : Registry) : Call → Prop
  | .wrap outer inner => r.Known outer ∧ ∃ former ∈ r.wrapper? inner, former ≠ outer
  | _ => False

instance (r : Registry) : (c : Call) → Decidable (r.Rewraps c)
  | .insert _ | .amend _ _ => isFalse id
  | .wrap outer inner =>
    inferInstanceAs (Decidable (r.Known outer ∧ ∃ former ∈ r.wrapper? inner, former ≠ outer))

/-- No call wraps a token that another one wraps by then. -/
def NeverRewraps (r : Registry) : List Call → Prop
  | [] => True
  | c :: calls => ¬ r.Rewraps c ∧ NeverRewraps (r.call c).1 calls

instance NeverRewraps.decidable (r : Registry) : (calls : List Call) → Decidable (r.NeverRewraps calls)
  | [] => isTrue trivial
  | c :: calls =>
    have := NeverRewraps.decidable (r.call c).1 calls
    inferInstanceAs (Decidable (¬ r.Rewraps c ∧ NeverRewraps (r.call c).1 calls))

/-! ## What an edit does -/

@[simp] theorem known_modify (r : Registry) (id id' : TokenId)
    (change : SecurityToken → SecurityToken) :
    (r.modify id change).Known id' ↔ r.Known id' := by
  rw [Known, Known, get?_modify]
  split
  · rw [Option.isSome_map]
  · rfl

theorem edit_bind_run {α β : Type} (edit : Edit α) (next : α → Edit β) (r : Registry) :
    (edit >>= next).run.run r =
      match edit.run.run r with
      | (.ok a, r') => (next a).run.run r'
      | (.error f, r') => (.error f, r') := by
  simp only [ExceptT.run_bind, StateT.run_bind]
  rcases edit.run.run r with ⟨_ | _, r'⟩ <;> rfl

/-- A look-up changes nothing. -/
theorem find_run (id : TokenId) (r : Registry) : (find id).run.run r = (r.get id, r) := by
  show (liftExcept (r.get id) : Edit SecurityToken).run.run r = _
  cases r.get id <;> rfl

theorem get_of_known {id : TokenId} (known : r.Known id) : ∃ token, r.get id = .ok token := by
  obtain ⟨token, found⟩ := Option.isSome_iff_exists.1 known
  exact ⟨token, get_eq_ok_iff.2 found⟩

theorem get_of_unknown {id : TokenId} (unknown : ¬ r.Known id) :
    r.get id = .error (.unknownToken id.text) := by
  rw [get, Option.not_isSome_iff_eq_none.1 unknown]

theorem amend_run_of_known {id : TokenId} (known : r.Known id)
    (change : SecurityToken → SecurityToken) :
    (amend id change).run.run r = (.ok (), r.modify id change) := by
  obtain ⟨token, found⟩ := get_of_known known
  rw [amend, edit_bind_run, find_run, found]
  rfl

theorem amend_run_of_unknown {id : TokenId} (unknown : ¬ r.Known id)
    (change : SecurityToken → SecurityToken) :
    (amend id change).run.run r = (.error (.unknownToken id.text), r) := by
  rw [amend, edit_bind_run, find_run, get_of_unknown unknown]

/-- The registry with an edge between two known tokens. -/
def linked (r : Registry) (outer inner : TokenId) : Registry :=
  (r.modify outer (·.addWrapped inner)).modify inner fun token => { token with wrapper := some outer }

theorem link_run_of_known (outerKnown : r.Known outer) (innerKnown : r.Known inner) :
    (link outer inner).run.run r = (.ok (), r.linked outer inner) := by
  obtain ⟨token, found⟩ := get_of_known innerKnown
  rw [link, edit_bind_run, find_run, found]
  dsimp only
  rw [edit_bind_run, amend_run_of_known outerKnown]
  exact amend_run_of_known ((known_modify r outer inner _).2 innerKnown) _

/-- Both tokens are looked up before anything is changed. -/
theorem link_run_of_unknown (unknown : ¬ (r.Known outer ∧ r.Known inner)) :
    ∃ f, (link outer inner).run.run r = (.error f, r) := by
  rw [link, edit_bind_run, find_run]
  by_cases innerKnown : r.Known inner
  · obtain ⟨token, found⟩ := get_of_known innerKnown
    have outerUnknown : ¬ r.Known outer := fun outerKnown => unknown ⟨outerKnown, innerKnown⟩
    rw [found]
    dsimp only
    rw [edit_bind_run, amend_run_of_unknown outerUnknown]
    exact ⟨_, rfl⟩
  · rw [get_of_unknown innerKnown]
    exact ⟨_, rfl⟩

/-- A call that fails leaves the registry as it was. -/
theorem call_of_error {c : Call} {f : Failure} (failed : (r.call c).2 = .error f) :
    (r.call c).1 = r := by
  cases c with
  | insert token => cases failed
  | amend id amendment =>
    rw [call, Call.edit] at failed ⊢
    by_cases known : r.Known id
    · rw [amend_run_of_known known] at failed
      cases failed
    · rw [amend_run_of_unknown known]
      rfl
  | wrap outer inner =>
    rw [call, Call.edit] at failed ⊢
    by_cases known : r.Known outer ∧ r.Known inner
    · rw [link_run_of_known known.1 known.2] at failed
      cases failed
    · obtain ⟨f, fails⟩ := link_run_of_unknown known
      rw [fails]
      rfl

/-- Tokens are wrapped exactly if both are known. -/
theorem call_wrap_eq_ok_iff :
    (r.call (.wrap outer inner)).2 = .ok () ↔ r.Known outer ∧ r.Known inner := by
  rw [call, Call.edit]
  by_cases known : r.Known outer ∧ r.Known inner
  · rw [link_run_of_known known.1 known.2]
    exact iff_of_true rfl known
  · obtain ⟨f, fails⟩ := link_run_of_unknown known
    rw [fails]
    exact iff_of_false nofun known

/-! ## What a call does to the edges -/

/-- The second registry has the edges of the first one. -/
structure SameEdges (r r' : Registry) : Prop where
  known : ∀ id, r.Known id → r'.Known id
  wrappedBy_eq : ∀ id, r'.wrappedBy id = r.wrappedBy id
  wrapper?_eq : ∀ id, r'.wrapper? id = r.wrapper? id

theorem SameEdges.refl (r : Registry) : r.SameEdges r :=
  ⟨fun _ => id, fun _ => rfl, fun _ => rfl⟩

theorem wrappedBy_modify {id id' : TokenId} {change : SecurityToken → SecurityToken}
    (same : ∀ token, (change token).wrapped = token.wrapped) :
    (r.modify id change).wrappedBy id' = r.wrappedBy id' := by
  rw [wrappedBy, wrappedBy, get?_modify]
  split
  · cases r.get? id' with
    | none => rfl
    | some token => exact same token
  · rfl

theorem wrapper?_modify {id id' : TokenId} {change : SecurityToken → SecurityToken}
    (same : ∀ token, (change token).wrapper = token.wrapper) :
    (r.modify id change).wrapper? id' = r.wrapper? id' := by
  rw [wrapper?, wrapper?, get?_modify]
  split
  · cases r.get? id' with
    | none => rfl
    | some token => exact same token
  · rfl

theorem sameEdges_modify (r : Registry) (id : TokenId) (amendment : Amendment) :
    r.SameEdges (r.modify id amendment.change) where
  known id' := (known_modify r id id' _).2
  wrappedBy_eq _ := wrappedBy_modify amendment.wrapped_change
  wrapper?_eq _ := wrapper?_modify amendment.wrapper_change

/-- A new token is found at a handle that named none before. -/
theorem get?_insert (r : Registry) (token : SecurityToken) (id : TokenId) :
    (r.insert token).1.get? id = r.get? id ∨
      r.get? id = none ∧ (r.insert token).1.get? id = some token := by
  simp only [insert, get?, List.getElem?_append]
  split
  next => exact .inl rfl
  next outside =>
    have unknown : r.tokens[id.index.toNat]? = none := List.getElem?_eq_none (Nat.le_of_not_lt outside)
    rw [unknown, List.getElem?_singleton]
    split
    · exact .inr ⟨rfl, rfl⟩
    · exact .inl rfl

theorem sameEdges_insert (r : Registry) (token : LooseToken) :
    r.SameEdges (r.insert token.token).1 where
  known id h := by
    rcases get?_insert r token.token id with same | ⟨-, added⟩
    · rwa [Known, same]
    · rw [Known, added]
      rfl
  wrappedBy_eq id := by
    rcases get?_insert r token.token id with same | ⟨unknown, added⟩
    · rw [wrappedBy, wrappedBy, same]
    · rw [wrappedBy, wrappedBy, added, unknown]
      exact token.wrapped_eq_nil
  wrapper?_eq id := by
    rcases get?_insert r token.token id with same | ⟨unknown, added⟩
    · rw [wrapper?, wrapper?, same]
    · rw [wrapper?, wrapper?, added, unknown]
      exact token.wrapper_eq_none

/-- The outer token lists the inner one, and no other list changes. -/
theorem wrappedBy_linked {token : SecurityToken} (found : r.get? outer = some token) (a : TokenId) :
    (r.linked outer inner).wrappedBy a =
      if outer = a then (token.addWrapped inner).wrapped else r.wrappedBy a := by
  have kept : (r.linked outer inner).wrappedBy a = (r.modify outer (·.addWrapped inner)).wrappedBy a :=
    wrappedBy_modify fun _ => rfl
  rw [kept, wrappedBy, get?_modify]
  split
  next same =>
    cases same
    rw [found]
    rfl
  next => rfl

/-- The inner token names the outer one, and no other wrapper changes. -/
theorem wrapper?_linked (innerKnown : r.Known inner) (b : TokenId) :
    (r.linked outer inner).wrapper? b = if inner = b then some outer else r.wrapper? b := by
  have kept : (r.modify outer (·.addWrapped inner)).wrapper? b = r.wrapper? b :=
    wrapper?_modify fun token => token.wrapper_addWrapped inner
  have known := (known_modify r outer inner (·.addWrapped inner)).2 innerKnown
  rw [← kept, linked, wrapper?, get?_modify]
  split
  next same =>
    cases same
    obtain ⟨token, found⟩ := Option.isSome_iff_exists.1 known
    rw [found]
    rfl
  next => rfl

/-- What a new edge changes. -/
structure Linked (r : Registry) (outer inner : TokenId) (r' : Registry) : Prop where
  outer_known : r.Known outer
  inner_known : r.Known inner
  known : ∀ id, r.Known id → r'.Known id
  mem_wrappedBy_iff : ∀ a b, b ∈ r'.wrappedBy a ↔ b ∈ r.wrappedBy a ∨ outer = a ∧ b = inner
  nodup : ∀ a, (r.wrappedBy a).Nodup → (r'.wrappedBy a).Nodup
  wrapper?_eq : ∀ b, r'.wrapper? b = if inner = b then some outer else r.wrapper? b

theorem linked_linked (outerKnown : r.Known outer) (innerKnown : r.Known inner) :
    r.Linked outer inner (r.linked outer inner) := by
  obtain ⟨token, found⟩ := Option.isSome_iff_exists.1 outerKnown
  have listed : r.wrappedBy outer = token.wrapped := by rw [wrappedBy, found]; rfl
  refine ⟨outerKnown, innerKnown, fun id h => ?_, fun a b => ?_, fun a h => ?_,
    wrapper?_linked innerKnown⟩
  · rwa [linked, known_modify, known_modify]
  · rw [wrappedBy_linked found]
    split
    next same =>
      cases same
      rw [SecurityToken.mem_wrapped_addWrapped, listed]
      simp
    next other => simp [other]
  · rw [wrappedBy_linked found]
    split
    next same =>
      cases same
      exact SecurityToken.nodup_addWrapped (listed ▸ h)
    next => exact h

/-- A call leaves the edges as they are, or adds one. -/
theorem call_cases (r : Registry) (c : Call) :
    r.SameEdges (r.call c).1 ∧ ¬ r.Rewraps c ∨
      ∃ outer inner, c = .wrap outer inner ∧ r.Linked outer inner (r.call c).1 := by
  cases c with
  | insert token => exact .inl ⟨sameEdges_insert r token, id⟩
  | amend id amendment =>
    refine .inl ⟨?_, fun rewraps => rewraps⟩
    rw [call, Call.edit]
    by_cases known : r.Known id
    · rw [amend_run_of_known known]
      exact sameEdges_modify r id amendment
    · rw [amend_run_of_unknown known]
      exact .refl r
  | wrap outer inner =>
    rw [call, Call.edit]
    by_cases known : r.Known outer ∧ r.Known inner
    · rw [link_run_of_known known.1 known.2]
      exact .inr ⟨outer, inner, rfl, linked_linked known.1 known.2⟩
    · obtain ⟨f, fails⟩ := link_run_of_unknown known
      rw [fails]
      refine .inl ⟨.refl r, ?_⟩
      rintro ⟨outerKnown, former, wrapped, -⟩
      exact known ⟨outerKnown, known_of_wrapper? wrapped⟩

/-! ## One call -/

namespace SoundEdges

variable {c : Call}

theorem of_sameEdges (sound : r.SoundEdges) (same : r.SameEdges r') : r'.SoundEdges where
  listed_known a b listed := same.known b (sound.listed_known a b (same.wrappedBy_eq a ▸ listed))
  listed_wrapped a b listed := by
    rw [same.wrapper?_eq]
    exact sound.listed_wrapped a b (same.wrappedBy_eq a ▸ listed)
  wrapper_lists a b wrapped := by
    rw [same.wrappedBy_eq]
    exact sound.wrapper_lists a b (same.wrapper?_eq b ▸ wrapped)
  nodup a := by
    rw [same.wrappedBy_eq]
    exact sound.nodup a

theorem of_linked (sound : r.SoundEdges) (added : r.Linked outer inner r') : r'.SoundEdges where
  listed_known a b listed := by
    rcases (added.mem_wrappedBy_iff a b).1 listed with old | ⟨-, rfl⟩
    · exact added.known b (sound.listed_known a b old)
    · exact added.known b added.inner_known
  listed_wrapped a b listed := by
    rw [added.wrapper?_eq]
    split
    next => exact Option.some_ne_none outer
    next other =>
      rcases (added.mem_wrappedBy_iff a b).1 listed with old | ⟨-, rfl⟩
      · exact sound.listed_wrapped a b old
      · exact absurd rfl other
  wrapper_lists a b wrapped := by
    rw [added.wrapper?_eq] at wrapped
    refine (added.mem_wrappedBy_iff a b).2 ?_
    split at wrapped
    next same => exact .inr ⟨Option.some.inj wrapped, same.symm⟩
    next => exact .inl (sound.wrapper_lists a b wrapped)
  nodup a := added.nodup a (sound.nodup a)

/-- Every call keeps the edges sound. -/
theorem call (sound : r.SoundEdges) (c : Call) : (r.call c).1.SoundEdges := by
  rcases r.call_cases c with ⟨same, -⟩ | ⟨outer, inner, rfl, added⟩
  · exact sound.of_sameEdges same
  · exact sound.of_linked added

/-- A new edge keeps the records in agreement unless the inner token has another wrapper. -/
theorem edgesAgree_linked (sound : r.SoundEdges) (added : r.Linked outer inner r') :
    r'.EdgesAgree ↔ r.EdgesAgree ∧ ¬ r.Rewraps (.wrap outer inner) := by
  rw [(sound.of_linked added).edgesAgree_iff, sound.edgesAgree_iff]
  constructor
  · intro agree
    -- the inner token is on no list but that of the outer one
    have only : ∀ a, inner ∈ r.wrappedBy a → a = outer := by
      intro a listed
      have named := agree a inner ((added.mem_wrappedBy_iff a inner).2 (.inl listed))
      rw [added.wrapper?_eq, if_pos rfl] at named
      exact (Option.some.inj named).symm
    refine ⟨fun a b listed => ?_, ?_⟩
    · by_cases same : inner = b
      · subst same
        obtain ⟨former, wrapped⟩ := Option.ne_none_iff_exists'.1 (sound.listed_wrapped a inner listed)
        rw [wrapped, only a listed, only former (sound.wrapper_lists former inner wrapped)]
      · have named := agree a b ((added.mem_wrappedBy_iff a b).2 (.inl listed))
        rwa [added.wrapper?_eq, if_neg same] at named
    · rintro ⟨-, former, wrapped, other⟩
      exact other (only former (sound.wrapper_lists former inner wrapped))
  · rintro ⟨agree, first⟩ a b listed
    rw [added.wrapper?_eq]
    rcases (added.mem_wrappedBy_iff a b).1 listed with old | ⟨rfl, rfl⟩
    · have named := agree a b old
      split
      next same =>
        subst same
        by_contra other
        exact first ⟨added.outer_known, a, named, fun h => other (congrArg some h.symm)⟩
      next => exact named
    · rw [if_pos rfl]

/-- A call keeps the records in agreement unless it wraps a token that another one wraps already. -/
theorem edgesAgree_call (sound : r.SoundEdges) (c : Call) :
    (r.call c).1.EdgesAgree ↔ r.EdgesAgree ∧ ¬ r.Rewraps c := by
  rcases r.call_cases c with ⟨same, first⟩ | ⟨outer, inner, rfl, added⟩
  · rw [(sound.of_sameEdges same).edgesAgree_iff, sound.edgesAgree_iff]
    simp only [same.wrappedBy_eq, same.wrapper?_eq, first, not_false_eq_true, and_true]
  · exact sound.edgesAgree_linked added

/-! ## Any number of calls -/

theorem feed (sound : r.SoundEdges) (calls : List Call) :
    (feed Registry.call r calls).1.SoundEdges := by
  induction calls generalizing r with
  | nil => exact sound
  | cons c calls ih => exact ih (sound.call c)

theorem edgesAgree_feed (sound : r.SoundEdges) (calls : List Call) :
    (SoapPolicy.feed Registry.call r calls).1.EdgesAgree ↔ r.EdgesAgree ∧ r.NeverRewraps calls := by
  induction calls generalizing r with
  | nil => exact (and_iff_left trivial).symm
  | cons c calls ih =>
    rw [feed_cons, ih (sound.call c), sound.edgesAgree_call c, NeverRewraps, and_assoc]

end SoundEdges

/-- An empty registry has no edges. -/
theorem soundEdges_empty : SoundEdges {} where
  listed_known a b listed := by cases listed
  listed_wrapped a b listed := by cases listed
  wrapper_lists a b wrapped := by cases wrapped
  nodup a := List.nodup_nil

theorem edgesAgree_empty : EdgesAgree {} := by
  intro a b known
  cases known

/-- Whatever callers do to the tokens of a message, the two records of the edges agree exactly if no
token was ever wrapped that another one wrapped by then.  In any case what is listed is known, has a
wrapper and is listed once, and the wrapper of a token lists it.  One token is wrapped by another
exactly if both are known, and a call that fails leaves everything as it was. -/
theorem edgesAgree_iff_neverRewraps (calls : List Call) :
    ((feed call {} calls).1.EdgesAgree ↔ NeverRewraps {} calls) ∧
    (feed call {} calls).1.SoundEdges ∧
    (∀ outer inner, ((feed call {} calls).1.call (.wrap outer inner)).2 = .ok () ↔
      (feed call {} calls).1.Known outer ∧ (feed call {} calls).1.Known inner) ∧
    ∀ c f, ((feed call {} calls).1.call c).2 = .error f →
      ((feed call {} calls).1.call c).1 = (feed call {} calls).1 := by
  refine ⟨?_, soundEdges_empty.feed calls, fun outer inner => call_wrap_eq_ok_iff,
    fun c f => call_of_error⟩
  rw [soundEdges_empty.edgesAgree_feed calls]
  exact and_iff_right edgesAgree_empty

/-- An encrypted key without edges. -/
def encryptedKey : LooseToken := ⟨{ type := .encryptedKey }, rfl, rfl⟩

/-- A key wraps a second one twice, which wraps a third one and a token that is not known. -/
def keyChain : List Call :=
  [.insert encryptedKey, .insert encryptedKey, .insert encryptedKey, .wrap ⟨0⟩ ⟨1⟩, .wrap ⟨0⟩ ⟨1⟩,
    .wrap ⟨1⟩ ⟨2⟩, .wrap ⟨1⟩ ⟨7⟩]

/-- The records of a chain of keys agree. -/
theorem edgesAgree_keyChain :
    (feed call {} keyChain).1.EdgesAgree ∧ (feed call {} keyChain).1.wrappedBy ⟨0⟩ = [⟨1⟩] :=
  ⟨(edgesAgree_iff_neverRewraps keyChain).1.2 (by decide), by decide⟩

/-- Two keys wrap a third one, one after the other. -/
def twoWrappers : List Call :=
  [.insert encryptedKey, .insert encryptedKey, .insert encryptedKey, .wrap ⟨0⟩ ⟨2⟩, .wrap ⟨1⟩ ⟨2⟩]

/-- The first key still lists the third one, which names the second key as its wrapper. -/
theorem not_edgesAgree_twoWrappers : ¬ (feed call {} twoWrappers).1.EdgesAgree := by
  intro agree
  have listed : ⟨2⟩ ∈ (feed call {} twoWrappers).1.wrappedBy ⟨0⟩ := by decide
  have named : (feed call {} twoWrappers).1.wrapper? ⟨2⟩ = some ⟨1⟩ := by decide
  have former := (agree ⟨0⟩ ⟨2⟩ rfl rfl).1 listed
  rw [named] at former
  cases former

end Registry

end SoapPolicy
