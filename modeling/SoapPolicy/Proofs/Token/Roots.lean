import SoapPolicy.Proofs.Token.DerivedKeys
import SoapPolicy.Proofs.Token.Edges

/-!
# Where the edges to the wrapper end

The edges to the wrapper lead from a token upwards, one from each token, so they form a chain.
`EndsAt` says that the chain ends, where it does so and after how many edges.  A chain that ends has
one end and one length (`EndsAt.unique`), so it passes no token twice.  Hence it has no more edges than
there are tokens (`EndsAt.le_size`), and the bounded walk gets to its end (`EndsAt.root_eq`).

The walk follows the chain (`leads_climb`), so what it gets to is on the chain also if the chain does
not end.  It gets to a token without a wrapper exactly if the chain ends (`root_ends_chain`).
-/

namespace SoapPolicy.Registry

variable {r r' : Registry} {id top top' : TokenId} {n n' m : Nat}

/-- So many edges to the wrapper lead from a token to the one at the top, which has no wrapper. -/
inductive EndsAt (r : Registry) (top : TokenId) : Nat → TokenId → Prop where
  | here : r.wrapper? top = none → EndsAt r top 0 top
  | up {id outer : TokenId} {n : Nat} :
    r.wrapper? id = some outer → EndsAt r top n outer → EndsAt r top (n + 1) id

namespace EndsAt

theorem wrapper?_top (h : r.EndsAt top n id) : r.wrapper? top = none := by
  induction h with
  | here bare => exact bare
  | up _ _ ih => exact ih

theorem congr (same : ∀ id, r'.wrapper? id = r.wrapper? id) (h : r.EndsAt top n id) :
    r'.EndsAt top n id := by
  induction h with
  | here bare => exact .here ((same top).trans bare)
  | @up id _ _ wrapped _ ih => exact .up ((same id).trans wrapped) ih

/-- A chain has one end and one length. -/
theorem unique (h : r.EndsAt top n id) (h' : r.EndsAt top' n' id) : top = top' ∧ n = n' := by
  induction h generalizing n' with
  | here bare =>
    cases h' with
    | here => exact ⟨rfl, rfl⟩
    | up wrapped _ =>
      rw [bare] at wrapped
      cases wrapped
  | up wrapped _ ih =>
    cases h' with
    | here bare =>
      rw [bare] at wrapped
      cases wrapped
    | up wrapped' rest =>
      rw [wrapped] at wrapped'
      cases wrapped'
      obtain ⟨sameTop, sameLength⟩ := ih rest
      exact ⟨sameTop, congrArg (· + 1) sameLength⟩

/-- A walk that may follow that many edges gets to the end. -/
theorem climb_eq (h : r.EndsAt top n id) (enough : n ≤ m) : r.climb m id = top := by
  induction h generalizing m with
  | here bare =>
    cases m with
    | zero => rfl
    | succ m => simp only [climb, bare]
  | up wrapped _ ih =>
    cases m with
    | zero => cases enough
    | succ m =>
      simp only [climb, wrapped]
      exact ih (Nat.le_of_succ_le_succ enough)

/-- A chain passes as many tokens as it has edges.  They are at different distances from the end, so
no token is passed twice. -/
theorem exists_passed (h : r.EndsAt top n id) :
    ∃ ids : List TokenId, ids.length = n ∧ ids.Nodup ∧
      ∀ a ∈ ids, r.Known a ∧ ∃ k ≤ n, r.EndsAt top k a := by
  induction h with
  | here _ => exact ⟨[], rfl, List.nodup_nil, fun _ h => absurd h List.not_mem_nil⟩
  | @up id outer n wrapped rest ih =>
    obtain ⟨ids, length, distinct, passed⟩ := ih
    have chain : r.EndsAt top (n + 1) id := .up wrapped rest
    have fresh : id ∉ ids := by
      intro again
      obtain ⟨-, k, near, chain'⟩ := passed id again
      have same := (chain.unique chain').2
      omega
    refine ⟨id :: ids, congrArg (· + 1) length, List.nodup_cons.2 ⟨fresh, distinct⟩, ?_⟩
    refine List.forall_mem_cons.2 ⟨⟨known_of_wrapper? wrapped, n + 1, Nat.le_refl _, chain⟩, ?_⟩
    intro a ha
    obtain ⟨known, k, near, chain'⟩ := passed a ha
    exact ⟨known, k, Nat.le_succ_of_le near, chain'⟩

/-- A chain that ends has no more edges than there are tokens. -/
theorem le_size (h : r.EndsAt top n id) : n ≤ r.size := by
  obtain ⟨ids, rfl, distinct, passed⟩ := h.exists_passed
  exact length_le_size distinct fun a ha => Option.isSome_iff_exists.1 (passed a ha).1

theorem root_eq (h : r.EndsAt top n id) : r.root id = top :=
  h.climb_eq h.le_size

end EndsAt

/-! ## The walk -/

/-- So many edges to the wrapper lead from the one token to the other. -/
inductive Leads (r : Registry) (upper : TokenId) : Nat → TokenId → Prop where
  | here : Leads r upper 0 upper
  | up {id outer : TokenId} {n : Nat} :
    r.wrapper? id = some outer → Leads r upper n outer → Leads r upper (n + 1) id

variable {upper : TokenId}

theorem EndsAt.leads (h : r.EndsAt top n id) : r.Leads top n id := by
  induction h with
  | here _ => exact .here
  | up wrapped _ ih => exact .up wrapped ih

theorem Leads.endsAt (h : r.Leads top n id) (bare : r.wrapper? top = none) : r.EndsAt top n id := by
  induction h with
  | here => exact .here bare
  | up wrapped _ ih => exact .up wrapped ih

/-- What is higher up on a chain has the same end. -/
theorem Leads.ends (h : r.Leads upper m id) (ends : r.EndsAt top n id) :
    ∃ k, r.EndsAt top k upper := by
  induction h generalizing n with
  | here => exact ⟨n, ends⟩
  | up wrapped _ ih =>
    cases ends with
    | here bare =>
      rw [bare] at wrapped
      cases wrapped
    | up wrapped' rest =>
      rw [wrapped] at wrapped'
      cases wrapped'
      exact ih rest

/-- A walk follows the chain until it ends, or for as many edges as it may follow. -/
theorem leads_climb (r : Registry) (n : Nat) (id : TokenId) :
    ∃ k ≤ n, r.Leads (r.climb n id) k id ∧ (k = n ∨ r.wrapper? (r.climb n id) = none) := by
  induction n generalizing id with
  | zero => exact ⟨0, Nat.le_refl 0, .here, .inl rfl⟩
  | succ n ih =>
    cases wrapped : r.wrapper? id with
    | none =>
      simp only [climb, wrapped]
      exact ⟨0, Nat.zero_le _, .here, .inr trivial⟩
    | some outer =>
      simp only [climb, wrapped]
      obtain ⟨k, le, leads, stops⟩ := ih outer
      exact ⟨k + 1, Nat.succ_le_succ le, .up wrapped leads, stops.imp_left (congrArg (· + 1))⟩

/-- A token has no wrapper if none is on record, or if the token itself is not. -/
theorem wrapper?_eq_none_iff :
    r.wrapper? id = none ↔ ∀ token, r.get? id = some token → token.wrapper = none := by
  rw [wrapper?, Option.bind_eq_none_iff]

/-- The walk to the root ends for every registry, also for one with edges that form a cycle or lead to
unknown tokens.  It follows no more edges than there are tokens, and stops before that only where they
end.  The root has no wrapper exactly if the chain of edges ends.  Then all tokens on the chain have
the same root, which is its own root. -/
theorem root_ends_chain (r : Registry) (id : TokenId) :
    (∃ n ≤ r.size, r.Leads (r.root id) n id ∧ (n = r.size ∨ r.EndsAt (r.root id) n id)) ∧
    ((∀ token, r.get? (r.root id) = some token → token.wrapper = none) ↔
      ∃ top n, r.EndsAt top n id) ∧
    ∀ top n, r.EndsAt top n id → ∀ upper m, r.Leads upper m id →
      r.root upper = r.root id ∧ r.root (r.root upper) = r.root upper := by
  obtain ⟨n, le, leads, stops⟩ := r.leads_climb r.size id
  refine ⟨⟨n, le, leads, stops.imp_right leads.endsAt⟩, ?_, ?_⟩
  · rw [← wrapper?_eq_none_iff]
    constructor
    · intro bare
      exact ⟨r.root id, n, leads.endsAt bare⟩
    · rintro ⟨top, k, ends⟩
      rw [ends.root_eq]
      exact ends.wrapper?_top
  · intro top k ends upper m passed
    obtain ⟨j, ends'⟩ := passed.ends ends
    rw [ends.root_eq, ends'.root_eq]
    exact ⟨rfl, root_eq_self ends.wrapper?_top⟩

/-- A chain through three tokens, which is all there are, to one that is unknown. -/
def orphanChain : Registry :=
  ⟨[{ type := .derivedKey, wrapper := some ⟨2⟩ }, { type := .encryptedKey, wrapper := some ⟨7⟩ },
    { type := .encryptedKey, wrapper := some ⟨1⟩ }]⟩

/-- The walk follows the longest chain there can be to its end, and the edges of a cycle as often as
there are tokens. -/
theorem root_ends_orphanChain :
    orphanChain.EndsAt ⟨7⟩ 3 ⟨0⟩ ∧ orphanChain.root ⟨0⟩ = ⟨7⟩ ∧
      orphanChain.root ⟨1⟩ = orphanChain.root ⟨0⟩ ∧
      (¬ ∃ top n, keyCycle.EndsAt top n ⟨0⟩) ∧ keyCycle.Leads (keyCycle.root ⟨0⟩) 2 ⟨0⟩ := by
  have ends : orphanChain.EndsAt ⟨7⟩ 3 ⟨0⟩ := .up rfl (.up rfl (.up rfl (.here rfl)))
  obtain ⟨-, -, alike⟩ := root_ends_chain orphanChain ⟨0⟩
  obtain ⟨⟨n, -, leads, stops⟩, bare_iff, -⟩ := root_ends_chain keyCycle ⟨0⟩
  have endless : ¬ ∃ top n, keyCycle.EndsAt top n ⟨0⟩ := by
    rw [← bare_iff]
    decide
  obtain rfl : n = 2 := stops.resolve_right fun ends => endless ⟨_, n, ends⟩
  exact ⟨ends, ends.root_eq, (alike _ _ ends ⟨1⟩ 2 (.up rfl (.up rfl .here))).1, endless, leads⟩

end SoapPolicy.Registry
