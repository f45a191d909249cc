import Mathlib.Logic.Relation
import SoapPolicy.Obligation.TokenProtection
import SoapPolicy.Proofs.Token.Roots

/-!
# Signers stand for trees

Callers build the wrapping edges one by one.  As long as they wrap no token that another one wraps
already, and no token inside of itself, the edges form a forest: both records of them agree and every
chain of edges ends (`Forest`).  An empty registry is a forest, and every such call keeps one
(`Forest.call`).

In a forest two tokens have the same root exactly if edges join them (`Forest.sameTree_iff`).  The signer
is found from the root alone, and it is the root or a token that the root wraps, so it belongs to the
tree it stands for.  Hence the signer of a signer is the signer itself, and tokens have the same signer
exactly if they belong to the same tree (`signer_represents_tree`).
-/

namespace SoapPolicy.Registry

variable {r r' : Registry} {a b id outer inner top : TokenId} {n : Nat}

/-! ## Trees -/

/-- The one token lists the other as wrapped. -/
def Wraps (r : Registry) (outer inner : TokenId) : Prop :=
  inner ∈ r.wrappedBy outer

/-- Edges lead down from the one token to the other. -/
def Encloses (r : Registry) : TokenId → TokenId → Prop :=
  Relation.ReflTransGen r.Wraps

/-- Edges join the two tokens, whatever their direction. -/
def SameTree (r : Registry) : TokenId → TokenId → Prop :=
  Relation.EqvGen r.Wraps

/-- The token wraps all others of a tree, over any number of edges, and no token wraps it. -/
structure TopOf (r : Registry) (id top : TokenId) : Prop where
  encloses : ∀ other, r.SameTree id other → r.Encloses top other
  unwrapped : ∀ outer, ¬ r.Wraps outer top

/-- The token that signs for the tree with a top: the first signing key that the top wraps, else the
top. -/
inductive SignsFor (r : Registry) (top : TokenId) : TokenId → Prop where
  | key {key : TokenId} {before after : List TokenId} :
    r.wrappedBy top = before ++ key :: after → r.isSigningKey key = true →
    (∀ other ∈ before, r.isSigningKey other = false) → SignsFor r top key
  | top : (∀ other ∈ r.wrappedBy top, r.isSigningKey other = false) → SignsFor r top top

theorem Encloses.sameTree (h : r.Encloses a b) : r.SameTree a b := by
  induction h with
  | refl => exact .refl a
  | tail _ wraps ih => exact .trans _ _ _ ih (.rel _ _ wraps)

/-! ## Cycles -/

/-- The call wraps a token inside of itself. -/
def ClosesCycle (r : Registry) : Call → Prop
  | .wrap outer inner => r.Known outer ∧ r.Encloses inner outer
  | _ => False

/-- No call wraps a token inside of itself. -/
def NeverClosesCycle (r : Registry) : List Call → Prop
  | [] => True
  | c :: calls => ¬ r.ClosesCycle c ∧ NeverClosesCycle (r.call c).1 calls

/-- A token that wraps nothing can be wrapped by any other. -/
theorem not_closesCycle_of_leaf (leaf : r.wrappedBy inner = []) (apart : inner ≠ outer) :
    ¬ r.ClosesCycle (.wrap outer inner) := by
  rintro ⟨-, inside⟩
  rcases inside.cases_head with same | ⟨c, wraps, -⟩
  · exact apart same
  · rw [Wraps, leaf] at wraps
    cases wraps

/-- A token that nothing wraps can wrap any other. -/
theorem not_closesCycle_of_top (sound : r.SoundEdges) (top : r.wrapper? outer = none)
    (apart : inner ≠ outer) : ¬ r.ClosesCycle (.wrap outer inner) := by
  rintro ⟨-, inside⟩
  rcases inside.cases_tail with same | ⟨c, -, wraps⟩
  · exact apart same.symm
  · exact sound.listed_wrapped c outer wraps top

/-! ## Forests -/

/-- The two records of the edges agree, and every chain of edges ends. -/
structure Forest (r : Registry) : Prop where
  sound : r.SoundEdges
  agree : r.EdgesAgree
  ends : ∀ id, ∃ top n, r.EndsAt top n id

theorem forest_empty : Forest {} where
  sound := soundEdges_empty
  agree := edgesAgree_empty
  ends id := ⟨id, 0, .here rfl⟩

/-- In a forest the two records of an edge say the same. -/
theorem Forest.wraps_iff (forest : r.Forest) : r.Wraps a b ↔ r.wrapper? b = some a :=
  ⟨forest.sound.edgesAgree_iff.1 forest.agree a b, forest.sound.wrapper_lists a b⟩

/-- A new edge leaves the chains alone that do not pass its inner token. -/
theorem EndsAt.of_linked (sound : r.SoundEdges) (added : r.Linked outer inner r')
    (h : r.EndsAt top n id) (outside : ¬ r.Encloses inner id) : r'.EndsAt top n id := by
  have kept {id : TokenId} (outside : ¬ r.Encloses inner id) : r'.wrapper? id = r.wrapper? id := by
    rw [added.wrapper?_eq, if_neg]
    rintro rfl
    exact outside .refl
  induction h with
  | here bare => exact .here ((kept outside).trans bare)
  | up wrapped _ ih =>
    refine .up ((kept outside).trans wrapped) (ih fun inside => outside ?_)
    exact inside.tail (sound.wrapper_lists _ _ wrapped)

/-- A new edge that closes no cycle leads every chain that passes its inner token on to the end of the
chain of the outer one. -/
theorem ends_linked (sound : r.SoundEdges) (added : r.Linked outer inner r')
    (outside : ¬ r.Encloses inner outer) (ends : ∀ id, ∃ top n, r.EndsAt top n id) (id : TokenId) :
    ∃ top n, r'.EndsAt top n id := by
  obtain ⟨outerTop, m, outerEnds⟩ := ends outer
  have through : r'.EndsAt outerTop (m + 1) inner := by
    refine .up ?_ (outerEnds.of_linked sound added outside)
    rw [added.wrapper?_eq, if_pos rfl]
  obtain ⟨top, n, h⟩ := ends id
  induction h with
  | here bare =>
    by_cases same : inner = top
    · exact ⟨_, _, same ▸ through⟩
    · exact ⟨top, 0, .here (by rw [added.wrapper?_eq, if_neg same, bare])⟩
  | @up id _ _ wrapped _ ih =>
    by_cases same : inner = id
    · exact ⟨_, _, same ▸ through⟩
    · obtain ⟨top', n', rest⟩ := ih
      exact ⟨top', n' + 1, .up (by rw [added.wrapper?_eq, if_neg same, wrapped]) rest⟩

/-- A call keeps a forest unless it wraps a token that another one wraps already, or a token inside of
itself. -/
theorem Forest.call (forest : r.Forest) {c : Call} (first : ¬ r.Rewraps c)
    (acyclic : ¬ r.ClosesCycle c) : (r.call c).1.Forest where
  sound := forest.sound.call c
  agree := (forest.sound.edgesAgree_call c).2 ⟨forest.agree, first⟩
  ends id := by
    rcases r.call_cases c with ⟨same, -⟩ | ⟨outer, inner, rfl, added⟩
    · obtain ⟨top, n, h⟩ := forest.ends id
      exact ⟨top, n, h.congr same.wrapper?_eq⟩
    · refine ends_linked forest.sound added (fun inside => ?_) forest.ends id
      exact acyclic ⟨added.outer_known, inside⟩

theorem Forest.feed (forest : r.Forest) {calls : List Call} (once : r.NeverRewraps calls)
    (acyclic : r.NeverClosesCycle calls) : (feed Registry.call r calls).1.Forest := by
  induction calls generalizing r with
  | nil => exact forest
  | cons c calls ih => exact ih (forest.call once.1 acyclic.1) once.2 acyclic.2

/-! ## Roots of trees -/

namespace Forest

/-- A chain of edges stays inside of the token where it ends. -/
theorem encloses_of_endsAt (forest : r.Forest) (h : r.EndsAt top n id) : r.Encloses top id := by
  induction h with
  | here _ => exact .refl
  | up wrapped _ ih => exact ih.tail (forest.wraps_iff.2 wrapped)

theorem root_encloses (forest : r.Forest) (id : TokenId) : r.Encloses (r.root id) id := by
  obtain ⟨top, n, h⟩ := forest.ends id
  rw [h.root_eq]
  exact forest.encloses_of_endsAt h

theorem root_eq_of_wraps (forest : r.Forest) (wraps : r.Wraps a b) : r.root b = r.root a := by
  obtain ⟨top, n, h⟩ := forest.ends a
  have below : r.EndsAt top (n + 1) b := .up (forest.wraps_iff.1 wraps) h
  rw [h.root_eq, below.root_eq]

/-- Tokens belong to the same tree exactly if they have the same root. -/
theorem sameTree_iff (forest : r.Forest) : r.SameTree a b ↔ r.root a = r.root b := by
  constructor
  · intro same
    induction same with
    | rel _ _ wraps => exact (forest.root_eq_of_wraps wraps).symm
    | refl => rfl
    | symm _ _ _ ih => exact ih.symm
    | trans _ _ _ _ _ ih ih' => exact ih.trans ih'
  · intro same
    have up : r.SameTree a (r.root a) := .symm _ _ (forest.root_encloses a).sameTree
    have down : r.SameTree (r.root a) b := same ▸ (forest.root_encloses b).sameTree
    exact .trans _ _ _ up down

/-- The root of a token is the top of its tree. -/
theorem topOf_root (forest : r.Forest) (id : TokenId) : r.TopOf id (r.root id) where
  encloses other same := by
    rw [forest.sameTree_iff.1 same]
    exact forest.root_encloses other
  unwrapped outer wraps := by
    obtain ⟨top, n, h⟩ := forest.ends id
    rw [h.root_eq, forest.wraps_iff, h.wrapper?_top] at wraps
    cases wraps

end Forest

/-! ## Signers -/

theorem signsFor_signer (r : Registry) (id : TokenId) : r.SignsFor (r.root id) (r.signer id) := by
  show r.SignsFor (r.root id) (((r.wrappedBy (r.root id)).find? r.isSigningKey).getD (r.root id))
  cases found : (r.wrappedBy (r.root id)).find? r.isSigningKey with
  | none => exact .top fun other listed => by simpa using List.find?_eq_none.1 found other listed
  | some key =>
    obtain ⟨signs, before, after, split, others⟩ := List.find?_eq_some_iff_append.1 found
    exact .key split signs fun other earlier => by simpa using others other earlier

theorem signer_congr (same : r.root a = r.root b) : r.signer a = r.signer b := by
  simp only [signer, same]

theorem SignsFor.sameTree (h : r.SignsFor top id) : r.SameTree top id := by
  cases h with
  | key split _ _ =>
    refine .rel _ _ ?_
    rw [Wraps, split]
    exact List.mem_append_right _ (.head _)
  | top _ => exact .refl _

/-- The signer of a tree belongs to it. -/
theorem Forest.sameTree_signer (forest : r.Forest) (id : TokenId) : r.SameTree id (r.signer id) :=
  .trans _ _ _ (.symm _ _ (forest.root_encloses id).sameTree) (r.signsFor_signer id).sameTree

/-- Tokens have the same signer exactly if they belong to the same tree. -/
theorem Forest.signer_eq_iff (forest : r.Forest) : r.signer a = r.signer b ↔ r.SameTree a b := by
  constructor
  · intro same
    exact .trans _ _ _ (same ▸ forest.sameTree_signer a) (.symm _ _ (forest.sameTree_signer b))
  · intro same
    exact signer_congr (forest.sameTree_iff.1 same)

/-- If callers wrap no token that another one wraps already, and none inside of itself, a signer stands
for the tree of the tokens it signs for.  It is its own signer.  Tokens have the same signer exactly if
they belong to the same tree.  It is the first signing key that the top of the tree wraps, else the top
itself.  So it does not matter to which token of a tree a signed element is attributed. -/
theorem signer_represents_tree {calls : List Call} (once : NeverRewraps {} calls)
    (acyclic : NeverClosesCycle {} calls) (made : (feed call {} calls).1 = r) (id : TokenId) :
    r.signer (r.signer id) = r.signer id ∧
    (∀ other, r.signer other = r.signer id ↔ r.SameTree other id) ∧
    (∃ top, r.TopOf id top ∧ r.SignsFor top (r.signer id)) ∧
    ∀ other, r.SameTree other id → ∀ signer path place,
      SignedElement.isBy r signer path ⟨other, place⟩ =
        SignedElement.isBy r signer path ⟨id, place⟩ := by
  have forest : r.Forest := made ▸ forest_empty.feed once acyclic
  refine ⟨?_, fun other => forest.signer_eq_iff, ?_, fun other same signer path place => ?_⟩
  · exact forest.signer_eq_iff.2 (.symm _ _ (forest.sameTree_signer id))
  · exact ⟨r.root id, forest.topOf_root id, r.signsFor_signer id⟩
  · rw [SignedElement.isBy, SignedElement.isBy, forest.signer_eq_iff.2 same]

/-- Give a token one more role. -/
def addingUsage (usage : TokenUsage) : Amendment where
  change token := token.addUsage usage
  wrapped_change token := by
    rw [SecurityToken.addUsage]
    split <;> rfl
  wrapper_change token := by
    rw [SecurityToken.addUsage]
    split <;> rfl

/-- A key wraps a second one, which wraps a third one by then, and a fourth one, which signs.  The
second one is wrapped once more. -/
def keyTree : List Call :=
  [.insert encryptedKey, .insert encryptedKey, .insert encryptedKey, .insert encryptedKey,
    .amend ⟨3⟩ (addingUsage .signature), .wrap ⟨1⟩ ⟨2⟩, .wrap ⟨0⟩ ⟨1⟩, .wrap ⟨0⟩ ⟨3⟩, .wrap ⟨0⟩ ⟨1⟩]

theorem neverClosesCycle_keyTree : NeverClosesCycle {} keyTree := by
  refine ⟨id, id, id, id, id, ?_, ?_, ?_, ?_, trivial⟩
  · exact not_closesCycle_of_leaf (by decide) (by decide)
  · exact not_closesCycle_of_top (soundEdges_empty.feed (keyTree.take 6)) (by decide) (by decide)
  · exact not_closesCycle_of_leaf (by decide) (by decide)
  · exact not_closesCycle_of_top (soundEdges_empty.feed (keyTree.take 8)) (by decide) (by decide)

/-- The fourth key signs for the tree, also for the third one, which it does not touch. -/
theorem signer_represents_keyTree :
    NeverRewraps {} keyTree ∧ NeverClosesCycle {} keyTree ∧
      (feed call {} keyTree).1.signer ⟨3⟩ = ⟨3⟩ ∧ (feed call {} keyTree).1.SameTree ⟨2⟩ ⟨3⟩ := by
  have once : NeverRewraps {} keyTree := by decide
  obtain ⟨idempotent, sameTree_iff, -⟩ :=
    signer_represents_tree once neverClosesCycle_keyTree rfl ⟨2⟩
  have third : (feed call {} keyTree).1.signer ⟨2⟩ = ⟨3⟩ := by decide
  have fourth : (feed call {} keyTree).1.signer ⟨3⟩ = ⟨3⟩ := third ▸ idempotent
  refine ⟨once, neverClosesCycle_keyTree, fourth, ?_⟩
  exact .symm _ _ ((sameTree_iff ⟨3⟩).1 (fourth.trans third.symm))

end SoapPolicy.Registry
