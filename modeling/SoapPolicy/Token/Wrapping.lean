import SoapPolicy.Token.Registry

/-!
# Key wrapping

What the wrapping edges between tokens say about a token.  Its *root* is where the edges to the
wrapper end.  Its *signer* is the token that makes the signatures attributed to it: the first token
wrapped by the root that is used as a signing key, else the root.  A token *has derived keys* if it
is a derived key, or if it wraps tokens and all of them have derived keys.

Edges may form cycles and name unknown tokens.  The walk to the root is bounded by the number of
tokens.  A chain of distinct tokens is no longer than that, so a walk that is cut short has run into
a cycle.  The search for derived keys remembers the tokens it is inside of, and never enters one of
them again.  It is told how deep it may go, and one that would go deeper has no answer.
-/

namespace SoapPolicy.Registry

/-! ## Roots and signers -/

/-- The token that wraps the one a handle names. -/
def wrapper? (r : Registry) (id : TokenId) : Option TokenId :=
  (r.get? id).bind SecurityToken.wrapper

/-- Follow the edges to the wrapper, `n` of them at most. -/
def climb (r : Registry) : Nat → TokenId → TokenId
  | 0, id => id
  | n + 1, id =>
    match r.wrapper? id with
    | some outer => climb r n outer
    | none => id

/-- The outermost token around the one a handle names.  On a cycle it is the token reached after as
many edges as there are tokens. -/
def root (r : Registry) (id : TokenId) : TokenId :=
  r.climb r.size id

/-- Whether a handle names a token used as a signing key. -/
def isSigningKey (r : Registry) (id : TokenId) : Bool :=
  (r.get? id).any fun token => token.hasUsage .signature

/-- The token that makes the signatures attributed to a handle. -/
def signer (r : Registry) (id : TokenId) : TokenId :=
  let wrapped := ((r.get? (r.root id)).map SecurityToken.wrapped).getD []
  (wrapped.find? r.isSigningKey).getD (r.root id)

@[simp] theorem climb_zero (r : Registry) (id : TokenId) : r.climb 0 id = id := rfl

/-- A token without a wrapper is its own root. -/
theorem root_eq_self {r : Registry} {id : TokenId} (h : r.wrapper? id = none) : r.root id = id := by
  unfold root
  cases r.size with
  | zero => rfl
  | succ n => simp [climb, h]

/-! ## Derived keys -/

/-- A search through tokens.  The state holds the tokens that it is inside of.  A search that goes too
deep has no answer. -/
abbrev Search := StateT (List TokenId) Option

/-- Look at something inside of a token. -/
def inside (id : TokenId) (look : Search Bool) : Search Bool := do
  modifyThe (List TokenId) (id :: ·)
  let answer ← look
  modifyThe (List TokenId) (·.erase id)
  return answer

/-- Look whether a token has derived keys, at most `depth` tokens deep.  To meet a token again that the
search is inside of is to go round a cycle. -/
def seekDerived (r : Registry) : Nat → TokenId → Search Bool
  | 0, _ => failure
  | depth + 1, id =>
    match r.get? id with
    | none => return false
    | some token =>
      if token.type == .derivedKey then return true
      else do
        let visiting ← getThe (List TokenId)
        if token.wrapped.isEmpty || visiting.contains id then return false
        else inside id (token.wrapped.allM (seekDerived r depth))

/-- Whether a token has derived keys.  With room for one token more than there are, the search always
has an answer. -/
def hasDerivedKeys (r : Registry) (id : TokenId) : Bool :=
  ((r.seekDerived (r.size + 1) id).run []).any Prod.fst

/-! ## Tests -/

section Tests

/-- An encrypted key that wraps a derived key, which signs. -/
def keyPair : Registry :=
  ⟨[{ type := .encryptedKey, wrapped := [⟨1⟩] },
    { type := .derivedKey, usages := [.signature], wrapper := some ⟨0⟩ }]⟩

example : keyPair.root ⟨1⟩ = ⟨0⟩ ∧ keyPair.signer ⟨0⟩ = ⟨1⟩ ∧ keyPair.signer ⟨1⟩ = ⟨1⟩ := by decide

example : keyPair.hasDerivedKeys ⟨0⟩ ∧ keyPair.hasDerivedKeys ⟨1⟩ := by decide

/-- Two encrypted keys that wrap each other. -/
def keyCycle : Registry :=
  ⟨[{ type := .encryptedKey, wrapped := [⟨1⟩], wrapper := some ⟨1⟩ },
    { type := .encryptedKey, wrapped := [⟨0⟩], wrapper := some ⟨0⟩ }]⟩

/-- Both edges of the cycle are followed, and no key in it is derived. -/
example : keyCycle.root ⟨0⟩ = ⟨0⟩ ∧ keyCycle.root ⟨1⟩ = ⟨1⟩ ∧ ¬ keyCycle.hasDerivedKeys ⟨0⟩ := by
  decide

/-- A search that may go two keys deep would go deeper, and one that may go a third key deep meets the
first one again. -/
example : (keyCycle.seekDerived 2 ⟨0⟩).run [] = none ∧
    (keyCycle.seekDerived 3 ⟨0⟩).run [] = some (false, []) := by
  decide

end Tests

end SoapPolicy.Registry
