import SoapPolicy.Failure
import SoapPolicy.Token.Basic

/-!
# The token registry

All tokens of one message, in the order they were found.  The place of a token is its handle, and
tokens are never removed, so a handle keeps its meaning.
-/

namespace SoapPolicy

/-- The tokens of a message, oldest first. -/
structure Registry where
  /-- The tokens, each at the place its handle names. -/
  tokens : List SecurityToken := []
deriving DecidableEq

namespace Registry

/-- The number of tokens. -/
def size (r : Registry) : Nat := r.tokens.length

/-- The token a handle names. -/
def get? (r : Registry) (id : TokenId) : Option SecurityToken :=
  r.tokens[id.index.toNat]?

/-- The token a handle names, or the failure that it names none. -/
def get (r : Registry) (id : TokenId) : Except Failure SecurityToken :=
  match r.get? id with
  | some token => .ok token
  | none => .error (.unknownToken id.text)

/-- Add a token. -/
def insert (r : Registry) (token : SecurityToken) : Registry × TokenId :=
  (⟨r.tokens ++ [token]⟩, ⟨UInt64.ofNat r.size⟩)

/-- Change the token a handle names.  An unknown handle changes nothing. -/
def modify (r : Registry) (id : TokenId) (f : SecurityToken → SecurityToken) : Registry :=
  ⟨r.tokens.modify id.index.toNat f⟩

/-! ## Edits -/

/-- An edit of the registry in place.  It may fail on the way, and then leaves what it has done. -/
abbrev Edit := ExceptT Failure (StateM Registry)

/-- Look up a token that has to be known. -/
def find (id : TokenId) : Edit SecurityToken := do
  let r ← getThe Registry
  liftExcept (r.get id)

/-- Change a token that has to be known. -/
def amend (id : TokenId) (change : SecurityToken → SecurityToken) : Edit Unit := do
  let _ ← find id
  modifyThe Registry (·.modify id change)

/-- Record that one token wraps another.  A token has one wrapper, the last one recorded. -/
def link (outer inner : TokenId) : Edit Unit := do
  let _ ← find inner
  amend outer (·.addWrapped inner)
  amend inner fun token => { token with wrapper := some outer }

/-- The registry after an edit, if the edit succeeds. -/
def edited (r : Registry) (edit : Edit Unit) : Except Failure Registry :=
  match edit.run.run r with
  | (.ok (), r') => .ok r'
  | (.error f, _) => .error f

/-- The registry with a token changed that has to be known. -/
def update (r : Registry) (id : TokenId) (change : SecurityToken → SecurityToken) :
    Except Failure Registry :=
  r.edited (amend id change)

/-- The registry with a record that one token wraps another. -/
def wrap (r : Registry) (outer inner : TokenId) : Except Failure Registry :=
  r.edited (link outer inner)

/-! ## Basic facts -/

@[simp] theorem size_insert (r : Registry) (token : SecurityToken) :
    (r.insert token).1.size = r.size + 1 := by
  simp [insert, size]

@[simp] theorem size_modify (r : Registry) (id : TokenId) (f : SecurityToken → SecurityToken) :
    (r.modify id f).size = r.size := by
  simp [modify, size]

/-- A token is found exactly by a handle that names it. -/
theorem get_eq_ok_iff {r : Registry} {id : TokenId} {token : SecurityToken} :
    r.get id = .ok token ↔ r.get? id = some token := by
  unfold get
  cases r.get? id with
  | none => simp
  | some t => simp

/-- A changed token is found changed, and no other token is touched. -/
theorem get?_modify (r : Registry) (id id' : TokenId) (f : SecurityToken → SecurityToken) :
    (r.modify id f).get? id' = if id = id' then (r.get? id').map f else r.get? id' := by
  have same : id.index.toNat = id'.index.toNat ↔ id = id' := by
    cases id; cases id'; simp [UInt64.toNat_inj]
  simp only [get?, modify, List.getElem?_modify, same]
  by_cases h : id = id'
  · simp [h]
  · simp [h]

end Registry

end SoapPolicy
