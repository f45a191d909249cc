import SoapPolicy.Policy.Token
import SoapPolicy.XPath.Expression

/-!
# Policies

A policy in normal form is a list of alternatives, one of which has to hold.  An alternative is a
list of assertions, all of which have to hold.  A service may have a policy for each operation.
-/

namespace SoapPolicy

/-! ## Assertions -/

/-- The elements an assertion speaks of. -/
structure ElementsPolicy where
  /-- One expression for each kind of element. -/
  xpaths : List XPath
deriving DecidableEq

/-- How the two parties of a message protect it. -/
inductive BindingType where
  | transport
  | symmetric
  | asymmetric
deriving DecidableEq

namespace BindingType

/-- The name of a binding. -/
def name : BindingType → String
  | transport => "TransportBinding"
  | symmetric => "SymmetricBinding"
  | asymmetric => "AsymmetricBinding"

instance : Named BindingType where
  all := [transport, symmetric, asymmetric]
  name := name
  mem_all := by intro a; cases a <;> simp
  nodup_names := by simp [name]

end BindingType

/-- A binding assertion. -/
structure BindingPolicy where
  /-- How the message is protected. -/
  binding : BindingType
  /-- Whether signatures have to cover the tokens that make them. -/
  protectTokens : Bool := false
deriving DecidableEq

/-- One requirement of a policy. -/
inductive PolicyAssertion where
  /-- A token of a family in a role. -/
  | token (policy : TokenPolicy)
  /-- Elements that have to be signed. -/
  | signedElements (policy : ElementsPolicy)
  /-- Elements that have to be encrypted. -/
  | encryptedElements (policy : ElementsPolicy)
  /-- Elements that have to be present. -/
  | requiredElements (policy : ElementsPolicy)
  /-- The binding of the message. -/
  | binding (policy : BindingPolicy)
deriving DecidableEq

/-- The name of an assertion. -/
def PolicyAssertion.name : PolicyAssertion → String
  | token policy => policy.name
  | signedElements _ => "SignedElements"
  | encryptedElements _ => "EncryptedElements"
  | requiredElements _ => "RequiredElements"
  | binding policy => policy.binding.name

/-! ## Policies -/

/-- A choice of a policy.  Every assertion of it has to hold. -/
structure Alternative where
  /-- The assertions, in the order of the policy. -/
  assertions : List PolicyAssertion
deriving DecidableEq

/-- A policy in normal form.  One of its alternatives has to hold. -/
structure Policy where
  /-- The alternatives, in the order of the policy. -/
  alternatives : List Alternative
deriving DecidableEq

/-- The policy with one alternative. -/
def Policy.single (assertions : List PolicyAssertion) : Policy :=
  ⟨[⟨assertions⟩]⟩

/-- The policy of an operation. -/
structure OperationPolicy where
  /-- The operation. -/
  operation : QName
  /-- Its policy. -/
  policy : Policy
deriving DecidableEq

namespace OperationPolicy

/-- The place of the policy for an operation: the first one for exactly this name, else the first
one for a name with the same local part. -/
def position? (policies : List OperationPolicy) (operation : QName) : Option Nat :=
  (policies.findIdx? fun p => p.operation == operation).or
    (policies.findIdx? fun p => p.operation.localPart == operation.localPart)

/-- The policy for an operation. -/
def select? (policies : List OperationPolicy) (operation : QName) : Option OperationPolicy :=
  (policies.find? fun p => p.operation == operation).or
    (policies.find? fun p => p.operation.localPart == operation.localPart)

/-- The policy for an operation is the one at the place for it. -/
theorem select?_eq (policies : List OperationPolicy) (operation : QName) :
    select? policies operation = (position? policies operation).bind (policies[·]?) := by
  have at_index : ∀ (p : OperationPolicy → Bool) (l : List OperationPolicy),
      l.find? p = (l.findIdx? p).bind (l[·]?) := by
    intro p l
    induction l with
    | nil => rfl
    | cons a l ih =>
      cases h : p a with
      | true => simp [List.findIdx?_cons, h]
      | false =>
        rw [List.find?_cons, h, List.findIdx?_cons, h, ih]
        cases l.findIdx? p <;> simp
  unfold select? position?
  rw [at_index, at_index]
  cases h : policies.findIdx? fun p => p.operation == operation with
  | none => simp
  | some i =>
    have hi : i < policies.length := (List.findIdx?_eq_some_iff_getElem.1 h).1
    simp [hi]

end OperationPolicy

end SoapPolicy
