import SoapPolicy.Obligation.Outcome
import SoapPolicy.Token.Wrapping

/-!
# Token protection

Some bindings ask that signatures cover the tokens that make them.  Tokens and signed elements are
recorded while the security header is read.  The operation event ends the header, and then three
things are asked of every token on record:

* a signing token that is in the message is signed by its own signature,
* an endorsing token signs the main signature,
* the main signature signs every `Signed` supporting token, each as an element of its own.

The roles of a token are those of its root, and its signatures are those of its signer.
-/

namespace SoapPolicy

/-- An element that is signed. -/
structure SignedElement where
  /-- The token the signature is attributed to. -/
  token : TokenId
  /-- The element. -/
  path : ElementPath
deriving DecidableEq

/-- What was seen of the security header. -/
structure HeaderRecord where
  /-- The tokens, each once, in the order they were found. -/
  tokens : List TokenId := []
  /-- The signed elements, in the order they were reported. -/
  signed : List SignedElement := []
deriving DecidableEq

namespace SignedElement

/-- Whether an element is the one at a path and its signature is made by a token. -/
def isBy (r : Registry) (signer : TokenId) (path : ElementPath) (element : SignedElement) : Bool :=
  r.signer element.token == signer && ElementPath.same element.path path

end SignedElement

namespace HeaderRecord

/-- Record a token. -/
def addToken (record : HeaderRecord) (id : TokenId) : HeaderRecord :=
  if record.tokens.contains id then record else { record with tokens := record.tokens ++ [id] }

/-- Record an element, if it is signed. -/
def addElement (record : HeaderRecord) (event : ProtectionEvent) : HeaderRecord :=
  if event.isProtected then
    { record with signed := record.signed ++ [⟨event.token, event.path⟩] }
  else record

/-- Whether the element at a path is signed by a token. -/
def isSigned (record : HeaderRecord) (r : Registry) (signer : TokenId) (path : ElementPath) :
    Bool :=
  record.signed.any (SignedElement.isBy r signer path)

/-- Whether a signer signs every token that has to be signed, each as an element of its own.  Every
token takes the first element that is left. -/
def signsAll (r : Registry) (signer : TokenId) :
    List TokenId → List SignedElement → Except Failure Bool
  | [], _ => .ok true
  | id :: ids, elements => do
    let token ← r.get id
    if token.isSigned then
      let fits := SignedElement.isBy r signer token.place
      if elements.any fits then signsAll r signer ids (elements.eraseP fits) else return false
    else
      signsAll r signer ids elements

/-- What one token on record falls short of. -/
def tokenShortfall (record : HeaderRecord) (r : Registry) (id : TokenId) :
    Except Failure (Option Shortfall) := do
  let root ← r.get (r.root id)
  let signer := r.signer id
  let token ← r.get signer
  if token.included && (root.isSigning || token.isSigning)
      && !record.isSigned r signer token.place then
    return some (.tokenNotSigned token.place)
  else if root.isEndorsing && !record.isSigned r signer ElementPath.headerSignature then
    return some (.notEndorsing token.place)
  else if root.hasUsage .mainSignature then
    return ask (← signsAll r signer record.tokens record.signed) .supportingNotSigned
  else
    return none

/-- What the first of several tokens to fall short falls short of. -/
def firstShortfall (record : HeaderRecord) (r : Registry) :
    List TokenId → Except Failure (Option Shortfall)
  | [] => .ok none
  | id :: ids => do
    match ← record.tokenShortfall r id with
    | some why => return some why
    | none => firstShortfall record r ids

/-- What the tokens on record fall short of. -/
def shortfall? (record : HeaderRecord) (r : Registry) : Except Failure (Option Shortfall) :=
  record.firstShortfall r record.tokens

end HeaderRecord

end SoapPolicy
