import SoapPolicy.QName

/-!
# Element paths

An element path is the list of names from the root of a document down to an element.  Policies,
tokens and events all speak of elements by path, since the document itself is never at hand.
-/

namespace SoapPolicy

/-- The names from the document root down to an element. -/
abbrev ElementPath := List QName

namespace ElementPath

/-- The text of a path: each name with a slash before it. -/
def text (path : ElementPath) : String :=
  String.join (path.map fun name => "/" ++ name.text)

/-- Whether a path fits a pattern name by name.  With `descend`, the names below the last of the
pattern are free, so an element fits together with all that is inside it. -/
def fits (anySoap descend : Bool) : ElementPath → ElementPath → Bool
  | [], path => descend || path.isEmpty
  | _ :: _, [] => false
  | a :: pattern, b :: path => a.agrees anySoap b && fits anySoap descend pattern path

/-- Whether two paths lead to the same element of a message, whatever its SOAP version. -/
def same (a b : ElementPath) : Bool :=
  fits true false a b

/-- A path without names fits the pattern without names, and with `descend` every path does. -/
@[simp] theorem fits_nil (anySoap descend : Bool) (path : ElementPath) :
    fits anySoap descend [] path = (descend || path.isEmpty) := rfl

@[simp] theorem fits_cons_nil (anySoap descend : Bool) (a : QName) (pattern : ElementPath) :
    fits anySoap descend (a :: pattern) [] = false := rfl

@[simp] theorem fits_cons_cons (anySoap descend : Bool) (a b : QName)
    (pattern path : ElementPath) :
    fits anySoap descend (a :: pattern) (b :: path) =
      (a.agrees anySoap b && fits anySoap descend pattern path) := rfl

/-! ## Known paths -/

/-- The header of a SOAP 1.1 message. -/
def soap11Header : ElementPath :=
  [⟨Namespace.soap11, "Envelope"⟩, ⟨Namespace.soap11, "Header"⟩]

/-- The body of a SOAP 1.1 message. -/
def soap11Body : ElementPath :=
  [⟨Namespace.soap11, "Envelope"⟩, ⟨Namespace.soap11, "Body"⟩]

/-- The security header of a SOAP 1.1 message. -/
def securityHeader : ElementPath :=
  soap11Header ++ [⟨Namespace.securityExtension, "Security"⟩]

/-- The signature directly inside the security header, which is the main one. -/
def headerSignature : ElementPath :=
  securityHeader ++ [⟨Namespace.signature, "Signature"⟩]

end ElementPath

end SoapPolicy
