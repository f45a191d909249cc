import SoapPolicy.Namespace

/-!
# Qualified names

An XML name is a local part in a namespace.  The empty namespace stands for none.  Names are
compared exactly, or with the two SOAP envelope namespaces taken as one.
-/

namespace SoapPolicy

/-- A namespace-qualified XML name. -/
structure QName where
  /-- The namespace, empty for none. -/
  uri : String := ""
  /-- The name within the namespace. -/
  localPart : String
deriving DecidableEq

namespace QName

/-- The text of a name: its namespace in braces, if it has one, and its local part. -/
def text (q : QName) : String :=
  if q.uri = "" then q.localPart else "\x7b" ++ q.uri ++ "\x7d" ++ q.localPart

/-- Whether two names are the same.  With `anySoap`, the two SOAP envelope namespaces are not told
apart. -/
def agrees (anySoap : Bool) (a b : QName) : Bool :=
  if anySoap && Namespace.isSoap a.uri && Namespace.isSoap b.uri then
    a.localPart == b.localPart
  else
    a == b

/-- Names are ordered by namespace and then by local part, each by code points. -/
instance : Ord QName where
  compare a b := (compare a.uri b.uri).then (compare a.localPart b.localPart)

@[simp] theorem agrees_exact (a b : QName) : agrees false a b = (a == b) := rfl

end QName

end SoapPolicy
