/-!
# XPath expressions

An expression as a policy writes it, with the prefixes that are bound where it stands.
-/

namespace SoapPolicy

/-- An XPath expression and its namespace prefixes. -/
structure XPath where
  /-- The expression. -/
  expression : String
  /-- The prefixes, each with the namespace it is bound to. -/
  namespaces : List (String × String) := []
deriving DecidableEq

/-- The namespace a prefix is bound to. -/
def XPath.uri? (xpath : XPath) (label : String) : Option String :=
  xpath.namespaces.lookup label

end SoapPolicy
