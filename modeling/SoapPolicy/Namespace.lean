/-!
# Namespaces

The XML namespaces a security policy speaks of.  SOAP has two envelope namespaces, one for each
version.  A policy written for one version also reads messages of the other, so much of the
library asks only whether a namespace is *some* SOAP envelope namespace.
-/

namespace SoapPolicy.Namespace

/-- The SOAP 1.1 envelope. -/
def soap11 : String := "http://schemas.xmlsoap.org/soap/envelope/"

/-- The SOAP 1.2 envelope. -/
def soap12 : String := "http://www.w3.org/2003/05/soap-envelope"

/-- The security header and its tokens. -/
def securityExtension : String :=
  "http://docs.oasis-open.org/wss/2004/01/oasis-200401-wss-wssecurity-secext-1.0.xsd"

/-- XML digital signatures. -/
def signature : String := "http://www.w3.org/2000/09/xmldsig#"

/-- The username token profile, version 1.0. -/
def usernameProfile10 : String :=
  "http://docs.oasis-open.org/wss/2004/01/oasis-200401-wss-username-token-profile-1.0"

/-- The username token profile, version 1.1. -/
def usernameProfile11 : String :=
  "http://docs.oasis-open.org/wss/oasis-wss-username-token-profile-1.1"

/-- The envelope namespace of either SOAP version. -/
def isSoap (uri : String) : Bool :=
  uri == soap11 || uri == soap12

end SoapPolicy.Namespace
