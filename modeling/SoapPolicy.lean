import SoapPolicy.Json.Printer
import SoapPolicy.Main
import SoapPolicy.Proofs.Arrival
import SoapPolicy.Proofs.Diagnostics
import SoapPolicy.Proofs.ElementPresence
import SoapPolicy.Proofs.ElementProtection.FirstReport
import SoapPolicy.Proofs.Enforcer.Disjunction
import SoapPolicy.Proofs.Enforcer.ElementProtection
import SoapPolicy.Proofs.Enforcer.Finality
import SoapPolicy.Proofs.Enforcer.Irrelevance
import SoapPolicy.Proofs.Enforcer.Operation
import SoapPolicy.Proofs.Enforcer.Repetition
import SoapPolicy.Proofs.Enforcer.SoapVersion
import SoapPolicy.Proofs.Enforcer.SoftMode
import SoapPolicy.Proofs.Enforcer.Strengthening
import SoapPolicy.Proofs.Enforcer.Unreadable
import SoapPolicy.Proofs.Irrevocable
import SoapPolicy.Proofs.Json.Documents
import SoapPolicy.Proofs.Token.DerivedKeys
import SoapPolicy.Proofs.Token.Edges
import SoapPolicy.Proofs.Token.Fate
import SoapPolicy.Proofs.Token.Trees
import SoapPolicy.Proofs.XPath.Canonical
import SoapPolicy.Proofs.XPath.LocationPath
import SoapPolicy.Proofs.XPath.Unclosed
