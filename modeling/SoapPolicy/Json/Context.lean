import SoapPolicy.Enforcer
import SoapPolicy.Json.Codec

/-!
# Contexts as JSON
-/

namespace SoapPolicy

open Json

instance : Codec EnforcerContext where
  toJson c := .obj [("initiator", toJson c.initiator), ("soft_fail", toJson c.softFail)]
  ofJson? j := do
    let fields ← j.fields?
    return {
      initiator := ← fields.defaulted "initiator" false
      softFail := ← fields.defaulted "soft_fail" false }

end SoapPolicy
