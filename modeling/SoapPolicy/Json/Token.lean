import SoapPolicy.Json.Codec
import SoapPolicy.Token.Basic

/-!
# Tokens as JSON
-/

namespace SoapPolicy

open Json

instance : Codec QName where
  toJson q := .obj [("namespace", toJson q.uri), ("local", toJson q.localPart)]
  ofJson? j := do
    let fields ← j.fields?
    return { uri := ← fields.defaulted "namespace" "", localPart := ← fields.required "local" }

instance : Codec TokenId where
  toJson id := toJson id.index
  ofJson? j := (ofJson? j).map TokenId.mk

instance : Codec SecurityToken where
  toJson token := .obj [
    ("id", toJson token.id),
    ("token_type", toJson token.type),
    ("usages", toJson token.usages),
    ("element_path", toJson token.path),
    ("included_in_message", toJson token.included),
    ("key_identifier", toJson token.keyIdentifier),
    ("wrapped_tokens", toJson token.wrapped),
    ("key_wrapping_token", toJson token.wrapper)]
  ofJson? j := do
    let fields ← j.fields?
    return {
      id := ← fields.defaulted "id" none
      type := ← fields.required "token_type"
      usages := ← fields.required "usages"
      path := ← fields.defaulted "element_path" none
      included := ← fields.required "included_in_message"
      keyIdentifier := ← fields.defaulted "key_identifier" none
      wrapped := ← fields.defaulted "wrapped_tokens" []
      wrapper := ← fields.defaulted "key_wrapping_token" none }

end SoapPolicy
