import SoapPolicy.Named
import SoapPolicy.Json.Value

/-!
# Values of the library as JSON

A type with a *codec* has a written form and a reader.  A structure is written as an object with
all its fields, and read by field: fields it does not have are ignored, and a field may be left out
if it is optional or has a default.  A type of alternatives is written as an object whose one key
names the alternative, and an alternative without content is written as its name alone.  A missing
optional value is `null`, which is nowhere else accepted.
-/

namespace SoapPolicy.Json

/-- A type whose values are written and read as JSON. -/
class Codec (α : Type) where
  /-- The written form of a value. -/
  toJson : α → Json
  /-- The value a written form stands for. -/
  ofJson? : Json → Option α

export Codec (toJson ofJson?)

/-! ## Fields and alternatives -/

/-- A field that has to be there. -/
def Fields.required {α : Type} [Codec α] (fields : Fields) (key : String) : Option α :=
  (fields.lookup key).bind ofJson?

/-- A field that stands for a default if it is left out. -/
def Fields.defaulted {α : Type} [Codec α] (fields : Fields) (key : String) (default : α) :
    Option α :=
  match fields.lookup key with
  | none => some default
  | some j => ofJson? j

/-- The name and the content of an alternative. -/
def variant? : Json → Option (String × Json)
  | obj [(tag, content)] => some (tag, content)
  | _ => none

/-- The name of an alternative without content.  Written as an object, its content is `null`. -/
def bareName? : Json → Option String
  | str tag => some tag
  | obj [(tag, null)] => some tag
  | _ => none

/-! ## Basic types -/

instance : Codec Bool where
  toJson := bool
  ofJson?
    | bool b => some b
    | _ => none

instance : Codec String where
  toJson := str
  ofJson?
    | str s => some s
    | _ => none

instance : Codec UInt8 where
  toJson n := int n.toNat
  ofJson?
    | int n => if 0 ≤ n && n.toNat < UInt8.size then some (UInt8.ofNat n.toNat) else none
    | _ => none

instance : Codec UInt64 where
  toJson n := int n.toNat
  ofJson?
    | int n => if 0 ≤ n && n.toNat < UInt64.size then some (UInt64.ofNat n.toNat) else none
    | _ => none

instance {α : Type} [Codec α] : Codec (Option α) where
  toJson
    | none => null
    | some a => toJson a
  ofJson?
    | null => some none
    | j => (ofJson? j).map some

instance {α : Type} [Codec α] : Codec (List α) where
  toJson items := arr (items.map toJson)
  ofJson? j := j.items?.bind fun items => items.mapM ofJson?

/-- A named type is written by name. -/
instance {α : Type} [Named α] : Codec α where
  toJson a := str (Named.name a)
  ofJson? j := j.bareName?.bind Named.ofName?

end SoapPolicy.Json
