import SoapPolicy.Decimal

/-!
# JSON values

Policies, tokens and events are stored as JSON.  No number of the library has a fraction, so a
number written with a fraction or an exponent is never read as an integer, not even when it has the
value of one.
-/

namespace SoapPolicy

/-- A JSON value. -/
inductive Json where
  | null
  | bool (b : Bool)
  | int (n : Int)
  /-- A number that is not written as an integer of 64 bits: its sign and its size. -/
  | real (negative : Bool) (size : Decimal)
  | str (s : String)
  | arr (items : List Json)
  | obj (fields : List (String × Json))

namespace Json

/-- The fields of an object. -/
abbrev Fields := List (String × Json)

/-- The fields of a value, if it is an object. -/
def fields? : Json → Option Fields
  | obj fields => some fields
  | _ => none

/-- The items of a value, if it is an array. -/
def items? : Json → Option (List Json)
  | arr items => some items
  | _ => none

/-- The value of a field, if the value is an object that has it. -/
def field? (j : Json) (key : String) : Option Json :=
  j.fields?.bind fun fields => fields.lookup key

/-- Set a field.  A field already there is replaced where it stands. -/
def Fields.put (fields : Fields) (key : String) (value : Json) : Fields :=
  match fields with
  | [] => [(key, value)]
  | (k, v) :: rest => if k = key then (key, value) :: rest else (k, v) :: Fields.put rest key value

/-- The fields with each key once, holding the last of its values. -/
def Fields.normal (fields : Fields) : Fields :=
  fields.foldl (fun done (k, v) => done.put k v) []

end Json

end SoapPolicy
