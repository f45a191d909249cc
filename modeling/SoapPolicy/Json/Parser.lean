import SoapPolicy.Json.Value

/-!
# Reading JSON

A reader takes characters from the front of a list and gives back what is left.  Arrays and
objects may be nested `nestingLimit` deep.  Each key of an object counts once, with its last value.
An escaped character outside the first plane is written as two halves, and a half on its own is not
accepted.  Neither is a number that is too large to be held (`Decimal.isHeld`), wherever it stands.
-/

namespace SoapPolicy.Json

/-- How deep arrays and objects may be nested. -/
def nestingLimit : Nat := 127

/-! ## Blanks and words -/

/-- Whether a character may stand between the parts of a value. -/
def isSpace (c : Char) : Bool :=
  c = ' ' || c = '\t' || c = '\n' || c = '\r'

/-- The rest after blanks. -/
def skip (cs : List Char) : List Char :=
  cs.dropWhile isSpace

/-- The rest after a word, if the list starts with it. -/
def afterWord? (word : String) (cs : List Char) : Option (List Char) :=
  if word.toList.isPrefixOf cs then some (cs.drop word.length) else none

/-! ## Strings -/

/-- The value of a hexadecimal digit. -/
def hexDigit? (c : Char) : Option Nat :=
  if '0' ≤ c && c ≤ '9' then some (c.toNat - '0'.toNat)
  else if 'a' ≤ c && c ≤ 'f' then some (c.toNat - 'a'.toNat + 10)
  else if 'A' ≤ c && c ≤ 'F' then some (c.toNat - 'A'.toNat + 10)
  else none

/-- The value of four hexadecimal digits. -/
def hexUnit? (a b c d : Char) : Option Nat := do
  return (((← hexDigit? a) * 16 + (← hexDigit? b)) * 16 + (← hexDigit? c)) * 16 + (← hexDigit? d)

/-- Whether a unit is the first half of a character. -/
def isHighHalf (unit : Nat) : Bool :=
  0xD800 ≤ unit && unit < 0xDC00

/-- Whether a unit is the second half of a character. -/
def isLowHalf (unit : Nat) : Bool :=
  0xDC00 ≤ unit && unit < 0xE000

/-- The character of two halves. -/
def joinHalves (high low : Nat) : Char :=
  Char.ofNat (0x10000 + (high - 0xD800) * 0x400 + (low - 0xDC00))

/-- The character a short escape stands for. -/
def escape? : Char → Option Char
  | '"' => some '"'
  | '\\' => some '\\'
  | '/' => some '/'
  | 'b' => some '\x08'
  | 'f' => some '\x0c'
  | 'n' => some '\n'
  | 'r' => some '\r'
  | 't' => some '\t'
  | _ => none

/-- Read a string from after its opening quote, given the first half of a character if one was just
read. -/
def stringBody : Option Nat → List Char → Option (List Char × List Char)
  | none, '"' :: rest => some ([], rest)
  | high, '\\' :: 'u' :: a :: b :: c :: d :: rest => do
    let unit ← hexUnit? a b c d
    match high with
    | some half =>
      if isLowHalf unit then
        let (text, rest) ← stringBody none rest
        return (joinHalves half unit :: text, rest)
      else none
    | none =>
      if isHighHalf unit then stringBody (some unit) rest
      else if isLowHalf unit then none
      else
        let (text, rest) ← stringBody none rest
        return (Char.ofNat unit :: text, rest)
  | none, '\\' :: e :: rest => do
    let c ← escape? e
    let (text, rest) ← stringBody none rest
    return (c :: text, rest)
  | none, c :: rest =>
    if c = '\\' || c.toNat < 0x20 then none
    else do
      let (text, rest) ← stringBody none rest
      return (c :: text, rest)
  | _, _ => none

/-- Read a string. -/
def string? : List Char → Option (String × List Char)
  | '"' :: rest => do
    let (text, rest) ← stringBody none rest
    return (String.ofList text, rest)
  | _ => none

/-! ## Numbers -/

/-- Read one or more digits. -/
def digits? (cs : List Char) : Option (List Char × List Char) :=
  match cs.takeWhile Char.isDigit with
  | [] => none
  | ds => some (ds, cs.dropWhile Char.isDigit)

/-- Read the digits before the point.  A zero is never followed by more digits. -/
def whole? : List Char → Option (List Char × List Char)
  | '0' :: rest => some (['0'], rest)
  | cs => digits? cs

/-- Read the point and the digits after it, if there is a point. -/
def fraction? : List Char → Option (List Char × List Char)
  | '.' :: rest => digits? rest
  | cs => some ([], cs)

/-- The number that digits stand for. -/
def ofDigits (ds : List Char) : Nat :=
  ds.foldl (fun n d => n * 10 + Decimal.digitValue d) 0

/-- Read a sign, if there is one.  The answer tells whether it is a minus. -/
def sign : List Char → Bool × List Char
  | '-' :: rest => (true, rest)
  | '+' :: rest => (false, rest)
  | cs => (false, cs)

/-- Read the exponent, if there is one. -/
def exponent? : List Char → Option (Option Int × List Char)
  | e :: rest =>
    if e = 'e' || e = 'E' then do
      let (negative, rest) := sign rest
      let (ds, rest) ← digits? rest
      return (some (if negative then -(ofDigits ds : Int) else ofDigits ds), rest)
    else some (none, e :: rest)
  | [] => some (none, [])

/-- Whether an integer of this sign and size has 64 bits.  A negative zero is no integer. -/
def isWord (negative : Bool) (n : Nat) : Bool :=
  if negative then 0 < n && 2 * n ≤ UInt64.size else n < UInt64.size

/-- Read a number without its sign.  A number that is too large to be held is not accepted. -/
def unsigned? (negative : Bool) (cs : List Char) : Option (Json × List Char) := do
  let (whole, rest) ← whole? cs
  let (fraction, rest) ← fraction? rest
  let (exponent, rest) ← exponent? rest
  let n := ofDigits whole
  if fraction.isEmpty && exponent.isNone && isWord negative n then
    return (.int (if negative then -(n : Int) else n), rest)
  else
    let size := Decimal.ofDigits whole fraction (exponent.getD 0)
    if size.isHeld then return (.real negative size, rest) else none

/-- Read a number. -/
def number? : List Char → Option (Json × List Char)
  | '-' :: rest => unsigned? true rest
  | cs => unsigned? false cs

/-! ## Values -/

/-- Read the rest of an array that is not empty, given a bound on the number of its items. -/
def itemsFrom (value : List Char → Option (Json × List Char)) :
    Nat → List Char → Option (List Json × List Char)
  | 0, _ => none
  | bound + 1, cs => do
    let (item, rest) ← value cs
    match skip rest with
    | ',' :: rest =>
      let (items, rest) ← itemsFrom value bound rest
      return (item :: items, rest)
    | ']' :: rest => return ([item], rest)
    | _ => none

/-- Read the rest of an object that is not empty, given a bound on the number of its fields. -/
def fieldsFrom (value : List Char → Option (Json × List Char)) :
    Nat → List Char → Option (Fields × List Char)
  | 0, _ => none
  | bound + 1, cs => do
    let (key, rest) ← string? (skip cs)
    let rest ← afterWord? ":" (skip rest)
    let (field, rest) ← value rest
    match skip rest with
    | ',' :: rest =>
      let (fields, rest) ← fieldsFrom value bound rest
      return ((key, field) :: fields, rest)
    | '}' :: rest => return ([(key, field)], rest)
    | _ => none

/-- Read a value that is neither an array nor an object. -/
def scalar? (cs : List Char) : Option (Json × List Char) :=
  match cs with
  | '"' :: _ => (string? cs).map fun (s, rest) => (.str s, rest)
  | 'n' :: _ => (afterWord? "null" cs).map fun rest => (.null, rest)
  | 't' :: _ => (afterWord? "true" cs).map fun rest => (.bool true, rest)
  | 'f' :: _ => (afterWord? "false" cs).map fun rest => (.bool false, rest)
  | _ => number? cs

/-- Read a value nested at most so deep. -/
def value? : Nat → List Char → Option (Json × List Char)
  | 0, cs => scalar? (skip cs)
  | depth + 1, cs =>
    match skip cs with
    | '[' :: rest =>
      match skip rest with
      | ']' :: rest => some (.arr [], rest)
      | rest => (itemsFrom (value? depth) rest.length rest).map fun (items, rest) =>
        (.arr items, rest)
    | '{' :: rest =>
      match skip rest with
      | '}' :: rest => some (.obj [], rest)
      | rest => (fieldsFrom (value? depth) rest.length rest).map fun (fields, rest) =>
        (.obj fields.normal, rest)
    | cs => scalar? cs

/-- The value a text stands for. -/
def parse? (text : String) : Option Json := do
  let (j, rest) ← value? nestingLimit text.toList
  if (skip rest).isEmpty then return j else none

end SoapPolicy.Json
