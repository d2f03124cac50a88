namespace CommandBus

inductive Json
  | null
  | bool (value : Bool)
  | number (literal : List Char)
  | text (value : List Char)
  | brokenText
  | array (elements : List Json)
  | object (members : List (Json × Json))

namespace Json

def text? : Json → Option (List Char)
  | .text value => some value
  | _ => none

def natural? (bound : Nat) : Json → Option Nat
  | .number literal =>
    if literal.all Char.isDigit then
      let n := literal.foldl (fun n c => 10 * n + (c.toNat - '0'.toNat)) 0
      if n < bound then some n else none
    else none
  | _ => none

def array? : Json → Option (List Json)
  | .array elements => some elements
  | _ => none

def member? (members : List (List Char × Json)) (key : String) : Option (Option Json) :=
  match members.filter (·.1 == key.toList) with
  | [] => some none
  | [(_, value)] => some (some value)
  | _ => none

/-- The values of a record's fields, given as members in any order among others, or as the
elements of an array, of which the last may be left out. -/
def fields? (keys : List String) : Json → Option (List (Option Json))
  | .object members => do
    let members ← members.mapM fun (key, value) => (text? key).map (·, value)
    keys.mapM (member? members)
  | .array elements =>
    if elements.length ≤ keys.length then
      some (elements.map some ++ List.replicate (keys.length - elements.length) none)
    else none
  | _ => none

def optional? {α : Type} (read : Json → Option α) : Option Json → Option (Option α)
  | none | some .null => some none
  | some value => (read value).map some

end Json

end CommandBus
