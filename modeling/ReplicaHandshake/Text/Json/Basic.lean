/-!
# Values of the data format of the settings

A `Json` value is what a settings text says before it is read as settings.  Two details of the
format show:

* A string may escape sixteen-bit units, and the escapes may leave half of a surrogate pair alone.
  Such a string is well formed but no text: `Json.string none`.
* Of a number only what an integer needs is kept: its sign, its digits before the point, and
  whether it has a fraction or an exponent.

A *record* is a value with named fields.  It is written as an object, whose unknown members do not
count, or as an array of the fields in their order, of which the last ones may be missing.
-/

namespace ReplicaHandshake

/-- What is kept of a number. -/
structure Numeral where
  negative : Bool
  whole : Nat
  /-- Neither a fraction nor an exponent follows. -/
  isInteger : Bool
deriving DecidableEq, Repr

/-- A value of the data format. -/
inductive Json where
  | null
  | bool (value : Bool)
  | number (value : Numeral)
  | string (value : Option String)
  | array (items : List Json)
  | object (members : List (Option String × Json))

namespace Json

/-- The text of a string. -/
def text? : Json → Option String
  | string value => value
  | _ => none

/-- The number below `bound` that a value is. -/
def natural? (bound : Nat) : Json → Option Nat
  | number n => if !n.negative && n.isInteger && n.whole < bound then some n.whole else none
  | _ => none

/-- The items of an array. -/
def items? : Json → Option (List Json)
  | array items => some items
  | _ => none

/-- The members with a given name. -/
def named (name : String) (members : List (String × Json)) : List Json :=
  (members.filter (·.1 = name)).map Prod.snd

/-- The value of a field in an object: it may be missing, but not be there twice. -/
def fieldOfMembers? (members : List (String × Json)) (name : String) : Option (Option Json) :=
  match named name members with
  | [] => some none
  | [value] => some (some value)
  | _ => none

/-- The values of a record's fields, in the order of their names. -/
def fields? (names : List String) : Json → Option (List (Option Json))
  | object members => do
    let members ← members.mapM fun (name, value) => name.map (·, value)
    names.mapM (fieldOfMembers? members)
  | array items =>
    if items.length ≤ names.length then
      some (items.map some ++ List.replicate (names.length - items.length) none)
    else none
  | _ => none

end Json

end ReplicaHandshake
