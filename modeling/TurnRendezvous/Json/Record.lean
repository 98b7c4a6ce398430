/-
# Reading data from JSON values

Readers take a value to plain data or refuse it.  A record is read from
an object (`Record.ofValue?`), whose unknown members are skipped and
whose known ones occur once at most, or from an array of its fields in
declaration order, in which the last ones may be missing.  Which fields
have a default is for `Record.required?` and `Record.orDefault?` to say.

A skipped value has to be sound (`Value.isSound`): its literals hold no
bare control character.  Nothing else is asked of it.
-/
import TurnRendezvous.Json.Value

namespace TurnRendezvous.Json

namespace Value

mutual

/-- Whether no literal of a value holds a bare control character. -/
def isSound : Value → Bool
  | .null => true
  | .bool _ => true
  | .number _ => true
  | .string lit => lit.isSound
  | .array items => itemsSound items
  | .object members => membersSound members

/-- Whether all items are sound. -/
def itemsSound : List Value → Bool
  | [] => true
  | v :: vs => v.isSound && itemsSound vs

/-- Whether all keys and values are sound. -/
def membersSound : List (Literal × Value) → Bool
  | [] => true
  | (k, v) :: ms => k.isSound && v.isSound && membersSound ms

end

def text? : Value → Option String
  | .string lit => lit.text?
  | _ => none

def bool? : Value → Option Bool
  | .bool b => some b
  | _ => none

/-- A natural number below `bound`, written without a sign. -/
def natBelow? (bound : Nat) : Value → Option Nat
  | .number (.integer false n) => if n < bound then some n else none
  | _ => none

def option? {α : Type} (read : Value → Option α) : Value → Option (Option α)
  | .null => some none
  | v => (read v).map some

def list? {α : Type} (read : Value → Option α) : Value → Option (List α)
  | .array items => items.mapM read
  | _ => none

/-- Bytes: an array of numbers below 256, or the bytes of a string. -/
def bytes? : Value → Option Bytes
  | .string lit => some lit.bytes
  | .array items => (items.mapM (natBelow? 256)).map fun ns => ns.map UInt8.ofNat
  | _ => none

/-- The name of a variant without content: a string, or an object whose one
member has this key and the value null. -/
def variant? : Value → Option String
  | .string lit => lit.text?
  | .object [(key, .null)] => key.text?
  | _ => none

end Value

/-- The fields of a record that were given, by name. -/
abbrev Record := List (String × Value)

namespace Record

/-- Collects the known members of an object, none of them twice. -/
def ofMembers? (names : List String) : List (Literal × Value) → Option Record
  | [] => some []
  | (key, v) :: rest => do
    let name ← key.text?
    let fields ← ofMembers? names rest
    if names.contains name then
      if (fields.lookup name).isSome then none else return (name, v) :: fields
    else if v.isSound then return fields
    else none

/-- The fields `names` of a record, read from either of its two forms. -/
def ofValue? (names : List String) : Value → Option Record
  | .object members => ofMembers? names members
  | .array items => if items.length ≤ names.length then some (names.zip items) else none
  | _ => none

/-- A field that has to be given. -/
def required? {α : Type} (r : Record) (name : String) (read : Value → Option α) : Option α :=
  (r.lookup name).bind read

/-- A field that stands at `default` when it is not given. -/
def orDefault? {α : Type} (r : Record) (name : String) (read : Value → Option α)
    (default : α) : Option α :=
  match r.lookup name with
  | none => some default
  | some v => read v

end Record

end TurnRendezvous.Json
