/-
# JSON values

A value keeps the members of an object in the order written, repeated
keys included, and its literals and numbers as tokens have them: whether
a repeated key or a lone surrogate matters is for the reader of the value
to say (`Json.Record`).

`Value.ofTokens?` reads the one value that a token sequence spells and
`Value.toTokens` is the token sequence of a value, without a choice.
-/
import TurnRendezvous.Json.Token

namespace TurnRendezvous.Json

inductive Value
  | null
  | bool (b : Bool)
  | number (n : Number)
  | string (lit : Literal)
  | array (items : List Value)
  | object (members : List (Literal × Value))

/-! ## Reading -/

mutual

/-- The value that a token sequence starts with, and what follows it. -/
def readValue? : Nat → List Token → Option (Value × List Token)
  | 0, _ => none
  | fuel + 1, ts =>
    match ts with
    | .nullWord :: rest => some (.null, rest)
    | .trueWord :: rest => some (.bool true, rest)
    | .falseWord :: rest => some (.bool false, rest)
    | .number n :: rest => some (.number n, rest)
    | .string lit :: rest => some (.string lit, rest)
    | .arrayOpen :: .arrayClose :: rest => some (.array [], rest)
    | .arrayOpen :: rest => (readItems? fuel rest).map fun (items, rest) => (.array items, rest)
    | .objectOpen :: .objectClose :: rest => some (.object [], rest)
    | .objectOpen :: rest =>
      (readMembers? fuel rest).map fun (members, rest) => (.object members, rest)
    | _ => none

/-- One item or more, up to the closing bracket. -/
def readItems? : Nat → List Token → Option (List Value × List Token)
  | 0, _ => none
  | fuel + 1, ts => do
    let (v, rest) ← readValue? fuel ts
    match rest with
    | .comma :: rest =>
      let (vs, rest) ← readItems? fuel rest
      return (v :: vs, rest)
    | .arrayClose :: rest => return ([v], rest)
    | _ => none

/-- One member or more, up to the closing brace. -/
def readMembers? : Nat → List Token → Option (List (Literal × Value) × List Token)
  | 0, _ => none
  | fuel + 1, ts =>
    match ts with
    | .string key :: .colon :: rest => do
      let (v, rest) ← readValue? fuel rest
      match rest with
      | .comma :: rest =>
        let (ms, rest) ← readMembers? fuel rest
        return ((key, v) :: ms, rest)
      | .objectClose :: rest => return ([(key, v)], rest)
      | _ => none
    | _ => none

end

/-- The value that the whole of a token sequence spells. -/
def Value.ofTokens? (ts : List Token) : Option Value :=
  match readValue? (2 * ts.length + 1) ts with
  | some (v, []) => some v
  | _ => none

/-- The value that a text spells, with white space around any token. -/
def parse? (text : String) : Option Value := (tokens? text.toList).bind Value.ofTokens?

/-! ## Writing -/

mutual

/-- The tokens of a value. -/
def Value.toTokens : Value → List Token
  | .null => [.nullWord]
  | .bool true => [.trueWord]
  | .bool false => [.falseWord]
  | .number n => [.number n]
  | .string lit => [.string lit]
  | .array items => .arrayOpen :: itemTokens items ++ [.arrayClose]
  | .object members => .objectOpen :: memberTokens members ++ [.objectClose]

/-- The tokens between brackets. -/
def itemTokens : List Value → List Token
  | [] => []
  | [v] => v.toTokens
  | v :: vs => v.toTokens ++ .comma :: itemTokens vs

/-- The tokens between braces. -/
def memberTokens : List (Literal × Value) → List Token
  | [] => []
  | [(k, v)] => .string k :: .colon :: v.toTokens
  | (k, v) :: ms => .string k :: .colon :: v.toTokens ++ .comma :: memberTokens ms

end

def Number.spell : Number → List Char
  | .integer negative n => (if negative then ['-'] else []) ++ n.repr.toList
  | .real lexeme => lexeme

def Token.spell : Token → List Char
  | .arrayOpen => ['[']
  | .arrayClose => [']']
  | .objectOpen => ['\x7b']
  | .objectClose => ['\x7d']
  | .comma => [',']
  | .colon => [':']
  | .nullWord => ['n', 'u', 'l', 'l']
  | .trueWord => ['t', 'r', 'u', 'e']
  | .falseWord => ['f', 'a', 'l', 's', 'e']
  | .number n => n.spell
  | .string lit => lit.spell

/-- The compact text of a value: its tokens with nothing between them. -/
def Value.render (v : Value) : String := String.ofList (v.toTokens.flatMap Token.spell)

/-! ## Values of plain data -/

def Value.nat (n : Nat) : Value := .number (.integer false n)

def Value.text (s : String) : Value := .string (.ofText s)

/-- An object from its keys and values, in order. -/
def Value.ofMembers (members : List (String × Value)) : Value :=
  .object (members.map fun (k, v) => (.ofText k, v))

def Value.option {α : Type} (write : α → Value) : Option α → Value
  | none => .null
  | some a => write a

end TurnRendezvous.Json
