/-
# JSON tokens

A JSON text is a sequence of tokens with white space between them.  The
scanner keeps what later readings tell apart: string literals piece by
piece, and whether a number was written as an integer.  Only blank, tab,
line feed and carriage return are white space.
-/
import TurnRendezvous.Json.Literal

namespace TurnRendezvous.Json

/-- A number as written. -/
inductive Number
  /-- Digits with an optional sign in front, and nothing else. -/
  | integer (negative : Bool) (magnitude : Nat)
  /-- A number with a fraction or an exponent. -/
  | real (lexeme : List Char)
deriving DecidableEq

inductive Token
  | arrayOpen | arrayClose | objectOpen | objectClose | comma | colon
  | nullWord | trueWord | falseWord
  | number (n : Number)
  | string (lit : Literal)
deriving DecidableEq

/-- The value of a row of decimal digits. -/
def natOfDigits (ds : List Char) : Nat :=
  ds.foldl (fun n d => n * 10 + (d.toNat - 0x30)) 0

/-- The row of digits that `cs` starts with, and what follows it. -/
def spanDigits (cs : List Char) : List Char × List Char :=
  (cs.takeWhile Char.isDigit, cs.dropWhile Char.isDigit)

/-- A fraction, if one stands here: a point and at least one digit. -/
def scanFraction? : List Char → Option (List Char × List Char)
  | '.' :: rest =>
    let (ds, rest) := spanDigits rest
    if ds.isEmpty then none else some ('.' :: ds, rest)
  | rest => some ([], rest)

/-- The sign and digits of an exponent; at least one digit. -/
def scanPower? (mark : Char) : List Char → Option (List Char × List Char)
  | '+' :: rest =>
    let (ds, rest) := spanDigits rest
    if ds.isEmpty then none else some (mark :: '+' :: ds, rest)
  | '-' :: rest =>
    let (ds, rest) := spanDigits rest
    if ds.isEmpty then none else some (mark :: '-' :: ds, rest)
  | rest =>
    let (ds, rest) := spanDigits rest
    if ds.isEmpty then none else some (mark :: ds, rest)

/-- An exponent, if one stands here. -/
def scanExponent? : List Char → Option (List Char × List Char)
  | 'e' :: rest => scanPower? 'e' rest
  | 'E' :: rest => scanPower? 'E' rest
  | rest => some ([], rest)

/-- A number without its sign.  The integer part has no leading zero. -/
def scanMagnitude? (negative : Bool) (cs : List Char) : Option (Number × List Char) := do
  let (ds, rest) := spanDigits cs
  if ds.isEmpty || (ds.head? == some '0' && ds.length != 1) then none
  let (fraction, rest) ← scanFraction? rest
  let (power, rest) ← scanExponent? rest
  if fraction.isEmpty && power.isEmpty then
    return (.integer negative (natOfDigits ds), rest)
  else
    return (.real ((if negative then ['-'] else []) ++ ds ++ fraction ++ power), rest)

def scanNumber? : List Char → Option (Number × List Char)
  | '-' :: rest => scanMagnitude? true rest
  | rest => scanMagnitude? false rest

/-- Whether `c` may stand between tokens. -/
def isBlank (c : Char) : Bool := c == ' ' || c == '\t' || c == '\n' || c == '\x0d'

/-- The token that `cs` starts with, and what follows it. -/
def scanToken? : List Char → Option (Token × List Char)
  | '[' :: rest => some (.arrayOpen, rest)
  | ']' :: rest => some (.arrayClose, rest)
  | '\x7b' :: rest => some (.objectOpen, rest)
  | '\x7d' :: rest => some (.objectClose, rest)
  | ',' :: rest => some (.comma, rest)
  | ':' :: rest => some (.colon, rest)
  | 'n' :: 'u' :: 'l' :: 'l' :: rest => some (.nullWord, rest)
  | 't' :: 'r' :: 'u' :: 'e' :: rest => some (.trueWord, rest)
  | 'f' :: 'a' :: 'l' :: 's' :: 'e' :: rest => some (.falseWord, rest)
  | '"' :: rest => (Literal.scan? rest).map fun (lit, rest) => (.string lit, rest)
  | cs => (scanNumber? cs).map fun (n, rest) => (.number n, rest)

/-- Scans at most `fuel` blanks and tokens. -/
def scanTokens? : Nat → List Char → Option (List Token)
  | _, [] => some []
  | 0, _ :: _ => none
  | fuel + 1, c :: rest =>
    if isBlank c then scanTokens? fuel rest
    else do
      let (t, rest) ← scanToken? (c :: rest)
      let ts ← scanTokens? fuel rest
      return t :: ts

/-- The tokens of a text.  Every token takes at least one character, so the
text's length bounds their number. -/
def tokens? (cs : List Char) : Option (List Token) := scanTokens? cs.length cs

end TurnRendezvous.Json
