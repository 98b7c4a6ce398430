/-
# String literals

What stands between the quotes of a JSON string, piece by piece and as
written: a piece is a bare character, a backslash with a letter, or
`\uXXXX`.  Three readings of a literal are defined over the pieces:

* `text?`: the Unicode text, which exists when no bare control character
  occurs and surrogate escapes form pairs;
* `bytes`: the bytes, which always exist: a surrogate without a partner
  becomes the three bytes that its number has in the UTF-8 scheme;
* `isSound`: no bare control character occurs, all that is asked of a
  literal whose content nobody reads.

`ofText` is the one way in which a text is written, and `text?_ofText`
says that it reads back.
-/
import TurnRendezvous.Text.Utf8

namespace TurnRendezvous.Json

/-- One piece of a string literal. -/
inductive Piece
  /-- A character that stands for itself. -/
  | plain (c : Char)
  /-- A backslash and one letter; `c` is the character meant. -/
  | short (c : Char)
  /-- A backslash, `u` and four hexadecimal digits: one UTF-16 unit. -/
  | unit (u : UInt16)
deriving DecidableEq

/-- The pieces between the quotes. -/
abbrev Literal := List Piece

/-- The letter that stands for `c` behind a backslash. -/
def shortLetter? (c : Char) : Option Char :=
  if c = '"' then some '"'
  else if c = '\\' then some '\\'
  else if c = '\x08' then some 'b'
  else if c = '\x0c' then some 'f'
  else if c = '\n' then some 'n'
  else if c = '\x0d' then some 'r'
  else if c = '\t' then some 't'
  else none

/-- The character that the letter `c` behind a backslash stands for; a slash
may be escaped, though it never has to be. -/
def shortMeaning? (c : Char) : Option Char :=
  if c = '"' then some '"'
  else if c = '\\' then some '\\'
  else if c = '/' then some '/'
  else if c = 'b' then some '\x08'
  else if c = 'f' then some '\x0c'
  else if c = 'n' then some '\n'
  else if c = 'r' then some '\x0d'
  else if c = 't' then some '\t'
  else none

/-- Control characters are the ones below the blank. -/
def isControl (c : Char) : Bool := c.toNat < 0x20

/-- The first half of a surrogate pair. -/
def isLeading (u : UInt16) : Bool := 0xD800 ≤ u.toNat && u.toNat ≤ 0xDBFF

/-- The second half of a surrogate pair. -/
def isTrailing (u : UInt16) : Bool := 0xDC00 ≤ u.toNat && u.toNat ≤ 0xDFFF

/-- The character that a surrogate pair stands for. -/
def pairChar (u v : UInt16) : Char :=
  Char.ofNat (0x10000 + (u.toNat - 0xD800) * 0x400 + (v.toNat - 0xDC00))

/-- The three bytes of a lone surrogate. -/
def loneBytes (u : UInt16) : Bytes :=
  [UInt8.ofNat (0xE0 + u.toNat / 0x1000), UInt8.ofNat (0x80 + u.toNat / 0x40 % 0x40),
    UInt8.ofNat (0x80 + u.toNat % 0x40)]

namespace Literal

/-- The characters of the text that a literal denotes. -/
def chars? : Literal → Option (List Char)
  | [] => some []
  | .plain c :: rest => if isControl c then none else (chars? rest).map (c :: ·)
  | .short c :: rest => (chars? rest).map (c :: ·)
  | .unit u :: .unit v :: rest =>
    if isLeading u then
      if isTrailing v then (chars? rest).map (pairChar u v :: ·) else none
    else if isTrailing u then none
    else (chars? (.unit v :: rest)).map (Char.ofNat u.toNat :: ·)
  | .unit u :: rest =>
    if isLeading u || isTrailing u then none
    else (chars? rest).map (Char.ofNat u.toNat :: ·)

/-- The text that a literal denotes. -/
def text? (lit : Literal) : Option String := lit.chars?.map String.ofList

def bytes : Literal → Bytes
  | [] => []
  | .plain c :: rest => String.utf8EncodeChar c ++ bytes rest
  | .short c :: rest => String.utf8EncodeChar c ++ bytes rest
  | .unit u :: .unit v :: rest =>
    if isLeading u && isTrailing v then String.utf8EncodeChar (pairChar u v) ++ bytes rest
    else if isLeading u || isTrailing u then loneBytes u ++ bytes (.unit v :: rest)
    else String.utf8EncodeChar (Char.ofNat u.toNat) ++ bytes (.unit v :: rest)
  | .unit u :: rest =>
    if isLeading u || isTrailing u then loneBytes u ++ bytes rest
    else String.utf8EncodeChar (Char.ofNat u.toNat) ++ bytes rest

/-- Whether no bare control character occurs. -/
def isSound (lit : Literal) : Bool :=
  lit.all fun
    | .plain c => !isControl c
    | _ => true

/-- How a character is written: behind a backslash if it has a letter there,
as a unit if it is another control character, bare otherwise. -/
def ofChar (c : Char) : Piece :=
  if (shortLetter? c).isSome then .short c
  else if isControl c then .unit (UInt16.ofNat c.toNat)
  else .plain c

/-- How a text is written. -/
def ofText (s : String) : Literal := s.toList.map ofChar

end Literal

/-! ## Spelling -/

/-- A hexadecimal digit, in lower case. -/
def hexDigit (n : Nat) : Char := Char.ofNat (if n < 10 then 0x30 + n else 0x57 + n)

/-- The value of a hexadecimal digit in either case. -/
def hexValue? (c : Char) : Option Nat :=
  if '0' ≤ c && c ≤ '9' then some (c.toNat - 0x30)
  else if 'a' ≤ c && c ≤ 'f' then some (c.toNat - 0x57)
  else if 'A' ≤ c && c ≤ 'F' then some (c.toNat - 0x37)
  else none

def Piece.spell : Piece → List Char
  | .plain c => [c]
  | .short c => ['\\', (shortLetter? c).getD c]
  | .unit u =>
    ['\\', 'u', hexDigit (u.toNat / 0x1000), hexDigit (u.toNat / 0x100 % 0x10),
      hexDigit (u.toNat / 0x10 % 0x10), hexDigit (u.toNat % 0x10)]

def Literal.spell (lit : Literal) : List Char := '"' :: lit.flatMap Piece.spell ++ ['"']

/-- The unit that four hexadecimal digits spell. -/
def unitOfHex? (a b c d : Char) : Option UInt16 := do
  let a ← hexValue? a
  let b ← hexValue? b
  let c ← hexValue? c
  let d ← hexValue? d
  return UInt16.ofNat (((a * 0x10 + b) * 0x10 + c) * 0x10 + d)

/-- Reads pieces up to the closing quote, which is consumed. -/
def Literal.scan? : List Char → Option (Literal × List Char)
  | [] => none
  | '"' :: rest => some ([], rest)
  | '\\' :: 'u' :: a :: b :: c :: d :: rest => do
    let u ← unitOfHex? a b c d
    let (lit, rest) ← scan? rest
    return (.unit u :: lit, rest)
  | '\\' :: e :: rest => do
    let c ← shortMeaning? e
    let (lit, rest) ← scan? rest
    return (.short c :: lit, rest)
  | ['\\'] => none
  | c :: rest => do
    let (lit, rest) ← scan? rest
    return (.plain c :: lit, rest)

/-! ## A written text reads back -/

namespace Literal

theorem chars?_short (c : Char) (rest : Literal) :
    chars? (.short c :: rest) = (chars? rest).map (c :: ·) := by
  rw [chars?]

theorem chars?_plain {c : Char} (h : isControl c = false) (rest : Literal) :
    chars? (.plain c :: rest) = (chars? rest).map (c :: ·) := by
  rw [chars?, h]
  rfl

theorem chars?_control {c : Char} (h : isControl c = true) (rest : Literal) :
    chars? (.unit (UInt16.ofNat c.toNat) :: rest) = (chars? rest).map (c :: ·) := by
  have hlt : c.toNat < 0x20 := by simpa [isControl] using h
  have hu : (UInt16.ofNat c.toNat).toNat = c.toNat := by
    rw [UInt16.toNat_ofNat']
    omega
  have hl : isLeading (UInt16.ofNat c.toNat) = false := by
    rw [isLeading, hu, Bool.and_eq_false_iff, decide_eq_false_iff_not]
    omega
  have ht : isTrailing (UInt16.ofNat c.toNat) = false := by
    rw [isTrailing, hu, Bool.and_eq_false_iff, decide_eq_false_iff_not]
    omega
  have hk : Char.ofNat c.toNat = c := Char.ofNat_toNat c
  match rest with
  | [] => simp [chars?, hl, ht, hu, hk]
  | .plain d :: ps => rw [chars?.eq_def]; simp [hl, ht, hu, hk]
  | .short d :: ps => rw [chars?.eq_def]; simp [hl, ht, hu, hk]
  | .unit v :: ps => rw [chars?.eq_def]; simp [hl, ht, hu, hk]

theorem chars?_cons_ofChar (c : Char) (rest : Literal) :
    chars? (ofChar c :: rest) = (chars? rest).map (c :: ·) := by
  rw [ofChar]
  split
  · exact chars?_short c rest
  · split
    · next h => exact chars?_control h rest
    · next h => exact chars?_plain (Bool.eq_false_iff.2 h) rest

theorem chars?_map_ofChar (cs : List Char) : chars? (cs.map ofChar) = some cs := by
  induction cs with
  | nil => rfl
  | cons c cs ih => rw [List.map_cons, chars?_cons_ofChar, ih]; rfl

@[simp] theorem text?_ofText (s : String) : (ofText s).text? = some s := by
  simp [text?, ofText, chars?_map_ofChar]

end Literal

end TurnRendezvous.Json
