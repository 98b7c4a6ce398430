/-
# Quoted text

Text between quotes, written so that every character can be told from the
page: quotes and backslashes have a backslash in front, line ends and the
like a letter behind it, and a character that cannot be seen is written
as its number in hexadecimal between braces.
-/
import TurnRendezvous.Text.Hidden

namespace TurnRendezvous.Text

def hex (n : Nat) : String := String.ofList (Nat.toDigits 16 n)

/-- A character as it is written between quotes. -/
def quotedChar (c : Char) : String :=
  if c = '"' then "\\\""
  else if c = '\\' then "\\\\"
  else if c = '\n' then "\\n"
  else if c = '\x0d' then "\\r"
  else if c = '\t' then "\\t"
  else if c = '\x00' then "\\0"
  else if isHidden c then "\\u\x7b" ++ hex c.toNat ++ "\x7d"
  else c.toString

def quoted (s : String) : String :=
  "\"" ++ s.toList.foldl (fun acc c => acc ++ quotedChar c) "" ++ "\""

end TurnRendezvous.Text
