import Telemetry.Basic

/-! JSON string literals, and cutting a text so that its literal fits.
A quote, a backslash and the five control characters with a short form take two
bytes, every other control character below U+0020 takes six, and all else is
written as it is. `escapedSize` counts the bytes between the quotes, and
`cut` keeps the longest run of leading characters whose count fits. -/
namespace Telemetry.Text

/-- A digit of base sixteen, in small letters. -/
def hexDigit (n : Nat) : Char :=
  if n < 10 then Char.ofNat (48 + n) else Char.ofNat (87 + n)

/-- The value of a digit of base sixteen, in either case. -/
def hexValue? (c : Char) : Option Nat :=
  let n := c.toNat
  if 48 ≤ n ∧ n ≤ 57 then some (n - 48)
  else if 97 ≤ n ∧ n ≤ 102 then some (n - 87)
  else if 65 ≤ n ∧ n ≤ 70 then some (n - 55)
  else none

/-- What stands between the quotes of a literal for one character. -/
def escapeChar (c : Char) : List Char :=
  if c = '"' then ['\\', '"']
  else if c = '\\' then ['\\', '\\']
  else if c = '\n' then ['\\', 'n']
  else if c = '\r' then ['\\', 'r']
  else if c = '\t' then ['\\', 't']
  else if c = '\x08' then ['\\', 'b']
  else if c = '\x0c' then ['\\', 'f']
  else if c.toNat < 32 then
    ['\\', 'u', '0', '0', hexDigit (c.toNat / 16), hexDigit (c.toNat % 16)]
  else [c]

def escape (cs : List Char) : List Char :=
  cs.flatMap escapeChar

/-- The literal of these characters, quotes included. -/
def literal (cs : List Char) : List Char :=
  '"' :: (escape cs ++ ['"'])

/-- The bytes that the literal spends on one character. -/
def escapedCharSize (c : Char) : Nat :=
  if c = '"' ∨ c = '\\' ∨ c = '\n' ∨ c = '\r' ∨ c = '\t' ∨ c = '\x08' ∨ c = '\x0c' then 2
  else if c.toNat < 32 then 6
  else c.utf8Size

/-- The bytes between the quotes of the literal of these characters. -/
def escapedSizeList (cs : List Char) : Nat :=
  (cs.map escapedCharSize).sum

/-- The bytes between the quotes of the literal of a text. -/
def escapedSize (s : String) : Nat :=
  escapedSizeList s.toList

/-- The longest run of leading characters whose literal takes at most `room`
bytes between its quotes. -/
def cutList : Nat → List Char → List Char
  | _, [] => []
  | room, c :: rest =>
    if escapedCharSize c ≤ room then c :: cutList (room - escapedCharSize c) rest else []

/-- The longest beginning of a text whose literal takes at most `room` bytes
between its quotes. -/
def cut (room : Nat) (s : String) : String :=
  String.ofList (cutList room s.toList)

example : literal "a\"\n\x01é".toList = "\"a\\\"\\n\\u0001é\"".toList := by decide

example : cut 5 "a\x01b" = "a" := by decide

/-! Texts in descriptions of settings stand in quotes too, with escapes for the quote, the
backslash and the control characters. Four control characters have an escape of one letter;
the others are given by their number in base sixteen, in braces. -/

/-- The character is one of the 65 control characters. -/
def isControl (c : Char) : Bool :=
  c.toNat < 32 || (127 ≤ c.toNat && c.toNat < 160)

def shownChar (c : Char) : List Char :=
  if c = '"' ∨ c = '\\' then ['\\', c]
  else if c = '\n' then ['\\', 'n']
  else if c = '\r' then ['\\', 'r']
  else if c = '\t' then ['\\', 't']
  else if c = '\x00' then ['\\', '0']
  else if isControl c then '\\' :: 'u' :: '\x7b' :: (Nat.toDigits 16 c.toNat ++ ['\x7d'])
  else [c]

/-- The text as it stands in a description, quotes included. -/
def shown (s : String) : String :=
  String.ofList ('"' :: (s.toList.flatMap shownChar ++ ['"']))

example : shown "a\"\n\x01\x7fé" = "\"a\\\"\\n\\u\x7b1\x7d\\u\x7b7f\x7dé\"" := by decide +kernel

end Telemetry.Text
