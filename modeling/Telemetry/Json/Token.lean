import Telemetry.Text.Escape

/-! The tokens of a JSON text.
A text is cut into tokens by going over its characters once; what has been read of
the token under way is the mode. A number is kept as it was written. A string may
name surrogates that form no pair; such a string is a token without a text, for
there are no characters that it stands for. -/
namespace Telemetry.Json

inductive Token
  | openArr
  | closeArr
  | openObj
  | closeObj
  | colon
  | comma
  | null
  | bool (b : Bool)
  | number (lexeme : List Char)
  | str (s : Option String)
deriving DecidableEq, Repr

namespace Token

def isSpace (c : Char) : Bool :=
  c = ' ' || c = '\n' || c = '\t' || c = '\r'

def ofMark? (c : Char) : Option Token :=
  if c = '[' then some .openArr
  else if c = ']' then some .closeArr
  else if c = '\x7b' then some .openObj
  else if c = '\x7d' then some .closeObj
  else if c = ':' then some .colon
  else if c = ',' then some .comma
  else none

def ofWord? (w : List Char) : Option Token :=
  if w = "null".toList then some .null
  else if w = "true".toList then some (.bool true)
  else if w = "false".toList then some (.bool false)
  else none

/-- What follows one or more digits. -/
def afterDigits? : List Char → Option (List Char)
  | [] => none
  | c :: rest => if c.isDigit then some (rest.dropWhile Char.isDigit) else none

/-- What follows the whole part of a number, which has no zero before it. -/
def afterWhole? : List Char → Option (List Char)
  | '0' :: rest => some rest
  | cs => afterDigits? cs

/-- What follows the fraction of a number, if it has one. -/
def afterFraction? : List Char → Option (List Char)
  | '.' :: rest => afterDigits? rest
  | cs => some cs

/-- What follows the exponent of a number, if it has one. -/
def afterExponent? : List Char → Option (List Char)
  | [] => some []
  | c :: rest =>
    if c = 'e' ∨ c = 'E' then
      match rest with
      | '+' :: digits => afterDigits? digits
      | '-' :: digits => afterDigits? digits
      | digits => afterDigits? digits
    else some (c :: rest)

def unsigned : List Char → List Char
  | '-' :: rest => rest
  | cs => cs

/-- The characters are a number: a sign, a whole part, a fraction and an exponent,
of which only the whole part has to be there. -/
def isNumber (cs : List Char) : Bool :=
  (do afterExponent? (← afterFraction? (← afterWhole? (unsigned cs)))) == some []

def isNumberChar (c : Char) : Bool :=
  c.isDigit || c = '-' || c = '+' || c = '.' || c = 'e' || c = 'E'

/-- The code point that a backslash and this letter stand for. -/
def escaped? (c : Char) : Option Nat :=
  if c = '"' ∨ c = '\\' ∨ c = '/' then some c.toNat
  else if c = 'n' then some 10
  else if c = 'r' then some 13
  else if c = 't' then some 9
  else if c = 'b' then some 8
  else if c = 'f' then some 12
  else none

/-- The text of code points; a surrogate has to be the first of a pair or the second
one. -/
def ofCodes : List Nat → Option (List Char)
  | [] => some []
  | a :: rest =>
    if 0xD800 ≤ a ∧ a ≤ 0xDFFF then
      match rest with
      | [] => none
      | b :: rest =>
        if a < 0xDC00 ∧ 0xDC00 ≤ b ∧ b ≤ 0xDFFF then
          (ofCodes rest).map (Char.ofNat (0x10000 + (a - 0xD800) * 0x400 + (b - 0xDC00)) :: ·)
        else none
    else (ofCodes rest).map (Char.ofNat a :: ·)

/-- The token under way, with what has been read of it in reverse. -/
inductive Mode
  | between
  | word (before : List Char)
  | number (before : List Char)
  | text (before : List Nat)
  | escape (before : List Nat)
  /-- Digits of a code point, of which some are left. -/
  | hex (before : List Nat) (left value : Nat)
deriving DecidableEq, Repr

/-- The tokens that end where the mode stands. -/
def finish? : Mode → Option (List Token)
  | .between => some []
  | .word w => (ofWord? w.reverse).map ([·])
  | .number n => if isNumber n.reverse then some [.number n.reverse] else none
  | .text _ | .escape _ | .hex .. => none

/-- The first character of a token, or one between tokens. -/
def begin? (c : Char) : Option (List Token × Mode) :=
  if isSpace c then some ([], .between)
  else if c = '"' then some ([], .text [])
  else if c.isAlpha then some ([], .word [c])
  else if isNumberChar c then some ([], .number [c])
  else (ofMark? c).map fun t => ([t], .between)

/-- A character that does not belong to the token under way. -/
def turn? (m : Mode) (c : Char) : Option (List Token × Mode) := do
  let done ← finish? m
  let (next, m) ← begin? c
  some (done ++ next, m)

/-- The tokens that end with a character, and the mode behind it. -/
def step? : Mode → Char → Option (List Token × Mode)
  | .between, c => begin? c
  | .word w, c => if c.isAlpha then some ([], .word (c :: w)) else turn? (.word w) c
  | .number n, c => if isNumberChar c then some ([], .number (c :: n)) else turn? (.number n) c
  | .text s, c =>
    if c = '"' then some ([.str ((ofCodes s.reverse).map String.ofList)], .between)
    else if c = '\\' then some ([], .escape s)
    else if c.toNat < 32 then none
    else some ([], .text (c.toNat :: s))
  | .escape s, c =>
    if c = 'u' then some ([], .hex s 4 0) else (escaped? c).map fun n => ([], .text (n :: s))
  | .hex s left value, c =>
    (Text.hexValue? c).map fun d =>
      ([], if left ≤ 1 then .text ((16 * value + d) :: s) else .hex s (left - 1) (16 * value + d))

/-- The tokens so far, the last one first, and the mode after one more character. -/
def advance? (p : List Token × Mode) (c : Char) : Option (List Token × Mode) := do
  let (done, m) ← step? p.2 c
  some (done.reverse ++ p.1, m)

def ofText? (s : String) : Option (List Token) := do
  let (done, m) ← s.toList.foldlM advance? ([], .between)
  let last ← finish? m
  some (done.reverse ++ last)

example : ofText? "[-1.5e+3 , \"a\\u00e9\\ud83d\\ude00\"]" =
    some [.openArr, .number "-1.5e+3".toList, .comma, .str (some "aé😀"), .closeArr] := by
  decide +kernel

example : (ofText? "01", ofText? "\"\\ud83d\"") = (none, some [.str none]) := by decide +kernel

end Token
end Telemetry.Json
