import SearchExpr.Text.Printable

/-! # Quoted text

The literal form of character and byte strings: apostrophes around the text, or double quotes when
it holds an apostrophe and no double quote; everything unprintable is escaped.
-/

namespace SearchExpr.Text

def apostrophe : Char := '\x27'

def doubleQuote : Char := '\x22'

/-- The mark that needs the fewest escapes, an apostrophe when both need some. -/
def quoteMark (s : List Char) : Char :=
  if s.contains apostrophe && !s.contains doubleQuote then doubleQuote else apostrophe

def hexDigit (n : Nat) : Char :=
  Char.ofNat (if n < 10 then 0x30 + n else 0x57 + n)

/-- The last `width` hexadecimal digits of a number. -/
def hexDigits : (width : Nat) → Nat → List Char
  | 0, _ => []
  | width + 1, n => hexDigits width (n / 16) ++ [hexDigit (n % 16)]

/-- Escapes that the literals of characters and of bytes share. -/
def shortEscape? (mark c : Char) : Option (List Char) :=
  if c == mark || c == '\\' then some ['\\', c]
  else if c == '\n' then some ['\\', 'n']
  else if c == '\r' then some ['\\', 'r']
  else if c == '\t' then some ['\\', 't']
  else none

/-- An unprintable character is written by its code, in as few digits as the code's size allows. -/
def escapeChar (mark c : Char) : List Char :=
  match shortEscape? mark c with
  | some e => e
  | none =>
    if isPrintable c then [c]
    else if c.toNat < 0x100 then '\\' :: 'x' :: hexDigits 2 c.toNat
    else if c.toNat < 0x10000 then '\\' :: 'u' :: hexDigits 4 c.toNat
    else '\\' :: 'U' :: hexDigits 8 c.toNat

def quoted (s : String) : String :=
  let mark := quoteMark s.toList
  String.ofList (mark :: s.toList.flatMap (escapeChar mark) ++ [mark])

def byteChar (b : UInt8) : Char :=
  Char.ofNat b.toNat

/-- Only the visible ASCII characters stand for themselves in a byte literal. -/
def escapeByte (mark c : Char) : List Char :=
  match shortEscape? mark c with
  | some e => e
  | none =>
    if 0x20 ≤ c.toNat && c.toNat < 0x7F then [c] else '\\' :: 'x' :: hexDigits 2 c.toNat

def quotedBytes (bytes : List UInt8) : String :=
  let s := bytes.map byteChar
  let mark := quoteMark s
  String.ofList ('b' :: mark :: s.flatMap (escapeByte mark) ++ [mark])

/-- As `quotedBytes`, with every apostrophe escaped whatever the mark. -/
def quotedMutableBytes (bytes : List UInt8) : String :=
  let s := bytes.map byteChar
  let mark := quoteMark s
  let escape (c : Char) := if c == apostrophe then ['\\', c] else escapeByte mark c
  String.ofList ('b' :: mark :: s.flatMap escape ++ [mark])

end SearchExpr.Text
