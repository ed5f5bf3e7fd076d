import LineCalculator.Text.Printable

/-!
# Quoted text

Messages show pieces of input between double quotes, on one line and in
printable characters only. A quote and a backslash get a backslash in
front, printable characters stay as they are, seven control characters have
a letter of their own, and everything else is spelled out in hexadecimal:
bytes and other control characters as `\x` with two digits, characters as
`\u` with four digits or `\U` with eight.
-/

namespace LineCalculator

namespace Quoted

/-- A small hexadecimal digit. -/
def hexDigit (n : Nat) : UInt8 := if n < 10 then UInt8.ofNat (48 + n) else UInt8.ofNat (87 + n)

/-- The last `width` hexadecimal digits of a number. -/
def hex : Nat → Nat → Bytes
  | 0, _ => []
  | width + 1, n => hex width (n / 16) ++ [hexDigit (n % 16)]

/-- The letter that stands for a control character behind a backslash:
alarm, backspace, form feed, newline, carriage return, tab, vertical tab. -/
def letter? (n : Nat) : Option UInt8 :=
  match n with
  | 7 => some 97
  | 8 => some 98
  | 12 => some 102
  | 10 => some 110
  | 13 => some 114
  | 9 => some 116
  | 11 => some 118
  | _ => none

/-- A backslash and a letter, then the number in hexadecimal. -/
def spelled (mark : UInt8) (width n : Nat) : Bytes := 92 :: mark :: hex width n

/-- How one character is shown. -/
def char (c : Char) : Bytes :=
  let n := c.toNat
  if n == 34 || n == 92 then 92 :: String.utf8EncodeChar c
  else if isPrintable c then String.utf8EncodeChar c
  else
    match letter? n with
    | some b => [92, b]
    | none =>
      if n < 32 || n == 127 then spelled 120 2 n
      else if n < 0x10000 then spelled 117 4 n
      else spelled 85 8 n

/-- How one rune is shown. -/
def rune : Rune → Bytes
  | .char c => char c
  | .stray b => spelled 120 2 b.toNat

end Quoted

/-- The text between double quotes, on one line and in printable characters. -/
def quoted (t : Bytes) : Bytes := 34 :: (runes t).flatMap Quoted.rune ++ [34]

end LineCalculator
