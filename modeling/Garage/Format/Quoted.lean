/-!
# Quoted text

A quoted text stands between double quotes. Quotes, backslashes and characters that cannot be seen
are escaped, so that a quoted text has no control character and ends at its first free quote.
-/

namespace Garage.Format

/-- The escaped characters past the ASCII block, as ranges with both ends. The table is made for
texts in which U+85, U+A0, U+301, U+200B, U+200D, U+2028, U+E000, U+FEFF and U+10FFFF are escaped
and é, Š, 東, 風, 🚗, 👩, 👧, “, ” and Cyrillic letters are not. It is no list of a Unicode class:
the combining marks past U+36F, for one, are not in it. -/
def invisibleRanges : List (Nat × Nat) :=
  [(0x80, 0xA0), (0xAD, 0xAD), (0x300, 0x36F), (0x61C, 0x61C), (0x1680, 0x1680), (0x180E, 0x180E),
   (0x2000, 0x200F), (0x2028, 0x202F), (0x205F, 0x206F), (0x3000, 0x3000), (0xE000, 0xF8FF),
   (0xFEFF, 0xFEFF), (0xFFF9, 0xFFFB), (0xFFFE, 0xFFFF), (0xE0000, 0xE0FFF), (0xF0000, 0x10FFFF)]

/-- The character is escaped by its code point. -/
def isInvisible (c : Char) : Bool :=
  c.toNat < 0x20 || c.toNat == 0x7F ||
    invisibleRanges.any fun (first, last) => first ≤ c.toNat && c.toNat ≤ last

/-- The form of one character inside quotes. A single quote is left alone. -/
def escape (c : Char) : List Char :=
  match c with
  | '\x00' => ['\\', '0']
  | '\t' => ['\\', 't']
  | '\r' => ['\\', 'r']
  | '\n' => ['\\', 'n']
  | '"' => ['\\', '"']
  | '\\' => ['\\', '\\']
  | c =>
    if isInvisible c then
      ['\\', 'u', '\x7b'] ++ Nat.toDigits 16 c.toNat ++ ['\x7d']
    else
      [c]

def quote (s : List Char) : List Char :=
  '"' :: s.flatMap escape ++ ['"']

end Garage.Format
