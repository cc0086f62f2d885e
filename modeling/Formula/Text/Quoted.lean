import Formula.Text.Printable

/-!
# Quoted text

A quoted text stands between two delimiters, on one line and in printable characters only. The
delimiter is the apostrophe, or the double quote for a text that holds an apostrophe and no double
quote. The delimiter and the backslash are preceded by a backslash; tab, line feed and carriage
return have a letter each; any other character that is not printable is given by the number of its
code point, in two, four or eight hexadecimal digits.
-/

namespace Formula.Text

/-- The apostrophe, the usual delimiter. -/
def apostrophe : Char := '\x27'

/-- The delimiter of a quoted text. -/
def delimiter (text : List Char) : Char :=
  if apostrophe ∈ text ∧ '"' ∉ text then '"' else apostrophe

/-- A number in lower-case hexadecimal, filled up with zeros to a width. -/
def hexadecimal (width n : Nat) : List Char :=
  let digits := Nat.toDigits 16 n
  List.replicate (width - digits.length) '0' ++ digits

/-- A character given by its number, in the shortest of the three widths. -/
def numbered (c : Char) : List Char :=
  let n := c.toNat
  if n < 0x100 then '\\' :: 'x' :: hexadecimal 2 n
  else if n < 0x10000 then '\\' :: 'u' :: hexadecimal 4 n
  else '\\' :: 'U' :: hexadecimal 8 n

/-- How a character is written between two delimiters. -/
def quotedChar (delimiter c : Char) : List Char :=
  if c = delimiter ∨ c = '\\' then ['\\', c]
  else if c = '\t' then ['\\', 't']
  else if c = '\n' then ['\\', 'n']
  else if c = '\r' then ['\\', 'r']
  else if isPrintable c then [c]
  else numbered c

/-- The quoted form of a text. -/
def quoted (text : List Char) : List Char :=
  let d := delimiter text
  d :: text.flatMap (quotedChar d) ++ [d]

/-- The quoted form of a string. -/
def quote (s : String) : String := String.ofList (quoted s.toList)

end Formula.Text
