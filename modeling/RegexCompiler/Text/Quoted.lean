import RegexCompiler.Text.Printable

/-!
# Quoted characters and strings

A quoted text stands between two quotation marks. Inside, NUL, tab, carriage
return and line feed have short names, the backslash and the quotation mark in
use are preceded by a backslash, printable characters stand for themselves, and
every other character is given by its code point in lower-case hexadecimal
digits between braces. A mark that does not enclose the text needs no backslash.

Which characters are printable is a parameter of the escape, and of what is built
on it, so that their laws do not depend on the character tables.
-/

namespace RegexCompiler.Text

/-- Lower-case hexadecimal digits of a number, without leading zeros. -/
def hexadecimal (n : Nat) : String :=
  String.ofList (Nat.toDigits 16 n)

/-- The form of one character between two quotation marks `mark`. -/
def escape (printable : Char → Bool) (mark : Char) (c : Char) : String :=
  if c = '\x00' then "\\0"
  else if c = '\t' then "\\t"
  else if c = '\r' then "\\r"
  else if c = '\n' then "\\n"
  else if c = '\\' ∨ c = mark then "\\".push c
  else if printable c then String.singleton c
  else "\\u\x7b" ++ hexadecimal c.toNat ++ "\x7d"

/-- A character between apostrophes. -/
def quoteCharWith (printable : Char → Bool) (c : Char) : String :=
  "'" ++ escape printable '\x27' c ++ "'"

/-- A character between apostrophes, by the character tables. -/
def quoteChar (c : Char) : String := quoteCharWith isPrintable c

/-- A string between double quotation marks. -/
def quoteString (text : String) : String :=
  let inner := text.toList.foldl (fun out c => out ++ escape isPrintable '\x22' c) ""
  "\"" ++ inner ++ "\""

end RegexCompiler.Text
