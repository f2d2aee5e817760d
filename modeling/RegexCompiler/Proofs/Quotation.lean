import RegexCompiler.Text.Quoted

/-!
# Reading quoted characters

The form of a character between apostrophes can be read back. A form of one character
stands for itself, since a backslash is never shown alone. Any other form begins with a
backslash, and what follows it is the name of a control, the character itself, or a code
point in hexadecimal digits. This holds whatever characters are shown verbatim.

No form spreads over two lines, because a line feed is always shown by its name.
-/

namespace RegexCompiler.Text

/-- The number that a hexadecimal digit stands for. -/
def hexValue (digit : Char) : Nat :=
  if digit.isDigit then digit.toNat - '0'.toNat else digit.toNat - 'a'.toNat + 10

/-- The number that hexadecimal digits stand for. -/
def hexNumber (digits : List Char) : Nat :=
  digits.foldl (fun number digit => 16 * number + hexValue digit) 0

/-- One more digit adds to sixteen times the number before it. -/
theorem hexNumber_concat (digits : List Char) (digit : Char) :
    hexNumber (digits ++ [digit]) = 16 * hexNumber digits + hexValue digit := by
  simp [hexNumber]

/-- The digits below sixteen have their values and are no line feeds. -/
theorem hexValue_digitChar (value : Nat) (small : value < 16) :
    hexValue value.digitChar = value ∧ value.digitChar ≠ '\n' := by
  revert value
  decide

/-- The digits of a number stand for the number, and none is a line feed. -/
theorem hexNumber_toDigits (number : Nat) :
    hexNumber (Nat.toDigits 16 number) = number ∧ '\n' ∉ Nat.toDigits 16 number := by
  induction number using Nat.strongRecOn with
  | ind number inductionHypothesis =>
    rw [Nat.toDigits_eq_if (by decide)]
    split
    · rename_i small
      obtain ⟨value, visible⟩ := hexValue_digitChar number small
      simp [hexNumber, value, visible.symm]
    · obtain ⟨value, visible⟩ := hexValue_digitChar (number % 16) (Nat.mod_lt _ (by decide))
      obtain ⟨before, unbroken⟩ := inductionHypothesis (number / 16) (by omega)
      refine ⟨?_, by simp [unbroken, visible.symm]⟩
      rw [hexNumber_concat, before, value]
      omega

/-- The character whose form between apostrophes is given. -/
def unescape : List Char → Char
  | ['\\', name] =>
    if name = '0' then '\x00'
    else if name = 't' then '\t'
    else if name = 'r' then '\r'
    else if name = 'n' then '\n'
    else name
  | '\\' :: 'u' :: '\x7b' :: code => .ofNat (hexNumber code.dropLast)
  | c :: _ => c
  | [] => '\x00'

/-- The form of a character between apostrophes is read back, and it has no line feed. -/
theorem unescape_escape (printable : Char → Bool) (c : Char) :
    unescape (escape printable '\x27' c).toList = c ∧
      '\n' ∉ (escape printable '\x27' c).toList := by
  by_cases nul : c = '\x00'
  · simp [escape, unescape, nul]
  by_cases tab : c = '\t'
  · simp [escape, unescape, tab]
  by_cases carriage : c = '\r'
  · simp [escape, unescape, carriage]
  by_cases lineFeed : c = '\n'
  · simp [escape, unescape, lineFeed]
  by_cases backslash : c = '\\'
  · simp [escape, unescape, backslash]
  by_cases apostrophe : c = '\x27'
  · simp [escape, unescape, apostrophe]
  by_cases verbatim : printable c
  · simp [escape, unescape, nul, tab, carriage, lineFeed, backslash, apostrophe, verbatim,
      Ne.symm lineFeed]
  · obtain ⟨code, unbroken⟩ := hexNumber_toDigits c.toNat
    simp [escape, unescape, nul, tab, carriage, lineFeed, backslash, apostrophe, verbatim,
      hexadecimal, code, unbroken]

end RegexCompiler.Text
