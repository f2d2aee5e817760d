import RegexCompiler.Parser.Calls

/-!
# Parsing a pattern

Parsing runs the rules from the first token of the pattern with enough fuel for
its length. The verdict is taken out of the reply with the proof that every
reply is one, so callers see neither fuel nor faults.
-/

namespace RegexCompiler

/-- Number of groups that may be open at once. -/
def nestingLimit : Nat := 128

/-- Steps that always suffice to parse a pattern. -/
def parsingFuel (pattern : String) : Nat := 4 * pattern.length + 4

/-- The reply of the rules on a whole pattern. -/
def parseReply (limit : Option Nat) (pattern : String) : Parser.Reply Regex :=
  Parser.pattern limit (parsingFuel pattern) (.ofPattern pattern)

/-- The rules reach a verdict on every pattern, whatever the limit. -/
theorem parseReply_isSettled (limit : Option Nat) (pattern : String) :
    (parseReply limit pattern).isSettled = true := by
  have short := length_lexemes_le 0 pattern.toList
  apply Parser.pattern_isSettled
  rw [Parser.Cursor.ofPattern_pending, parsingFuel, ← String.length_toList]
  omega

/-- Parse a pattern in which at most `limit` groups are open at once, or any
number of them if there is no limit. -/
def parseWithin (limit : Option Nat) (pattern : String) : Except SyntaxError Regex :=
  (parseReply limit pattern).verdict (parseReply_isSettled limit pattern)

/-- The tree of a pattern, or the first error in it. -/
def parse (pattern : String) : Except SyntaxError Regex :=
  parseWithin (some nestingLimit) pattern

end RegexCompiler
