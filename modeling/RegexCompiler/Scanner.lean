import RegexCompiler.Token

/-!
# Reading tokens off a pattern

One step looks at the front of the remaining characters and yields a token with
the characters after it; the token ends where the next one begins. A NUL ends
the pattern where it stands, whatever follows it. A backslash takes the next
character with it, unless it is the last character before the end of the
pattern, where it is a literal backslash.

A scanner repeats this step. It also keeps room for one token handed back by its
reader, which is delivered before anything else and leaves the position
untouched. Handing back a second token while the first still waits is refused.
-/

namespace RegexCompiler

/-- The token made of a backslash at `offset` and the character `c` after it.
Punctuation becomes literal, `n` stands for a line feed, and any other character
is carried along as an escape. -/
def escapedToken (offset : Nat) (c : Char) : Token :=
  let span : Span := ⟨offset, offset + 1 + c.utf8Size⟩
  if (Kind.ofPunctuation? c).isSome then ⟨.literal, c, span⟩
  else if c = 'n' then ⟨.literal, '\n', span⟩
  else ⟨.escape, c, span⟩

/-- Read what follows a backslash at `offset`. Before the end of the pattern the
backslash stands for itself. -/
def scanEscape (offset : Nat) : List Char → Token × List Char
  | [] => (⟨.literal, '\\', ⟨offset, offset + 1⟩⟩, [])
  | c :: rest =>
    if c = '\x00' then (⟨.literal, '\\', ⟨offset, offset + 1⟩⟩, [])
    else (escapedToken offset c, rest)

/-- Take one token off a text that begins at `offset`. The characters returned
with it begin where its span stops; none are left once the end is reached. -/
def scan (offset : Nat) : List Char → Token × List Char
  | [] => (.endOfInput offset, [])
  | c :: rest =>
    if c = '\x00' then (.endOfInput offset, [])
    else if c = '\\' then scanEscape offset rest
    else (⟨(Kind.ofPunctuation? c).getD .literal, c, ⟨offset, offset + c.utf8Size⟩⟩, rest)

/-- No punctuation character has the kind of the end of input. -/
theorem Kind.ofPunctuation?_ne_endOfInput (c : Char) :
    (Kind.ofPunctuation? c).getD .literal ≠ .endOfInput := by
  unfold Kind.ofPunctuation?
  split <;> decide

/-- An escaped character is never the end of input. -/
theorem escapedToken_kind_ne (offset : Nat) (c : Char) :
    (escapedToken offset c).kind ≠ .endOfInput := by
  simp only [escapedToken]
  split
  · simp
  · split <;> simp

/-- A backslash always yields a token, and never gives characters back. -/
theorem scanEscape_progress (offset : Nat) (text : List Char) :
    (scanEscape offset text).1.kind ≠ .endOfInput ∧
      (scanEscape offset text).2.length ≤ text.length := by
  cases text with
  | nil => simp [scanEscape]
  | cons c rest =>
    simp only [scanEscape]
    split
    · simp
    · exact ⟨escapedToken_kind_ne offset c, Nat.le_succ _⟩

/-- Every token but the end of input uses up at least one character. -/
theorem scan_shorter (offset : Nat) (text : List Char)
    (delivered : (scan offset text).1.kind ≠ .endOfInput) :
    (scan offset text).2.length < text.length := by
  cases text with
  | nil => exact absurd rfl delivered
  | cons c rest =>
    simp only [scan] at delivered ⊢
    split
    · simp
    · split
      · exact Nat.lt_succ_of_le (scanEscape_progress offset rest).2
      · exact Nat.lt_succ_self _

/-- The end of input leaves no characters and stands where it was looked for. -/
theorem scan_endOfInput (offset : Nat) (text : List Char)
    (ended : (scan offset text).1.kind = .endOfInput) :
    scan offset text = (.endOfInput offset, []) := by
  cases text with
  | nil => rfl
  | cons c rest =>
    simp only [scan] at ended ⊢
    split
    · rfl
    · rename_i notNul
      rw [if_neg notNul] at ended
      split
      · rename_i backslash
        rw [if_pos backslash] at ended
        exact absurd ended (scanEscape_progress offset rest).1
      · rename_i notBackslash
        rw [if_neg notBackslash] at ended
        exact absurd ended (Kind.ofPunctuation?_ne_endOfInput c)

/-- At most `fuel` tokens of a text that begins at `offset`, without the end of
input. -/
def lexemesWithin : Nat → Nat → List Char → List Token
  | 0, _, _ => []
  | fuel + 1, offset, text =>
    let scanned := scan offset text
    if scanned.1.kind = .endOfInput then []
    else scanned.1 :: lexemesWithin fuel scanned.1.span.stop scanned.2

/-- All tokens of a text that begins at `offset`, without the end of input. As
each token takes a character, the length of the text bounds their number. -/
def lexemes (offset : Nat) (text : List Char) : List Token :=
  lexemesWithin text.length offset text

/-- Fuel beyond the length of the text changes nothing. -/
theorem lexemesWithin_eq_lexemes (fuel offset : Nat) (text : List Char)
    (enough : text.length ≤ fuel) : lexemesWithin fuel offset text = lexemes offset text := by
  unfold lexemes
  induction fuel using Nat.strongRecOn generalizing offset text with
  | ind fuel inductionHypothesis =>
    cases fuel with
    | zero =>
      have empty : text.length = 0 := Nat.le_zero.mp enough
      rw [empty]
    | succ fuel =>
      cases text with
      | nil => rfl
      | cons c tail =>
        simp only [List.length_cons, lexemesWithin]
        split
        · rfl
        · rename_i delivered
          have shorter := scan_shorter offset (c :: tail) delivered
          simp only [List.length_cons] at shorter enough
          rw [inductionHypothesis fuel (Nat.lt_succ_self fuel) _ _ (by omega),
            inductionHypothesis tail.length (by omega) _ _ (by omega)]

/-- The tokens of a text are its first token, unless it is the end, and the
tokens of the rest. -/
theorem lexemes_eq (offset : Nat) (text : List Char) :
    lexemes offset text =
      if (scan offset text).1.kind = .endOfInput then []
      else (scan offset text).1 ::
        lexemes (scan offset text).1.span.stop (scan offset text).2 := by
  rw [← lexemesWithin_eq_lexemes (text.length + 1) offset text (Nat.le_succ _), lexemesWithin]
  split
  · rfl
  · rename_i delivered
    have shorter := scan_shorter offset text delivered
    rw [lexemesWithin_eq_lexemes _ _ _ (by omega)]

/-- A text has no more tokens than characters. -/
theorem length_lexemes_le (offset : Nat) (text : List Char) :
    (lexemes offset text).length ≤ text.length := by
  have within : ∀ fuel offset text, (lexemesWithin fuel offset text).length ≤ fuel := by
    intro fuel
    induction fuel with
    | zero => intro offset text; exact Nat.le_refl 0
    | succ fuel inductionHypothesis =>
      intro offset text
      rw [lexemesWithin]
      split
      · exact Nat.zero_le _
      · exact Nat.succ_le_succ (inductionHypothesis _ _)
  exact within _ _ _

/-- The characters still to be read, the byte offset of the first of them, and a
token that was handed back. -/
structure Scanner where
  rest : List Char
  offset : Nat
  held : Option Token

namespace Scanner

/-- A scanner at the beginning of a pattern. -/
def ofPattern (pattern : String) : Scanner := ⟨pattern.toList, 0, none⟩

/-- The one way to misuse a scanner. -/
inductive Misuse where
  | slotTaken
  deriving DecidableEq

/-- What is reported about a misuse. -/
def Misuse.message : Misuse → String
  | .slotTaken => "only one token of pushback"

/-- Deliver the token that was handed back, or else read one. At the end of the
pattern every call delivers the same end of input. -/
def next (scanner : Scanner) : Token × Scanner :=
  match scanner.held with
  | some token => (token, ⟨scanner.rest, scanner.offset, none⟩)
  | none =>
    let scanned := scan scanner.offset scanner.rest
    (scanned.1, ⟨scanned.2, scanned.1.span.stop, none⟩)

/-- Hand a token back, to be delivered next. There is room for one. -/
def pushback (scanner : Scanner) (token : Token) : Except Misuse Scanner :=
  match scanner.held with
  | some _ => .error .slotTaken
  | none => .ok ⟨scanner.rest, scanner.offset, some token⟩

/-- Deliver tokens until the first end of input, which is the last of them. -/
def drainWithin : Nat → List Token → Scanner → List Token × Scanner
  | 0, found, scanner => (found.reverse, scanner)
  | fuel + 1, found, scanner =>
    let delivered := scanner.next
    if delivered.1.kind = .endOfInput then ((delivered.1 :: found).reverse, delivered.2)
    else drainWithin fuel (delivered.1 :: found) delivered.2

/-- Every token up to and including the first end of input, and the scanner that
delivered them. One step a character, one for a token handed back and one for
the end of input are always enough. -/
def drain (scanner : Scanner) : List Token × Scanner :=
  drainWithin (scanner.rest.length + 2) [] scanner

end Scanner

end RegexCompiler
