import RegexCompiler.Proofs.Positions
import RegexCompiler.Proofs.TokenStream

/-!
# Tokens of texts put together

Where a text ends between two tokens, the tokens of a longer text that begins with it are
its own tokens and those of the rest, moved behind it. Two things can hide such an end: a
NUL, behind which nothing is read, and a backslash that would take the first character of
the rest along. Backslashes pair up from the left, so the last one is unpaired exactly if
the backslashes at the end of the text are odd in number.
-/

namespace RegexCompiler

/-! ### Backslashes at the end -/

/-- Number of backslashes at the end of a text. -/
def trailingBackslashes (text : List Char) : Nat :=
  (text.reverse.takeWhile fun c => c = '\\').length

/-- The backslashes at the end of a text reach into what is before it only if the text is
made of them. -/
theorem trailingBackslashes_append (front rest : List Char) :
    trailingBackslashes (front ++ rest) =
      if trailingBackslashes rest = rest.length then rest.length + trailingBackslashes front
      else trailingBackslashes rest := by
  rw [trailingBackslashes, List.reverse_append, List.takeWhile_append, List.length_reverse,
    ← trailingBackslashes]
  split
  · rw [List.length_append, List.length_reverse, trailingBackslashes]
  · rfl

/-- A front that ends in an even number of backslashes does not change whether their number
is even at the end. -/
theorem trailingBackslashes_append_mod {front : List Char} (rest : List Char)
    (even : trailingBackslashes front % 2 = 0) :
    trailingBackslashes (front ++ rest) % 2 = trailingBackslashes rest % 2 := by
  rw [trailingBackslashes_append]
  split
  · rename_i all
    omega
  · rfl

/-- A single character other than a backslash. -/
theorem trailingBackslashes_singleton {c : Char} (plain : c ≠ '\\') :
    trailingBackslashes [c] = 0 := by
  simp [trailingBackslashes, plain]

/-- A backslash and the character behind it. -/
theorem trailingBackslashes_pair (c : Char) : trailingBackslashes ['\\', c] % 2 = 0 := by
  by_cases backslash : c = '\\'
  · rw [backslash]
    rfl
  · simp [trailingBackslashes, backslash]

/-! ### One token -/

/-- Reading at another offset moves the token. -/
theorem scan_moved (offset distance : Nat) (text : List Char) :
    scan (offset + distance) text =
      ((scan offset text).1.mapPositions (· + distance), (scan offset text).2) := by
  have lone (offset : Nat) :
      (⟨.literal, '\\', ⟨offset + distance, offset + distance + 1⟩⟩ : Token) =
      Token.mapPositions (· + distance) ⟨.literal, '\\', ⟨offset, offset + 1⟩⟩ := by
    simp [Token.mapPositions, Span.mapPositions, Nat.add_right_comm]
  have escaped (text : List Char) : scanEscape (offset + distance) text =
      ((scanEscape offset text).1.mapPositions (· + distance), (scanEscape offset text).2) := by
    cases text with
    | nil => simp [scanEscape, lone]
    | cons c rest =>
      simp only [scanEscape]
      split
      · simp [lone]
      · simp only [escapedToken]
        split
        · simp [Token.mapPositions, Span.mapPositions]; omega
        · split <;> simp [Token.mapPositions, Span.mapPositions] <;> omega
  cases text with
  | nil => rfl
  | cons c rest =>
    simp only [scan]
    split
    · rfl
    · split
      · exact escaped rest
      · simp [Token.mapPositions, Span.mapPositions, Nat.add_right_comm]

/-- The first token of a text is not the end of input if a visible character is first. -/
theorem scan_kind_ne {c : Char} (offset : Nat) (rest : List Char) (visible : c ≠ '\x00') :
    (scan offset (c :: rest)).1.kind ≠ .endOfInput := by
  simp only [scan, if_neg visible]
  split
  · exact (scanEscape_progress offset rest).1
  · exact Kind.ofPunctuation?_ne_endOfInput c

/-- A text without NUL that ends in no unpaired backslash begins with a token that the rest
has no part in. What is behind the token is such a text again. -/
theorem scan_append (offset : Nat) (text : List Char) (filled : text ≠ [])
    (visible : '\x00' ∉ text) (paired : trailingBackslashes text % 2 = 0) :
    (scan offset text).1.kind ≠ .endOfInput ∧
      (∀ rest, scan offset (text ++ rest) =
        ((scan offset text).1, (scan offset text).2 ++ rest)) ∧
      '\x00' ∉ (scan offset text).2 ∧ trailingBackslashes (scan offset text).2 % 2 = 0 := by
  obtain ⟨c, others, rfl⟩ := List.exists_cons_of_ne_nil filled
  obtain ⟨notNul, visibleOthers⟩ : c ≠ '\x00' ∧ '\x00' ∉ others := by
    simpa [eq_comm] using visible
  refine ⟨scan_kind_ne offset others notNul, ?_⟩
  by_cases backslash : c = '\\'
  · subst backslash
    cases others with
    | nil => simp [trailingBackslashes] at paired
    | cons escaped behind =>
      obtain ⟨notNul', visibleBehind⟩ : escaped ≠ '\x00' ∧ '\x00' ∉ behind := by
        simpa [eq_comm] using visibleOthers
      have even := trailingBackslashes_append_mod behind (trailingBackslashes_pair escaped)
      simp only [scan, scanEscape, if_neg notNul, if_neg notNul', if_true, List.cons_append]
      exact ⟨fun _ => trivial, visibleBehind, even.symm.trans paired⟩
  · have even := trailingBackslashes_append_mod others
      (congrArg (· % 2) (trailingBackslashes_singleton backslash))
    simp only [scan, if_neg notNul, if_neg backslash, List.cons_append]
    exact ⟨fun _ => trivial, visibleOthers, even.symm.trans paired⟩

/-! ### All tokens -/

/-- Reading at another offset moves all tokens. -/
theorem lexemes_moved (offset distance : Nat) (text : List Char) :
    lexemes (offset + distance) text =
      (lexemes offset text).map (Token.mapPositions (· + distance)) := by
  generalize counted : text.length = count
  induction count using Nat.strongRecOn generalizing offset text with
  | ind count inductionHypothesis =>
    rw [lexemes_eq, lexemes_eq offset, scan_moved, Token.kind_mapPositions]
    by_cases ended : (scan offset text).1.kind = .endOfInput
    · rw [if_pos ended, if_pos ended, List.map_nil]
    · have shorter := scan_shorter offset text ended
      rw [if_neg ended, if_neg ended, List.map_cons,
        ← inductionHypothesis _ (counted ▸ shorter) _ _ rfl]
      rfl

/-- The tokens of two texts in a row, if the first ends between two tokens. -/
theorem lexemes_append (offset : Nat) (front rest : List Char) (visible : '\x00' ∉ front)
    (paired : trailingBackslashes front % 2 = 0) :
    ∃ reached, lexemes offset (front ++ rest) = lexemes offset front ++ lexemes reached rest := by
  generalize counted : front.length = count
  induction count using Nat.strongRecOn generalizing offset front with
  | ind count inductionHypothesis =>
    by_cases filled : front = []
    · subst filled
      exact ⟨offset, rfl⟩
    · obtain ⟨delivered, first, visibleBehind, pairedBehind⟩ :=
        scan_append offset front filled visible paired
      have shorter := scan_shorter offset front delivered
      obtain ⟨reached, later⟩ := inductionHypothesis _ (counted ▸ shorter)
        (scan offset front).1.span.stop _ visibleBehind pairedBehind rfl
      refine ⟨reached, ?_⟩
      rw [lexemes_eq, lexemes_eq offset front, first rest, if_neg delivered, if_neg delivered,
        later, List.cons_append]

/-- The tokens of a text that begins with a visible character other than a backslash. -/
theorem lexemes_cons {c : Char} (offset : Nat) (rest : List Char) (visible : c ≠ '\x00')
    (plain : c ≠ '\\') :
    lexemes offset (c :: rest) =
      ⟨(Kind.ofPunctuation? c).getD .literal, c, ⟨offset, offset + c.utf8Size⟩⟩ ::
        lexemes (offset + c.utf8Size) rest := by
  have read : scan offset (c :: rest) =
      (⟨(Kind.ofPunctuation? c).getD .literal, c, ⟨offset, offset + c.utf8Size⟩⟩, rest) := by
    simp only [scan, if_neg visible, if_neg plain]
  rw [lexemes_eq, read, if_neg (Kind.ofPunctuation?_ne_endOfInput c)]

/-- The tokens a scanner delivers before the end of input are those of its text. -/
theorem Scanner.takeWhile_stream (text : List Char) (offset : Nat) :
    (⟨text, offset, none⟩ : Scanner).stream.takeWhile (fun token => token.kind ≠ .endOfInput) =
      lexemes offset text := by
  generalize counted : text.length = count
  induction count using Nat.strongRecOn generalizing offset text with
  | ind count inductionHypothesis =>
    rw [stream_eq, next_of_free _ rfl, lexemes_eq]
    by_cases ended : (scan offset text).1.kind = .endOfInput
    · rw [if_pos ended, if_pos ended, List.takeWhile_cons_of_neg (by simpa using ended)]
    · have shorter := scan_shorter offset text ended
      rw [if_neg ended, if_neg ended, List.takeWhile_cons_of_pos (by simpa using ended),
        inductionHypothesis _ (counted ▸ shorter) _ _ rfl]

/-- The tokens of a pattern are those of its text. -/
theorem patternTokens_eq (pattern : String) :
    patternTokens pattern = lexemes 0 pattern.toList :=
  Scanner.takeWhile_stream pattern.toList 0

/-- The tokens of two patterns in a row, if the first ends between two tokens. -/
theorem patternTokens_append (left right : String) (visible : '\x00' ∉ left.toList)
    (paired : trailingBackslashes left.toList % 2 = 0) :
    ∃ distance, patternTokens (left ++ right) =
      patternTokens left ++ (patternTokens right).map (Token.mapPositions (· + distance)) := by
  obtain ⟨reached, split⟩ := lexemes_append 0 left.toList right.toList visible paired
  refine ⟨reached, ?_⟩
  rw [patternTokens_eq, patternTokens_eq, patternTokens_eq, String.toList_append, split,
    ← lexemes_moved, Nat.zero_add]

end RegexCompiler
