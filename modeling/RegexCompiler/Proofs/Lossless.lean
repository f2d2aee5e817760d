import RegexCompiler.Proofs.Acceptance
import RegexCompiler.Proofs.Determinacy

/-!
# The text of a tree

A token tells which characters it was read from. Punctuation and escapes show it by their
kind. A literal may stand for itself or come from an escape, and its span decides: an
escape is one byte longer than the character it stands for. A lone backslash at the end
stands for itself and is as long as it should be.

Reading the tokens of a tree in order, with the `-` of every range put back, therefore
gives back the pattern up to its first NUL. What is beyond the NUL leaves no trace, so
patterns have the same tree exactly if they are the same up to there.
-/

namespace RegexCompiler

/-! ### The text of a token -/

/-- The character behind the backslash of an escape that stands for `c`. -/
def escapeName (c : Char) : Char := if c = '\n' then 'n' else c

/-- The characters a token was read from. -/
def Token.source (token : Token) : List Char :=
  match token.kind with
  | .endOfInput => []
  | .escape => ['\\', token.char]
  | .literal =>
    if token.span.stop = token.span.start + token.char.utf8Size then [token.char]
    else ['\\', escapeName token.char]
  | _ => [token.char]

/-- The text of a tree: the characters of its tokens in order. -/
def Regex.unparse (regex : Regex) : String := .ofList (regex.tokens.flatMap Token.source)

/-- The characters before the first NUL. -/
def untilNul (text : List Char) : List Char := text.takeWhile fun c => c ≠ '\x00'

/-- A pattern cut before its first NUL. -/
def beforeNul (pattern : String) : String := .ofList (untilNul pattern.toList)

@[simp]
theorem untilNul_nil : untilNul [] = [] := rfl

@[simp]
theorem untilNul_nul (rest : List Char) : untilNul ('\x00' :: rest) = [] := rfl

theorem untilNul_cons {c : Char} (rest : List Char) (visible : c ≠ '\x00') :
    untilNul (c :: rest) = c :: untilNul rest := by
  simp [untilNul, visible]

/-- An escape was read from a backslash and the character after it. -/
theorem source_escapedToken (offset : Nat) (c : Char) :
    (escapedToken offset c).source = ['\\', c] := by
  by_cases punctuation : (Kind.ofPunctuation? c).isSome = true
  · have plain : c ≠ '\n' := by
      rintro rfl
      simp [Kind.ofPunctuation?] at punctuation
    simp [escapedToken, punctuation, Token.source, escapeName, plain]
  · by_cases lineFeed : c = 'n'
    · subst lineFeed
      have longer : offset + 1 + Char.utf8Size 'n' ≠ offset + Char.utf8Size '\n' := by
        have one : Char.utf8Size 'n' = 1 ∧ Char.utf8Size '\n' = 1 := by decide
        omega
      simp [escapedToken, Kind.ofPunctuation?, Token.source, escapeName, longer]
    · simp [escapedToken, punctuation, lineFeed, Token.source]

/-- A token read off a visible character as it stands was read from that character. -/
theorem source_verbatim (offset : Nat) (c : Char) :
    Token.source ⟨(Kind.ofPunctuation? c).getD .literal, c, ⟨offset, offset + c.utf8Size⟩⟩ =
      [c] := by
  have live := Kind.ofPunctuation?_ne_endOfInput c
  have unescaped : (Kind.ofPunctuation? c).getD .literal ≠ .escape := by
    unfold Kind.ofPunctuation?
    split <;> decide
  cases kind : (Kind.ofPunctuation? c).getD .literal with
  | endOfInput => exact absurd kind live
  | escape => exact absurd kind unescaped
  | literal => simp [Token.source]
  | _ => rfl

/-! ### The text of a pattern -/

/-- What follows a backslash and the backslash itself are the text of the token read
there, then what is left. -/
theorem scanEscape_source (offset : Nat) (text : List Char) :
    '\\' :: untilNul text =
      (scanEscape offset text).1.source ++ untilNul (scanEscape offset text).2 := by
  have lone : Token.source ⟨.literal, '\\', ⟨offset, offset + 1⟩⟩ = ['\\'] := by
    have one : Char.utf8Size '\\' = 1 := by decide
    simp [Token.source, one]
  cases text with
  | nil => simp [scanEscape, lone]
  | cons c rest =>
    by_cases nul : c = '\x00'
    · simp [scanEscape, nul, lone]
    · simp [scanEscape, nul, source_escapedToken, untilNul_cons rest nul]

/-- Up to a NUL, a text is the text of its first token, then what is left. -/
theorem scan_source (offset : Nat) (text : List Char) :
    untilNul text = (scan offset text).1.source ++ untilNul (scan offset text).2 := by
  cases text with
  | nil => rfl
  | cons c rest =>
    by_cases nul : c = '\x00'
    · subst nul
      rfl
    · rw [untilNul_cons rest nul]
      by_cases backslash : c = '\\'
      · simpa [scan, nul, backslash] using scanEscape_source offset rest
      · simp [scan, nul, backslash, source_verbatim]

/-- The tokens a scanner delivers spell its text up to the first NUL. -/
theorem Scanner.source_stream (scanner : Scanner) (free : scanner.held = none) :
    scanner.stream.flatMap Token.source = untilNul scanner.rest := by
  -- induction on the tokens to come, as the text itself may lose two characters at a time
  generalize counted : scanner.pending = count
  induction count using Nat.strongRecOn generalizing scanner with
  | ind count inductionHypothesis =>
    have stepped := scanner.next_pending
    have read := scanner.next_of_free free
    rw [stream_eq, List.flatMap_cons, scan_source scanner.offset scanner.rest]
    have first : scanner.next.1 = (scan scanner.offset scanner.rest).1 := by rw [read]
    by_cases ended : scanner.next.1.kind = .endOfInput
    · rw [if_pos ended, first, scan_endOfInput _ _ (first ▸ ended)]
      rfl
    · have one := scanner.next.1.weight_eq_one ended
      have later := inductionHypothesis scanner.next.2.pending (by omega) scanner.next.2
        scanner.next_held rfl
      have left : scanner.next.2.rest = (scan scanner.offset scanner.rest).2 := by rw [read]
      rw [if_neg ended, later, first, left]

/-- The tokens of a pattern spell it up to its first NUL. -/
theorem source_patternTokens (pattern : String) :
    String.ofList ((patternTokens pattern).flatMap Token.source) = beforeNul pattern := by
  obtain ⟨ending, ends, whole⟩ := (Scanner.ofPattern pattern).stream_split
  have spelled := (Scanner.ofPattern pattern).source_stream rfl
  have silent : ending.source = [] := by simp [Token.source, ends]
  rw [whole, List.flatMap_append, List.flatMap_singleton, silent, List.append_nil] at spelled
  rw [beforeNul, patternTokens, spelled]
  rfl

/-! ### Beyond a NUL -/

/-- Reading a token off a text that was cut before its first NUL gives the same token,
and what is left is cut there as well. -/
theorem scan_untilNul (offset : Nat) (text : List Char) :
    scan offset (untilNul text) =
      ((scan offset text).1, untilNul (scan offset text).2) := by
  have escaped (text : List Char) : scanEscape offset (untilNul text) =
      ((scanEscape offset text).1, untilNul (scanEscape offset text).2) := by
    cases text with
    | nil => rfl
    | cons c rest =>
      by_cases nul : c = '\x00'
      · simp [scanEscape, nul]
      · simp [scanEscape, nul, untilNul_cons rest nul]
  cases text with
  | nil => rfl
  | cons c rest =>
    by_cases nul : c = '\x00'
    · subst nul
      rfl
    · by_cases backslash : c = '\\'
      · simp [scan, backslash, untilNul_cons, escaped rest]
      · simp [scan, nul, backslash, untilNul_cons]

/-- A scanner delivers the same tokens whatever its text is beyond the first NUL. -/
theorem Scanner.stream_untilNul (text : List Char) (offset : Nat) :
    (⟨untilNul text, offset, none⟩ : Scanner).stream =
      (⟨text, offset, none⟩ : Scanner).stream := by
  generalize counted : (⟨text, offset, none⟩ : Scanner).pending = count
  induction count using Nat.strongRecOn generalizing text offset with
  | ind count inductionHypothesis =>
    have stepped := (⟨text, offset, none⟩ : Scanner).next_pending
    have whole := next_of_free ⟨text, offset, none⟩ rfl
    have cut := next_of_free ⟨untilNul text, offset, none⟩ rfl
    simp only [scan_untilNul] at whole cut
    rw [whole] at stepped
    dsimp only at stepped
    rw [stream_eq, cut, stream_eq ⟨text, offset, none⟩, whole]
    by_cases ended : (scan offset text).1.kind = .endOfInput
    · rw [if_pos ended, if_pos ended]
    · have one := (scan offset text).1.weight_eq_one ended
      rw [if_neg ended, if_neg ended, inductionHypothesis _ (by omega) _ _ rfl]

/-- Patterns that are the same up to their first NUL have the same parse. -/
theorem parseWithin_eq_of_beforeNul_eq (limit : Option Nat) (left right : String)
    (same : beforeNul left = beforeNul right) :
    parseWithin limit left = parseWithin limit right := by
  have cut : untilNul left.toList = untilNul right.toList := String.ofList_injective same
  refine parseWithin_eq_of_stream_eq limit left right ?_
  calc (Scanner.ofPattern left).stream
      = (⟨untilNul left.toList, 0, none⟩ : Scanner).stream :=
        (Scanner.stream_untilNul left.toList 0).symm
    _ = (⟨untilNul right.toList, 0, none⟩ : Scanner).stream := by rw [cut]
    _ = (Scanner.ofPattern right).stream := Scanner.stream_untilNul right.toList 0

/-! ### The text of a tree -/

/-- The text of the tree of a pattern is the pattern up to its first NUL. -/
theorem unparse_of_parse {pattern : String} {tree : Regex} (parsed : parse pattern = .ok tree) :
    tree.unparse = beforeNul pattern := by
  obtain ⟨stop, accepted⟩ := (parseWithin_eq_ok_iff _ pattern tree).mp parsed
  obtain ⟨conforms, tokens⟩ := Parser.pattern_spells nestingLimit (parsingFuel pattern) pattern
    tree stop accepted
  rw [Regex.unparse, tokens, source_patternTokens]

/-- No part of a pattern is lost in its tree. The tree has a text, which is the pattern
up to its first NUL, so accepted patterns have the same tree if and only if they are the
same up to there. -/
theorem parse_lossless :
    (∀ pattern tree, parse pattern = .ok tree → tree.unparse = beforeNul pattern) ∧
    ∀ left right leftTree rightTree, parse left = .ok leftTree → parse right = .ok rightTree →
      (leftTree = rightTree ↔ beforeNul left = beforeNul right) := by
  refine ⟨fun pattern tree => unparse_of_parse, ?_⟩
  intro left right leftTree rightTree leftParsed rightParsed
  constructor
  · intro same
    rw [← unparse_of_parse leftParsed, same, unparse_of_parse rightParsed]
  · intro same
    have parses : parse left = parse right := parseWithin_eq_of_beforeNul_eq _ left right same
    rw [leftParsed, rightParsed] at parses
    exact Except.ok.inj parses

/-- An escaped `-` as a bound, a line feed as it is, and a NUL with more behind it. -/
theorem parse_lossless_nul : ∃ tree, parse "[\\--\n]\\q\x00(" = .ok tree ∧
    parse "[\\--\n]\\q" = .ok tree ∧ tree.unparse = "[\\--\n]\\q" := by
  obtain ⟨whole, wholeParsed⟩ : ∃ tree, parse "[\\--\n]\\q\x00(" = .ok tree := ⟨_, rfl⟩
  obtain ⟨cut, cutParsed⟩ : ∃ tree, parse "[\\--\n]\\q" = .ok tree := ⟨_, rfl⟩
  have same := (parse_lossless.2 _ _ whole cut wholeParsed cutParsed).mpr (by decide)
  exact ⟨whole, wholeParsed, same ▸ cutParsed, parse_lossless.1 _ whole wholeParsed⟩

end RegexCompiler
