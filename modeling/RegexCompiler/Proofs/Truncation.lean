import RegexCompiler.Compiled
import RegexCompiler.Proofs.Tokenization

/-!
# What is behind a NUL

A scanner may be asked for tokens without end. Up to the end of input it delivers the
tokens of its text, and from then on the same end of input each time, so what it ever
delivers is settled by its stream.

A pattern that goes on behind a NUL therefore cannot be told from the pattern before the
NUL. The scanner delivers the same tokens for both at every call, also where a backslash
stands right before the NUL, and parsing, compiling and writing out the results depend on
these tokens alone.
-/

namespace RegexCompiler

/-! ### Calls without end -/

/-- The token of a call, the first being call zero. -/
def Scanner.delivery (scanner : Scanner) : Nat → Token
  | 0 => scanner.next.1
  | call + 1 => scanner.next.2.delivery call

/-- Once a scanner without a token handed back has delivered the end of input, it has nothing
else to deliver. -/
theorem Scanner.stream_of_ended (scanner : Scanner) (free : scanner.held = none)
    (ended : scanner.next.1.kind = .endOfInput) : scanner.next.2.stream = [scanner.next.1] := by
  rw [next_of_free scanner free] at ended ⊢
  rw [scan_endOfInput _ _ ended]
  rfl

/-- A scanner delivers the tokens of its stream, and the last of them again and again. -/
theorem Scanner.delivery_eq (scanner : Scanner) (free : scanner.held = none)
    (tokens : List Token) (ending : Token) (stream : scanner.stream = tokens ++ [ending])
    (call : Nat) : scanner.delivery call = tokens[call]?.getD ending := by
  induction call generalizing scanner tokens with
  | zero =>
    rw [stream_eq] at stream
    cases tokens with
    | nil => exact (List.cons.inj stream).1
    | cons token later => exact (List.cons.inj stream).1
  | succ call inductionHypothesis =>
    rw [delivery]
    have followed := stream
    rw [stream_eq] at followed
    cases tokens with
    | nil =>
      obtain ⟨last, rest⟩ := List.cons.inj followed
      have ended : scanner.next.1.kind = .endOfInput := by
        by_contra delivered
        rw [if_neg delivered, stream_eq] at rest
        exact List.cons_ne_nil _ _ rest
      exact inductionHypothesis scanner.next.2 scanner.next_held []
        (by rw [scanner.stream_of_ended free ended, last]; rfl)
    | cons token later =>
      obtain ⟨first, rest⟩ := List.cons.inj followed
      have delivered : scanner.next.1.kind ≠ .endOfInput := by
        intro ended
        rw [if_pos ended] at rest
        simp at rest
      rw [if_neg delivered] at rest
      simpa using inductionHypothesis scanner.next.2 scanner.next_held later rest

/-- What a scanner at the beginning of a pattern ever delivers. -/
theorem delivery_ofPattern (pattern : String) (call : Nat) :
    (Scanner.ofPattern pattern).delivery call =
      (patternTokens pattern)[call]?.getD (.endOfInput (beforeNul pattern).utf8ByteSize) :=
  Scanner.delivery_eq _ rfl _ _ (stream_ofPattern pattern) call

/-! ### Patterns that go on behind a NUL -/

/-- A front without NUL is not cut. -/
theorem untilNul_append {front : List Char} (visible : '\x00' ∉ front) (rest : List Char) :
    untilNul (front ++ rest) = front ++ untilNul rest := by
  have all : ∀ c ∈ front, decide (c ≠ '\x00') = true := by
    intro c present
    have notNul : c ≠ '\x00' := by
      rintro rfl
      exact visible present
    simpa using notNul
  rw [untilNul, List.takeWhile_append_of_pos all, ← untilNul]

/-- A pattern without NUL is not cut. -/
theorem beforeNul_eq_self {front : String} (visible : '\x00' ∉ front.toList) :
    beforeNul front = front := by
  have cut := untilNul_append visible []
  rw [List.append_nil, untilNul_nil, List.append_nil] at cut
  rw [beforeNul, cut, String.ofList_toList]

/-- A pattern that goes on behind its first NUL is cut right before it. -/
theorem beforeNul_append {front : String} (visible : '\x00' ∉ front.toList) (beyond : String) :
    beforeNul (front ++ "\x00" ++ beyond) = front := by
  have cut := untilNul_append visible ('\x00' :: beyond.toList)
  rw [untilNul_nul, List.append_nil] at cut
  rw [beforeNul, String.toList_append, String.toList_append, List.append_assoc]
  exact (congrArg String.ofList cut).trans String.ofList_toList

/-- A pattern has the tokens it has before its first NUL. -/
theorem patternTokens_beforeNul (pattern : String) :
    patternTokens (beforeNul pattern) = patternTokens pattern := by
  rw [patternTokens_eq, patternTokens_eq, beforeNul, String.toList_ofList, lexemes_untilNul]

/-- What stands behind a NUL has no effect. At every call the scanner delivers the token it
delivers for the pattern before the NUL; from some call on, that is the end of input behind
the last byte of that pattern. Both patterns have the same tree or the same error, the same
program, the same listing and the same outline. -/
theorem compile_truncates (front beyond : String) (visible : '\x00' ∉ front.toList) :
    (∀ call, (Scanner.ofPattern (front ++ "\x00" ++ beyond)).delivery call =
      (Scanner.ofPattern front).delivery call) ∧
    (∀ call, (Scanner.ofPattern front).delivery call =
      (patternTokens front)[call]?.getD (.endOfInput front.utf8ByteSize)) ∧
    parse (front ++ "\x00" ++ beyond) = parse front ∧
    compile (front ++ "\x00" ++ beyond) = compile front ∧
    (Compiled.ofPattern (front ++ "\x00" ++ beyond)).map Compiled.listing =
      (Compiled.ofPattern front).map Compiled.listing ∧
    (Compiled.ofPattern (front ++ "\x00" ++ beyond)).map Compiled.outlineText =
      (Compiled.ofPattern front).map Compiled.outlineText := by
  have same : beforeNul (front ++ "\x00" ++ beyond) = beforeNul front := by
    rw [beforeNul_append visible, beforeNul_eq_self visible]
  have tokens : patternTokens (front ++ "\x00" ++ beyond) = patternTokens front := by
    rw [← patternTokens_beforeNul, same, patternTokens_beforeNul]
  have parses : parse (front ++ "\x00" ++ beyond) = parse front :=
    parseWithin_eq_of_beforeNul_eq _ _ _ same
  refine ⟨?_, ?_, parses, ?_, ?_, ?_⟩
  · intro call
    rw [delivery_ofPattern, delivery_ofPattern, tokens, same]
  · intro call
    rw [delivery_ofPattern, beforeNul_eq_self visible]
  all_goals
    simp only [compile, Compiled.ofPattern, parses]
    cases parse front <;> rfl

/-- A backslash before the NUL, and an unclosed group behind it. -/
theorem compile_truncates_backslash :
    (∀ call, (Scanner.ofPattern "a\\\x00(").delivery call =
      (Scanner.ofPattern "a\\").delivery call) ∧
    (Scanner.ofPattern "a\\\x00(").delivery 1 = ⟨.literal, '\\', ⟨1, 2⟩⟩ ∧
    (Scanner.ofPattern "a\\\x00(").delivery 7 = .endOfInput 2 ∧
    compile "a\\\x00(" = .ok ⟨#[.char 'a', .char '\\', .accept], 0⟩ := by
  obtain ⟨same, delivered, _, compiled, _⟩ := compile_truncates "a\\" "(" (by decide)
  have whole : "a\\" ++ "\x00" ++ "(" = "a\\\x00(" := by decide
  rw [whole] at same compiled
  refine ⟨same, ?_, ?_, compiled.trans ?_⟩
  · rw [same, delivered]
    decide
  · rw [same, delivered]
    decide
  · rfl

end RegexCompiler
