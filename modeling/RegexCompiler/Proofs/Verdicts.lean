import RegexCompiler.Proofs.Rejection
import RegexCompiler.Proofs.Tokenization

/-!
# What settles the verdict on a pattern

The automaton for viable kinds gives the same verdict as the parser. It gets through all
tokens of a pattern that is accepted, and it gets stuck at one token of a pattern that is
rejected, at a stage that refuses this token with the error of the parse. As the automaton
is deterministic there is no more than one such token, so the error depends on the tokens
up to this one and on nothing behind it.

This carries over from tokens to texts. A token that is refused is no literal, so it is
not a backslash at the end of the pattern, and neither is any token before it. Whatever
is written behind the refused token, the tokens up to it are read as before.
-/

namespace RegexCompiler

/-! ### The automaton and the parser -/

/-- A pattern that is accepted leads the automaton through all of its tokens. -/
theorem Parser.pattern_walks (limit : Option Nat) (fuel : Nat) (text : String) (tree : Regex)
    (stop : Cursor) (accepted : pattern limit fuel (.ofPattern text) = .accepted tree stop) :
    ∃ reached, Stage.initial.walk limit ((Cursor.ofPattern text).stream.map Token.kind) =
      some reached := by
  have begins : Awaits Stage.initial (.ofPattern text) := ⟨rfl, .inl rfl, fun _ => rfl⟩
  have tracked := (rulesTrack limit fuel).regex [] (.ofPattern text) Stage.initial
    (Scanner.next_held _) (Cursor.ofPattern_tidy text) begins
  obtain ⟨found, after, reply, closing⟩ := Reply.andThen_eq_accepted accepted
  obtain ⟨last, beyond, expected, _⟩ := Reply.andThen_eq_accepted closing
  rw [reply] at tracked
  obtain ⟨_, consumed, reached, split, walked, awaits, depth, _⟩ := tracked
  have ended : after.token.kind = .endOfInput := Cursor.expect_eq_accepted expected
  have stream : after.stream = [after.token] := by simp [Cursor.stream, ended]
  have ends : reached.step limit after.token.kind = some ⟨0, .finished⟩ := by
    rw [awaits.step_eq, ended, depth]
    rfl
  refine ⟨⟨0, .finished⟩, ?_⟩
  rw [split, stream, List.map_append]
  exact Stage.walk_trans walked (Stage.walk_step ends rfl)

/-- The tokens before lead the automaton to a stage that refuses the token. -/
def Halts (limit : Option Nat) (before : List Token) (token : Token) (error : SyntaxError) :
    Prop :=
  ∃ stage, Stage.initial.walk limit (before.map Token.kind) = some stage ∧
    stage.Refuses limit token error

/-- Where the automaton halts, the error is about the token there. -/
theorem Halts.error_eq {limit : Option Nat} {before : List Token} {token : Token}
    {error : SyntaxError} (halts : Halts limit before token error) :
    error = .ofToken error.expected token := by
  obtain ⟨_, _, refused⟩ := halts
  rw [refused.error_eq]
  rfl

/-- Where the automaton halts it does not get through the token. -/
theorem Halts.walk_eq_none {limit : Option Nat} {before : List Token} {token : Token}
    {error : SyntaxError} (halts : Halts limit before token error) :
    Stage.initial.walk limit ((before ++ [token]).map Token.kind) = none := by
  obtain ⟨stage, walked, refused⟩ := halts
  rw [List.map_append, Stage.walk_append, walked]
  simp [refused.stuck]

/-- Where the automaton halts it gets through no tokens that begin with those up to
there. -/
theorem Halts.not_isPrefix {limit : Option Nat} {before longer : List Token} {token : Token}
    {error : SyntaxError} {reached : Stage} (halts : Halts limit before token error)
    (walked : Stage.initial.walk limit (longer.map Token.kind) = some reached) :
    ¬ before ++ [token] <+: longer := by
  intro begins
  obtain ⟨middle, through⟩ := Stage.walk_of_isPrefix (begins.map Token.kind) walked
  exact Option.some_ne_none _ (through.symm.trans halts.walk_eq_none)

/-- The automaton halts on a list of tokens in one place, with one error. -/
theorem Halts.unique {limit : Option Nat} {before before' after after' : List Token}
    {token token' : Token} {error error' : SyntaxError} (halts : Halts limit before token error)
    (halts' : Halts limit before' token' error')
    (same : before ++ token :: after = before' ++ token' :: after') :
    before = before' ∧ token = token' ∧ error = error' := by
  have notLonger {left right back back' : List Token} {first second : Token} {fault : SyntaxError}
      {reached : Stage} (halts : Halts limit left first fault)
      (walked : Stage.initial.walk limit (right.map Token.kind) = some reached)
      (same : left ++ first :: back = right ++ second :: back') : right.length ≤ left.length := by
    by_contra longer
    have begins : left ++ [first] <+: left ++ first :: back := ⟨back, by simp⟩
    have begins' : right <+: left ++ first :: back := same ▸ List.prefix_append right _
    refine halts.not_isPrefix walked (List.prefix_of_prefix_length_le begins begins' ?_)
    simp only [List.length_append, List.length_singleton]
    omega
  obtain ⟨stage, walked, refused⟩ := halts
  obtain ⟨stage', walked', refused'⟩ := halts'
  have length : before.length = before'.length :=
    Nat.le_antisymm (notLonger ⟨stage', walked', refused'⟩ walked same.symm)
      (notLonger ⟨stage, walked, refused⟩ walked' same)
  obtain ⟨rfl, tail⟩ := List.append_inj same length
  obtain ⟨rfl, _⟩ := List.cons.inj tail
  obtain rfl : stage = stage' := Option.some.inj (walked.symm.trans walked')
  exact ⟨rfl, rfl, refused.error_eq.trans refused'.error_eq.symm⟩

/-- Parsing fails with an error if and only if the automaton halts with it at some token of
the pattern. -/
theorem parseWithin_eq_error_iff_halts (limit : Option Nat) (pattern : String)
    (error : SyntaxError) :
    parseWithin limit pattern = .error error ↔ ∃ before token after,
      (Scanner.ofPattern pattern).stream = before ++ token :: after ∧
        Halts limit before token error := by
  have halting {error : SyntaxError} (failed : parseWithin limit pattern = .error error) :
      ∃ before token after, (Scanner.ofPattern pattern).stream = before ++ token :: after ∧
        Halts limit before token error := by
    obtain ⟨stop, rejected⟩ := (parseWithin_eq_error_iff limit pattern error).mp failed
    obtain ⟨consumed, reached, split, walked, refused⟩ :=
      Parser.pattern_refuses limit _ pattern error stop rejected
    rw [Parser.Cursor.ofPattern_stream] at split
    exact ⟨consumed, stop.token, _, split, reached, walked, refused⟩
  refine ⟨halting, ?_⟩
  rintro ⟨before, token, after, split, halts⟩
  cases verdict : parseWithin limit pattern with
  | ok tree =>
    obtain ⟨stop, accepted⟩ := (parseWithin_eq_ok_iff limit pattern tree).mp verdict
    obtain ⟨reached, walked⟩ := Parser.pattern_walks limit _ pattern tree stop accepted
    rw [Parser.Cursor.ofPattern_stream, split] at walked
    exact absurd ⟨after, by simp⟩ (halts.not_isPrefix walked)
  | error found =>
    obtain ⟨before', token', after', split', halts'⟩ := halting verdict
    obtain ⟨_, _, rfl⟩ := halts'.unique halts (split'.symm.trans split)
    rfl

/-! ### Tokens in front of any text -/

/-- A literal stands at every stage before the end of input. -/
theorem Stage.Refuses.kind_ne_literal {limit : Option Nat} {stage : Stage} {token : Token}
    {error : SyntaxError} (refused : stage.Refuses limit token error) :
    token.kind ≠ .literal := by
  intro literal
  have stuck := refused.stuck
  rw [literal] at stuck
  rcases stage.mode.outside_or_inside refused.unfinished with outside | inside
  · rw [step_outside outside (by decide)] at stuck
    simp [outsideStep] at stuck
  · rw [step_inside inside (by decide)] at stuck
    simp [insideStep] at stuck

/-- A backslash on its own spells a literal. -/
theorem Spelling.kind_of_lone {slice : List Char} {kind : Kind} {c : Char}
    (spelling : Spelling slice kind c) (lone : slice = ['\\']) : kind = .literal := by
  cases spelling with
  | punctuation listed =>
    obtain rfl := List.singleton_inj.mp lone
    simp [Kind.punctuation] at listed
  | plain | backslash => rfl
  | quoted | lineFeed | escape => simp at lone

/-- The first token of a text is spelled by what the text begins with, and the other tokens
are those of the rest. -/
theorem exists_slice_of_lexemes {offset : Nat} {text : List Char} {token : Token}
    {later : List Token} (visible : '\x00' ∉ text)
    (read : lexemes offset text = token :: later) :
    ∃ slice rest, text = slice ++ rest ∧ Spelling slice token.kind token.char ∧
      (slice = ['\\'] → rest = []) ∧ token.span = ⟨offset, offset + byteLength slice⟩ ∧
      lexemes (offset + byteLength slice) rest = later := by
  have filled : text ≠ [] := by
    rintro rfl
    simp [lexemes, lexemesWithin] at read
  obtain ⟨slice, rest, kind, c, rfl, spelling, alone⟩ := exists_spelling filled visible
  rw [spelling.lexemes_eq offset rest alone] at read
  obtain ⟨rfl, others⟩ := List.cons.inj read
  exact ⟨slice, rest, rfl, spelling, alone, rfl, others⟩

/-- A text that begins with the spelling of a token begins with this token, where it
stands. -/
theorem Spelling.lexemes_eq_cons {slice : List Char} {token : Token} {offset : Nat}
    (spelling : Spelling slice token.kind token.char)
    (span : token.span = ⟨offset, offset + byteLength slice⟩) (rest : List Char)
    (alone : slice = ['\\'] → rest = []) :
    lexemes offset (slice ++ rest) = token :: lexemes token.span.stop rest := by
  obtain ⟨kind, c, _⟩ := token
  obtain rfl := span
  exact spelling.lexemes_eq offset rest alone

/-- Up to a token that is no literal, the tokens of a text are read alike whatever is
written behind that token. -/
theorem lexemes_up_to {offset : Nat} {text : List Char} {before after : List Token}
    {token : Token} (visible : '\x00' ∉ text)
    (split : lexemes offset text = before ++ token :: after) (unlike : token.kind ≠ .literal) :
    ∃ front behind, text = front ++ behind ∧ token.span.stop = offset + byteLength front ∧
      ∀ rest, lexemes offset (front ++ rest) =
        before ++ token :: lexemes token.span.stop rest := by
  induction before generalizing offset text with
  | nil =>
    obtain ⟨slice, behind, rfl, spelling, _, span, _⟩ := exists_slice_of_lexemes visible split
    refine ⟨slice, behind, rfl, by rw [span], fun rest => ?_⟩
    exact spelling.lexemes_eq_cons span rest fun lone =>
      absurd (spelling.kind_of_lone lone) unlike
  | cons first others inductionHypothesis =>
    obtain ⟨slice, behind, rfl, spelling, alone, span, later⟩ :=
      exists_slice_of_lexemes visible split
    -- a backslash on its own would end the text, and there is another token behind it
    have paired : slice ≠ ['\\'] := by
      intro lone
      rw [alone lone] at later
      simp [lexemes, lexemesWithin] at later
    obtain ⟨front, tail, rfl, stop, read⟩ := inductionHypothesis
      (fun present => visible (List.mem_append_right _ present)) later
    refine ⟨slice ++ front, tail, (List.append_assoc _ _ _).symm, ?_, fun rest => ?_⟩
    · rw [stop, byteLength_append, Nat.add_assoc]
    · rw [List.append_assoc, spelling.lexemes_eq_cons span _ fun lone => absurd lone paired, span,
        read, List.cons_append]

/-- Up to a token that is neither a literal nor the end of input, a scanner delivers the
same tokens whatever is written behind that token. -/
theorem stream_up_to {pattern : String} {before after : List Token} {token : Token}
    (split : (Scanner.ofPattern pattern).stream = before ++ token :: after)
    (unlike : token.kind ≠ .literal) (live : token.kind ≠ .endOfInput) :
    ∃ front behind, pattern = front ++ behind ∧ front.utf8ByteSize = token.span.stop ∧
      ∀ rest, ∃ later, (Scanner.ofPattern (front ++ rest)).stream = before ++ token :: later := by
  rw [stream_ofPattern, patternTokens_eq, ← lexemes_untilNul] at split
  -- the end of input is the last token only, so it is not the one in question
  obtain ⟨tail, tokens⟩ : ∃ tail,
      lexemes 0 (untilNul pattern.toList) = before ++ token :: tail := by
    rcases List.eq_nil_or_concat after with rfl | ⟨tail, last, rfl⟩
    · obtain ⟨_, same⟩ := List.append_inj' split rfl
      obtain rfl := List.singleton_inj.mp same
      exact absurd rfl live
    · rw [List.concat_eq_append, ← List.cons_append, ← List.append_assoc] at split
      exact ⟨tail, List.append_inj_left' split rfl⟩
  obtain ⟨front, behind, cut, stop, read⟩ :=
    lexemes_up_to (nul_not_mem_untilNul pattern.toList) tokens unlike
  have whole : pattern.toList =
      front ++ (behind ++ pattern.toList.dropWhile fun c => c ≠ '\x00') := by
    rw [← List.append_assoc, ← cut]
    exact List.takeWhile_append_dropWhile.symm
  refine ⟨.ofList front, .ofList (behind ++ pattern.toList.dropWhile fun c => c ≠ '\x00'), ?_, ?_,
    fun rest => ?_⟩
  · exact String.toList_inj.mp (by simpa using whole)
  · rw [stop, Nat.zero_add]
    rfl
  · rw [stream_ofPattern, patternTokens_eq, String.toList_append, String.toList_ofList, read]
    exact ⟨_, List.append_assoc _ _ _⟩

/-- An error at a token other than the end of input does not depend on what is written
behind this token. The bytes of the pattern up to the end of the token can be told apart,
and followed by anything else they fail to parse with the same error. -/
theorem parse_error_extends (pattern : String) (error : SyntaxError)
    (failed : parse pattern = .error error) (live : error.found ≠ .endOfInput) :
    ∃ front behind, pattern = front ++ behind ∧ front.utf8ByteSize = error.span.stop ∧
      ∀ rest, parse (front ++ rest) = .error error := by
  obtain ⟨before, token, after, split, halts⟩ :=
    (parseWithin_eq_error_iff_halts _ pattern error).mp failed
  have ⟨_, _, refused⟩ := halts
  have found : error.found = token.kind := by
    rw [refused.error_eq]
    rfl
  have span : error.span = token.span := by
    rw [refused.error_eq]
    rfl
  obtain ⟨front, behind, whole, bytes, read⟩ :=
    stream_up_to split refused.kind_ne_literal (found ▸ live)
  refine ⟨front, behind, whole, span ▸ bytes, fun rest => ?_⟩
  obtain ⟨later, stream⟩ := read rest
  exact (parseWithin_eq_error_iff_halts _ _ _).mpr ⟨before, token, later, stream, halts⟩

/-- An escape that stands between brackets, behind a `-` that was read too far. -/
theorem parse_error_extends_escape :
    parse "é[a-\\d]" = .error ⟨.token .rightBracket, .escape, ⟨5, 7⟩⟩ ∧
    ∃ front behind, "é[a-\\d]" = front ++ behind ∧ front.utf8ByteSize = 7 ∧
      ∀ rest, parse (front ++ rest) = .error ⟨.token .rightBracket, .escape, ⟨5, 7⟩⟩ :=
  ⟨rfl, parse_error_extends "é[a-\\d]" _ rfl (by decide)⟩

end RegexCompiler
