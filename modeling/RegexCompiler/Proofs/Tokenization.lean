import Mathlib.Data.List.TakeWhile
import RegexCompiler.Proofs.Lexemes
import RegexCompiler.Proofs.Lossless

/-!
# What the tokens of a pattern are

The tokens of a pattern can be described without saying how they are read. Their spans
tile the pattern from its beginning to its first NUL, or to its end if it has none, and
each token agrees with the characters it covers: a character other than NUL and backslash
is punctuation or a literal, a backslash takes the character behind it along, and a
backslash that has nothing behind it stands for itself.

No other list of tokens fits this description. Spans are counted in bytes, so the proof
keeps to the characters that are left behind a position. Where a tiling goes on at that
position, the characters it covers next are a front of what is left, and what they spell
decides the token.
-/

namespace RegexCompiler

/-! ### Bytes of a text -/

/-- Number of bytes a text takes up. -/
def byteLength (text : List Char) : Nat := (String.ofList text).utf8ByteSize

@[simp]
theorem byteLength_nil : byteLength [] = 0 := rfl

@[simp]
theorem byteLength_cons (c : Char) (text : List Char) :
    byteLength (c :: text) = c.utf8Size + byteLength text := by
  simp [byteLength]

@[simp]
theorem byteLength_append (front rest : List Char) :
    byteLength (front ++ rest) = byteLength front + byteLength rest := by
  simp [byteLength]

/-- Only the empty text takes up no bytes. -/
theorem eq_nil_of_byteLength_eq_zero {text : List Char} (none : byteLength text = 0) :
    text = [] := by
  cases text with
  | nil => rfl
  | cons c rest =>
    have positive := c.utf8Size_pos
    rw [byteLength_cons] at none
    omega

/-- Of two fronts of a text the one with fewer bytes is a front of the other. -/
theorem exists_between {front rest longer tail : List Char} (same : front ++ rest = longer ++ tail)
    (fewer : byteLength front ≤ byteLength longer) :
    ∃ between, longer = front ++ between ∧ rest = between ++ tail := by
  rcases List.append_eq_append_iff.mp same with found | ⟨surplus, split, others⟩
  · exact found
  · rw [split, byteLength_append] at fewer
    obtain rfl : surplus = [] := eq_nil_of_byteLength_eq_zero (by omega)
    exact ⟨[], by simpa using split.symm, others.symm⟩

/-- Fronts of a text with the same number of bytes are the same. -/
theorem append_inj_of_byteLength {front rest other tail : List Char}
    (same : front ++ rest = other ++ tail) (bytes : byteLength front = byteLength other) :
    front = other ∧ rest = tail := by
  obtain ⟨between, rfl, split⟩ := exists_between same (Nat.le_of_eq bytes)
  obtain rfl : between = [] := eq_nil_of_byteLength_eq_zero (by simpa using bytes)
  exact ⟨(List.append_nil front).symm, split⟩

/-! ### Tilings -/

/-- The stretches lead from `start` to `finish` without a gap, and none of them is empty. -/
def Tiles (start : Nat) (spans : List Span) (finish : Nat) : Prop :=
  match spans with
  | [] => start = finish
  | span :: later => span.start = start ∧ start < span.stop ∧ Tiles span.stop later finish

/-- A tiling never ends before it begins. -/
theorem Tiles.le {start finish : Nat} {spans : List Span} (tiles : Tiles start spans finish) :
    start ≤ finish := by
  induction spans generalizing start with
  | nil => exact Nat.le_of_eq tiles
  | cons span later inductionHypothesis =>
    obtain ⟨_, filled, others⟩ := tiles
    exact Nat.le_trans (Nat.le_of_lt filled) (inductionHypothesis others)

/-- The stretches of a tiling and the point behind them begin where it does or later. -/
theorem Tiles.le_start {start finish : Nat} {spans : List Span} (tiles : Tiles start spans finish) :
    ∀ span ∈ spans ++ [.point finish], start ≤ span.start := by
  induction spans generalizing start with
  | nil =>
    obtain rfl : start = finish := tiles
    exact List.forall_mem_singleton.mpr (Nat.le_refl _)
  | cons first later inductionHypothesis =>
    obtain ⟨begins, filled, others⟩ := tiles
    rw [List.cons_append, List.forall_mem_cons]
    refine ⟨Nat.le_of_eq begins.symm, fun span present => ?_⟩
    exact Nat.le_trans (Nat.le_of_lt filled) (inductionHypothesis others span present)

/-- No two stretches of a tiling are the same, nor is one of them the point behind them. -/
theorem Tiles.nodup {start finish : Nat} {spans : List Span} (tiles : Tiles start spans finish) :
    (spans ++ [Span.point finish]).Nodup := by
  induction spans generalizing start with
  | nil => exact List.pairwise_singleton _ _
  | cons first later inductionHypothesis =>
    obtain ⟨begins, filled, others⟩ := tiles
    refine List.nodup_cons.mpr ⟨fun again => ?_, inductionHypothesis others⟩
    have behind := others.le_start first again
    omega

/-- The stretches of a tiling end behind where it begins. -/
theorem Tiles.lt_stop {start finish : Nat} {spans : List Span} (tiles : Tiles start spans finish) :
    ∀ span ∈ spans, start < span.stop := by
  induction spans generalizing start with
  | nil => simp
  | cons first later inductionHypothesis =>
    obtain ⟨_, filled, others⟩ := tiles
    refine List.forall_mem_cons.mpr ⟨filled, fun span present => ?_⟩
    exact Nat.lt_trans filled (inductionHypothesis others span present)

/-- No two stretches of a tiling end in the same place. -/
theorem Tiles.nodup_stop {start finish : Nat} {spans : List Span}
    (tiles : Tiles start spans finish) : (spans.map Span.stop).Nodup := by
  induction spans generalizing start with
  | nil => exact .nil
  | cons first later inductionHypothesis =>
    obtain ⟨_, _, others⟩ := tiles
    refine List.nodup_cons.mpr ⟨fun again => ?_, inductionHypothesis others⟩
    obtain ⟨span, present, same⟩ := List.mem_map.mp again
    have behind := others.lt_stop span present
    omega

/-- Both ends of a stretch fall between characters of the pattern, and these are the
characters from the one end to the other. -/
def Span.Cuts (span : Span) (pattern : String) (slice : List Char) : Prop :=
  ∃ before after, pattern.toList = before ++ (slice ++ after) ∧
    span.start = byteLength before ∧ span.stop = byteLength (before ++ slice)

/-- A stretch of a pattern begins and ends between characters. -/
theorem Span.Cuts.isValid {span : Span} {pattern : String} {slice : List Char}
    (cuts : span.Cuts pattern slice) :
    (⟨span.start⟩ : String.Pos.Raw).IsValid pattern ∧
      (⟨span.stop⟩ : String.Pos.Raw).IsValid pattern := by
  obtain ⟨before, after, split, start, stop⟩ := cuts
  rw [start, stop]
  constructor
  · refine String.Pos.Raw.isValid_iff_exists_append.mpr ⟨.ofList before, .ofList (slice ++ after),
      ?_, rfl⟩
    exact String.toList_inj.mp (by simpa using split)
  · refine String.Pos.Raw.isValid_iff_exists_append.mpr ⟨.ofList (before ++ slice), .ofList after,
      ?_, rfl⟩
    exact String.toList_inj.mp (by simpa using split)

/-! ### Spelling -/

/-- The punctuation characters and their kinds. -/
def Kind.punctuation : List (Char × Kind) :=
  [('(', .leftParen), (')', .rightParen), ('[', .leftBracket), (']', .rightBracket),
    ('+', .plus), ('-', .minus), ('*', .star), ('?', .question), ('^', .caret), ('.', .dot),
    ('|', .pipe)]

/-- The characters spell a token of the given kind that carries the given character. -/
inductive Spelling : List Char → Kind → Char → Prop where
  | punctuation {c : Char} {kind : Kind} (listed : (c, kind) ∈ Kind.punctuation) :
    Spelling [c] kind c
  | plain {c : Char} (visible : c ≠ '\x00') (unquoted : c ≠ '\\')
      (unlisted : ∀ kind, (c, kind) ∉ Kind.punctuation) : Spelling [c] .literal c
  | quoted {c : Char} {kind : Kind} (listed : (c, kind) ∈ Kind.punctuation) :
      Spelling ['\\', c] .literal c
  | lineFeed : Spelling ['\\', 'n'] .literal '\n'
  | escape {c : Char} (visible : c ≠ '\x00') (other : c ≠ 'n')
      (unlisted : ∀ kind, (c, kind) ∉ Kind.punctuation) : Spelling ['\\', c] .escape c
  | backslash : Spelling ['\\'] .literal '\\'

/-- The characters a token covers spell it. A backslash on its own must reach to `finish`. -/
def Token.Spelled (pattern : String) (finish : Nat) (token : Token) : Prop :=
  ∃ slice, token.span.Cuts pattern slice ∧ Spelling slice token.kind token.char ∧
    (slice = ['\\'] → token.span.stop = finish)

/-- The tokens tile the pattern from `start` to `finish` and are spelled by the characters
they cover. -/
structure Tokenizes (pattern : String) (start finish : Nat) (tokens : List Token) : Prop where
  tiles : Tiles start (tokens.map Token.span) finish
  spelled : ∀ token ∈ tokens, token.Spelled pattern finish

/-- Tokens tile a pattern if the first covers what is at the start and the others tile the
rest. -/
theorem tokenizes_cons {pattern : String} {start finish : Nat} {token : Token}
    {later : List Token} :
    Tokenizes pattern start finish (token :: later) ↔
      (token.span.start = start ∧ start < token.span.stop ∧ token.Spelled pattern finish) ∧
        Tokenizes pattern token.span.stop finish later := by
  constructor
  · rintro ⟨⟨begins, filled, tiles⟩, spelled⟩
    obtain ⟨first, others⟩ := List.forall_mem_cons.mp spelled
    exact ⟨⟨begins, filled, first⟩, tiles, others⟩
  · rintro ⟨⟨begins, filled, first⟩, tiles, others⟩
    exact ⟨⟨begins, filled, tiles⟩, List.forall_mem_cons.mpr ⟨first, others⟩⟩

/-- The table of punctuation is the one the scanner uses. -/
theorem ofPunctuation?_eq_some_iff (c : Char) (kind : Kind) :
    Kind.ofPunctuation? c = some kind ↔ (c, kind) ∈ Kind.punctuation := by
  constructor
  · intro found
    unfold Kind.ofPunctuation? at found
    split at found <;> simp_all [Kind.punctuation]
  · intro listed
    simp only [Kind.punctuation, List.mem_cons, Prod.mk.injEq, List.not_mem_nil, or_false] at listed
    rcases listed with ⟨rfl, rfl⟩ | ⟨rfl, rfl⟩ | ⟨rfl, rfl⟩ | ⟨rfl, rfl⟩ | ⟨rfl, rfl⟩ | ⟨rfl, rfl⟩ |
      ⟨rfl, rfl⟩ | ⟨rfl, rfl⟩ | ⟨rfl, rfl⟩ | ⟨rfl, rfl⟩ | ⟨rfl, rfl⟩ <;> rfl

/-- The scanner finds no punctuation where the table has none. -/
theorem ofPunctuation?_eq_none_iff (c : Char) :
    Kind.ofPunctuation? c = none ↔ ∀ kind, (c, kind) ∉ Kind.punctuation := by
  simp only [← ofPunctuation?_eq_some_iff, Option.eq_none_iff_forall_ne_some, ne_eq]

/-! ### Reading what is spelled -/

namespace Spelling

variable {slice : List Char} {kind : Kind} {c : Char}

/-- A token is never spelled by nothing. -/
theorem byteLength_pos (spelling : Spelling slice kind c) : 0 < byteLength slice := by
  refine Nat.pos_of_ne_zero fun none => ?_
  have empty := eq_nil_of_byteLength_eq_zero none
  cases spelling <;> cases empty

/-- What is behind a spelling is shorter than the text that begins with it. -/
theorem length_lt (spelling : Spelling slice kind c) (rest : List Char) :
    rest.length < (slice ++ rest).length := by
  cases spelling <;> simp only [List.length_append, List.length_cons, List.length_nil] <;> omega

/-- The end of input is not spelled. -/
theorem kind_ne (spelling : Spelling slice kind c) : kind ≠ .endOfInput := by
  cases spelling with
  | punctuation listed =>
    rintro rfl
    simp [Kind.punctuation] at listed
  | plain | quoted | lineFeed | escape | backslash => simp

/-- A text that begins with a spelling begins with the token spelled. A backslash on its
own must be all of the text. -/
theorem scan_eq (spelling : Spelling slice kind c) (offset : Nat) (rest : List Char)
    (alone : slice = ['\\'] → rest = []) :
    scan offset (slice ++ rest) =
      (⟨kind, c, ⟨offset, offset + byteLength slice⟩⟩, rest) := by
  have one : Char.utf8Size '\\' = 1 := rfl
  cases spelling with
  | punctuation listed =>
    have found := (ofPunctuation?_eq_some_iff c kind).mpr listed
    have visible : c ≠ '\x00' := by rintro rfl; simp [Kind.ofPunctuation?] at found
    have unquoted : c ≠ '\\' := by rintro rfl; simp [Kind.ofPunctuation?] at found
    simp [scan, visible, unquoted, found]
  | plain visible unquoted unlisted =>
    have missing := (ofPunctuation?_eq_none_iff c).mpr unlisted
    simp [scan, visible, unquoted, missing]
  | quoted listed =>
    have found := (ofPunctuation?_eq_some_iff c _).mpr listed
    have visible : c ≠ '\x00' := by rintro rfl; simp [Kind.ofPunctuation?] at found
    simp [scan, scanEscape, escapedToken, visible, found, one, Nat.add_assoc]
  | lineFeed => simp [scan, scanEscape, escapedToken, Kind.ofPunctuation?, one, Nat.add_assoc]
  | escape visible other unlisted =>
    have missing := (ofPunctuation?_eq_none_iff c).mpr unlisted
    simp [scan, scanEscape, escapedToken, visible, other, missing, one, Nat.add_assoc]
  | backslash =>
    obtain rfl := alone rfl
    simp [scan, scanEscape, one]

/-- The tokens of a text that begins with a spelling. -/
theorem lexemes_eq (spelling : Spelling slice kind c) (offset : Nat) (rest : List Char)
    (alone : slice = ['\\'] → rest = []) :
    lexemes offset (slice ++ rest) =
      ⟨kind, c, ⟨offset, offset + byteLength slice⟩⟩ ::
        lexemes (offset + byteLength slice) rest := by
  rw [RegexCompiler.lexemes_eq, spelling.scan_eq offset rest alone, if_neg spelling.kind_ne]

end Spelling

/-- A text without NUL begins with a spelling, and with a backslash on its own only if that
is all of the text. -/
theorem exists_spelling {text : List Char} (filled : text ≠ []) (visible : '\x00' ∉ text) :
    ∃ slice rest kind c, text = slice ++ rest ∧ Spelling slice kind c ∧
      (slice = ['\\'] → rest = []) := by
  obtain ⟨c, others, rfl⟩ := List.exists_cons_of_ne_nil filled
  obtain ⟨notNul, visibleOthers⟩ : c ≠ '\x00' ∧ '\x00' ∉ others := by
    simpa [eq_comm] using visible
  by_cases backslash : c = '\\'
  · subst backslash
    cases others with
    | nil => exact ⟨['\\'], [], _, _, rfl, .backslash, fun _ => rfl⟩
    | cons escaped rest =>
      have notNul' : escaped ≠ '\x00' := by
        rintro rfl
        simp at visibleOthers
      cases found : Kind.ofPunctuation? escaped with
      | some kind =>
        exact ⟨['\\', escaped], rest, _, _, rfl,
          .quoted ((ofPunctuation?_eq_some_iff escaped kind).mp found), by simp⟩
      | none =>
        by_cases lineFeed : escaped = 'n'
        · subst lineFeed
          exact ⟨['\\', 'n'], rest, _, _, rfl, .lineFeed, by simp⟩
        · exact ⟨['\\', escaped], rest, _, _, rfl,
            .escape notNul' lineFeed ((ofPunctuation?_eq_none_iff escaped).mp found), by simp⟩
  · have notAlone : [c] = ['\\'] → others = [] := by
      intro same
      exact absurd (List.singleton_inj.mp same) backslash
    cases found : Kind.ofPunctuation? c with
    | some kind =>
      exact ⟨[c], others, _, _, rfl, .punctuation ((ofPunctuation?_eq_some_iff c kind).mp found),
        notAlone⟩
    | none =>
      exact ⟨[c], others, _, _, rfl,
        .plain notNul backslash ((ofPunctuation?_eq_none_iff c).mp found), notAlone⟩

/-! ### The tokens of a pattern -/

variable {pattern : String}

/-- The tokens of a stretch of the pattern without NUL tile it. -/
theorem tokenizes_lexemes (before text after : List Char)
    (split : pattern.toList = before ++ (text ++ after)) (visible : '\x00' ∉ text) :
    Tokenizes pattern (byteLength before) (byteLength (before ++ text))
      (lexemes (byteLength before) text) := by
  generalize counted : text.length = count
  induction count using Nat.strongRecOn generalizing before text with
  | ind count inductionHypothesis =>
    by_cases filled : text = []
    · subst filled
      exact ⟨by simp [lexemes, lexemesWithin, Tiles], by simp [lexemes, lexemesWithin]⟩
    · obtain ⟨slice, rest, kind, c, rfl, spelling, alone⟩ := exists_spelling filled visible
      have positive := spelling.byteLength_pos
      have later := inductionHypothesis _ (counted ▸ spelling.length_lt rest) (before ++ slice) rest
        (by rw [split]; simp) (fun present => visible (List.mem_append_right _ present)) rfl
      rw [spelling.lexemes_eq _ rest alone, tokenizes_cons, ← List.append_assoc]
      rw [byteLength_append before slice] at later
      refine ⟨⟨rfl, by dsimp only; omega, slice, ?_, spelling, ?_⟩, later⟩
      · exact ⟨before, rest ++ after, by rw [split]; simp, rfl, by simp⟩
      · intro lone
        simp [alone lone]

/-- Tokens that tile a stretch of the pattern are the tokens of that stretch. -/
theorem Tokenizes.eq_lexemes {tokens : List Token} (before text after : List Char)
    (split : pattern.toList = before ++ (text ++ after))
    (tokenizes : Tokenizes pattern (byteLength before) (byteLength (before ++ text)) tokens) :
    tokens = lexemes (byteLength before) text := by
  induction tokens generalizing before text with
  | nil =>
    have same : byteLength before = byteLength (before ++ text) := tokenizes.tiles
    obtain rfl : text = [] := eq_nil_of_byteLength_eq_zero (by simpa using same)
    rfl
  | cons token later inductionHypothesis =>
    obtain ⟨kind, c, first, last⟩ := token
    obtain ⟨⟨begins, _, slice, cuts, spelling, final⟩, others⟩ := tokenizes_cons.mp tokenizes
    obtain ⟨front, behind, cut, start, stop⟩ := cuts
    dsimp only at begins start stop spelling final others
    subst start stop
    -- the slice begins where the stretch does, and the tiling does not go beyond it
    obtain ⟨rfl, same⟩ := append_inj_of_byteLength (cut.symm.trans split) begins
    have within := others.tiles.le
    rw [byteLength_append, byteLength_append] at within
    obtain ⟨rest, rfl, _⟩ := exists_between same (by omega)
    have alone : slice = ['\\'] → rest = [] := by
      intro lone
      have ends := final lone
      refine eq_nil_of_byteLength_eq_zero ?_
      simp only [byteLength_append] at ends
      omega
    rw [← List.append_assoc] at others
    rw [spelling.lexemes_eq _ rest alone,
      inductionHypothesis (front ++ slice) rest (by rw [split]; simp) others,
      byteLength_append front slice]

/-- What is beyond a NUL has no tokens. -/
theorem lexemes_untilNul (offset : Nat) (text : List Char) :
    lexemes offset (untilNul text) = lexemes offset text := by
  rw [← Scanner.takeWhile_stream, Scanner.stream_untilNul, Scanner.takeWhile_stream]

/-- No NUL is before the first one. -/
theorem nul_not_mem_untilNul (text : List Char) : '\x00' ∉ untilNul text := by
  intro present
  simpa using List.mem_takeWhile_imp present

/-- A scanner whose text has no NUL delivers its tokens and the end of input behind it. -/
theorem Scanner.stream_of_visible (offset : Nat) (text : List Char) (visible : '\x00' ∉ text) :
    (⟨text, offset, none⟩ : Scanner).stream =
      lexemes offset text ++ [.endOfInput (offset + byteLength text)] := by
  generalize counted : text.length = count
  induction count using Nat.strongRecOn generalizing offset text with
  | ind count inductionHypothesis =>
    by_cases filled : text = []
    · subst filled
      rfl
    · obtain ⟨slice, rest, kind, c, rfl, spelling, alone⟩ := exists_spelling filled visible
      have later := inductionHypothesis _ (counted ▸ spelling.length_lt rest)
        (offset + byteLength slice) rest
        (fun present => visible (List.mem_append_right _ present)) rfl
      rw [stream_eq, next_of_free _ rfl, spelling.scan_eq offset rest alone,
        if_neg spelling.kind_ne, later, spelling.lexemes_eq offset rest alone,
        byteLength_append, Nat.add_assoc]
      rfl

/-- A scanner at the beginning of a pattern delivers its tokens and then the end of input, at
its first NUL or at its end. -/
theorem stream_ofPattern (pattern : String) :
    (Scanner.ofPattern pattern).stream =
      patternTokens pattern ++ [.endOfInput (beforeNul pattern).utf8ByteSize] := by
  have visible := nul_not_mem_untilNul pattern.toList
  rw [patternTokens_eq, Scanner.ofPattern, ← Scanner.stream_untilNul,
    Scanner.stream_of_visible 0 _ visible, lexemes_untilNul, Nat.zero_add]
  rfl

/-- The tokens of a pattern tile it up to its first NUL. -/
theorem tiles_patternTokens (pattern : String) :
    Tiles 0 ((patternTokens pattern).map Token.span) (beforeNul pattern).utf8ByteSize := by
  have split : pattern.toList =
      [] ++ (untilNul pattern.toList ++ pattern.toList.dropWhile fun c => c ≠ '\x00') :=
    List.takeWhile_append_dropWhile.symm
  have tokenizes := tokenizes_lexemes [] _ _ split (nul_not_mem_untilNul _)
  rw [lexemes_untilNul, byteLength_nil, ← patternTokens_eq] at tokenizes
  exact tokenizes.tiles

/-- No two tokens of a pattern stand in the same place, the end of input among them. -/
theorem nodup_span_stream (pattern : String) :
    ((Scanner.ofPattern pattern).stream.map Token.span).Nodup := by
  rw [stream_ofPattern, List.map_append]
  exact (tiles_patternTokens pattern).nodup

/-- No two tokens of a pattern end in the same place. -/
theorem nodup_stop_patternTokens (pattern : String) :
    ((patternTokens pattern).map fun token => token.span.stop).Nodup := by
  have distinct := (tiles_patternTokens pattern).nodup_stop
  rwa [List.map_map] at distinct

/-- The tokens of a pattern are the only ones that tile it up to its first NUL and agree with
the characters they cover, the ends of which fall between characters. Behind them stands the
end of input, where the first NUL or the pattern ends them. -/
theorem patternTokens_tile (pattern : String) :
    (∀ tokens, Tokenizes pattern 0 (beforeNul pattern).utf8ByteSize tokens ↔
      tokens = patternTokens pattern) ∧
    (∀ token ∈ patternTokens pattern,
      (⟨token.span.start⟩ : String.Pos.Raw).IsValid pattern ∧
        (⟨token.span.stop⟩ : String.Pos.Raw).IsValid pattern) ∧
    (Scanner.ofPattern pattern).stream =
      patternTokens pattern ++ [.endOfInput (beforeNul pattern).utf8ByteSize] := by
  have split : pattern.toList =
      [] ++ (untilNul pattern.toList ++ pattern.toList.dropWhile fun c => c ≠ '\x00') :=
    List.takeWhile_append_dropWhile.symm
  have own : patternTokens pattern = lexemes 0 (untilNul pattern.toList) := by
    rw [patternTokens_eq, lexemes_untilNul]
  have tokenizes := tokenizes_lexemes [] _ _ split (nul_not_mem_untilNul _)
  refine ⟨?_, ?_, stream_ofPattern pattern⟩
  · intro tokens
    rw [own]
    constructor
    · exact Tokenizes.eq_lexemes [] _ _ split
    · rintro rfl
      exact tokenizes
  · intro token present
    rw [own] at present
    obtain ⟨slice, cuts, _⟩ := tokenizes.spelled token present
    exact cuts.isValid

/-- A letter of two bytes, an escaped parenthesis, and a backslash before a NUL. -/
theorem patternTokens_tile_backslash :
    Tokenizes "é\\(\\\x00)" 0 5
      [⟨.literal, 'é', ⟨0, 2⟩⟩, ⟨.literal, '(', ⟨2, 4⟩⟩, ⟨.literal, '\\', ⟨4, 5⟩⟩] ∧
    (Scanner.ofPattern "é\\(\\\x00)").stream.getLast? = some (.endOfInput 5) := by
  have tokens : patternTokens "é\\(\\\x00)" =
      [⟨.literal, 'é', ⟨0, 2⟩⟩, ⟨.literal, '(', ⟨2, 4⟩⟩, ⟨.literal, '\\', ⟨4, 5⟩⟩] := by decide
  have size : (beforeNul "é\\(\\\x00)").utf8ByteSize = 5 := by decide
  obtain ⟨tile, _, stream⟩ := patternTokens_tile "é\\(\\\x00)"
  rw [size] at tile stream
  refine ⟨(tile _).mpr tokens.symm, ?_⟩
  rw [stream, List.getLast?_concat]

end RegexCompiler
