import RegexCompiler.Proofs.Outlines
import RegexCompiler.Proofs.Verdicts

/-!
# Question marks written into a pattern

A `?` is written behind every character of a pattern that ends at one of the given
positions. If these positions are the ends of operators, the tokens of the new pattern are
the old ones with a `?` behind each of these operators, apart from where they stand: no
position falls into an escape, as the tokens of a pattern do not overlap, and no operator is
a backslash that could take the new character along. What is behind the first NUL of a
pattern has no tokens before or after.
-/

namespace RegexCompiler

/-! ### Texts -/

/-- What is written at a position: a `?` if it is one of the positions. -/
def markAt (positions : List Nat) (position : Nat) : List Char :=
  if position ∈ positions then ['?'] else []

/-- A text that begins at `offset`, with a `?` behind every character that ends at one of
the positions. -/
def markText (positions : List Nat) (offset : Nat) : List Char → List Char
  | [] => []
  | c :: rest =>
    c :: (markAt positions (offset + c.utf8Size) ++
      markText positions (offset + c.utf8Size) rest)

/-- A pattern with a `?` behind every character that ends at one of the positions. -/
def markPattern (positions : List Nat) (pattern : String) : String :=
  .ofList (markText positions 0 pattern.toList)

variable {positions : List Nat}

/-- Marks in two texts in a row. -/
theorem markText_append (offset : Nat) (front rest : List Char) :
    markText positions offset (front ++ rest) =
      markText positions offset front ++
        markText positions (offset + byteLength front) rest := by
  induction front generalizing offset with
  | nil => simp [markText]
  | cons c others inductionHypothesis =>
    simp [markText, inductionHypothesis, Nat.add_assoc]

/-- A text in which no position falls stays as it is. -/
theorem markText_eq_self (offset : Nat) (text : List Char)
    (clear : ∀ position ∈ positions, position ≤ offset) :
    markText positions offset text = text := by
  induction text generalizing offset with
  | nil => rfl
  | cons c rest inductionHypothesis =>
    have positive := c.utf8Size_pos
    have unmarked : offset + c.utf8Size ∉ positions := by
      intro present
      have bound := clear _ present
      omega
    have later := inductionHypothesis (offset + c.utf8Size) fun position present =>
      Nat.le_add_right_of_le (clear position present)
    rw [markText, markAt, if_neg unmarked, later, List.nil_append]

/-- A text without a position strictly inside gets no other mark than one at its end. -/
theorem markText_eq_append (offset : Nat) {text : List Char} (filled : text ≠ [])
    (clear : ∀ position ∈ positions, offset < position → offset + byteLength text ≤ position) :
    markText positions offset text = text ++ markAt positions (offset + byteLength text) := by
  induction text generalizing offset with
  | nil => exact absurd rfl filled
  | cons c rest inductionHypothesis =>
    have positive := c.utf8Size_pos
    by_cases last : rest = []
    · simp [last, markText]
    · have more : 0 < byteLength rest := Nat.pos_of_ne_zero fun zero =>
        last (eq_nil_of_byteLength_eq_zero zero)
      have unmarked : offset + c.utf8Size ∉ positions := by
        intro present
        have bound := clear _ present (by omega)
        rw [byteLength_cons] at bound
        omega
      have later := inductionHypothesis (offset + c.utf8Size) last
        fun position present behind => by
          have bound := clear position present (by omega)
          rw [byteLength_cons] at bound
          omega
      rw [markText, later, markAt, if_neg unmarked, byteLength_cons, Nat.add_assoc]
      rfl

/-- Marks are the same up to the first NUL. -/
theorem untilNul_markText (offset : Nat) (text : List Char) :
    untilNul (markText positions offset text) = markText positions offset (untilNul text) := by
  induction text generalizing offset with
  | nil => rfl
  | cons c rest inductionHypothesis =>
    have marks (tail : List Char) :
        untilNul (markAt positions (offset + c.utf8Size) ++ tail) =
          markAt positions (offset + c.utf8Size) ++ untilNul tail := by
      rw [markAt]
      split <;> simp [untilNul]
    by_cases nul : c = '\x00'
    · simp [untilNul, markText, nul]
    · have keep (tail : List Char) : untilNul (c :: tail) = c :: untilNul tail := by
        simp [untilNul, nul]
      rw [markText, keep, keep, marks, inductionHypothesis, markText]

/-- A single mark in the middle of a pattern. -/
theorem markPattern_singleton (front behind : String) (filled : front ≠ "") :
    markPattern [front.utf8ByteSize] (front ++ behind) = front ++ "?" ++ behind := by
  have some : front.toList ≠ [] := fun none => filled (String.toList_inj.mp none)
  have bytes : byteLength front.toList = front.utf8ByteSize := by
    rw [byteLength, String.ofList_toList]
  have first : markText [front.utf8ByteSize] 0 front.toList = front.toList ++ ['?'] := by
    rw [markText_eq_append 0 some (by simp [bytes]), markAt, Nat.zero_add, bytes,
      if_pos List.mem_cons_self]
  have second : markText [front.utf8ByteSize] (0 + byteLength front.toList) behind.toList =
      behind.toList := markText_eq_self _ _ (by simp [bytes])
  apply String.toList_inj.mp
  rw [markPattern, String.toList_ofList, String.toList_append, markText_append, first, second]
  simp

/-! ### Tokens -/

/-- A `?` that is not in a pattern yet. -/
def questionMark : Token := ⟨.question, '?', .point 0⟩

/-- Tokens with a `?` behind those that end at one of the positions. -/
def markTokens (positions : List Nat) (tokens : List Token) : List Token :=
  tokens.flatMap fun token =>
    if token.span.stop ∈ positions then [token, questionMark] else [token]

/-- The tokens of a text without a NUL tile it. -/
theorem lexemes_tile (offset : Nat) {text : List Char} (visible : '\x00' ∉ text) :
    Tiles offset ((lexemes offset text).map Token.span) (offset + byteLength text) := by
  generalize read : lexemes offset text = tokens
  induction tokens generalizing offset text with
  | nil =>
    obtain rfl : text = [] := by
      by_contra filled
      obtain ⟨slice, rest, kind, c, rfl, spelling, alone⟩ := exists_spelling filled visible
      simp [spelling.lexemes_eq offset rest alone] at read
    rfl
  | cons token later inductionHypothesis =>
    obtain ⟨slice, rest, rfl, spelling, _, span, others⟩ := exists_slice_of_lexemes visible read
    have positive := spelling.byteLength_pos
    have tiles := inductionHypothesis _
      (fun present => visible (List.mem_append_right _ present)) others
    rw [byteLength_append, ← Nat.add_assoc, List.map_cons, span]
    exact ⟨rfl, by dsimp only; omega, tiles⟩

/-- Where a text begins does not matter for its tokens, apart from their positions. -/
theorem erased_lexemes (offset other : Nat) (text : List Char) :
    (lexemes offset text).map Token.erased = (lexemes other text).map Token.erased := by
  have moved (start : Nat) : (lexemes start text).map Token.erased =
      (lexemes 0 text).map Token.erased := by
    rw [← Nat.zero_add start, lexemes_moved, List.map_map]
    rfl
  rw [moved, moved other]

/-- A `?` is an operator or a mark wherever it stands. -/
theorem lexemes_question (offset : Nat) (rest : List Char) :
    lexemes offset ('?' :: rest) =
      ⟨.question, '?', ⟨offset, offset + 1⟩⟩ :: lexemes (offset + 1) rest := by
  have spelling : Spelling ['?'] .question '?' := .punctuation (by decide)
  exact spelling.lexemes_eq offset rest (by simp)

/-- An operator is spelled by one character, and this is not the backslash. -/
theorem Spelling.ne_backslash {slice : List Char} {kind : Kind} {c : Char}
    (spelling : Spelling slice kind c) (operates : kind.IsOperator) : slice ≠ ['\\'] := by
  intro lone
  rw [spelling.kind_of_lone lone] at operates
  simp [Kind.IsOperator] at operates

/-- Every position behind `offset` is where an operator among the tokens ends. -/
def EndOperators (positions : List Nat) (offset : Nat) (tokens : List Token) : Prop :=
  ∀ position ∈ positions, offset < position →
    ∃ token ∈ tokens, token.span.stop = position ∧ token.kind.IsOperator

/-- A position is where the first token ends, which is an operator then, or further on. -/
theorem EndOperators.cases {offset finish position : Nat} {token : Token} {later : List Token}
    (operators : EndOperators positions offset (token :: later))
    (tiles : Tiles token.span.stop (later.map Token.span) finish) (present : position ∈ positions)
    (behind : offset < position) :
    (position = token.span.stop ∧ token.kind.IsOperator) ∨
      (token.span.stop < position ∧
        ∃ other ∈ later, other.span.stop = position ∧ other.kind.IsOperator) := by
  obtain ⟨other, among, stop, operates⟩ := operators position present behind
  rcases List.mem_cons.mp among with rfl | among
  · exact .inl ⟨stop.symm, operates⟩
  · have further := tiles.lt_stop _ (List.mem_map_of_mem among)
    exact .inr ⟨stop ▸ further, other, among, stop, operates⟩

/-- If marks are written behind operators only, the tokens of the new text are the old ones
with a `?` behind these operators, apart from their positions. -/
theorem erased_lexemes_markText {offset : Nat} {text : List Char} (visible : '\x00' ∉ text)
    (operators : EndOperators positions offset (lexemes offset text)) :
    (lexemes offset (markText positions offset text)).map Token.erased =
      (markTokens positions (lexemes offset text)).map Token.erased := by
  have tiles := lexemes_tile offset visible
  generalize read : lexemes offset text = tokens at operators tiles ⊢
  induction tokens generalizing offset text with
  | nil =>
    have clear : ∀ position ∈ positions, position ≤ offset := by
      intro position present
      by_contra behind
      obtain ⟨token, absent, _⟩ := operators position present (by omega)
      simp at absent
    rw [markText_eq_self offset text clear, read]
    rfl
  | cons token later inductionHypothesis =>
    obtain ⟨slice, rest, rfl, spelling, alone, span, others⟩ :=
      exists_slice_of_lexemes visible read
    have visibleRest : '\x00' ∉ rest := fun present =>
      visible (List.mem_append_right _ present)
    have stop : token.span.stop = offset + byteLength slice := by rw [span]
    rw [← stop] at others
    obtain ⟨_, filled, tilesLater⟩ := tiles
    have operatorsLater : EndOperators positions token.span.stop later := by
      intro position present behind
      rcases operators.cases tilesLater present (by omega) with ⟨same, _⟩ | ⟨_, found⟩
      · omega
      · exact found
    have tail := inductionHypothesis visibleRest others operatorsLater
      (others ▸ lexemes_tile token.span.stop visibleRest)
    -- no position falls into the first token, so the mark is behind it if there is one
    have first : markText positions offset (slice ++ rest) = slice ++
        (markAt positions token.span.stop ++ markText positions token.span.stop rest) := by
      rw [markText_append, markText_eq_append offset, ← stop, List.append_assoc]
      · rintro rfl
        exact absurd spelling.byteLength_pos (by simp)
      · intro position present behind
        rcases operators.cases tilesLater present behind with ⟨same, _⟩ | ⟨further, _⟩ <;> omega
    rw [first, markTokens, List.flatMap_cons, List.map_append, ← markTokens, ← tail]
    by_cases marked : token.span.stop ∈ positions
    · have operates : token.kind.IsOperator := by
        rcases operators.cases tilesLater marked filled with ⟨_, operates⟩ | ⟨further, _⟩
        · exact operates
        · omega
      rw [markAt, if_pos marked, if_pos marked, spelling.lexemes_eq_cons span _
        fun lone => absurd lone (spelling.ne_backslash operates), List.singleton_append,
        lexemes_question, List.map_cons, List.map_cons,
        erased_lexemes (token.span.stop + 1) token.span.stop]
      rfl
    · rw [markAt, if_neg marked, if_neg marked, List.nil_append,
        spelling.lexemes_eq_cons span _ fun lone => by rw [alone lone]; rfl]
      rfl

/-- If marks are written behind operators only, the tokens of the new pattern are the old
ones with a `?` behind these operators, apart from their positions. -/
theorem erased_patternTokens_markPattern {pattern : String}
    (operators : EndOperators positions 0 (patternTokens pattern)) :
    (patternTokens (markPattern positions pattern)).map Token.erased =
      (markTokens positions (patternTokens pattern)).map Token.erased := by
  rw [patternTokens_eq, ← lexemes_untilNul] at operators ⊢
  rw [markPattern, String.toList_ofList, untilNul_markText, patternTokens_eq pattern,
    ← lexemes_untilNul 0 pattern.toList]
  exact erased_lexemes_markText (nul_not_mem_untilNul _) operators

end RegexCompiler
