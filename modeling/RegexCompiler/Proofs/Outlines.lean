import RegexCompiler.Proofs.Lexemes
import RegexCompiler.Proofs.Quotation
import RegexCompiler.Proofs.Unambiguity

/-!
# Reading outlines

The outline of a tree can be read back. Its lines are separated by the line feeds, as no
title has one. On each line the title stands behind the first horizontal bar: the edges
before it have none, although the title may. The titles of nodes are no texts of tokens,
so the leaves can be told from them, and from the leaves come the tokens with their kinds
and characters. Only the `-` of a range is not shown. It belongs behind the first leaf
below its node.

With the tokens the tree is known, since no two canonical trees have the same ones. So
two patterns have the same outline if and only if their trees differ in positions alone,
and then they have the same program.
-/

namespace RegexCompiler

/-! ### Texts of tokens -/

/-- A token without its positions. -/
def Token.erased (token : Token) : Token := token.mapPositions fun _ => 0

/-- A tree without its positions. -/
def Regex.erased (regex : Regex) : Regex := regex.mapPositions fun _ => 0

/-- A token such as scanning delivers. If it is not a literal or an escape, its kind is
that of the punctuation it carries. -/
def Token.IsLexeme (token : Token) : Prop :=
  token.kind = .literal ∨ token.kind = .escape ∨ Kind.ofPunctuation? token.char = some token.kind

/-- Scanning delivers lexemes and the end of input. -/
theorem scan_isLexeme (offset : Nat) (text : List Char)
    (delivered : (scan offset text).1.kind ≠ .endOfInput) : (scan offset text).1.IsLexeme := by
  cases text with
  | nil => exact absurd rfl delivered
  | cons c rest =>
    by_cases nul : c = '\x00'
    · simp [scan, nul, Token.endOfInput] at delivered
    by_cases backslash : c = '\\'
    · simp only [scan, backslash, scanEscape]
      cases rest with
      | nil => exact .inl rfl
      | cons next others =>
        simp only [escapedToken, Token.IsLexeme]
        grind
    · simp only [scan, nul, backslash, if_false, Token.IsLexeme]
      cases punctuation : Kind.ofPunctuation? c with
      | none => exact .inl rfl
      | some kind => exact .inr (.inr rfl)

/-- The tokens of a pattern are lexemes. -/
theorem isLexeme_of_mem_patternTokens {pattern : String} {token : Token}
    (present : token ∈ patternTokens pattern) : token.IsLexeme := by
  have all (offset : Nat) (text : List Char) : ∀ token ∈ lexemes offset text, token.IsLexeme := by
    generalize counted : text.length = count
    induction count using Nat.strongRecOn generalizing offset text with
    | ind count inductionHypothesis =>
      rw [lexemes_eq]
      split
      · simp
      · rename_i delivered
        have shorter := scan_shorter offset text delivered
        exact List.forall_mem_cons.mpr ⟨scan_isLexeme offset text delivered,
          inductionHypothesis _ (counted ▸ shorter) _ _ rfl⟩
  rw [patternTokens_eq] at present
  exact all 0 pattern.toList token present

/-- Punctuation is shown between apostrophes. -/
theorem Kind.toList_text_of_punctuation {c : Char} {kind : Kind}
    (punctuation : Kind.ofPunctuation? c = some kind) :
    kind.text.toList = ['\x27', c, '\x27'] := by
  unfold Kind.ofPunctuation? at punctuation
  split at punctuation <;> cases punctuation <;> rfl

/-- The token whose text is given, without positions. -/
def Token.ofText (text : String) : Token :=
  match text.toList with
  | 'l' :: rest => ⟨.literal, Text.unescape (rest.drop 8).dropLast, .point 0⟩
  | 'e' :: rest => ⟨.escape, Text.unescape (rest.drop 7).dropLast, .point 0⟩
  | _ :: c :: _ => ⟨(Kind.ofPunctuation? c).getD .literal, c, .point 0⟩
  | _ => .endOfInput 0

section

variable (printable : Char → Bool)

/-- The text of a lexeme is read back. -/
theorem Token.ofText_textWith (token : Token) (lexeme : token.IsLexeme) :
    Token.ofText (token.textWith printable) = token.erased := by
  obtain ⟨kind, c, span⟩ := token
  have read := (Text.unescape_escape printable c).1
  have placed : span.mapPositions (fun _ => 0) = .point 0 := rfl
  rcases lexeme with rfl | rfl | punctuation
  · simpa [ofText, textWith, Kind.text, Text.quoteCharWith, erased, mapPositions, placed] using read
  · simpa [ofText, textWith, Kind.text, Text.quoteCharWith, erased, mapPositions, placed] using read
  · have shown := Kind.toList_text_of_punctuation punctuation
    have named : (⟨kind, c, span⟩ : Token).textWith printable = kind.text := by
      cases kind with
      | literal => simp [Kind.text] at shown
      | escape => simp [Kind.text] at shown
      | _ => rfl
    simp only at punctuation
    simp [ofText, named, shown, punctuation, erased, mapPositions, placed]

/-- The text of a token has no line feed. -/
theorem Token.unbroken_textWith (token : Token) : '\n' ∉ (token.textWith printable).toList := by
  obtain ⟨kind, c, span⟩ := token
  have unbroken := (Text.unescape_escape printable c).2
  cases kind with
  | literal => simpa [textWith, Kind.text, Text.quoteCharWith] using unbroken
  | escape => simpa [textWith, Kind.text, Text.quoteCharWith] using unbroken
  | _ => simp [textWith, Kind.text]

/-! ### Lines of an outline -/

/-- The titles of an outline from the first line to the last. -/
def Outline.titles : Outline → List String
  | .nil => []
  | .entry title children siblings => title :: (children.titles ++ siblings.titles)

/-- The lines of an outline, without their line feeds. -/
def Outline.rows (indent : List Char) : Outline → List (List Char)
  | .nil => []
  | .entry title children siblings =>
    let edge := if siblings.isNil then [' ', '└', '─'] else [' ', '├', '─']
    let continued := if siblings.isNil then [' ', ' ', ' '] else [' ', '│', ' ']
    (indent ++ edge ++ ' ' :: title.toList) ::
      (children.rows (indent ++ continued) ++ siblings.rows indent)

/-- The title on a line that has an edge. -/
def rowTitle (row : List Char) : String := .ofList ((row.dropWhile (· ≠ '─')).drop 2)

/-- Nothing before the first horizontal bar belongs to the title. -/
theorem rowTitle_append {indent : List Char} (rest : List Char) (plain : '─' ∉ indent) :
    rowTitle (indent ++ rest) = rowTitle rest := by
  have apart : ∀ c ∈ indent, decide (c ≠ '─') = true := by
    intro c present
    exact decide_eq_true fun same => plain (same ▸ present)
  rw [rowTitle, List.dropWhile_append_of_pos apart, rowTitle]

namespace Outline

/-- An outline is written line by line. -/
theorem toList_renderAfter (outline : Outline) (text indent : String) :
    (outline.renderAfter text indent).toList =
      text.toList ++ (outline.rows indent.toList).flatMap (· ++ ['\n']) := by
  induction outline generalizing text indent with
  | nil => simp [renderAfter, rows]
  | entry title children siblings childrenHypothesis siblingsHypothesis =>
    rw [renderAfter, siblingsHypothesis, childrenHypothesis, rows]
    by_cases final : siblings.isNil = true <;> simp [final]

/-- Every title is read off its line. -/
theorem rowTitle_rows (outline : Outline) (indent : List Char) (plain : '─' ∉ indent) :
    (outline.rows indent).map rowTitle = outline.titles := by
  induction outline generalizing indent with
  | nil => rfl
  | entry title children siblings childrenHypothesis siblingsHypothesis =>
    rw [rows, titles, List.map_cons, List.map_append, siblingsHypothesis indent plain,
      childrenHypothesis, List.append_assoc, rowTitle_append _ plain]
    · congr 1
      by_cases final : siblings.isNil = true <;> simp [final, rowTitle]
    · by_cases final : siblings.isNil = true <;> simp [final, plain]

/-- No line has a line feed if no title does. -/
theorem unbroken_rows (outline : Outline) (indent : List Char) (plain : '\n' ∉ indent)
    (unbroken : ∀ title ∈ outline.titles, '\n' ∉ title.toList) :
    ∀ row ∈ outline.rows indent, '\n' ∉ row := by
  induction outline generalizing indent with
  | nil => simp [rows]
  | entry title children siblings childrenHypothesis siblingsHypothesis =>
    simp only [titles, List.forall_mem_cons, List.forall_mem_append] at unbroken
    simp only [rows, List.forall_mem_cons, List.forall_mem_append]
    refine ⟨?_, childrenHypothesis _ ?_ unbroken.2.1, siblingsHypothesis _ plain unbroken.2.2⟩
    · by_cases final : siblings.isNil = true <;> simp [final, plain, unbroken.1]
    · by_cases final : siblings.isNil = true <;> simp [final, plain]

end Outline

/-- Lines that end in line feeds are told apart by them. -/
theorem splitOn_lines (rows : List (List Char)) (unbroken : ∀ row ∈ rows, '\n' ∉ row) :
    (rows.flatMap (· ++ ['\n'])).splitOn '\n' = rows ++ [[]] := by
  induction rows with
  | nil => rfl
  | cons row others inductionHypothesis =>
    obtain ⟨first, later⟩ := List.forall_mem_cons.mp unbroken
    rw [List.flatMap_cons, List.append_assoc, List.singleton_append,
      List.splitOn_append_cons_self_of_not_mem first, inductionHypothesis later, List.cons_append]

/-! ### Leaves of an outline -/

/-- The titles of the nodes of an outline, other than ranges. -/
def nodeTitles : List String := ["REGEX", "SUB", "EXPR", "TERM", "CLASS"]

/-- The texts of tokens among the titles of an outline. Below a range the `-` is put back
behind the first of them. -/
def leaves (inRange : Bool) : List String → List String
  | [] => []
  | title :: rest =>
    if title = "RANGE" then leaves true rest
    else if title ∈ nodeTitles then leaves false rest
    else title :: ((if inRange then [Kind.minus.text] else []) ++ leaves false rest)

/-- The text of a token is a leaf. -/
theorem leaves_textWith (inRange : Bool) (token : Token) (rest : List String) :
    leaves inRange (token.textWith printable :: rest) =
      token.textWith printable ::
        ((if inRange then [Kind.minus.text] else []) ++ leaves false rest) := by
  have apart : token.textWith printable ∉ "RANGE" :: nodeTitles := by
    intro present
    have capital : (token.textWith printable).toList.head? ∈
        ("RANGE" :: nodeTitles).map (·.toList.head?) := List.mem_map_of_mem present
    obtain ⟨kind, c, span⟩ := token
    cases kind <;> simp [nodeTitles, Token.textWith, Kind.text] at capital
  rw [List.mem_cons, not_or] at apart
  rw [leaves, if_neg apart.1, if_neg apart.2]

/-- A token before its siblings is a leaf before theirs. -/
theorem leaves_leaf (token : Token) (siblings : Outline) (rest : List String) :
    leaves false ((Outline.leaf (token.textWith printable) siblings).titles ++ rest) =
      token.textWith printable :: leaves false (siblings.titles ++ rest) :=
  leaves_textWith printable false token (siblings.titles ++ rest)

/-- A node has the leaves below it and those of its siblings. -/
theorem leaves_entry {title : String} (node : title ∈ nodeTitles) (children siblings : Outline)
    (rest : List String) :
    leaves false ((Outline.entry title children siblings).titles ++ rest) =
      leaves false (children.titles ++ (siblings.titles ++ rest)) := by
  have other : title ≠ "RANGE" := by
    rintro rfl
    simp [nodeTitles] at node
  rw [Outline.titles, List.cons_append, leaves, if_neg other, if_pos node, List.append_assoc]

/-- The leaves of a member are its tokens. -/
theorem Member.leaves_outline (member : Member) (siblings : Outline) (rest : List String) :
    leaves false ((member.outline printable siblings).titles ++ rest) =
      member.tokens.map (Token.textWith printable) ++ leaves false (siblings.titles ++ rest) := by
  cases member with
  | single token => exact leaves_leaf printable token siblings rest
  | range low high =>
    have minus : (rangeMinus low high).textWith printable = Kind.minus.text := rfl
    simp only [Member.outline, Outline.leaf, Outline.titles, Member.tokens, List.nil_append,
      List.cons_append, List.append_nil, List.map_cons, List.map_nil, minus]
    rw [leaves, if_pos rfl, leaves_textWith, leaves_textWith]
    simp

/-- The leaves of a chain of members are its tokens. -/
theorem Members.leaves_outline (members : Members) (rest : List String) :
    leaves false ((members.outline printable).titles ++ rest) =
      members.tokens.map (Token.textWith printable) ++ leaves false rest := by
  induction members with
  | empty => rfl
  | last member =>
    rw [Members.outline, member.leaves_outline]
    simp [Members.tokens, Members.toList, Members.collect, Outline.titles]
  | link member tail inductionHypothesis =>
    rw [Members.outline, member.leaves_outline, inductionHypothesis]
    simp [Members.tokens, Members.toList_link]

/-- An optional token is a leaf before its siblings. -/
theorem leaves_optionalLeaf (token : Option Token) (siblings : Outline) (rest : List String) :
    leaves false ((optionalLeaf printable siblings token).titles ++ rest) =
      token.toList.map (Token.textWith printable) ++ leaves false (siblings.titles ++ rest) := by
  cases token with
  | none => rfl
  | some token => exact leaves_leaf printable token siblings rest

mutual

/-- The leaves of a regex are its tokens. -/
theorem Regex.leaves_outline (regex : Regex) (rest : List String) :
    leaves false ((regex.outline printable).titles ++ rest) =
      regex.tokens.map (Token.textWith printable) ++ leaves false rest := by
  cases regex with
  | single sequence =>
    rw [Regex.outline, leaves_entry (by decide), sequence.leaves_outline]
    rfl
  | alternate sequence pipe others =>
    rw [Regex.outline, leaves_entry (by decide), sequence.leaves_outline, leaves_leaf,
      others.leaves_outline, Regex.tokens, List.map_append, List.map_cons, List.append_assoc,
      List.cons_append]

/-- The leaves of a sequence are its tokens. -/
theorem Sequence.leaves_outline (sequence : Sequence) (rest : List String) :
    leaves false ((sequence.outline printable).titles ++ rest) =
      sequence.tokens.map (Token.textWith printable) ++ leaves false rest := by
  cases sequence with
  | empty => rfl
  | last expr =>
    rw [Sequence.outline, leaves_entry (by decide), expr.leaves_outline]
    rfl
  | link expr tail =>
    rw [Sequence.outline, leaves_entry (by decide), expr.leaves_outline, tail.leaves_outline,
      Sequence.tokens, List.map_append, List.append_assoc]

/-- The leaves of an expression are its tokens. -/
theorem Expr.leaves_outline (expr : Expr) (rest : List String) :
    leaves false ((expr.outline printable).titles ++ rest) =
      expr.tokens.map (Token.textWith printable) ++ leaves false rest := by
  cases expr with
  | mk term quantifier =>
    cases quantifier with
    | none =>
      rw [Expr.outline, leaves_entry (by decide), term.leaves_outline]
      rfl
    | some quantifier =>
      rw [Expr.outline, leaves_entry (by decide), term.leaves_outline, Quantifier.outline,
        leaves_leaf, leaves_optionalLeaf, Expr.tokens, Quantifier.tokens]
      simp [Outline.titles]

/-- The leaves of a term are its tokens. -/
theorem Term.leaves_outline (term : Term) (rest : List String) :
    leaves false ((term.outline printable).titles ++ rest) =
      term.tokens.map (Token.textWith printable) ++ leaves false rest := by
  cases term with
  | atom token => exact leaves_leaf printable token .nil rest
  | group opening regex closing =>
    rw [Term.outline, leaves_leaf, leaves_entry (by decide), regex.leaves_outline, leaves_leaf,
      Term.tokens]
    simp [Outline.titles]
  | charClass opening negation members closing =>
    rw [Term.outline, leaves_leaf, leaves_optionalLeaf, leaves_entry (by decide),
      members.leaves_outline, leaves_leaf, Term.tokens]
    simp [Outline.titles]

end

/-- Every title is that of a node or a leaf. -/
theorem mem_leaves (inRange : Bool) (titles : List String) {title : String}
    (present : title ∈ titles) :
    title ∈ "RANGE" :: nodeTitles ∨ title ∈ leaves inRange titles := by
  induction titles generalizing inRange with
  | nil => simp at present
  | cons first others inductionHypothesis =>
    rw [leaves]
    rcases List.mem_cons.mp present with rfl | later
    · split
      · simp_all
      · split <;> simp_all
    · split
      · exact inductionHypothesis _ later
      · split
        · exact inductionHypothesis _ later
        · rcases inductionHypothesis false later with node | leaf
          · exact .inl node
          · exact .inr (by simp [leaf])

/-- No title of a tree's outline has a line feed. -/
theorem Regex.unbroken_outline (regex : Regex) :
    ∀ title ∈ (regex.outline printable).titles, '\n' ∉ title.toList := by
  intro title present
  have whole := regex.leaves_outline printable []
  rcases mem_leaves false _ present with node | leaf
  · have unbroken : ∀ node ∈ "RANGE" :: nodeTitles, '\n' ∉ node.toList := by decide
    exact unbroken title node
  · rw [List.append_nil] at whole
    rw [whole, leaves, List.append_nil] at leaf
    obtain ⟨token, -, rfl⟩ := List.mem_map.mp leaf
    exact token.unbroken_textWith printable

/-! ### Outlines and trees -/

/-- The tokens of a tree whose outline is given, without positions. The line of the root
and what follows the last line feed are left out. -/
def readOutline (text : String) : List Token :=
  (leaves false ((text.toList.splitOn '\n').tail.dropLast.map rowTitle)).map Token.ofText

/-- The outline of a tree tells its tokens. -/
theorem readOutline_outlineTextWith (regex : Regex)
    (lexemes : ∀ token ∈ regex.tokens, token.IsLexeme) :
    readOutline (regex.outlineTextWith printable) = regex.tokens.map Token.erased := by
  have unbroken := (regex.outline printable).unbroken_rows [] (by simp)
    (regex.unbroken_outline printable)
  have written : (regex.outlineTextWith printable).toList =
      (" REGEX".toList :: (regex.outline printable).rows []).flatMap (· ++ ['\n']) :=
    (regex.outline printable).toList_renderAfter " REGEX\n" ""
  have titles := (regex.outline printable).rowTitle_rows [] (by simp)
  have found := regex.leaves_outline printable []
  rw [List.append_nil, leaves, List.append_nil] at found
  rw [readOutline, written, splitOn_lines _ (List.forall_mem_cons.mpr ⟨by decide, unbroken⟩),
    List.cons_append, List.tail_cons, List.dropLast_concat, titles, found, List.map_map]
  refine List.map_congr_left fun token present => ?_
  exact token.ofText_textWith printable (lexemes token present)

/-- The text of a token does not show where the token stands. -/
@[simp]
theorem Token.textWith_mapPositions (f : Nat → Nat) (token : Token) :
    (token.mapPositions f).textWith printable = token.textWith printable := rfl

/-- A chain of members has the same outline with other positions. -/
theorem Members.outline_mapPositions (f : Nat → Nat) (members : Members) :
    (members.mapPositions f).outline printable = members.outline printable := by
  have alike (member : Member) (siblings : Outline) :
      (member.mapPositions f).outline printable siblings = member.outline printable siblings := by
    cases member <;> rfl
  induction members with
  | empty => rfl
  | last member => exact alike member .nil
  | link member tail inductionHypothesis =>
    rw [Members.mapPositions, Members.outline, alike, inductionHypothesis, Members.outline]

/-- An optional token is shown the same with other positions. -/
theorem optionalLeaf_mapPositions (f : Nat → Nat) (siblings : Outline) (token : Option Token) :
    optionalLeaf printable siblings (token.map (Token.mapPositions f)) =
      optionalLeaf printable siblings token := by
  cases token <;> rfl

mutual

/-- A regex has the same outline with other positions. -/
theorem Regex.outline_mapPositions (f : Nat → Nat) (regex : Regex) :
    (regex.mapPositions f).outline printable = regex.outline printable := by
  cases regex with
  | single sequence =>
    rw [Regex.mapPositions, Regex.outline, sequence.outline_mapPositions f, Regex.outline]
  | alternate sequence pipe rest =>
    rw [Regex.mapPositions, Regex.outline, sequence.outline_mapPositions f,
      rest.outline_mapPositions f, Token.textWith_mapPositions, Regex.outline]

/-- A sequence has the same outline with other positions. -/
theorem Sequence.outline_mapPositions (f : Nat → Nat) (sequence : Sequence) :
    (sequence.mapPositions f).outline printable = sequence.outline printable := by
  cases sequence with
  | empty => rfl
  | last expr =>
    rw [Sequence.mapPositions, Sequence.outline, expr.outline_mapPositions f, Sequence.outline]
  | link expr tail =>
    rw [Sequence.mapPositions, Sequence.outline, expr.outline_mapPositions f,
      tail.outline_mapPositions f, Sequence.outline]

/-- An expression has the same outline with other positions. -/
theorem Expr.outline_mapPositions (f : Nat → Nat) (expr : Expr) :
    (expr.mapPositions f).outline printable = expr.outline printable := by
  cases expr with
  | mk term quantifier =>
    cases quantifier with
    | none =>
      rw [Expr.mapPositions, Option.map_none, Expr.outline, term.outline_mapPositions f,
        Expr.outline]
    | some quantifier =>
      simp only [Expr.mapPositions, Option.map_some, Expr.outline, term.outline_mapPositions f,
        Quantifier.outline, Quantifier.mapPositions, optionalLeaf_mapPositions,
        Token.textWith_mapPositions]

/-- A term has the same outline with other positions. -/
theorem Term.outline_mapPositions (f : Nat → Nat) (term : Term) :
    (term.mapPositions f).outline printable = term.outline printable := by
  cases term with
  | atom token => rfl
  | group opening regex closing =>
    simp only [Term.mapPositions, Term.outline, regex.outline_mapPositions f,
      Token.textWith_mapPositions]
  | charClass opening negation members closing =>
    simp only [Term.mapPositions, Term.outline, members.outline_mapPositions,
      optionalLeaf_mapPositions, Token.textWith_mapPositions]

end

end

/-- Canonical trees of the grammar whose tokens differ in positions alone differ in positions
alone. -/
theorem Regex.erased_eq_of_tokens {nesting nesting' : Nat} {left right : Regex}
    (conforms : left.Conforms nesting) (conforms' : right.Conforms nesting')
    (canonical : left.Canonical) (canonical' : right.Canonical)
    (same : left.tokens.map Token.erased = right.tokens.map Token.erased) :
    left.erased = right.erased := by
  have spelled : left.erased.tokens = right.erased.tokens :=
    (left.tokens_mapPositions _).trans (same.trans (right.tokens_mapPositions _).symm)
  have ended : LedBy (· = .rightParen) [] := by simp [LedBy]
  exact (Regex.eq_of_tokens ((left.conforms_mapPositions _ _).mpr conforms)
    ((right.conforms_mapPositions _ _).mpr conforms')
    (Regex.canonical_mapPositions _ canonical) (Regex.canonical_mapPositions _ canonical')
    ended ended (congrArg (· ++ []) spelled)).1

/-- Parsed trees with the same outline differ in positions alone. -/
theorem erased_eq_of_outline {printable : Char → Bool} {left right : String}
    {leftTree rightTree : Regex} (leftParsed : parse left = .ok leftTree)
    (rightParsed : parse right = .ok rightTree)
    (same : leftTree.outlineTextWith printable = rightTree.outlineTextWith printable) :
    leftTree.erased = rightTree.erased := by
  obtain ⟨conforms, canonical, tokens⟩ := (parse_eq_ok_iff left leftTree).mp leftParsed
  obtain ⟨conforms', canonical', tokens'⟩ := (parse_eq_ok_iff right rightTree).mp rightParsed
  have read := readOutline_outlineTextWith printable leftTree fun token present =>
    isLexeme_of_mem_patternTokens (tokens ▸ present)
  have read' := readOutline_outlineTextWith printable rightTree fun token present =>
    isLexeme_of_mem_patternTokens (tokens' ▸ present)
  refine Regex.erased_eq_of_tokens conforms conforms' canonical canonical' ?_
  calc leftTree.tokens.map Token.erased
    _ = readOutline (leftTree.outlineTextWith printable) := read.symm
    _ = readOutline (rightTree.outlineTextWith printable) := by rw [same]
    _ = rightTree.tokens.map Token.erased := read'

/-- Trees that differ in positions alone have the same outline and the same program. -/
theorem outline_eq_of_erased (printable : Char → Bool) {left right : Regex}
    (same : left.erased = right.erased) :
    left.outlineTextWith printable = right.outlineTextWith printable ∧
      left.program = right.program := by
  constructor
  · rw [Regex.outlineTextWith, ← left.outline_mapPositions printable fun _ => 0,
      Regex.outlineTextWith, ← right.outline_mapPositions printable fun _ => 0]
    exact congrArg (fun tree => (tree.outline printable).renderAfter " REGEX\n" "") same
  · rw [← left.program_mapPositions fun _ => 0, ← right.program_mapPositions fun _ => 0]
    exact congrArg Regex.program same

/-- Whatever characters are shown verbatim, the outlines of accepted patterns are the same
if and only if their trees differ in positions alone, and patterns with the same outline
have the same program. -/
theorem outline_determines_tree (printable : Char → Bool) (left right : String)
    (leftTree rightTree : Regex) (leftParsed : parse left = .ok leftTree)
    (rightParsed : parse right = .ok rightTree) :
    (leftTree.outlineTextWith printable = rightTree.outlineTextWith printable ↔
        leftTree.erased = rightTree.erased) ∧
      (leftTree.outlineTextWith printable = rightTree.outlineTextWith printable →
        compile left = compile right) := by
  refine ⟨⟨erased_eq_of_outline leftParsed rightParsed,
    fun same => (outline_eq_of_erased printable same).1⟩, ?_⟩
  intro same
  have programs : leftTree.program = rightTree.program :=
    (outline_eq_of_erased printable (erased_eq_of_outline leftParsed rightParsed same)).2
  rw [(compile_eq_ok_iff left _).mpr ⟨leftTree, leftParsed, rfl⟩,
    (compile_eq_ok_iff right _).mpr ⟨rightTree, rightParsed, rfl⟩, programs]

/-- Line feeds in a row, by their name and as they stand. -/
theorem outline_determines_tree_lineFeed :
    let tree (width : Nat) : Regex := .single (.last (.mk (.atom ⟨.literal, '\n', ⟨0, width⟩⟩)
      (some ⟨.zeroOrMore, ⟨.star, '*', ⟨width, width + 1⟩⟩, none⟩)))
    parse "\\n*" = .ok (tree 2) ∧ parse "\n*" = .ok (tree 1) ∧
      (tree 2).outlineText = (tree 1).outlineText ∧ compile "\\n*" = compile "\n*" := by
  intro tree
  have named : parse "\\n*" = .ok (tree 2) := rfl
  have verbatim : parse "\n*" = .ok (tree 1) := rfl
  obtain ⟨shown, compiled⟩ := outline_determines_tree Text.isPrintable _ _ _ _ named verbatim
  have same := shown.mpr rfl
  exact ⟨named, verbatim, same, compiled same⟩

end RegexCompiler
