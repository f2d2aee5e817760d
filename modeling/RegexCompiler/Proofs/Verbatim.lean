import RegexCompiler.Proofs.Composition
import RegexCompiler.Proofs.Tokenization

/-!
# Texts taken verbatim

Any text without a NUL can be written as a pattern that stands for just this text, with a
backslash before each character that would otherwise have a meaning of its own. Every
character then is one token that carries it. All of these tokens are literals but those of
backslashes: two backslashes are an escape, which is a term like a literal but no member of a
class. A text without backslashes can therefore be the inside of a class as well.
-/

namespace RegexCompiler

/-! ### Writing a text as a pattern -/

/-- The characters that have a meaning of their own in a pattern. -/
def specialChars : List Char :=
  ['(', ')', '[', ']', '+', '-', '*', '?', '^', '|', '.', '\\']

/-- How a character is written to stand for itself. -/
def verbatimChar (c : Char) : List Char :=
  if c ∈ specialChars then ['\\', c] else [c]

/-- The pattern that stands for a text. -/
def verbatim (text : String) : String := .ofList (text.toList.flatMap verbatimChar)

/-- The kind of the token that a character becomes when it is written to stand for itself. -/
def verbatimKind (c : Char) : Kind := if c = '\\' then .escape else .literal

/-- The characters with a meaning of their own are the punctuation and the backslash. -/
theorem mem_specialChars (c : Char) :
    c ∈ specialChars ↔ c = '\\' ∨ ∃ kind, (c, kind) ∈ Kind.punctuation := by
  have same : specialChars.Perm ('\\' :: Kind.punctuation.map Prod.fst) := by decide
  simp [same.mem_iff]

/-- A character that is written to stand for itself is one token that carries it. -/
theorem spelling_verbatimChar {c : Char} (visible : c ≠ '\x00') :
    Spelling (verbatimChar c) (verbatimKind c) c := by
  rw [verbatimChar, verbatimKind]
  by_cases backslash : c = '\\'
  · rw [if_pos ((mem_specialChars c).mpr (.inl backslash)), if_pos backslash]
    subst backslash
    exact .escape visible (by decide) (by simp [Kind.punctuation])
  · rw [if_neg backslash]
    split
    · rename_i special
      obtain ⟨kind, listed⟩ := ((mem_specialChars c).mp special).resolve_left backslash
      exact .quoted listed
    · rename_i plain
      refine .plain visible backslash fun kind listed => ?_
      exact plain ((mem_specialChars c).mpr (.inr ⟨kind, listed⟩))

/-- A backslash is never written on its own. -/
theorem verbatimChar_ne (c : Char) : verbatimChar c ≠ ['\\'] := by
  rw [verbatimChar]
  split
  · simp
  · rename_i plain
    rw [mem_specialChars, not_or] at plain
    simpa using plain.1

/-- The tokens of a text that is written to stand for itself carry its characters one by
one, whatever is before and behind it. -/
theorem lexemes_verbatim (offset : Nat) (text rest : List Char) (visible : '\x00' ∉ text) :
    ∃ tokens reached, lexemes offset (text.flatMap verbatimChar ++ rest) =
        tokens ++ lexemes reached rest ∧
      tokens.map Token.char = text ∧ ∀ token ∈ tokens, token.kind = verbatimKind token.char := by
  induction text generalizing offset with
  | nil => exact ⟨[], offset, rfl, rfl, by simp⟩
  | cons c others inductionHypothesis =>
    obtain ⟨notNul, visibleOthers⟩ : c ≠ '\x00' ∧ '\x00' ∉ others := by
      simpa [eq_comm] using visible
    obtain ⟨tokens, reached, read, chars, kinds⟩ :=
      inductionHypothesis (offset + byteLength (verbatimChar c)) visibleOthers
    refine ⟨⟨verbatimKind c, c, ⟨offset, offset + byteLength (verbatimChar c)⟩⟩ :: tokens,
      reached, ?_, ?_, ?_⟩
    · rw [List.flatMap_cons, List.append_assoc, (spelling_verbatimChar notNul).lexemes_eq offset _
        (fun alone => absurd alone (verbatimChar_ne c)), read, List.cons_append]
    · rw [List.map_cons, chars]
    · exact List.forall_mem_cons.mpr ⟨rfl, kinds⟩

/-- The tokens of a pattern that stands for a text carry its characters one by one. -/
theorem patternTokens_verbatim (text : String) (visible : '\x00' ∉ text.toList) :
    (patternTokens (verbatim text)).map Token.char = text.toList ∧
      ∀ token ∈ patternTokens (verbatim text), token.kind = verbatimKind token.char := by
  obtain ⟨tokens, reached, read, chars, kinds⟩ := lexemes_verbatim 0 text.toList [] visible
  have nothing : lexemes reached [] = [] := rfl
  rw [List.append_nil, nothing, List.append_nil] at read
  rw [patternTokens_eq, verbatim, String.toList_ofList, read]
  exact ⟨chars, kinds⟩

/-! ### Tokens in a row -/

/-- An expression before a list of others comes before their chain. -/
theorem Sequence.ofList_cons (expr : Expr) (others : List Expr) :
    ofList (expr :: others) = (ofList others).before expr := by
  cases others with
  | nil => rfl
  | cons next later =>
    rw [ofList_cons_cons]
    cases later with
    | nil => rfl
    | cons _ _ => rw [ofList_cons_cons]; rfl

/-- A sequence of tokens, each a term of its own. -/
def Sequence.ofAtoms (tokens : List Token) : Sequence :=
  .ofList (tokens.map fun token => .mk (.atom token) none)

/-- The code of a sequence of tokens has one instruction for each, and no groups. -/
theorem Sequence.layout_ofAtoms (slots : Nat) (tokens : List Token) :
    (ofAtoms tokens).groups = 0 ∧ (ofAtoms tokens).layout slots = tokens.map atomInst := by
  induction tokens with
  | nil => exact ⟨rfl, rfl⟩
  | cons token others inductionHypothesis =>
    obtain ⟨groups, layout⟩ := inductionHypothesis
    obtain ⟨_, _, allGroups, allLayout⟩ :=
      before_eq (.mk (.atom token) none) (ofAtoms others)
    rw [ofAtoms, List.map_cons, ofList_cons, ← ofAtoms, allGroups, allLayout, groups]
    exact ⟨rfl, by rw [List.map_cons, ← layout]; rfl⟩

/-- Characters need no resolving. -/
theorem Block.resolved_chars (start : Nat) (chars : List Char) :
    Block.resolved start (chars.map Inst.char) = chars.map Inst.char := by
  induction chars generalizing start with
  | nil => rfl
  | cons c others inductionHypothesis =>
    rw [List.map_cons, Block.resolved_cons, inductionHypothesis]
    rfl

/-- A pattern whose tokens are literals and escapes compiles to their characters. -/
theorem compile_atoms {pattern : String}
    (atoms : ∀ token ∈ patternTokens pattern, token.kind = .literal ∨ token.kind = .escape) :
    compile pattern = .ok
      ⟨(((patternTokens pattern).map Token.char).map Inst.char ++ [Inst.accept]).toArray, 0⟩ := by
  generalize read : patternTokens pattern = tokens at atoms
  have conforms : (Regex.single (.ofAtoms tokens)).Conforms nestingLimit := by
    rw [Regex.Conforms, Sequence.conforms_iff, Sequence.ofAtoms, Sequence.toList_ofList,
      List.forall_mem_map]
    intro token present
    refine ⟨?_, by simp⟩
    rcases atoms token present with literal | escape
    · exact .inl literal
    · exact .inr (.inr escape)
  have canonical : (Regex.single (.ofAtoms tokens)).Canonical := by
    refine Sequence.canonical_ofList _ ?_
    rw [List.forall_mem_map]
    intro token present
    trivial
  have whole : (Regex.single (.ofAtoms tokens)).tokens = tokens := by
    rw [Regex.tokens, Sequence.tokens_eq, Sequence.ofAtoms, Sequence.toList_ofList,
      List.flatMap_map]
    exact List.flatMap_singleton' tokens
  have chars : tokens.map atomInst = (tokens.map Token.char).map Inst.char := by
    rw [List.map_map]
    refine List.map_congr_left fun token present => ?_
    rcases atoms token present with kind | kind <;> simp [atomInst, kind]
  obtain ⟨groups, layout⟩ := Sequence.layout_ofAtoms 0 tokens
  rw [compile_eq_program conforms canonical (whole.trans read.symm)]
  refine congrArg _ (Program.eq_of_toList ?_ ?_)
  · rw [Regex.toList_program, Regex.layout, layout, chars, Block.resolved_chars]
  · rw [Regex.slots_program, Regex.groups, groups]

/-! ### Literals between brackets -/

/-- Literals alone leave no range apart. -/
theorem segmented_literals {tokens : List Token}
    (literals : ∀ token ∈ tokens, token.kind = .literal) :
    Segmented (tokens.map Member.single) := by
  rintro before low _ high after split - ⟨minus, rfl, isMinus⟩
  have present : Member.single minus ∈ tokens.map Member.single := by
    rw [split]
    simp
  obtain ⟨token, listed, same⟩ := List.mem_map.mp present
  cases same
  rw [literals minus listed] at isMinus
  cases isMinus

/-- The tree of a class with tokens for members. -/
def Regex.ofMembers (opening : Token) (negation : Option Token) (tokens : List Token)
    (closing : Token) : Regex :=
  .single (.last (.mk (.charClass opening negation (.ofList (tokens.map .single)) closing) none))

/-- A pattern of literals between brackets compiles to a class of their characters. -/
theorem compile_literalClass {pattern : String} (opening : Token) (negation : Option Token)
    {tokens : List Token} {closing : Token} (opens : opening.kind = .leftBracket)
    (closes : closing.kind = .rightBracket) (carets : ∀ caret ∈ negation, caret.kind = .caret)
    (literals : ∀ token ∈ tokens, token.kind = .literal)
    (read : patternTokens pattern = opening :: (negation.toList ++ (tokens ++ [closing]))) :
    compile pattern = .ok ⟨#[(if negation.isSome then Inst.noneOf else Inst.oneOf)
      ((tokens.map Token.char).map fun c => (c, c)), .accept], 0⟩ := by
  have conforms : (Regex.ofMembers opening negation tokens closing).Conforms nestingLimit := by
    refine ⟨⟨opens, closes, carets, ?_⟩, by simp⟩
    rw [Members.toList_ofList, List.forall_mem_map]
    exact fun token present => .inl (literals token present)
  have canonical : (Regex.ofMembers opening negation tokens closing).Canonical :=
    Members.canonical_ofList _ (segmented_literals literals)
  have whole : (Regex.ofMembers opening negation tokens closing).tokens =
      opening :: (negation.toList ++ (tokens ++ [closing])) := by
    have inside : (tokens.map Member.single).flatMap Member.tokens = tokens := by
      rw [List.flatMap_map]
      exact List.flatMap_singleton' tokens
    simp only [Regex.ofMembers, Regex.tokens, Sequence.tokens, Expr.tokens, Term.tokens,
      Members.tokens, Members.toList_ofList, inside]
  rw [compile_eq_program conforms canonical (whole.trans read.symm)]
  refine congrArg _ (Program.eq_of_toList ?_ ?_)
  · rw [Regex.toList_program]
    simp only [Regex.ofMembers, Regex.layout, Sequence.layout, Expr.layout, Term.layout, classInst,
      Members.toList_ofList, List.map_map]
    cases negation <;> rfl
  · rw [Regex.slots_program]
    rfl

/-- A text without backslashes and the bracket behind it are literals and the bracket. -/
theorem lexemes_verbatim_closed (offset : Nat) (text : List Char) (visible : '\x00' ∉ text)
    (plain : '\\' ∉ text) :
    ∃ tokens closing, lexemes offset (text.flatMap verbatimChar ++ [']']) = tokens ++ [closing] ∧
      tokens.map Token.char = text ∧ (∀ token ∈ tokens, token.kind = .literal) ∧
      closing.kind = .rightBracket := by
  obtain ⟨tokens, reached, read, chars, kinds⟩ := lexemes_verbatim offset text [']'] visible
  have bracket := lexemes_cons reached [] (show ']' ≠ '\x00' by decide)
    (show ']' ≠ '\\' by decide)
  refine ⟨tokens, _, read.trans (congrArg _ bracket), chars, ?_, rfl⟩
  intro token present
  have unlike : token.char ≠ '\\' := by
    intro backslash
    exact plain (chars ▸ backslash ▸ List.mem_map_of_mem present)
  rw [kinds token present, verbatimKind, if_neg unlike]

/-! ### Compiling what is written -/

/-- A text that is written to stand for itself compiles to its characters one by one. If it
has no backslash, it may also be written between brackets, and compiles to the class of its
characters, or with a `^` before it to the complement of that class. -/
theorem compile_verbatim (text : String) (visible : '\x00' ∉ text.toList) :
    compile (verbatim text) = .ok ⟨(text.toList.map Inst.char ++ [Inst.accept]).toArray, 0⟩ ∧
    ('\\' ∉ text.toList →
      compile ("[" ++ verbatim text ++ "]") =
        .ok ⟨#[.oneOf (text.toList.map fun c => (c, c)), .accept], 0⟩ ∧
      compile ("[^" ++ verbatim text ++ "]") =
        .ok ⟨#[.noneOf (text.toList.map fun c => (c, c)), .accept], 0⟩) := by
  have written (before after : String) : (before ++ verbatim text ++ after).toList =
      before.toList ++ (text.toList.flatMap verbatimChar ++ after.toList) := by
    simp [verbatim, String.toList_append]
  have opened (rest : List Char) := lexemes_cons 0 rest (show '[' ≠ '\x00' by decide)
    (show '[' ≠ '\\' by decide)
  have negated (rest : List Char) := lexemes_cons 1 rest (show '^' ≠ '\x00' by decide)
    (show '^' ≠ '\\' by decide)
  refine ⟨?_, fun plain => ⟨?_, ?_⟩⟩
  · obtain ⟨chars, kinds⟩ := patternTokens_verbatim text visible
    rw [compile_atoms, chars]
    intro token present
    rw [kinds token present, verbatimKind]
    split
    · exact .inr rfl
    · exact .inl rfl
  · obtain ⟨tokens, closing, read, chars, literals, closes⟩ :=
      lexemes_verbatim_closed 1 text.toList visible plain
    rw [← chars]
    refine compile_literalClass ⟨.leftBracket, '[', ⟨0, 1⟩⟩ none rfl closes (by simp) literals ?_
    rw [patternTokens_eq, written, ← read]
    exact opened _
  · obtain ⟨tokens, closing, read, chars, literals, closes⟩ :=
      lexemes_verbatim_closed 2 text.toList visible plain
    rw [← chars]
    refine compile_literalClass ⟨.leftBracket, '[', ⟨0, 1⟩⟩ (some ⟨.caret, '^', ⟨1, 2⟩⟩) rfl closes
      (by simp) literals ?_
    rw [patternTokens_eq, written, Option.toList_some, List.singleton_append, ← read]
    exact (opened _).trans (congrArg _ (negated _))

/-- Backslashes and an `n`, and what would end a class, negate it or make a range. -/
theorem compile_verbatim_special :
    verbatim "a\\n" = "a\\\\n" ∧
    compile "a\\\\n" = .ok ⟨#[.char 'a', .char '\\', .char 'n', .accept], 0⟩ ∧
    compile "\\^a\\-\\]é" =
      .ok ⟨#[.char '^', .char 'a', .char '-', .char ']', .char 'é', .accept], 0⟩ ∧
    compile "[\\^a\\-\\]é]" =
      .ok ⟨#[.oneOf [('^', '^'), ('a', 'a'), ('-', '-'), (']', ']'), ('é', 'é')], .accept], 0⟩ ∧
    compile "[^\\^a\\-\\]é]" =
      .ok ⟨#[.noneOf [('^', '^'), ('a', 'a'), ('-', '-'), (']', ']'), ('é', 'é')],
        .accept], 0⟩ := by
  obtain ⟨escaped, _⟩ := compile_verbatim "a\\n" (by decide)
  obtain ⟨sequence, classes⟩ := compile_verbatim "^a-]é" (by decide)
  obtain ⟨members, complement⟩ := classes (by decide)
  exact ⟨by decide, escaped, sequence, members, complement⟩

end RegexCompiler
