import Mathlib.Data.List.Chain
import RegexCompiler.Parser.Progress

/-!
# The tokens ahead

What a scanner will deliver, up to and including the first end of input, is its
stream, and what a cursor will come across is the stream of the cursor. The stream
does not show whether a token was handed back: putting a token back puts it in
front of the stream, and a step forward takes the front off. The rules of the
grammar can therefore be described by streams alone.

In the stream of a pattern each token begins where the one before it ends, and a
`-` carries its own character. Both hold of what is left of a stream as well.
-/

namespace RegexCompiler

/-! ### Streams of scanners -/

/-- The tokens a scanner delivers up to and including the first end of input. -/
def Scanner.stream (scanner : Scanner) : List Token := scanner.drain.1

/-- The tokens a fresh scanner delivers before the first end of input. -/
def patternTokens (pattern : String) : List Token :=
  (Scanner.ofPattern pattern).stream.takeWhile fun token => token.kind ≠ .endOfInput

namespace Scanner

/-- Tokens found earlier come before those still to be delivered. -/
theorem drainWithin_found (fuel : Nat) (found : List Token) (scanner : Scanner) :
    (drainWithin fuel found scanner).1 =
      found.reverse ++ (drainWithin fuel [] scanner).1 := by
  induction fuel generalizing found scanner with
  | zero => simp [drainWithin]
  | succ fuel inductionHypothesis =>
    simp only [drainWithin]
    split
    · simp
    · rw [inductionHypothesis (scanner.next.1 :: found), inductionHypothesis [scanner.next.1]]
      simp

/-- Fuel beyond the pending tokens changes nothing. -/
theorem drainWithin_enough (fuel other : Nat) (scanner : Scanner)
    (enough : scanner.pending < fuel) (alsoEnough : scanner.pending < other) :
    (drainWithin fuel [] scanner).1 = (drainWithin other [] scanner).1 := by
  induction fuel generalizing other scanner with
  | zero => omega
  | succ fuel inductionHypothesis =>
    cases other with
    | zero => omega
    | succ other =>
      simp only [drainWithin]
      split
      · rfl
      · rename_i delivered
        have stepped := scanner.next_pending
        have one := scanner.next.1.weight_eq_one delivered
        rw [drainWithin_found fuel, drainWithin_found other,
          inductionHypothesis other scanner.next.2 (by omega) (by omega)]

/-- A scanner has no more tokens to deliver than it keeps characters, and one. -/
theorem pending_le (scanner : Scanner) : scanner.pending ≤ scanner.rest.length + 1 := by
  have short := length_lexemes_le scanner.offset scanner.rest
  rw [pending]
  cases scanner.held with
  | none => simp only [Option.map_none, Option.getD_none]; omega
  | some token =>
    have light : token.weight ≤ 1 := by
      rw [Token.weight]
      split <;> omega
    simp only [Option.map_some, Option.getD_some]
    omega

/-- The stream is the next token and, unless that is the end of input, the stream
after it. -/
theorem stream_eq (scanner : Scanner) :
    scanner.stream =
      scanner.next.1 ::
        if scanner.next.1.kind = .endOfInput then [] else scanner.next.2.stream := by
  have bound := scanner.pending_le
  have boundNext := scanner.next.2.pending_le
  have stepped := scanner.next_pending
  unfold stream drain
  rw [drainWithin_enough _ (scanner.rest.length + scanner.next.2.rest.length + 3) scanner
    (by omega) (by omega), drainWithin]
  split
  · simp
  · rw [drainWithin_found, drainWithin_enough _ (scanner.next.2.rest.length + 2) scanner.next.2
      (by omega) (by omega)]
    simp

/-- A stream has at most one token more than are pending, the end of input. -/
theorem length_stream_le (scanner : Scanner) : scanner.stream.length ≤ scanner.pending + 1 := by
  generalize counted : scanner.pending = count
  induction count using Nat.strongRecOn generalizing scanner with
  | ind count inductionHypothesis =>
    have stepped := scanner.next_pending
    rw [stream_eq]
    split
    · simp only [List.length_singleton]
      omega
    · rename_i delivered
      have one := scanner.next.1.weight_eq_one delivered
      have shorter := inductionHypothesis scanner.next.2.pending (by omega) scanner.next.2 rfl
      rw [List.length_cons]
      omega

end Scanner

/-! ### Order in a stream -/

/-- Each token begins where the one before it ends, and a `-` carries its own
character. -/
structure Tidy (tokens : List Token) : Prop where
  adjacent : tokens.IsChain fun token next => token.span.stop = next.span.start
  minus : ∀ token ∈ tokens, token.kind = .minus → token.char = '-'

/-- What is left of a tidy list is tidy. -/
theorem Tidy.right_of_append {left right : List Token} (tidy : Tidy (left ++ right)) :
    Tidy right :=
  ⟨tidy.adjacent.right_of_append, fun token member =>
    tidy.minus token (List.mem_append_right left member)⟩

/-- What is left of a tidy list behind its first token is tidy. -/
theorem Tidy.tail {token : Token} {others : List Token} (tidy : Tidy (token :: others)) :
    Tidy others :=
  Tidy.right_of_append (List.singleton_append ▸ tidy)

/-- Between two tokens a `-` is the one that fills the gap between them. -/
theorem Tidy.eq_minus {low minus high : Token} {others : List Token}
    (tidy : Tidy (low :: minus :: high :: others)) (isMinus : minus.kind = .minus) :
    minus = ⟨.minus, '-', ⟨low.span.stop, high.span.start⟩⟩ := by
  have char := tidy.minus minus (by simp) isMinus
  have adjacent := tidy.adjacent
  simp only [List.isChain_cons_cons] at adjacent
  obtain ⟨start, stop, _⟩ := adjacent
  rw [start, ← stop, ← char, ← isMinus]

/-- A token is read where the scanner stands. -/
theorem scan_span_start (offset : Nat) (text : List Char) :
    (scan offset text).1.span.start = offset := by
  have escaped (text : List Char) : (scanEscape offset text).1.span.start = offset := by
    cases text with
    | nil => rfl
    | cons c rest =>
      simp only [scanEscape]
      split
      · rfl
      · simp only [escapedToken]
        split
        · rfl
        · split <;> rfl
  cases text with
  | nil => rfl
  | cons c rest =>
    simp only [scan]
    split
    · rfl
    · split
      · exact escaped rest
      · rfl

/-- Only the character `-` is punctuation of its kind. -/
theorem eq_minus_of_ofPunctuation? (c : Char)
    (isMinus : (Kind.ofPunctuation? c).getD .literal = .minus) : c = '-' := by
  unfold Kind.ofPunctuation? at isMinus
  split at isMinus <;> simp_all

/-- An escaped character is never a `-` of its own kind. -/
theorem scanEscape_kind_ne_minus (offset : Nat) (text : List Char) :
    (scanEscape offset text).1.kind ≠ .minus := by
  cases text with
  | nil => simp [scanEscape]
  | cons c rest =>
    simp only [scanEscape]
    split
    · simp
    · simp only [escapedToken]
      split
      · simp
      · split <;> simp

/-- A `-` is read from the character it carries. -/
theorem scan_minus_char (offset : Nat) (text : List Char)
    (isMinus : (scan offset text).1.kind = .minus) : (scan offset text).1.char = '-' := by
  cases text with
  | nil => simp [scan, Token.endOfInput] at isMinus
  | cons c rest =>
    simp only [scan] at isMinus ⊢
    split
    · rename_i nul
      simp [nul, Token.endOfInput] at isMinus
    · rename_i notNul
      rw [if_neg notNul] at isMinus
      split
      · rename_i backslash
        rw [if_pos backslash] at isMinus
        exact absurd isMinus (scanEscape_kind_ne_minus offset rest)
      · rename_i notBackslash
        rw [if_neg notBackslash] at isMinus
        exact eq_minus_of_ofPunctuation? c isMinus

namespace Scanner

/-- A scanner without a token handed back reads the next one off its text. -/
theorem next_of_free (scanner : Scanner) (free : scanner.held = none) :
    scanner.next = ((scan scanner.offset scanner.rest).1,
      ⟨(scan scanner.offset scanner.rest).2, (scan scanner.offset scanner.rest).1.span.stop,
        none⟩) := by
  simp [next, free]

/-- The stream of a scanner without a token handed back begins at its offset and is
tidy. -/
theorem stream_tidy (scanner : Scanner) (free : scanner.held = none) :
    (∀ token ∈ scanner.stream.head?, token.span.start = scanner.offset) ∧ Tidy scanner.stream := by
  generalize counted : scanner.pending = count
  induction count using Nat.strongRecOn generalizing scanner with
  | ind count inductionHypothesis =>
    have stepped := scanner.next_pending
    have read := scanner.next_of_free free
    have start : scanner.next.1.span.start = scanner.offset := by
      rw [read]
      exact scan_span_start _ _
    have char : scanner.next.1.kind = .minus → scanner.next.1.char = '-' := by
      rw [read]
      exact scan_minus_char _ _
    rw [stream_eq]
    split
    · refine ⟨by simp [start], .singleton _, ?_⟩
      rintro token member
      obtain rfl := List.mem_singleton.mp member
      exact char
    · rename_i delivered
      have one := scanner.next.1.weight_eq_one delivered
      obtain ⟨follows, tidy⟩ := inductionHypothesis scanner.next.2.pending (by omega)
        scanner.next.2 scanner.next_held rfl
      refine ⟨by simp [start], ?_, ?_⟩
      · refine tidy.adjacent.cons ?_
        intro token member
        rw [follows token member, read]
      · intro token member
        rcases List.mem_cons.mp member with rfl | later
        · exact char
        · exact tidy.minus token later

/-- Before the first end of input no token ends the input, and the stream ends
with the first that does. -/
theorem stream_split (scanner : Scanner) : ∃ ending : Token, ending.kind = .endOfInput ∧
    scanner.stream =
      scanner.stream.takeWhile (fun token => token.kind ≠ .endOfInput) ++ [ending] := by
  generalize counted : scanner.pending = count
  induction count using Nat.strongRecOn generalizing scanner with
  | ind count inductionHypothesis =>
    have stepped := scanner.next_pending
    rw [stream_eq]
    split
    · rename_i ended
      exact ⟨scanner.next.1, ended, by simp [ended]⟩
    · rename_i delivered
      have one := scanner.next.1.weight_eq_one delivered
      obtain ⟨ending, ends, whole⟩ := inductionHypothesis scanner.next.2.pending (by omega)
        scanner.next.2 rfl
      refine ⟨ending, ends, ?_⟩
      rw [List.takeWhile_cons_of_pos (by simpa using delivered), List.cons_append, ← whole]

end Scanner

/-! ### Streams of cursors -/

namespace Parser.Cursor

/-- The tokens from the current one up to and including the first end of input. -/
def stream (cursor : Cursor) : List Token :=
  cursor.token :: if cursor.token.kind = .endOfInput then [] else cursor.scanner.stream

/-- After a step the stream is that of the scanner before it. -/
theorem advance_stream (cursor : Cursor) : cursor.advance.stream = cursor.scanner.stream := by
  rw [Scanner.stream_eq]
  rfl

/-- A step over a token other than the end of input takes it off the stream. -/
theorem stream_eq_cons (cursor : Cursor) (live : cursor.token.kind ≠ .endOfInput) :
    cursor.stream = cursor.token :: cursor.advance.stream := by
  rw [advance_stream, stream, if_neg live]

/-- A step over a token of a known kind takes it off the stream. -/
theorem stream_eq_cons_of_kind (cursor : Cursor) (kind : Kind) (same : cursor.token.kind = kind)
    (live : kind ≠ .endOfInput) : cursor.stream = cursor.token :: cursor.advance.stream :=
  cursor.stream_eq_cons (same ▸ live)

/-- The first token ahead is the current one, and a step leaves the others ahead. -/
theorem step_of_stream {cursor : Cursor} {token : Token} {others : List Token}
    (ahead : cursor.stream = token :: others) (live : token.kind ≠ .endOfInput) :
    cursor.token = token ∧ cursor.advance.stream = others := by
  obtain ⟨current, _⟩ := List.cons.inj ahead
  rw [cursor.stream_eq_cons (current ▸ live)] at ahead
  exact ⟨current, (List.cons.inj ahead).2⟩

/-- Putting a token back is possible when the slot is free, and puts the token in
front of the stream. -/
theorem unget_stream (cursor : Cursor) (token : Token) (free : cursor.scanner.held = none)
    (live : token.kind ≠ .endOfInput) :
    ∃ back, cursor.unget token = .ok back ∧ back.token = token ∧
      back.stream = token :: cursor.stream ∧ back.depth = cursor.depth := by
  refine ⟨⟨token, ⟨cursor.scanner.rest, cursor.scanner.offset, some cursor.token⟩, cursor.depth⟩,
    ?_, rfl, ?_, rfl⟩
  · simp [unget, Scanner.pushback, free, Except.map]
  · have restored : (⟨cursor.scanner.rest, cursor.scanner.offset, none⟩ : Scanner) =
        cursor.scanner := by
      rw [← free]
    rw [stream, if_neg live, Scanner.stream_eq]
    simp only [Scanner.next, restored, stream]

/-- A cursor on the first token of a pattern has its whole stream ahead. -/
theorem ofPattern_stream (pattern : String) :
    (ofPattern pattern).stream = (Scanner.ofPattern pattern).stream := by
  rw [Scanner.stream_eq]
  rfl

/-- The stream of a pattern is its tokens and the end of input. -/
theorem ofPattern_stream_split (pattern : String) : ∃ ending : Token,
    ending.kind = .endOfInput ∧ (ofPattern pattern).stream = patternTokens pattern ++ [ending] := by
  rw [ofPattern_stream]
  exact (Scanner.ofPattern pattern).stream_split

/-- The stream of a pattern is tidy. -/
theorem ofPattern_tidy (pattern : String) : Tidy (ofPattern pattern).stream := by
  rw [ofPattern_stream]
  exact ((Scanner.ofPattern pattern).stream_tidy rfl).2

/-- A pattern has no more tokens than characters, and the end of input. -/
theorem length_ofPattern_stream_le (pattern : String) :
    (ofPattern pattern).stream.length ≤ pattern.length + 1 := by
  have short := (Scanner.ofPattern pattern).length_stream_le
  have few := length_lexemes_le 0 pattern.toList
  rw [ofPattern_stream]
  simp only [Scanner.pending, Scanner.ofPattern, Option.map_none, Option.getD_none,
    String.length_toList] at short few
  simp only [Scanner.ofPattern]
  omega

end Parser.Cursor

end RegexCompiler
