import RegexCompiler.Scanner

/-!
# Scanning by byte position

The stages of the program are told once more here and in the modules beside this
one, in the form in which they are carried out step by step on mutable data. A step
that makes sense only under a condition checks the condition and reports a fault if
it fails. Each stage is then shown to give what the plain definitions give, and thus
to report no fault.

The scanner of this form never splits its input. It keeps a position in bytes, and
cuts the input there whenever it looks at the next character. A cut is a fault
unless it falls between two characters or at either end. The scanner of the plain
form keeps the characters that are left instead, and the two agree as long as these
are what begins at the position.
-/

namespace RegexCompiler.Checked

/-- What may go wrong in a step whose condition is not met. -/
inductive Fault where
  /-- A text is cut inside a character or behind its end. -/
  | badSlice
  /-- A token is handed back while another waits. -/
  | slotTaken
  /-- A rule takes more steps than it is given. -/
  | outOfSteps
  /-- A group is left that was not entered. -/
  | depthUnderflow
  /-- There is not exactly one sequence more than there are bars between them. -/
  | unevenChain
  /-- The last instruction of an empty fragment is asked for. -/
  | noInstruction
  /-- A fragment to be continued does not end with its placeholder. -/
  | noPlaceholder
  /-- More instructions are taken off than there are. -/
  | distanceUnderflow
  /-- A branch leads out of the program. -/
  | targetOutside
  /-- An index is not below the length of its array. -/
  | indexOutside
  /-- A branch leads to an instruction without a label. -/
  | unlabelled
  deriving DecidableEq

/-- Going on from a value is going on with it. -/
@[simp]
theorem ok_bind {α β : Type} (value : α) (proceed : α → Except Fault β) :
    (Except.ok value >>= proceed) = proceed value :=
  rfl

/-- Returning a value succeeds with it. -/
@[simp]
theorem pure_eq_ok {α : Type} (value : α) : (pure value : Except Fault α) = .ok value :=
  rfl

/-- The text from a byte position on. -/
def sliceFrom (text : String) (position : Nat) : Except Fault (List Char) :=
  if boundary : (⟨position⟩ : String.Pos.Raw).IsValid text then
    .ok (text.sliceFrom ⟨⟨position⟩, boundary⟩).copy.toList
  else .error .badSlice

/-- A text can be cut behind any part it begins with. -/
theorem sliceFrom_append (before after : String) :
    sliceFrom (before ++ after) before.utf8ByteSize = .ok after.toList := by
  have boundary : (⟨before.utf8ByteSize⟩ : String.Pos.Raw).IsValid (before ++ after) :=
    String.Pos.Raw.isValid_iff_exists_append.mpr ⟨before, after, rfl, rfl⟩
  have splits : String.Pos.Splits ⟨_, boundary⟩ before after := ⟨rfl, rfl⟩
  rw [sliceFrom, dif_pos boundary, (String.Pos.splits _).eq_right splits]

-- the letter takes two bytes
example : sliceFrom "é" 1 = .error .badSlice := by rfl

/-- A scanner that keeps its whole input. It is done once it has found a NUL. -/
structure ByteScanner where
  input : String
  position : Nat
  held : Option Token
  done : Bool

namespace ByteScanner

/-- A scanner at the beginning of a pattern. -/
def ofPattern (pattern : String) : ByteScanner := ⟨pattern, 0, none, false⟩

/-- Step over the next character, if there is one. -/
def bump (scanner : ByteScanner) : Except Fault (Option Char × ByteScanner) :=
  if scanner.done then .ok (none, scanner)
  else do
    match ← sliceFrom scanner.input scanner.position with
    | [] => return (none, scanner)
    | c :: _ => return (some c, { scanner with position := scanner.position + c.utf8Size })

/-- End the input at a position where a NUL was found. -/
def stop (scanner : ByteScanner) (position : Nat) : ByteScanner :=
  { scanner with position := position, done := true }

/-- Read what follows a backslash that stands at `start`. -/
def escape (scanner : ByteScanner) (start : Nat) : Except Fault (Token × ByteScanner) := do
  match ← scanner.bump with
  | (none, after) => return (⟨.literal, '\\', ⟨start, after.position⟩⟩, after)
  | (some c, after) =>
    if c = '\x00' then
      let stopped := after.stop (start + 1)
      return (⟨.literal, '\\', ⟨start, stopped.position⟩⟩, stopped)
    else if (Kind.ofPunctuation? c).isSome then
      return (⟨.literal, c, ⟨start, after.position⟩⟩, after)
    else if c = 'n' then return (⟨.literal, '\n', ⟨start, after.position⟩⟩, after)
    else return (⟨.escape, c, ⟨start, after.position⟩⟩, after)

/-- Deliver the token that was handed back, or else read one. -/
def next (scanner : ByteScanner) : Except Fault (Token × ByteScanner) :=
  match scanner.held with
  | some token => .ok (token, { scanner with held := none })
  | none => do
    let start := scanner.position
    match ← scanner.bump with
    | (none, after) => return (.endOfInput after.position, after)
    | (some c, after) =>
      if c = '\x00' then
        let stopped := after.stop start
        return (.endOfInput stopped.position, stopped)
      else if c = '\\' then after.escape start
      else
        return (⟨(Kind.ofPunctuation? c).getD .literal, c, ⟨start, after.position⟩⟩, after)

/-- Hand a token back. -/
def pushback (scanner : ByteScanner) (token : Token) : Except Fault ByteScanner :=
  if scanner.held.isSome then .error .slotTaken
  else .ok { scanner with held := some token }

/-- The characters that are left to be read, which begin at the position, unless the
scanner is done. -/
def Ahead (scanner : ByteScanner) (text : List Char) : Prop :=
  if scanner.done then text = []
  else ∃ before : String, scanner.input = before ++ .ofList text ∧
    scanner.position = before.utf8ByteSize

/-- No character is stepped over where none is left. -/
theorem bump_of_nil {scanner : ByteScanner} (ahead : scanner.Ahead []) :
    scanner.bump = .ok (none, scanner) := by
  rw [bump]
  by_cases done : scanner.done
  · rw [if_pos done]
  · simp only [Ahead, if_neg done] at ahead
    obtain ⟨before, split, position⟩ := ahead
    rw [if_neg done, split, position, sliceFrom_append, ok_bind, String.toList_ofList]
    rfl

/-- The first character that is left is stepped over. -/
theorem bump_of_cons {scanner : ByteScanner} {c : Char} {rest : List Char}
    (ahead : scanner.Ahead (c :: rest)) :
    ∃ after : ByteScanner, scanner.bump = .ok (some c, after) ∧ after.Ahead rest ∧
      after.position = scanner.position + c.utf8Size ∧ after.held = scanner.held := by
  have running : ¬ scanner.done := by
    intro done
    simp [Ahead, done] at ahead
  simp only [Ahead, if_neg running] at ahead
  obtain ⟨before, split, position⟩ := ahead
  refine ⟨{ scanner with position := scanner.position + c.utf8Size }, ?_, ?_, rfl, rfl⟩
  · rw [bump, if_neg running, split, position, sliceFrom_append, ok_bind, String.toList_ofList]
    rfl
  · simp only [Ahead, if_neg running]
    refine ⟨before.push c, ?_, ?_⟩
    · rw [split]
      exact String.toList_inj.mp (by simp)
    · rw [position]
      simp

/-- A scanner that is done has nothing left to read. -/
theorem stop_ahead (scanner : ByteScanner) (position : Nat) :
    (scanner.stop position).Ahead [] := by
  simp [Ahead, stop]

/-- What is read behind a backslash is what the plain scanner reads, and the position
is where the token ends. -/
theorem escape_eq {scanner : ByteScanner} {start : Nat} {text : List Char}
    (ahead : scanner.Ahead text) (behind : scanner.position = start + 1) :
    ∃ after : ByteScanner, scanner.escape start = .ok ((scanEscape start text).1, after) ∧
      after.Ahead (scanEscape start text).2 ∧
      after.position = (scanEscape start text).1.span.stop ∧ after.held = scanner.held := by
  cases text with
  | nil =>
    refine ⟨scanner, ?_, ahead, behind, rfl⟩
    simp only [escape, bump_of_nil ahead, ok_bind, behind]
    rfl
  | cons c rest =>
    obtain ⟨after, bumped, left, position, held⟩ := bump_of_cons ahead
    rw [behind] at position
    simp only [escape, bumped, ok_bind, scanEscape]
    by_cases nul : c = '\x00'
    · simp only [if_pos nul]
      exact ⟨after.stop (start + 1), rfl, stop_ahead _ _, rfl, held⟩
    · simp only [if_neg nul, escapedToken, position]
      split
      · exact ⟨after, rfl, left, position, held⟩
      · split
        · exact ⟨after, rfl, left, position, held⟩
        · exact ⟨after, rfl, left, position, held⟩

/-- The scanner is where the plain scanner is: the same token waits, and what the
plain scanner has left begins at the position. -/
structure Follows (scanner : ByteScanner) (plain : Scanner) : Prop where
  held_eq : scanner.held = plain.held
  position_eq : scanner.position = plain.offset
  ahead : scanner.Ahead plain.rest

/-- At the beginning of a pattern both scanners have all of it left. -/
theorem ofPattern_follows (pattern : String) :
    (ofPattern pattern).Follows (Scanner.ofPattern pattern) := by
  refine ⟨rfl, rfl, ?_⟩
  simp only [Ahead, ofPattern, Scanner.ofPattern, Bool.false_eq_true, if_false]
  exact ⟨"", by simp, rfl⟩

/-- Both scanners deliver the same token and stay together. -/
theorem Follows.next {scanner : ByteScanner} {plain : Scanner} (follows : scanner.Follows plain) :
    ∃ after : ByteScanner, scanner.next = .ok (plain.next.1, after) ∧
      after.Follows plain.next.2 := by
  obtain ⟨held, position, ahead⟩ := follows
  cases slot : plain.held with
  | some token =>
    refine ⟨{ scanner with held := none }, ?_, ?_⟩
    · simp only [ByteScanner.next, Scanner.next, held, slot]
    · simp only [Scanner.next, slot]
      exact ⟨rfl, position, ahead⟩
  | none =>
    have free : scanner.held = none := held.trans slot
    simp only [ByteScanner.next, Scanner.next, slot, free]
    cases text : plain.rest with
    | nil =>
      rw [text] at ahead
      refine ⟨scanner, ?_, free, position, ahead⟩
      simp only [bump_of_nil ahead, ok_bind, position]
      rfl
    | cons c rest =>
      rw [text] at ahead
      obtain ⟨after, bumped, left, stepped, heldAfter⟩ := bump_of_cons ahead
      simp only [bumped, ok_bind, scan, ← position]
      by_cases nul : c = '\x00'
      · simp only [if_pos nul]
        exact ⟨after.stop scanner.position, rfl, heldAfter.trans free, rfl, stop_ahead _ _⟩
      · simp only [if_neg nul]
        by_cases backslash : c = '\\'
        · simp only [if_pos backslash]
          have one : after.position = scanner.position + 1 := by
            rw [stepped, backslash]
            rfl
          obtain ⟨final, read, leftFinal, stop, heldFinal⟩ := escape_eq left one
          exact ⟨final, read, heldFinal.trans (heldAfter.trans free), stop, leftFinal⟩
        · simp only [if_neg backslash, stepped]
          exact ⟨after, rfl, heldAfter.trans free, stepped, left⟩

/-- A token that the plain scanner takes back is taken back. -/
theorem Follows.pushback {scanner : ByteScanner} {plain back : Scanner}
    (follows : scanner.Follows plain) (token : Token) (taken : plain.pushback token = .ok back) :
    ∃ after : ByteScanner, scanner.pushback token = .ok after ∧ after.Follows back := by
  obtain ⟨held, position, ahead⟩ := follows
  cases slot : plain.held with
  | some other => simp [Scanner.pushback, slot] at taken
  | none =>
    simp only [Scanner.pushback, slot, Except.ok.injEq] at taken
    subst taken
    refine ⟨{ scanner with held := some token }, ?_, rfl, position, ahead⟩
    simp [ByteScanner.pushback, held, slot]

end ByteScanner

end RegexCompiler.Checked
