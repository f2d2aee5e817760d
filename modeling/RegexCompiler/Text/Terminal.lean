/-!
# What a terminal shows of a text

A terminal does not show control characters but obeys them, and an escape
character makes it obey what follows as well: a short sequence, a control sequence
with parameters, or a string that runs up to a terminator. Messages are cleared of
all this, so that a text they repeat can not act on the terminal.

Blanks (tab, line feed, form feed, carriage return) are shown although they are
control characters. A blank is shown even in the middle of a short sequence or a
control sequence, and begins a run: the characters after it are shown too, up to
the next control character, and the sequence goes on from there as if the run had
not been. A character beyond ASCII within the run abandons the sequence.
-/

namespace RegexCompiler.Text

/-- How far a terminal is into what it obeys. -/
inductive Terminal where
  /-- Nothing is being obeyed. -/
  | ground
  /-- An escape character has come. -/
  | escape
  /-- A short sequence has begun, and its last character is to come. -/
  | intermediate
  /-- A control sequence has begun, and its last character is to come. -/
  | controlSequence
  /-- A device control string has begun. -/
  | deviceEntry
  /-- The parameters of a device control string are being read. -/
  | deviceParameters
  /-- The parameters of a device control string are over. -/
  | deviceIntermediate
  /-- A string is being read up to its terminator. -/
  | controlString
  /-- A system command is being read up to its bell. -/
  | systemCommand
  deriving DecidableEq

/-- Whether a control character is a blank. -/
def isBlank (c : Char) : Bool :=
  c = '\t' || c = '\n' || c = '\x0C' || c = '\r'

/-- Whether the byte `0x9C`, the string terminator, occurs in the encoding of a
character. Only bytes after the first can have this value. -/
def holdsTerminator (c : Char) : Bool :=
  let code := c.toNat
  (0x80 ≤ code && code % 64 = 0x1C) || (0x800 ≤ code && code / 64 % 64 = 0x1C) ||
    (0x10000 ≤ code && code / 4096 % 64 = 0x1C)

namespace Terminal

/-- What a control character that acts in every state leads to: cancel and
substitute abandon all that is being obeyed, escape begins anew. -/
def interrupt? (c : Char) : Option Terminal :=
  if c = '\x18' || c = '\x1A' then some .ground
  else if c = '\x1B' then some .escape
  else none

/-- Whether a character is shown. -/
def shows (state : Terminal) (c : Char) : Bool :=
  match state with
  | .ground => isBlank c || (' ' ≤ c && c ≠ '\x7F')
  | .escape | .intermediate | .controlSequence => isBlank c
  | _ => false

/-- Where a character leads that interrupts nothing. A character with no part in
what is being obeyed changes nothing. -/
def proceed (state : Terminal) (c : Char) : Terminal :=
  match state with
  | .ground => .ground
  | .escape =>
    if ' ' ≤ c && c ≤ '/' then .intermediate
    else if c = '[' then .controlSequence
    else if c = ']' then .systemCommand
    else if c = 'P' then .deviceEntry
    else if c = 'X' || c = '^' || c = '_' then .controlString
    else if '0' ≤ c && c ≤ '~' then .ground
    else .escape
  | .intermediate => if '0' ≤ c && c ≤ '~' then .ground else .intermediate
  | .controlSequence => if '@' ≤ c && c ≤ '~' then .ground else .controlSequence
  | .deviceEntry =>
    if ' ' ≤ c && c ≤ '/' then .deviceIntermediate
    else if '0' ≤ c && c ≤ '?' then .deviceParameters
    else if '@' ≤ c && c ≤ '~' then .controlString
    else .deviceEntry
  | .deviceParameters =>
    if ' ' ≤ c && c ≤ '/' then .deviceIntermediate
    else if '<' ≤ c && c ≤ '~' then .controlString
    else .deviceParameters
  | .deviceIntermediate => if '0' ≤ c && c ≤ '~' then .controlString else .deviceIntermediate
  | .controlString => if holdsTerminator c then .ground else .controlString
  | .systemCommand => if c = '\x07' then .ground else .systemCommand

/-- The state after a character that is obeyed. -/
def after (state : Terminal) (c : Char) : Terminal :=
  (interrupt? c).getD (state.proceed c)

/-- The state after a character that comes during a run. What the run broke into
is left as it is. -/
def during (state : Terminal) (c : Char) : Terminal :=
  (interrupt? c).getD (if c ≤ '\x7F' then state else .ground)

end Terminal

/-- Showing in progress: the state of the terminal, whether a run of shown
characters lasts, and the characters shown, latest first. -/
structure Showing where
  state : Terminal
  inRun : Bool
  shown : List Char

/-- Read one character. One that a run does not show ends the run and is obeyed. -/
def Showing.step (progress : Showing) (c : Char) : Showing :=
  let state := if progress.inRun then progress.state.during c else progress.state
  if progress.inRun && Terminal.ground.shows c then ⟨state, true, c :: progress.shown⟩
  else if state.shows c then ⟨state.after c, true, c :: progress.shown⟩
  else ⟨state.after c, false, progress.shown⟩

/-- What a terminal shows of a text, without all that it obeys. -/
def visible (text : String) : String :=
  String.ofList (text.toList.foldl Showing.step ⟨.ground, false, []⟩).shown.reverse

end RegexCompiler.Text
