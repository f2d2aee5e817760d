import RegexCompiler.Compiled
import RegexCompiler.Text.Lines
import RegexCompiler.Text.Terminal
import RegexCompiler.Text.Utf8

/-!
# The command line

The command takes one pattern and two flags: `-t` or `--tree` shows the outline
before the listing, `-h` or `--help` shows how to use it. Arguments are bytes,
because a shell may pass any.

They are read from left to right, and the first that is out of place, or asks for
help, decides. An argument that begins with two hyphens is a long flag, up to a
`=` that would attach a value; one that begins with a single hyphen is a cluster
of one-letter flags. A hyphen alone, and everything after an argument of just two
hyphens, is positional. There is room for one positional argument, the pattern.
It must be well-formed text, which is checked at the next flag or at the end.
-/

namespace RegexCompiler.CommandLine

/-- The bytes of one argument. -/
abbrev Argument := List UInt8

/-- The flags of the command. -/
inductive Flag where
  | tree
  | help
  deriving DecidableEq

/-- The flag with a given long name. -/
def Flag.ofName? (name : String) : Option Flag :=
  if name = "tree" then some .tree else if name = "help" then some .help else none

/-- The flag with a given letter. -/
def Flag.ofLetter? (letter : Char) : Option Flag :=
  if letter = 't' then some .tree else if letter = 'h' then some .help else none

/-- How a flag is shown in messages. -/
def Flag.text : Flag → String
  | .tree => "--tree"
  | .help => "--help"

/-- What can be wrong with the arguments. -/
inductive UsageError where
  | unexpectedArgument (argument : String)
  | unexpectedValue (value : String) (flag : Flag)
  | repeatedFlag (flag : Flag)
  | illFormedPattern
  | missingPattern
  deriving DecidableEq

/-- The message of a usage error. It repeats an argument only as far as a terminal
shows it. -/
def UsageError.message : UsageError → String
  | .unexpectedArgument argument =>
    let shown := Text.visible argument
    s!"unexpected argument '{shown}' found"
  | .unexpectedValue value flag =>
    let shown := Text.visible value
    s!"unexpected value '{shown}' for '{flag.text}' found; no more were expected"
  | .repeatedFlag flag => s!"the argument '{flag.text}' cannot be used multiple times"
  | .illFormedPattern => "invalid UTF-8 was detected in one or more arguments"
  | .missingPattern => "the following required arguments were not provided:"

/-- What the arguments ask for. -/
inductive Request where
  | help
  | compile (pattern : String) (showTree : Bool)
  deriving DecidableEq

/-- The arguments read so far: the pattern, whether the tree is to be shown, and
whether all arguments to come are positional. -/
structure Reading where
  pattern : Option Argument
  showTree : Bool
  positionalOnly : Bool

/-- Why the remaining arguments are not looked at. -/
inductive Stop where
  | help
  | misuse (error : UsageError)
  deriving DecidableEq

/-- The pattern read so far must be well-formed, if there is one. -/
def Reading.patternText (reading : Reading) : Except Stop (Option String) :=
  match reading.pattern with
  | none => .ok none
  | some bytes =>
    match Text.readUtf8? bytes with
    | some text => .ok (some text)
    | none => .error (.misuse .illFormedPattern)

/-- Take account of a flag. -/
def Reading.flag (reading : Reading) (flag : Flag) : Except Stop Reading :=
  match reading.patternText with
  | .error stop => .error stop
  | .ok _ =>
    match flag with
    | .help => .error .help
    | .tree =>
      if reading.showTree then .error (.misuse (.repeatedFlag .tree))
      else .ok { reading with showTree := true }

/-- Take account of a long flag, given without its hyphens. -/
def Reading.longFlag (reading : Reading) (body : Argument) : Except Stop Reading :=
  let name := body.takeWhile (· ≠ '='.toUInt8)
  let attached := body.dropWhile (· ≠ '='.toUInt8)
  match (Text.readUtf8? name).bind Flag.ofName? with
  | none => .error (.misuse (.unexpectedArgument ("--" ++ Text.readUtf8Lenient name)))
  | some flag =>
    match attached with
    | [] => reading.flag flag
    | _ :: value => .error (.misuse (.unexpectedValue (Text.readUtf8Lenient value) flag))

/-- Take account of one-letter flags in a row. Letters are read up to the first
unknown one; an ill-formed sequence is shown with all that follows it. -/
def Reading.letters (reading : Reading) : List (Option Char) → Except Stop Reading
  | [] => .ok reading
  | none :: rest =>
    .error (.misuse (.unexpectedArgument ("-" ++ Text.lenient (none :: rest))))
  | some letter :: rest =>
    match Flag.ofLetter? letter with
    | none => .error (.misuse (.unexpectedArgument ("-".push letter)))
    | some flag =>
      match reading.flag flag with
      | .error stop => .error stop
      | .ok reading => reading.letters rest

/-- Take account of a positional argument. -/
def Reading.positional (reading : Reading) (argument : Argument) : Except Stop Reading :=
  match reading.pattern with
  | none => .ok { reading with pattern := some argument }
  | some _ => .error (.misuse (.unexpectedArgument (Text.readUtf8Lenient argument)))

/-- Take account of one argument. -/
def Reading.argument (reading : Reading) (argument : Argument) : Except Stop Reading :=
  if reading.positionalOnly then reading.positional argument
  else
    match argument with
    | 0x2D :: 0x2D :: [] => .ok { reading with positionalOnly := true }
    | 0x2D :: 0x2D :: body => reading.longFlag body
    | 0x2D :: byte :: rest => reading.letters (Text.decodeUtf8 (byte :: rest))
    | _ => reading.positional argument

/-- Take account of the arguments in order. -/
def Reading.arguments (reading : Reading) : List Argument → Except Stop Reading
  | [] => .ok reading
  | argument :: later =>
    match reading.argument argument with
    | .error stop => .error stop
    | .ok reading => reading.arguments later

/-- What a list of arguments asks for. -/
def request (arguments : List Argument) : Except UsageError Request :=
  let read : Except Stop Request := do
    let reading ← Reading.arguments ⟨none, false, false⟩ arguments
    match ← reading.patternText with
    | some pattern => pure (.compile pattern reading.showTree)
    | none => throw (.misuse .missingPattern)
  match read with
  | .ok request => .ok request
  | .error .help => .ok .help
  | .error (.misuse error) => .error error

/-- The text shown when help is asked for. -/
def helpText : String :=
  "Compile a regular expression and print its VM program\n\n" ++
    "Usage: revis [OPTIONS] <PATTERN>\n\n" ++
    "Arguments:\n  <PATTERN>  Regular expression to compile\n\n" ++
    "Options:\n" ++
    "  -t, --tree  Print the concrete syntax tree before the program\n" ++
    "  -h, --help  Print help\n"

/-- How a run of the command ends. -/
inductive Outcome where
  | printed (text : String)
  | refused (pattern : String) (error : SyntaxError)
  | misused (error : UsageError)

namespace Outcome

/-- The exit code: zero if text was printed, one if the pattern was refused, two
if the arguments were wrong. -/
def exitCode : Outcome → Nat
  | .printed _ => 0
  | .refused _ _ => 1
  | .misused _ => 2

/-- What goes to standard output. -/
def output : Outcome → String
  | .printed text => text
  | .refused _ _ => ""
  | .misused _ => ""

/-- What goes to standard error. A usage error is the first line of its message,
without the end of the line. -/
def diagnostic : Outcome → String
  | .printed _ => ""
  | .refused pattern error =>
    "error: can not compile " ++ Text.quoteString pattern ++ ": " ++ error.message ++ "\n"
  | .misused error => (Text.lines ("error: " ++ error.message)).headD ""

end Outcome

/-- Compile a pattern and show its listing, with the outline before it on demand. -/
def compileAndShow (pattern : String) (showTree : Bool) : Outcome :=
  match Compiled.ofPattern pattern with
  | .error error => .refused pattern error
  | .ok compiled =>
    .printed ((if showTree then compiled.outlineText ++ "\n" else "") ++ compiled.listing)

/-- Run the command. -/
def run (arguments : List Argument) : Outcome :=
  match request arguments with
  | .error error => .misused error
  | .ok .help => .printed helpText
  | .ok (.compile pattern showTree) => compileAndShow pattern showTree

end RegexCompiler.CommandLine
