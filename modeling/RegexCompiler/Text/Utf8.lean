/-!
# Reading UTF-8

Bytes are read one at a time. A lead byte fixes how many bytes must follow and,
for the first of them, which values it may have: the narrowed ranges exclude
overlong forms, surrogates and values beyond the last code point. A sequence
that breaks off is reported once, where it breaks, and the byte that broke it is
read again as the start of a sequence of its own.

Decoding therefore yields one entry a character, with `none` for each ill-formed
sequence. Strict reading refuses any such entry; lenient reading puts the
replacement character in its place.
-/

namespace RegexCompiler.Text

/-- A character of which at least one byte is still to come. The next byte must
lie between `low` and `high`, later ones between `0x80` and `0xBF`. -/
structure OpenSequence where
  owed : Nat
  low : Nat
  high : Nat
  value : Nat

/-- What the first byte of a sequence amounts to. -/
inductive Lead where
  | whole (c : Char)
  | opened (state : OpenSequence)
  | illFormed

/-- Classify a byte that begins a sequence. -/
def Lead.ofByte (byte : Nat) : Lead :=
  if byte < 0x80 then .whole (Char.ofNat byte)
  else if byte < 0xC2 then .illFormed
  else if byte < 0xE0 then .opened ⟨1, 0x80, 0xBF, byte - 0xC0⟩
  else if byte = 0xE0 then .opened ⟨2, 0xA0, 0xBF, 0⟩
  else if byte = 0xED then .opened ⟨2, 0x80, 0x9F, 0xD⟩
  else if byte < 0xF0 then .opened ⟨2, 0x80, 0xBF, byte - 0xE0⟩
  else if byte = 0xF0 then .opened ⟨3, 0x90, 0xBF, 0⟩
  else if byte < 0xF4 then .opened ⟨3, 0x80, 0xBF, byte - 0xF0⟩
  else if byte = 0xF4 then .opened ⟨3, 0x80, 0x8F, 4⟩
  else .illFormed

/-- Decoding in progress: the entries found so far, latest first, and the
sequence that is still open. -/
structure Decoding where
  found : List (Option Char)
  pending : Option OpenSequence

/-- Read a byte with no sequence open. -/
def Decoding.begin (found : List (Option Char)) (byte : Nat) : Decoding :=
  match Lead.ofByte byte with
  | .whole c => ⟨some c :: found, none⟩
  | .opened state => ⟨found, some state⟩
  | .illFormed => ⟨none :: found, none⟩

/-- Read one byte. -/
def Decoding.step (state : Decoding) (byte : Nat) : Decoding :=
  match state.pending with
  | none => .begin state.found byte
  | some sequence =>
    if sequence.low ≤ byte ∧ byte ≤ sequence.high then
      let value := sequence.value * 64 + (byte - 0x80)
      if sequence.owed ≤ 1 then ⟨some (Char.ofNat value) :: state.found, none⟩
      else ⟨state.found, some ⟨sequence.owed - 1, 0x80, 0xBF, value⟩⟩
    else .begin (none :: state.found) byte

/-- The entries of a finished decoding, in order. A sequence that is still open
is ill-formed. -/
def Decoding.finish (state : Decoding) : List (Option Char) :=
  match state.pending with
  | none => state.found.reverse
  | some _ => (none :: state.found).reverse

/-- The characters of a byte string, with `none` for each ill-formed sequence. -/
def decodeUtf8 (bytes : List UInt8) : List (Option Char) :=
  (bytes.foldl (fun (state : Decoding) byte => state.step byte.toNat) ⟨[], none⟩).finish

/-- The text of well-formed bytes. -/
def readUtf8? (bytes : List UInt8) : Option String :=
  let entries := decodeUtf8 bytes
  if entries.all Option.isSome then some (String.ofList (entries.filterMap id)) else none

/-- The text of decoded entries, with U+FFFD in place of each ill-formed one. -/
def lenient (entries : List (Option Char)) : String :=
  String.ofList (entries.map (·.getD '\uFFFD'))

/-- The text of any bytes, with U+FFFD in place of each ill-formed sequence. -/
def readUtf8Lenient (bytes : List UInt8) : String := lenient (decodeUtf8 bytes)

end RegexCompiler.Text
