import RegexCompiler.Compiled
import RegexCompiler.Proofs.Labels
import RegexCompiler.Proofs.Relocation

/-!
# Reading a listing back

A listing writes characters as they are, so its line breaks do not tell where an
instruction ends. Its mnemonics do: a mnemonic says how many characters belong to the
instruction, and a line is read to its end before the next one is looked at. Between the
bounds of ranges a space announces another pair and a line feed the end, and neither is
asked of the bounds themselves.

What is read are the entries of the listing. A label stands for the number of lines
before it, which is the index of the instruction it precedes, since labels grow in
program order and none is given twice. The slots of a compiled program are as many as the
instructions that record one. With both, the entries determine the program.
-/

namespace RegexCompiler

/-! ### Reading entries -/

/-- Take a number off the front of a text. -/
def readNat (text : List Char) : Nat × List Char :=
  (Nat.ofDigitChars 10 (text.takeWhile Char.isDigit) 0, text.dropWhile Char.isDigit)

/-- Take pairs of bounds off a text, each bound after a space. -/
def readRanges : List Char → List CharRange × List Char
  | ' ' :: low :: ' ' :: high :: rest => ((low, high) :: (readRanges rest).1, (readRanges rest).2)
  | rest => ([], rest)

/-- Take the operands of a mnemonic off a text. The targets read are labels. -/
def readOperands (mnemonic : String) (text : List Char) : Option (Inst Nat × List Char) :=
  match mnemonic, text with
  | "match", rest => some (.accept, rest)
  | "char", ' ' :: c :: rest => some (.char c, rest)
  | "any", rest => some (.any, rest)
  | "range", rest => some (.oneOf (readRanges rest).1, (readRanges rest).2)
  | "nrange", rest => some (.noneOf (readRanges rest).1, (readRanges rest).2)
  | "save", ' ' :: rest => some (.save (readNat rest).1, (readNat rest).2)
  | "jump", ' ' :: 'L' :: rest => some (.jump (readNat rest).1, (readNat rest).2)
  | "split", ' ' :: 'L' :: rest =>
    match readNat rest with
    | (first, ' ' :: 'L' :: rest) => some (.split first (readNat rest).1, (readNat rest).2)
    | _ => none
  | _, _ => none

/-- Take an instruction off a text: a mnemonic of lower-case letters and its operands. -/
def readInst (text : List Char) : Option (Inst Nat × List Char) :=
  readOperands (.ofList (text.takeWhile Char.isLower)) (text.dropWhile Char.isLower)

/-- Take an entry off a text. -/
def readEntry : List Char → Option (Entry × List Char)
  | 'L' :: text =>
    match readNat text with
    | (number, ':' :: '\n' :: rest) => some (.label number, rest)
    | _ => none
  | ' ' :: ' ' :: ' ' :: ' ' :: text =>
    match readInst text with
    | some (inst, '\n' :: rest) => some (.line inst, rest)
    | _ => none
  | _ => none

/-- Read at most `fuel` entries, to the end of the text. -/
def readEntries : Nat → List Char → Option (List Entry)
  | _, [] => some []
  | 0, _ => none
  | fuel + 1, text =>
    (readEntry text).bind fun read => (readEntries fuel read.2).map (read.1 :: ·)

/-! ### Entries and their text -/

/-- Where a stretch of characters of one sort ends, it is taken off whole. -/
theorem span_append (sort : Char → Bool) (front rest : List Char)
    (all : ∀ c ∈ front, sort c = true) (stop : ∀ c ∈ rest.head?, sort c = false) :
    (front ++ rest).takeWhile sort = front ∧ (front ++ rest).dropWhile sort = rest := by
  rw [List.takeWhile_append_of_pos all, List.dropWhile_append_of_pos all]
  cases rest with
  | nil => simp
  | cons c others =>
    have other := stop c rfl
    simp [other]

/-- A number is read back where no digit follows it. -/
theorem readNat_toDigits (number : Nat) (rest : List Char)
    (stop : ∀ c ∈ rest.head?, c.isDigit = false) :
    readNat (Nat.toDigits 10 number ++ rest) = (number, rest) := by
  have digits : ∀ c ∈ Nat.toDigits 10 number, c.isDigit = true := fun c member =>
    Nat.isDigit_of_mem_toDigits (by decide) (by decide) member
  obtain ⟨taken, left⟩ := span_append Char.isDigit _ rest digits stop
  rw [readNat, taken, left, Nat.ofDigitChars_toDigits (by decide) (by decide)]

/-- Ranges are written as bounds in a row, each after a space. -/
theorem toList_rangesText (ranges : List CharRange) :
    (rangesText ranges).toList = ranges.flatMap fun range => [' ', range.1, ' ', range.2] := by
  have appended (text : String) :
      (ranges.foldl (fun text range => ((((text.push ' ').push range.1).push ' ').push range.2))
        text).toList = text.toList ++ ranges.flatMap fun range => [' ', range.1, ' ', range.2] := by
    induction ranges generalizing text with
    | nil => simp
    | cons range others inductionHypothesis => simp [inductionHypothesis]
  rw [rangesText, appended, String.toList_empty, List.nil_append]

/-- Ranges are read back up to the line feed after them, whatever their bounds are. -/
theorem readRanges_rangesText (ranges : List CharRange) (rest : List Char) :
    readRanges ((rangesText ranges).toList ++ '\n' :: rest) = (ranges, '\n' :: rest) := by
  rw [toList_rangesText]
  induction ranges with
  | nil => simp [readRanges]
  | cons range others inductionHypothesis => simp [readRanges, inductionHypothesis]

/-- The word an instruction begins with. -/
def Inst.mnemonic : Inst Nat → String
  | .accept => "match"
  | .char _ => "char"
  | .any => "any"
  | .oneOf _ => "range"
  | .noneOf _ => "nrange"
  | .save _ => "save"
  | .jump _ => "jump"
  | .split _ _ => "split"

/-- What is written behind the mnemonic of an instruction. -/
def Inst.operands : Inst Nat → List Char
  | .accept | .any => []
  | .char c => [' ', c]
  | .oneOf ranges | .noneOf ranges => (rangesText ranges).toList
  | .save slot => ' ' :: Nat.toDigits 10 slot
  | .jump target => ' ' :: 'L' :: Nat.toDigits 10 target
  | .split first second =>
    ' ' :: 'L' :: (Nat.toDigits 10 first ++ ' ' :: 'L' :: Nat.toDigits 10 second)

/-- An instruction is written as its mnemonic and its operands. -/
theorem toList_instText (inst : Inst Nat) :
    (instText inst).toList = inst.mnemonic.toList ++ inst.operands := by
  cases inst <;> simp [instText, Inst.mnemonic, Inst.operands, toString]

/-- A mnemonic is a word of lower-case letters. -/
theorem isLower_of_mem_mnemonic (inst : Inst Nat) :
    ∀ c ∈ inst.mnemonic.toList, c.isLower = true := by
  cases inst <;> simp [Inst.mnemonic]

/-- No letter follows a mnemonic. -/
theorem isLower_operands (inst : Inst Nat) (rest : List Char) :
    ∀ c ∈ (inst.operands ++ '\n' :: rest).head?, c.isLower = false := by
  have ranged (ranges : List CharRange) :
      ∀ c ∈ ((rangesText ranges).toList ++ '\n' :: rest).head?, c.isLower = false := by
    rw [toList_rangesText]
    cases ranges <;> simp
  cases inst with
  | oneOf ranges => exact ranged ranges
  | noneOf ranges => exact ranged ranges
  | accept | char | any | save | jump | split => simp [Inst.operands]

/-- The operands of an instruction are read back up to the line feed after them. -/
theorem readOperands_operands (inst : Inst Nat) (rest : List Char) :
    readOperands inst.mnemonic (inst.operands ++ '\n' :: rest) = some (inst, '\n' :: rest) := by
  have number (value : Nat) : readNat (Nat.toDigits 10 value ++ '\n' :: rest) =
      (value, '\n' :: rest) := readNat_toDigits value _ (by simp)
  cases inst with
  | accept | char | any => rfl
  | oneOf ranges | noneOf ranges =>
    simp [readOperands, Inst.mnemonic, Inst.operands, readRanges_rangesText]
  | save slot => simp [readOperands, Inst.mnemonic, Inst.operands, number]
  | jump target => simp [readOperands, Inst.mnemonic, Inst.operands, number]
  | split first second =>
    have leading := readNat_toDigits first
      (' ' :: 'L' :: (Nat.toDigits 10 second ++ '\n' :: rest)) (by simp)
    simp [readOperands, Inst.mnemonic, Inst.operands, number, leading]

/-- An instruction is read back up to the line feed after it. -/
theorem readInst_instText (inst : Inst Nat) (rest : List Char) :
    readInst ((instText inst).toList ++ '\n' :: rest) = some (inst, '\n' :: rest) := by
  obtain ⟨taken, left⟩ := span_append Char.isLower inst.mnemonic.toList
    (inst.operands ++ '\n' :: rest) (isLower_of_mem_mnemonic inst) (isLower_operands inst rest)
  rw [toList_instText, List.append_assoc, readInst, taken, left, String.ofList_toList,
    readOperands_operands]

/-- An entry is read back, whatever is behind it. -/
theorem readEntry_text (entry : Entry) (rest : List Char) :
    readEntry (entry.text.toList ++ rest) = some (entry, rest) := by
  cases entry with
  | label number =>
    have read := readNat_toDigits number (':' :: '\n' :: rest) (by simp)
    simp [Entry.text, toString, readEntry, read]
  | line inst =>
    have read := readInst_instText inst rest
    simp [Entry.text, readEntry, read]

/-- The text of an entry is not empty. -/
theorem text_ne_empty (entry : Entry) : entry.text ≠ "" := by
  cases entry <;> simp [Entry.text]

/-- There are no more entries than characters in their texts. -/
theorem length_le_texts (entries : List Entry) :
    entries.length ≤ (entries.flatMap fun entry => entry.text.toList).length := by
  induction entries with
  | nil => exact Nat.le_refl 0
  | cons entry others inductionHypothesis =>
    have filled : 0 < entry.text.toList.length := by
      simpa [Nat.pos_iff_ne_zero] using text_ne_empty entry
    rw [List.flatMap_cons, List.length_append, List.length_cons]
    omega

/-- Entries are read back from their texts in a row, if there is fuel for each. -/
theorem readEntries_texts (entries : List Entry) (fuel : Nat) (enough : entries.length ≤ fuel) :
    readEntries fuel (entries.flatMap fun entry => entry.text.toList) = some entries := by
  induction entries generalizing fuel with
  | nil => cases fuel <;> rfl
  | cons entry others inductionHypothesis =>
    cases fuel with
    | zero => simp at enough
    | succ fuel =>
      rw [List.length_cons] at enough
      rw [List.flatMap_cons]
      have filled : entry.text.toList ++ others.flatMap (fun entry => entry.text.toList) ≠ [] := by
        simp [text_ne_empty]
      rw [readEntries, readEntry_text]
      · simp [inductionHypothesis fuel (by omega)]
      · exact filled

/-- A listing is the texts of its entries in a row. -/
theorem Program.toList_listing (program : Program) :
    program.listing.toList = program.entries.flatMap fun entry => entry.text.toList := by
  have appended (entries : List Entry) (text : String) :
      (entries.foldl (fun text entry => text ++ entry.text) text).toList =
        text.toList ++ entries.flatMap fun entry => entry.text.toList := by
    induction entries generalizing text with
    | nil => simp
    | cons entry others inductionHypothesis => simp [inductionHypothesis]
  rw [listing, appended, String.toList_empty, List.nil_append]

/-! ### From entries to a program -/

/-- The instruction of an entry, if it is a line. -/
def Entry.inst? : Entry → Option (Inst Nat)
  | .label _ => none
  | .line inst => some inst

/-- The instructions of entries in order, with labels as targets. -/
def entryInsts (entries : List Entry) : List (Inst Nat) := entries.filterMap Entry.inst?

/-- The index of a labelled instruction: the number of lines before its label. -/
def labelIndex (entries : List Entry) (number : Nat) : Nat :=
  (entryInsts (entries.takeWhile (· ≠ .label number))).length

/-- Whether an instruction records the text position. -/
def Inst.isSave {τ : Type} : Inst τ → Bool
  | .save _ => true
  | _ => false

/-- The program listed by some entries. It has a slot for every instruction that records
one. -/
def Program.ofEntries (entries : List Entry) : Program :=
  let insts := entryInsts entries
  ⟨(insts.map (Inst.mapTargets (labelIndex entries))).toArray, insts.countP Inst.isSave⟩

/-- The program of a listing, unless the text is none. -/
def Program.ofListing? (text : String) : Option Program :=
  (readEntries text.length text.toList).map Program.ofEntries

/-- Whether an instruction records a position does not depend on targets. -/
@[simp]
theorem Inst.isSave_mapTargets {τ υ : Type} (f : τ → υ) (inst : Inst τ) :
    (inst.mapTargets f).isSave = inst.isSave := by
  cases inst <;> rfl

/-- Entries of instructions, each with its index. -/
def placedEntries (labels : Array (Option Nat)) (placed : List (Inst Nat × Nat)) : List Entry :=
  placed.flatMap fun placed => instEntries labels placed.2 placed.1

/-- Each instruction has one line among its entries. -/
theorem entryInsts_placedEntries (labels : Array (Option Nat)) (placed : List (Inst Nat × Nat)) :
    entryInsts (placedEntries labels placed) =
      (placed.map Prod.fst).map (Inst.mapTargets (labelOf labels)) := by
  have line (index : Nat) (inst : Inst Nat) :
      entryInsts (instEntries labels index inst) = [inst.mapTargets (labelOf labels)] := by
    rw [instEntries]
    cases labels[index]?.getD none <;> rfl
  induction placed with
  | nil => rfl
  | cons first others inductionHypothesis =>
    rw [placedEntries, entryInsts] at inductionHypothesis ⊢
    rw [List.flatMap_cons, List.filterMap_append, inductionHypothesis, List.map_cons,
      List.map_cons]
    exact congrArg (· ++ _) (line first.2 first.1)

/-- A label among the entries of an instruction is its own. -/
theorem label_mem_instEntries (labels : Array (Option Nat)) (index number : Nat)
    (inst : Inst Nat) :
    .label number ∈ instEntries labels index inst ↔ labels[index]? = some (some number) := by
  rw [instEntries]
  cases given : labels[index]? with
  | none => simp
  | some label =>
    cases label with
    | none => simp
    | some other => simp [eq_comm]

/-- The entries before an instruction have smaller labels than its own. -/
theorem Program.label_fresh (program : Program) {index number : Nat}
    (labelled : program.labels[index]? = some (some number)) :
    .label number ∉ placedEntries program.labels (program.insts.toList.zipIdx.take index) := by
  intro member
  obtain ⟨⟨inst, earlier⟩, placed, among⟩ := List.mem_flatMap.mp member
  obtain ⟨position, below, found⟩ := List.mem_take_iff_getElem.mp placed
  have before : earlier < index := by
    simp only [List.getElem_zipIdx, Prod.mk.injEq] at found
    omega
  have given := (label_mem_instEntries _ _ _ _).mp among
  exact Nat.lt_irrefl _ (program.labels_increase before given labelled)

/-- The label of an instruction stands right behind the entries before it. -/
theorem Program.entries_split (program : Program) {index number : Nat} {inst : Inst Nat}
    (labelled : program.labels[index]? = some (some number))
    (fetched : program.insts[index]? = some inst) :
    ∃ others, program.entries =
      placedEntries program.labels (program.insts.toList.zipIdx.take index) ++
        .label number :: others := by
  have inside : index < program.insts.toList.zipIdx.length := by
    simpa using (Array.getElem?_eq_some_iff.mp fetched).1
  have next : program.insts.toList.zipIdx.drop index =
      (inst, index) :: program.insts.toList.zipIdx.drop (index + 1) := by
    rw [List.drop_eq_getElem_cons inside, List.getElem_zipIdx]
    simp [(Array.getElem?_eq_some_iff.mp fetched).2]
  have own : instEntries program.labels index inst =
      [.label number, .line (inst.mapTargets (labelOf program.labels))] := by
    simp [instEntries, labelled]
  refine ⟨.line (inst.mapTargets (labelOf program.labels)) ::
    placedEntries program.labels (program.insts.toList.zipIdx.drop (index + 1)), ?_⟩
  calc program.entries
      = placedEntries program.labels (program.insts.toList.zipIdx.take index ++
          program.insts.toList.zipIdx.drop index) := by
        rw [List.take_append_drop]
        rfl
    _ = _ := by
        rw [next, placedEntries, List.flatMap_append, List.flatMap_cons, own]
        rfl

/-- A label leads back to the instruction it was given to. The lines before it are those
of the instructions before its own. -/
theorem Program.labelIndex_entries (program : Program) {index number : Nat} {inst : Inst Nat}
    (labelled : program.labels[index]? = some (some number))
    (fetched : program.insts[index]? = some inst) :
    labelIndex program.entries number = index := by
  have inside : index < program.insts.size := (Array.getElem?_eq_some_iff.mp fetched).1
  have fresh : ∀ entry ∈ placedEntries program.labels (program.insts.toList.zipIdx.take index),
      decide (entry ≠ .label number) = true := by
    intro entry member
    rw [decide_eq_true_iff]
    rintro rfl
    exact program.label_fresh labelled member
  obtain ⟨others, split⟩ := program.entries_split labelled fetched
  rw [labelIndex, split, List.takeWhile_append_of_pos fresh, List.takeWhile_cons_of_neg (by simp),
    List.append_nil, entryInsts_placedEntries, List.length_map, List.length_map, List.length_take]
  simp only [List.length_zipIdx, Array.length_toList]
  omega

/-- Where all branches lead to instructions of the program and there is a slot for every
instruction that records one, the entries determine the program. -/
theorem Program.ofEntries_entries (program : Program)
    (inside : ∀ target ∈ program.targets, target < program.size)
    (slots : program.insts.toList.countP Inst.isSave = program.slots) :
    Program.ofEntries program.entries = program := by
  have lines : entryInsts program.entries =
      program.insts.toList.map (Inst.mapTargets (labelOf program.labels)) := by
    have placed := entryInsts_placedEntries program.labels program.insts.toList.zipIdx
    rwa [List.zipIdx_map_fst] at placed
  have restored : ∀ inst ∈ program.insts.toList,
      (inst.mapTargets (labelOf program.labels)).mapTargets (labelIndex program.entries) =
        inst := by
    intro inst member
    refine inst.mapTargets_mapTargets_eq_self _ _ ?_
    intro target targeted
    -- a target has a label because it is one, so none is read as the number zero
    have among : target ∈ program.targets := List.mem_flatMap.mpr ⟨inst, member, targeted⟩
    obtain ⟨number, labelled⟩ := program.exists_label (inside target among) among
    have label : labelOf program.labels target = number + 1 := by simp [labelOf, labelled]
    rw [label]
    exact program.labelIndex_entries labelled
      (Array.getElem?_eq_getElem (inside target among))
  have insts : (entryInsts program.entries).map (Inst.mapTargets (labelIndex program.entries)) =
      program.insts.toList := by
    rw [lines, List.map_map]
    exact (List.map_congr_left restored).trans (List.map_id _)
  have saves : (entryInsts program.entries).countP Inst.isSave = program.slots := by
    rw [lines, List.countP_map, ← slots]
    exact List.countP_congr fun inst _ => by simp
  simp only [Program.ofEntries, insts, saves, Array.toArray_toList]

/-! ### Compiled programs -/

/-- Among the instructions of a repetition, those that record a position are in the
body. -/
theorem Quantifier.countP_layout (quantifier : Quantifier) (body : Block) :
    (quantifier.layout body).countP Inst.isSave = body.countP Inst.isSave := by
  have split (first second : Int) : (quantifier.split first second).isSave = false := by
    rcases quantifier.split_cases first second with same | same <;> rw [same] <;> rfl
  have jump (distance : Int) : (Inst.jump distance).isSave = false := rfl
  rw [Quantifier.layout]
  cases quantifier.repetition <;> simp [List.countP_append, split, jump]

/-- Among the instructions of an alternation, those that record a position are in its
alternatives. -/
theorem countP_alternateLayout (branch later : Block) :
    (alternateLayout branch later).countP Inst.isSave =
      branch.countP Inst.isSave + later.countP Inst.isSave := by
  simp [alternateLayout, Inst.isSave]

mutual

/-- A regex records two positions for every group. -/
theorem Regex.countP_layout (regex : Regex) (slots : Nat) :
    (regex.layout slots).countP Inst.isSave = 2 * regex.groups := by
  cases regex with
  | single sequence => exact sequence.countP_layout slots
  | alternate sequence pipe rest =>
    rw [Regex.layout, countP_alternateLayout, sequence.countP_layout, rest.countP_layout,
      Regex.groups, Nat.mul_add]

/-- A sequence records two positions for every group. -/
theorem Sequence.countP_layout (sequence : Sequence) (slots : Nat) :
    (sequence.layout slots).countP Inst.isSave = 2 * sequence.groups := by
  cases sequence with
  | empty => rfl
  | last expr => exact expr.countP_layout slots
  | link expr tail =>
    rw [Sequence.layout, List.countP_append, expr.countP_layout, tail.countP_layout,
      Sequence.groups, Nat.mul_add]

/-- An expression records two positions for every group. -/
theorem Expr.countP_layout (expr : Expr) (slots : Nat) :
    (expr.layout slots).countP Inst.isSave = 2 * expr.groups := by
  cases expr with
  | mk term quantifier =>
    cases quantifier with
    | none => exact term.countP_layout slots
    | some quantifier =>
      rw [Expr.layout, quantifier.countP_layout, term.countP_layout, Expr.groups]

/-- A term records two positions for every group. -/
theorem Term.countP_layout (term : Term) (slots : Nat) :
    (term.layout slots).countP Inst.isSave = 2 * term.groups := by
  cases term with
  | atom token =>
    rw [Term.layout, atomInst]
    cases token.kind <;> rfl
  | group opening regex closing =>
    simp [Term.layout, Term.groups, List.countP_cons, regex.countP_layout, Inst.isSave,
      Nat.mul_add]
  | charClass opening negation members closing => cases negation <;> rfl

end

/-- Resolving a block keeps which instructions record a position. -/
theorem Block.countP_resolved (start : Nat) (block : Block) :
    (Block.resolved start block).countP Inst.isSave = block.countP Inst.isSave := by
  induction block generalizing start with
  | nil => rfl
  | cons inst others inductionHypothesis =>
    have placed : Block.resolved start [inst] = [inst.placedAt start] := rfl
    have kept : (inst.placedAt start).isSave = inst.isSave := inst.isSave_mapTargets _
    rw [← List.singleton_append, Block.resolved_append, List.countP_append, List.countP_append,
      inductionHypothesis, placed, List.countP_singleton, List.countP_singleton, kept]

/-- The program of a tree has a slot for every instruction that records one. -/
theorem Regex.countP_program (regex : Regex) :
    regex.program.insts.toList.countP Inst.isSave = regex.program.slots := by
  rw [regex.program_eq, Fragment.resolve_ofBlock, List.countP_append, Block.countP_resolved,
    regex.countP_layout]
  rfl

/-- The listing of the program of a tree is read back. -/
theorem Regex.ofListing?_listing (regex : Regex) :
    Program.ofListing? regex.program.listing = some regex.program := by
  have short : regex.program.entries.length ≤ regex.program.listing.length := by
    rw [← String.length_toList, Program.toList_listing]
    exact length_le_texts _
  rw [Program.ofListing?, Program.toList_listing, readEntries_texts _ _ short, Option.map_some,
    Program.ofEntries_entries _ regex.program_wellFormed.targets_lt regex.countP_program]

/-- The program of an accepted pattern is that of a tree. -/
theorem exists_tree_of_compile {pattern : String} {program : Program}
    (compiled : compile pattern = .ok program) : ∃ tree : Regex, program = tree.program := by
  rw [compile, Compiled.ofPattern] at compiled
  cases parsed : parse pattern with
  | error error => simp [parsed, Except.map] at compiled
  | ok tree =>
    refine ⟨tree, ?_⟩
    simpa [parsed, Except.map, eq_comm] using compiled

/-- A listing determines its program. The program of every accepted pattern is read back
from its listing, so accepted patterns have the same listing if and only if they have the
same program. -/
theorem listing_determines_program :
    (∀ pattern program, compile pattern = .ok program →
      Program.ofListing? program.listing = some program) ∧
    ∀ left right leftProgram rightProgram, compile left = .ok leftProgram →
      compile right = .ok rightProgram →
      (leftProgram.listing = rightProgram.listing ↔ leftProgram = rightProgram) := by
  have decoded (pattern : String) (program : Program) (compiled : compile pattern = .ok program) :
      Program.ofListing? program.listing = some program := by
    obtain ⟨tree, rfl⟩ := exists_tree_of_compile compiled
    exact tree.ofListing?_listing
  refine ⟨decoded, ?_⟩
  intro left right leftProgram rightProgram leftCompiled rightCompiled
  constructor
  · intro same
    have read := decoded left leftProgram leftCompiled
    rw [same, decoded right rightProgram rightCompiled] at read
    exact (Option.some.inj read).symm
  · intro same
    rw [same]

/-- Spaces and line feeds as characters of a pattern. -/
theorem listing_determines_program_blank : ∃ program, compile "(\n|[ -\n])" = .ok program ∧
    program.listing = "    save 0\n    split L1 L2\nL1:\n    char \n\n    jump L3\n" ++
      "L2:\n    range   \n\nL3:\n    save 1\n    match\n" ∧
    Program.ofListing? program.listing = some program := by
  obtain ⟨program, compiled⟩ : ∃ program, compile "(\n|[ -\n])" = .ok program := ⟨_, rfl⟩
  refine ⟨program, compiled, ?_, listing_determines_program.1 _ program compiled⟩
  cases compiled
  decide

end RegexCompiler
