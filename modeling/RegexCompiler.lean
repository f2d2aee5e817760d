import RegexCompiler.Dump
import RegexCompiler.Journal
import RegexCompiler.Main
import RegexCompiler.Proofs.Acceptance
import RegexCompiler.Proofs.Alternation
import RegexCompiler.Proofs.Backpatching
import RegexCompiler.Proofs.Checked.Pipeline
import RegexCompiler.Proofs.Composition
import RegexCompiler.Proofs.Decoding
import RegexCompiler.Proofs.Determinacy
import RegexCompiler.Proofs.Flattening
import RegexCompiler.Proofs.Labelling
import RegexCompiler.Proofs.Laziness
import RegexCompiler.Proofs.Lossless
import RegexCompiler.Proofs.Meaning
import RegexCompiler.Proofs.Nesting
import RegexCompiler.Proofs.Outlines
import RegexCompiler.Proofs.ProgramSize
import RegexCompiler.Proofs.Pushback
import RegexCompiler.Proofs.Reachability
import RegexCompiler.Proofs.Rejection
import RegexCompiler.Proofs.Relocation
import RegexCompiler.Proofs.Segmentation
import RegexCompiler.Proofs.SourceOrder
import RegexCompiler.Proofs.Termination
import RegexCompiler.Proofs.Truncation
import RegexCompiler.Proofs.Verbatim
import RegexCompiler.Proofs.Verdicts
import RegexCompiler.Proofs.Viability
