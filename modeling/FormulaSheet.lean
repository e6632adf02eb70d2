import FormulaSheet.Proofs.Grammar.Acceptance
import FormulaSheet.Proofs.Precedence.Sweep
import FormulaSheet.Proofs.Termination
import FormulaSheet.Proofs.Validation
import FormulaSheet.Proofs.Grammar.Drafting
import FormulaSheet.Proofs.Faults
import FormulaSheet.Proofs.Mishaps
import FormulaSheet.Proofs.Running
import FormulaSheet.Proofs.Internal
import FormulaSheet.Proofs.Simulation
import FormulaSheet.Proofs.Loosening
import FormulaSheet.Proofs.Lexing.Reading
import FormulaSheet.Proofs.Lexing.Spelling
import FormulaSheet.Proofs.Lexing.Expression
import FormulaSheet.Proofs.Lexing.Names
import FormulaSheet.Proofs.Lexing.Writing
import FormulaSheet.Proofs.Grammar.Lines
import FormulaSheet.Proofs.Grammar.Walk
import FormulaSheet.Proofs.Context.Building
import FormulaSheet.Proofs.Context.Lines
import FormulaSheet.Proofs.Context.Kindred
import FormulaSheet.Proofs.Context.Checking
import FormulaSheet.Proofs.Context.Running
import FormulaSheet.Proofs.Context.Calls
import FormulaSheet.Proofs.Context.Extension
import FormulaSheet.Proofs.Context.Meaning
import FormulaSheet.Proofs.Context.Separating
import FormulaSheet.Proofs.Context.Moving
import FormulaSheet.Proofs.Lexing.Lossless
import FormulaSheet.Proofs.Places.Tracking
import FormulaSheet.Proofs.Places.Building
import FormulaSheet.Proofs.Places.Evaluation
import FormulaSheet.Proofs.Places.Reporting
import FormulaSheet.Proofs.Places.Pointing
import FormulaSheet.Proofs.Session.Sequence
import FormulaSheet.Proofs.Agreement
import FormulaSheet.Proofs.Session.Rereading
import FormulaSheet.Proofs.Unbound
import FormulaSheet.Proofs.Finite.Numbers
import FormulaSheet.Proofs.Finite.Reading
import FormulaSheet.Proofs.Finite.Evaluation
import FormulaSheet.Proofs.Finite.Running
import FormulaSheet.Proofs.Substitution
import FormulaSheet.Proofs.Lexing.Terms
import FormulaSheet.Proofs.Context.Values
import FormulaSheet.Proofs.Session.Terms
import FormulaSheet.Proofs.Session.Queries
import FormulaSheet.Proofs.Places.Parts
import FormulaSheet.Proofs.Lexing.Calls
import FormulaSheet.Proofs.Signs
import FormulaSheet.Proofs.Plots
import FormulaSheet.Proofs.Notation.Building
import FormulaSheet.Proofs.History
import FormulaSheet.Proofs.Session.Passing
import FormulaSheet.Proofs.Session.Frame
import FormulaSheet.Proofs.Session.Brackets
import FormulaSheet.Proofs.Lexing.Failing
import FormulaSheet.Proofs.Lexing.Spacing
import FormulaSheet.Proofs.Lexing.Respacing
import FormulaSheet.Proofs.Places.Marking
import FormulaSheet.Proofs.Session.Storing
